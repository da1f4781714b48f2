import Umtp.Effects.Events

namespace Umtp

open Lib Lib.Prog Handles

-- What a part of the daemon does beyond its ordinary commands. `inner` are the
-- commands made under the identity of a storage.
structure Role where
  commands : Cmd → Prop
  inner : Nat → Cmd → Prop
  adds : Prop
  opens : Prop
  makes : Prop
  closes : Prop
  switches : Prop
  receives : Prop
  sees : Prop

-- The part of a role that runs under the identity of a storage.
def Role.inside (role : Role) (storageId : Nat) : Role where
  commands c := role.commands c ∨ role.inner storageId c
  inner _ _ := False
  adds := role.adds
  opens := False
  makes := False
  closes := False
  switches := False
  receives := False
  sees := False

-- A part that runs under the identity of a storage, if that can be taken.
def withStorageIds {α : Type} (storageId : Nat) (fail : α) (body : M α) : M α := do
  let value ← if ← setStorageGiduid storageId then body else pure fail
  restoreGiduid
  return value

-- The part of `createFile` that makes the file. True when it could be opened.
def makeFile (storageId : Nat) (path : CString) : M Bool := do
  let file ← withStorageIds storageId (-1) (M.act (.open storageId path .createTruncate))
  if file = -1 then
    return false
  else
    M.act (.close file)
    return true

-- Commands that change no file, no entry others can tell and no state that is
-- kept from one request to the next.
@[grind =] def Action.isOrdinary : Action → Bool
  | malloc | entryMemory | lseekSet _ _ | lseekEnd _ | read _ _ | inotifyAddWatch _
  | inotifyRmWatch _ | lockInotifyMutex | unlockInotifyMutex => true
  | _ => false

@[grind =] def Handles.DbOp.isOrdinary : DbOp → Bool
  | .setSize _ _ | .setWatchDescriptor _ _ | .initSearchHandle _ _ | .getNextChildHandle => true
  | _ => false

@[grind =] def Cmd.isOrdinary : Cmd → Bool
  | db op => op.isOrdinary
  | setWrbuffer _ | setReadFileBuffer _ | setInotifyFileInfo _ | query _ => true
  | act a => a.isOrdinary
  | _ => false

-- The context with other bytes in the read buffers.
def MtpCtx.withBuffers (ctx : MtpCtx) (buffer buffer2 : Buffer) : MtpCtx :=
  { ctx with rdbuffer := buffer, rdbuffer2 := buffer2 }

theorem MtpCtx.usbRdBufferMaxSize_withBuffers (ctx : MtpCtx) (buffer buffer2 : Buffer) :
    (ctx.withBuffers buffer buffer2).usbRdBufferMaxSize = ctx.usbRdBufferMaxSize := rfl

theorem MtpCtx.entry_withBuffers (ctx : MtpCtx) (buffer buffer2 : Buffer) :
    (ctx.withBuffers buffer buffer2).entry = ctx.entry := rfl

theorem MtpCtx.checkHandleAccess_withBuffers (ctx : MtpCtx) (buffer buffer2 : Buffer) :
    (ctx.withBuffers buffer buffer2).checkHandleAccess = ctx.checkHandleAccess := rfl

-- What follows does not look at the bytes of the read buffers.
def Blind {α : Type} (f : MtpCtx → M α) : Prop :=
  ∀ ctx buffer buffer2, f (ctx.withBuffers buffer buffer2) = f ctx

-- Programs put together from ordinary commands and the parts of a role.
inductive Made : Role → {α : Type} → M α → Prop where
  | ret {role : Role} {α : Type} (value : α) : Made role (.ret value : M α)
  | bind {role : Role} {α β : Type} {p : M α} {f : α → M β} (first : Made role p)
      (rest : ∀ value, Made role (f value)) : Made role (p.bind f)
  | getCtx {role : Role} {α : Type} {f : MtpCtx → M α} (blind : Blind f)
    (rest : ∀ ctx, Made role (f ctx)) :
      Made role (M.getCtx.bind f)
  | look {role : Role} {α : Type} {f : MtpCtx → M α} (h : role.sees)
    (rest : ∀ ctx, Made role (f ctx)) :
      Made role (M.getCtx.bind f)
  | ordinary {role : Role} (c : Cmd) (hc : c.isOrdinary = true) : Made role (M.cmd c)
  | command {role : Role} (c : Cmd) (hc : role.commands c) : Made role (M.cmd c)
  | send {role : Role} (channel : Endpoint) (bytes : List UInt8) : Made role
    (writeUsb channel bytes)
  | addEntry {role : Role} (h : role.adds) (fileinfo : FileFoundInfo) (parent storageId : Nat) :
      Made role (addEntry fileinfo parent storageId)
  | entryOpen {role : Role} (h : role.opens) (p : EntryPtr) (flags : OpenFlags) : Made role
    (entryOpen p flags)
  | entryClose {role : Role} (h : role.closes) (entry : Option EntryPtr) : Made role
    (entryClose entry)
  | makeFile {role : Role} (h : role.makes) (storageId : Nat) (path : CString) :
      Made role (makeFile storageId path)
  | bracket {role : Role} {α : Type} (h : role.switches) (storageId : Nat) (fail : α) {body : M α}
      (inner : Made (role.inside storageId) body) : Made role (withStorageIds storageId fail body)
  | restore {role : Role} (h : role.switches) : Made role restoreGiduid
  | receive {role : Role} (h : role.receives) (bytes : List UInt8) :
      Made role (M.getCtx.bind fun ctx => M.cmd (.setRdbuffer2 (ctx.rdbuffer2.write 0 bytes)))

variable {role : Role} {α β : Type} {p : EntryPtr}

theorem made_pure (value : α) : Made role (pure value : M α) := .ret value

theorem made_bind {prog : M α} {f : α → M β} (first : Made role prog)
    (rest : ∀ value, Made role (f value)) : Made role (prog >>= f) := .bind first rest

theorem made_getCtx {f : MtpCtx → M α} (blind : Blind f) (rest : ∀ ctx, Made role (f ctx)) :
    Made role (M.getCtx >>= f) := .getCtx blind rest

theorem made_act (a : Action) (ha : a.isOrdinary = true ∨ role.commands (.act a)) :
    Made role (M.act a) :=
  ha.elim (.ordinary (.act a)) (.command (.act a))

theorem made_act_ (a : Action) (ha : a.isOrdinary = true ∨ role.commands (.act a)) :
    Made role (M.act_ a) :=
  .bind (made_act a ha) fun _ => .ret ()

theorem made_query (q : Query) : Made role (M.query q) := .ordinary (.query q) rfl

theorem made_db (op : DbOp) (hop : op.isOrdinary = true ∨ role.commands (.db op)) :
    Made role (M.db op) :=
  hop.elim (.ordinary (.db op)) (.command (.db op))

theorem made_db_ (op : DbOp) (hop : op.isOrdinary = true ∨ role.commands (.db op)) :
    Made role (M.db_ op) :=
  .bind (made_db op hop) fun _ => .ret ()

theorem made_cmd (c : Cmd) (hc : c.isOrdinary = true ∨ role.commands c) : Made role (M.cmd c) :=
  hc.elim (.ordinary c) (.command c)

theorem made_flagDeleted (site : Site) (p : EntryPtr)
    (h : role.commands (.flagDeleted site p)) : Made role (M.flagDeleted site p) :=
  .command (.flagDeleted site p) h

-- A part under the identity of a storage, and what follows it.
theorem made_bracket_bind {storageId : Nat} {fail : α} {body : M α} {f : α → M β}
    (h : role.switches) (inner : Made (role.inside storageId) body)
    (rest : ∀ value, Made role (f value)) :
    Made role (setStorageGiduid storageId >>= fun set =>
      if set = true then (body >>= fun value => restoreGiduid >>= fun _ => f value)
      else (pure fail >>= fun value => restoreGiduid >>= fun _ => f value)) := by
  have heq : (withStorageIds storageId fail body).bind f =
    (setStorageGiduid storageId >>= fun set =>
      if set = true then (body >>= fun value => restoreGiduid >>= fun _ => f value)
      else (pure fail >>= fun value => restoreGiduid >>= fun _ => f value)) := by
    rw [withStorageIds, bind_eq, Prog.bind_assoc, bind_eq]
    refine congrArg (setStorageGiduid storageId).bind (funext fun set => ?_)
    cases set with
    | false => simp [Prog.bind_assoc]
    | true => simp [Prog.bind_assoc]
  exact heq ▸ .bind (.bracket h storageId fail inner) rest

attribute [grind ←] made_pure made_bind made_act made_act_ made_query made_db made_db_ made_cmd
  made_flagDeleted Made.send Made.addEntry Made.entryOpen Made.entryClose Made.makeFile Made.restore

theorem made_resolveNewObject (rootPath fullPath name : CString) :
    Made role (resolveNewObject rootPath fullPath name) := by
  unfold resolveNewObject
  grind

attribute [grind ←] made_resolveNewObject

theorem climb_withBuffers (ctx : MtpCtx) (buffer buffer2 : Buffer) (fuel : Nat) (p : EntryPtr) :
    (ctx.withBuffers buffer buffer2).climb fuel p = ctx.climb fuel p := by
  induction fuel generalizing p with
  | zero => rfl
  | succ fuel ih =>
      simp only [MtpCtx.climb, ih]
      rfl

theorem relativePath_withBuffers (ctx : MtpCtx) (buffer buffer2 : Buffer) (p : EntryPtr)
    (name : CString) :
    (ctx.withBuffers buffer buffer2).relativePath p name = ctx.relativePath p name := by
  simp only [MtpCtx.relativePath, climb_withBuffers]
  rfl

theorem made_buildFullPathNamed (rootPath : Option CString) (p : EntryPtr) (name : CString) :
    Made role (buildFullPathNamed rootPath p name) := by
  unfold buildFullPathNamed
  refine made_getCtx (fun _ _ _ => by rw [relativePath_withBuffers]) fun ctx => ?_
  grind

attribute [grind ←] made_buildFullPathNamed

theorem made_entryPath (p : EntryPtr) : Made role (entryPath p) :=
  made_getCtx (fun _ _ _ => rfl) fun _ => made_getCtx (fun _ _ _ => rfl) fun _ =>
    made_buildFullPathNamed _ _ _

attribute [grind ←] made_entryPath

theorem made_entryRead (p : EntryPtr) (offset : Int) (size : Nat) :
    Made role (entryRead p offset size) := by
  unfold entryRead
  refine made_getCtx (fun _ _ _ => rfl) fun ctx => ?_
  grind

theorem made_addwatch (path : CString) : Made role (inotifyHandlerAddwatch path) := by
  unfold inotifyHandlerAddwatch
  refine made_getCtx (fun _ _ _ => rfl) fun ctx => ?_
  grind

theorem made_rmwatch (wd : Int) : Made role (inotifyHandlerRmwatch wd) := by
  unfold inotifyHandlerRmwatch
  refine made_getCtx (fun _ _ _ => rfl) fun ctx => ?_
  grind

attribute [grind ←] made_entryRead made_addwatch made_rmwatch

theorem made_dropWatch (p : EntryPtr) : Made role (dropWatch p) := by
  unfold dropWatch
  refine made_getCtx (fun _ _ _ => rfl) fun ctx => ?_
  grind

theorem made_checkAndSendUsbZlp (size : Int) : Made role (checkAndSendUsbZlp size) := by
  unfold checkAndSendUsbZlp
  refine made_getCtx (fun _ _ _ => rfl) fun ctx => ?_
  grind

attribute [grind ←] made_dropWatch made_checkAndSendUsbZlp

-- mtp_datasets.c and mtp_properties.c

theorem made_dateString (time : Int) : Made role (dateString time) := by
  unfold dateString
  grind

theorem made_buildStorageinfoDataset (buffer : Buffer) (maxsize : Int) (storageId : Nat) :
    Made role (buildStorageinfoDataset buffer maxsize storageId) := by
  unfold buildStorageinfoDataset
  refine made_getCtx (fun _ _ _ => rfl) fun ctx => ?_
  grind

theorem made_statEntry (p : EntryPtr) : Made role (statEntry p) := by
  unfold statEntry
  grind

attribute [grind ←] made_dateString made_buildStorageinfoDataset made_statEntry

theorem made_buildObjectinfoDataset (buffer : Buffer) (maxsize : Int) (p : EntryPtr) :
    Made role (buildObjectinfoDataset buffer maxsize p) := by
  unfold buildObjectinfoDataset
  refine made_bind (made_statEntry p) fun stat => ?_
  split
  · refine made_bind (made_db_ _ (Or.inl rfl)) fun _ => made_bind (made_dateString _) fun _ =>
      made_bind (made_dateString _) fun _ => made_getCtx (fun _ _ _ => rfl) fun _ => made_pure _
  · exact made_pure _

theorem made_getBatteryLevel : Made role getBatteryLevel := by
  unfold getBatteryLevel
  refine made_getCtx (fun _ _ _ => rfl) fun ctx => ?_
  grind

attribute [grind ←] made_buildObjectinfoDataset made_getBatteryLevel

theorem made_buildDevicePropertiesDataset (buffer : Buffer) (maxsize : Int) (propertyId : Nat) :
    Made role (buildDevicePropertiesDataset buffer maxsize propertyId) := by
  unfold buildDevicePropertiesDataset
  refine made_getCtx (fun _ _ _ => rfl) fun ctx => ?_
  grind

theorem made_buildDevicePropValueDataset (buffer : Buffer) (maxsize : Int) (propCode : Nat) :
    Made role (buildDevicePropValueDataset buffer maxsize propCode) := by
  unfold buildDevicePropValueDataset
  refine made_getCtx (fun _ _ _ => rfl) fun ctx => ?_
  grind

theorem made_buildObjectproplistDataset (buffer : Buffer) (maxsize : Int) (p : EntryPtr)
    (handle propCode : Nat) :
    Made role (buildObjectproplistDataset buffer maxsize p handle propCode) := by
  unfold buildObjectproplistDataset
  refine made_bind (made_statEntry p) fun stat => ?_
  split
  · refine made_bind (made_db_ _ (Or.inl rfl)) fun _ => made_bind (made_dateString _) fun _ =>
      made_bind (made_dateString _) fun _ => made_getCtx (fun _ _ _ => rfl) fun _ => made_pure _
  · exact made_pure _

attribute [grind ←] made_buildDevicePropertiesDataset made_buildDevicePropValueDataset
  made_buildObjectproplistDataset

-- fs_handles_db.c and mtp_ops_helpers.c

theorem made_fsEntryStat (path : CString) (fileinfo : FileFoundInfo) :
    Made role (fsEntryStat path fileinfo) := by
  unfold fsEntryStat
  grind

attribute [grind ←] made_fsEntryStat

theorem made_addFolderEntries (h : role.adds) (base : CString) (parent storageId : Nat)
    (names : List CString) : Made role (addFolderEntries base parent storageId names) := by
  induction names with
  | nil => exact made_pure _
  | cons name names ih =>
      unfold addFolderEntries
      refine made_bind (made_act _ (Or.inl rfl)) fun memory => ?_
      dsimp only
      split
      all_goals
        refine made_bind (by grind) fun found => ?_
        split
        · refine made_getCtx (fun _ _ _ => rfl) fun ctx => ?_
          grind
        · exact ih

theorem made_refreshChild {p : EntryPtr} (h : role.commands (.flagDeleted .scanAndAddFolder p)) :
    Made role (refreshChild p) := by
  unfold refreshChild
  grind

theorem made_refreshChildren (h : ∀ p, role.commands (.flagDeleted .scanAndAddFolder p))
    (fuel : Nat) : Made role (refreshChildren fuel) := by
  induction fuel with
  | zero => exact made_pure _
  | succ fuel ih =>
      unfold refreshChildren
      refine made_bind (made_db _ (Or.inl rfl)) fun next => ?_
      split
      · exact made_bind (made_refreshChild (h _)) fun _ => ih
      · exact made_pure _

theorem made_childFuel : Made role childFuel :=
  made_getCtx (fun _ _ _ => rfl) fun _ => made_pure _

attribute [grind ←] made_addFolderEntries made_refreshChildren made_childFuel

theorem made_scanAndAddFolder (ha : role.adds)
    (hf : ∀ p, role.commands (.flagDeleted .scanAndAddFolder p)) (base : CString)
    (parent storageId : Nat) : Made role (scanAndAddFolder base parent storageId) := by
  have hrefresh := made_refreshChildren hf
  have hadd := made_addFolderEntries ha base parent storageId
  unfold scanAndAddFolder
  grind

-- The removal of files and of the entries of a folder.
structure Role.Removes (role : Role) : Prop where
  remove : ∀ storageId path, role.commands (.act (.remove storageId path))
  deleteDbTree : ∀ p, role.commands (.flagDeleted .deleteDbTree p)
  deleteTree : ∀ p, role.commands (.flagDeleted .deleteTree p)

theorem made_removeNames (h : role.Removes) {removeTree : CString → M Bool}
    (hr : ∀ path, Made role (removeTree path)) (storageId : Nat) (folder : CString)
    (names : List CString) : Made role (removeNames removeTree storageId folder names) := by
  induction names with
  | nil => exact made_pure _
  | cons name names ih =>
      have hremove := h.remove
      unfold removeNames
      grind

theorem made_fsRemoveTree (h : role.Removes) (storageId fuel : Nat) (folder : CString) :
    Made role (fsRemoveTree storageId fuel folder) := by
  induction fuel generalizing folder with
  | zero => exact made_pure _
  | succ fuel ih =>
      have hremove := h.remove
      have hnames := made_removeNames h ih storageId folder
      unfold fsRemoveTree
      grind

attribute [grind ←] made_fsRemoveTree

theorem made_removeChild (h : role.Removes) (p : EntryPtr) (isDir : Bool) :
    Made role (removeChild p isDir) := by
  have hremove := h.remove
  have hflag := h.deleteDbTree p
  unfold removeChild
  refine made_getCtx (fun _ _ _ => rfl) fun ctx => ?_
  grind

theorem made_deleteChildren (h : role.Removes) {deleteSubTree : EntryPtr → M Nat}
    (hd : ∀ p, Made role (deleteSubTree p)) (fuel fcnt : Nat) :
    Made role (deleteChildren deleteSubTree fuel fcnt) := by
  induction fuel generalizing fcnt with
  | zero => exact made_pure _
  | succ fuel ih =>
      have hchild := fun p isDir => @made_removeChild role h p isDir
      unfold deleteChildren
      refine made_bind (made_db _ (Or.inl rfl)) fun next => ?_
      split
      · refine made_getCtx (fun _ _ _ => rfl) fun ctx => ?_
        grind
      · exact made_pure _

theorem made_deleteDbTree (h : role.Removes) (levels : Nat) (p : EntryPtr) :
    Made role (deleteDbTree levels p) := by
  induction levels generalizing p with
  | zero =>
      unfold deleteDbTree
      refine made_getCtx (fun _ _ _ => rfl) fun ctx => made_bind (made_db_ _ (Or.inl rfl)) fun _ =>
        made_bind made_childFuel fun fuel => made_deleteChildren h (fun _ => made_pure _) _ _
  | succ levels ih =>
      unfold deleteDbTree
      refine made_getCtx (fun _ _ _ => rfl) fun ctx => made_bind (made_db_ _ (Or.inl rfl)) fun _ =>
        made_bind made_childFuel fun fuel => made_deleteChildren h ih _ _

attribute [grind ←] made_deleteDbTree

theorem made_deleteEntry (h : role.Removes) (p : EntryPtr) : Made role (deleteEntry p) := by
  have hflag := h.deleteTree p
  have hnext : ∀ removed : Bool, Made role (do
      if removed then
        M.flagDeleted .deleteTree p
        dropWatch p
      return removed) := by
    intro removed
    grind
  unfold deleteEntry
  refine made_getCtx (fun _ _ _ => rfl) fun ctx => made_bind (made_entryPath p) fun found => ?_
  split
  · dsimp only
    split
    · refine made_bind (made_deleteDbTree h _ _) fun cnt => ?_
      split
      · exact made_bind (made_fsRemoveTree h _ _ _) fun failed =>
          made_bind (made_pure _) fun removed => hnext _
      · exact made_bind (made_pure _) fun removed => hnext _
    · exact made_bind (made_act _ (Or.inr (h.remove _ _))) fun removed => hnext _
  · exact made_pure _

theorem made_deleteTree (h : role.Removes) (handle : Nat) : Made role (deleteTree handle) := by
  unfold deleteTree
  refine made_getCtx (fun _ _ _ => rfl) fun ctx => ?_
  split
  · exact made_deleteEntry h _
  · exact made_pure _

theorem made_deinitFsDb (h : role.closes) : Made role deinitFsDb := by
  unfold deinitFsDb
  refine made_getCtx (fun _ _ _ => rfl) fun ctx => made_bind ?_ fun _ => .entryClose h _
  generalize List.filter _ _ = watched
  induction watched with
  | nil => exact made_pure _
  | cons p watched ih => exact made_bind (made_rmwatch _) fun _ => ih

-- Commands that leave the context as it is.
def Cmd.LeavesCtx : Cmd → Prop
  | getCtx | query _ | act _ => True
  | _ => False

def AnyAnswer (c : Cmd) (_ : c.Ans) : Prop := True

abbrev Looks (prog : M α) : Prop :=
  Uses AnyAnswer Cmd.LeavesCtx prog

theorem looks_getCtx_bind {f : MtpCtx → M α} (hf : ∀ ctx, Looks (f ctx)) :
    Looks (M.getCtx >>= f) :=
  ⟨trivial, fun ctx _ => hf ctx⟩

theorem looks_act (a : Action) : Looks (M.act a) := ⟨trivial, fun _ _ => trivial⟩

theorem looks_act_ (a : Action) : Looks (M.act_ a) :=
  uses_bind (looks_act a) fun _ => uses_pure ()

theorem looks_query (q : Query) : Looks (M.query q) := ⟨trivial, fun _ _ => trivial⟩

attribute [grind ←] looks_getCtx_bind looks_act looks_act_ looks_query

theorem looks_buildFullPathNamed (rootPath : Option CString) (p : EntryPtr) (name : CString) :
    Looks (buildFullPathNamed rootPath p name) := by
  have hnew : ∀ root path, Looks (resolveNewObject root path name) := by
    intro root path
    unfold resolveNewObject
    grind
  unfold buildFullPathNamed
  grind

theorem looks_getObjectPropFilename (hdr : Buffer) : Looks (getObjectPropFilename hdr) := by
  unfold getObjectPropFilename
  grind

theorem looks_entryPath (p : EntryPtr) : Looks (entryPath p) :=
  looks_getCtx_bind fun _ => looks_getCtx_bind fun _ => looks_buildFullPathNamed _ _ _

theorem looks_setStorageGiduid (storageId : Nat) : Looks (setStorageGiduid storageId) := by
  unfold setStorageGiduid setGiduid
  grind

theorem looks_restoreGiduid : Looks restoreGiduid := by
  unfold restoreGiduid setGiduid
  grind

theorem looks_exec {σ : Type} {os : Os σ} {prog : M α} (hp : Looks prog) (w : World σ) :
    (exec (World.handle os) prog w).2.ctx = w.ctx := by
  induction prog generalizing w with
  | ret value => rfl
  | call command next ih =>
      have hnext := ih _ (hp.2 (World.handle os command w).1 trivial) (World.handle os command w).2
      have hkeep : (World.handle os command w).2.ctx = w.ctx := by
        cases command with
        | getCtx => rfl
        | query q => rfl
        | act a => rfl
        | _ => exact hp.1.elim
      exact hnext.trans hkeep

-- The path is one that `build_full_path` gives for the entry.
def PathOf {σ : Type} (os : Os σ) (ctx : MtpCtx) (p : EntryPtr) (path : CString) : Prop :=
  ∃ s, (exec (World.handle os) (entryPath p) ⟨ctx, s⟩).1 = some path

section Keeps

variable {ω : Type} {h : Handler Cmd Cmd.Ans ω} {ok : ω → Cmd → Prop} {I : ω → Prop} {prog : M α}

-- The commands of `writeUsb`.
def Cmd.isSending : Cmd → Bool
  | act .getCancelReq | act (.writeUsb _ _) => true
  | _ => false

-- An invariant that every part of a role keeps, with the commands it allows.
structure Role.Keeps (role : Role) (h : Handler Cmd Cmd.Ans ω) (ok : ω → Cmd → Prop)
    (I : ω → Prop) : Prop where
  look : ∀ w, I w → ok w .getCtx ∧ I (h .getCtx w).2
  command : ∀ c, c.isOrdinary = true ∨ c.isSending = true ∨ role.commands c → ∀ w, I w →
    ok w c ∧ I (h c w).2
  store : role.receives → ∀ buffer w, I w →
    ok w (.setRdbuffer2 buffer) ∧ I (h (.setRdbuffer2 buffer) w).2
  add : role.adds → ∀ fileinfo parent storageId,
    Valid h ok I (Umtp.addEntry fileinfo parent storageId) fun _ => I
  openFile : role.opens → ∀ p flags,
    Valid h ok I (Umtp.entryOpen p flags) fun _ => I
  closeFile : role.closes → ∀ entry,
    Valid h ok I (Umtp.entryClose entry) fun _ => I
  makeFile : role.makes → ∀ storageId path,
    Valid h ok I (Umtp.makeFile storageId path) fun _ => I
  bracket : role.switches → ∀ {α : Type} storageId (fail : α) {body : M α},
    Made (role.inside storageId) body →
      Valid h ok I (withStorageIds storageId fail body) fun _ => I
  restore : role.switches → Valid h ok I restoreGiduid fun _ => I

theorem valid_command {c : Cmd} (hc : ∀ w, I w → ok w c ∧ I (h c w).2) :
    Valid h ok I (M.cmd c) fun _ => I :=
  valid_perform (fun w hw => (hc w hw).1) fun w hw => (hc w hw).2

theorem Made.valid (hk : role.Keeps h ok I) (hm : Made role prog) :
    Valid h ok I prog fun _ => I := by
  induction hm with
  | ret value => exact valid_ret fun _ hw => hw
  | bind first rest ihp ihf => exact valid_bind (ihp hk) fun value => ihf value hk
  | getCtx blind rest ih => exact valid_bind (valid_command hk.look) fun ctx => ih ctx hk
  | look _ rest ih => exact valid_bind (valid_command hk.look) fun ctx => ih ctx hk
  | ordinary c hc => exact valid_command (hk.command c (Or.inl hc))
  | command c hc => exact valid_command (hk.command c (Or.inr (Or.inr hc)))
  | send channel bytes =>
      have hsend : ∀ c : Cmd, c.isSending = true → Valid h ok I (M.cmd c)
          fun _ => I := fun c hc => valid_command (hk.command c (Or.inr (Or.inl hc)))
      refine valid_bind (hsend (.act .getCancelReq) rfl) fun cancelReq => ?_
      split
      · exact valid_ret fun _ hw => hw
      · exact hsend (.act (.writeUsb channel bytes)) rfl
  | addEntry ha fileinfo parent storageId => exact hk.add ha fileinfo parent storageId
  | entryOpen ho p flags => exact hk.openFile ho p flags
  | entryClose hc entry => exact hk.closeFile hc entry
  | makeFile hm storageId path => exact hk.makeFile hm storageId path
  | bracket hs storageId fail inner _ => exact hk.bracket hs storageId fail inner
  | restore hs => exact hk.restore hs
  | receive hr bytes =>
      exact valid_bind (valid_command hk.look) fun ctx => valid_command (hk.store hr _)

-- The commands that the opening and closing of files and the change of the
-- identity are made of.
@[grind =] def Cmd.isPart : Cmd → Bool
  | db (.setFileDescriptor _ _) | act (.open _ _ _) | act (.close _) | act (.fsync _)
  | act (.setfsuid _) | act (.setfsgid _) => true
  | _ => false

-- The commands that change the identity.
@[grind =] def Cmd.isIdentity : Cmd → Bool
  | act (.setfsuid _) | act (.setfsgid _) => true
  | _ => false

theorem isPart_of_isIdentity {c : Cmd} (hc : c.isIdentity = true) : c.isPart = true := by
  cases c with
  | act a => cases a <;> simp_all [Cmd.isIdentity, Cmd.isPart]
  | _ => simp_all [Cmd.isIdentity]

def identityRole : Role where
  commands c := c.isIdentity = true
  inner _ _ := False
  adds := False
  opens := False
  makes := False
  closes := False
  switches := False
  receives := False
  sees := False

def partRole : Role where
  commands c := c.isPart = true
  inner _ _ := False
  adds := False
  opens := False
  makes := False
  closes := False
  switches := False
  receives := False
  sees := False

-- The changes of the identity in single commands.
theorem made_setGiduid_of (huid : ∀ uid, role.commands (.act (.setfsuid uid)))
    (hgid : ∀ gid, role.commands (.act (.setfsgid gid))) (uid gid : Int) :
    Made role (setGiduid uid gid) := by
  unfold setGiduid
  grind

theorem made_restoreGiduid_of (hset : ∀ uid gid, Made role (setGiduid uid gid)) :
    Made role restoreGiduid :=
  made_getCtx (fun _ _ _ => rfl) fun _ => made_bind (hset _ _) fun _ => made_pure _

theorem made_setStorageGiduid_of (hset : ∀ uid gid, Made role (setGiduid uid gid))
    (storageId : Nat) : Made role (setStorageGiduid storageId) := by
  unfold setStorageGiduid
  refine made_getCtx (fun _ _ _ => rfl) fun ctx => ?_
  split
  · exact hset _ _
  · exact made_pure _

-- A bracket in single commands.
theorem made_withStorageIds_of (hset : ∀ uid gid, Made role (setGiduid uid gid))
    (storageId : Nat) (fail : α) {body : M α} (hbody : Made role body) :
    Made role (withStorageIds storageId fail body) := by
  have hrestore : ∀ value : α, Made role (do
      restoreGiduid
      return value) := fun value =>
    made_bind (made_restoreGiduid_of hset) fun _ => made_pure _
  refine made_bind (made_setStorageGiduid_of hset storageId) fun set => ?_
  split
  · exact made_bind hbody hrestore
  · exact made_bind (made_pure _) hrestore

theorem made_makeFile_of (hset : ∀ uid gid, Made role (setGiduid uid gid))
    (hopen : ∀ storageId path flags, role.commands (.act (.open storageId path flags)))
    (hclose : ∀ file, role.commands (.act (.close file))) (storageId : Nat) (path : CString) :
    Made role (makeFile storageId path) := by
  have hmake := made_withStorageIds_of hset storageId (-1)
    (made_act (.open storageId path .createTruncate) (Or.inr (hopen _ _ _)))
  unfold makeFile
  grind

theorem made_entryOpen_of (hset : ∀ uid gid, Made role (setGiduid uid gid))
    (hopen : ∀ storageId path flags, role.commands (.act (.open storageId path flags)))
    (hfile : ∀ p file, role.commands (.db (.setFileDescriptor p file))) (p : EntryPtr)
    (flags : OpenFlags) : Made role (entryOpen p flags) := by
  have hswitch := made_setStorageGiduid_of hset
  have hrestore := made_restoreGiduid_of hset
  unfold entryOpen
  refine made_getCtx (fun _ _ _ => rfl) fun ctx => ?_
  split
  · exact made_pure _
  · have hnext : ∀ value : Unit, Made role (do
        let ctx ← M.getCtx
        return (ctx.entry p).fileDescriptor) :=
      fun _ => made_getCtx (fun _ _ _ => rfl) fun _ => made_pure _
    refine made_bind (made_entryPath p) fun found => ?_
    dsimp only
    split
    · grind
    · exact hnext ()

-- `entryClose` in single commands.
theorem made_entryClose_of (hfsync : ∀ file, role.commands (.act (.fsync file)))
    (hclose : ∀ file, role.commands (.act (.close file)))
    (hset : ∀ p, role.commands (.db (.setFileDescriptor p (-1)))) (entry : Option EntryPtr) :
    Made role (entryClose entry) := by
  unfold entryClose
  split
  · refine made_getCtx (fun _ _ _ => rfl) fun ctx => ?_
    grind
  · exact made_pure _

-- An invariant that the single commands keep, and the parts with files.
theorem Role.keeps_of_parts (hlook : ∀ w, I w → ok w .getCtx ∧ I (h .getCtx w).2)
    (hcommand : ∀ c, c.isOrdinary = true ∨ c.isSending = true ∨ c.isIdentity = true ∨
      role.commands c ∨ (∃ storageId, role.inner storageId c) → ∀ w, I w → ok w c ∧ I (h c w).2)
    (hstore : role.receives → ∀ buffer w, I w →
      ok w (.setRdbuffer2 buffer) ∧ I (h (.setRdbuffer2 buffer) w).2)
    (hadd : role.adds → ∀ fileinfo parent storageId,
      Valid h ok I (Umtp.addEntry fileinfo parent storageId) fun _ => I)
    (hopen : role.opens → ∀ p flags, Valid h ok I (Umtp.entryOpen p flags) fun _ => I)
    (hclose : role.closes → ∀ entry, Valid h ok I (Umtp.entryClose entry) fun _ => I)
    (hmake : role.makes → ∀ storageId path,
      Valid h ok I (Umtp.makeFile storageId path) fun _ => I) : role.Keeps h ok I := by
  have hsingle : ∀ role' : Role, (∀ c, role'.commands c → c.isIdentity = true ∨ role.commands c ∨
      ∃ storageId, role.inner storageId c) → (role'.adds → role.adds) → ¬ role'.opens →
      ¬ role'.makes → ¬ role'.closes → ¬ role'.switches → ¬ role'.receives →
      role'.Keeps h ok I := by
    intro role' hc ha ho hm hcl hs hr
    exact {
      look := hlook
      command := fun c hc' => hcommand c (by
        rcases hc' with hc' | hc' | hc'
        · exact Or.inl hc'
        · exact Or.inr (Or.inl hc')
        · exact Or.inr (Or.inr (hc c hc')))
      store := fun hn => absurd hn hr
      add := fun hn => hadd (ha hn)
      openFile := fun hn => absurd hn ho
      closeFile := fun hn => absurd hn hcl
      makeFile := fun hn => absurd hn hm
      bracket := fun hn => absurd hn hs
      restore := fun hn => absurd hn hs }
  have hidentity : (identityRole).Keeps h ok I :=
    hsingle _ (fun _ hc => Or.inl hc) (fun hn => hn.elim) id id id id id
  have hset := @made_setGiduid_of identityRole (fun _ => rfl) (fun _ => rfl)
  exact {
    look := hlook
    command := fun c hc => hcommand c (by
      rcases hc with hc | hc | hc
      · exact Or.inl hc
      · exact Or.inr (Or.inl hc)
      · exact Or.inr (Or.inr (Or.inr (Or.inl hc))))
    store := hstore
    add := hadd
    openFile := hopen
    closeFile := hclose
    makeFile := hmake
    bracket := by
      intro _ β storageId fail body inner
      have hinner : (role.inside storageId).Keeps h ok I :=
        hsingle _ (fun c hc => hc.elim (fun hc => Or.inr (Or.inl hc))
          fun hc => Or.inr (Or.inr ⟨storageId, hc⟩)) id id id id id id
      have hrestore : ∀ value : β, Valid h ok I (do
          restoreGiduid
          return value) fun _ => I := fun value =>
        valid_bind ((made_restoreGiduid_of hset).valid hidentity) fun _ =>
          valid_ret fun _ hw => hw
      refine valid_bind ((made_setStorageGiduid_of hset storageId).valid hidentity) fun set => ?_
      split
      · exact valid_bind (inner.valid hinner) hrestore
      · exact valid_bind (valid_ret fun _ hw => hw) hrestore
    restore := fun _ => (made_restoreGiduid_of hset).valid hidentity }

-- An invariant that the single commands keep, whatever part they belong to.
theorem Role.keeps_of_commands (hlook : ∀ w, I w → ok w .getCtx ∧ I (h .getCtx w).2)
    (hcommand : ∀ c, c.isOrdinary = true ∨ c.isSending = true ∨ c.isPart = true ∨
      role.commands c ∨ (∃ storageId, role.inner storageId c) → ∀ w, I w → ok w c ∧ I (h c w).2)
    (hstore : role.receives → ∀ buffer w, I w →
      ok w (.setRdbuffer2 buffer) ∧ I (h (.setRdbuffer2 buffer) w).2)
    (hadd : ∀ fileinfo parent storageId,
      Valid h ok I (Umtp.addEntry fileinfo parent storageId) fun _ => I) :
    role.Keeps h ok I := by
  have hpart : ∀ c : Cmd, c.isPart = true → ∀ w, I w → ok w c ∧ I (h c w).2 :=
    fun c hc => hcommand c (Or.inr (Or.inr (Or.inl hc)))
  have hkeeps : partRole.Keeps h ok I :=
    Role.keeps_of_parts hlook
      (fun c hc => by
        rcases hc with hc | hc | hc | hc | ⟨_, hc⟩
        · exact hcommand c (Or.inl hc)
        · exact hcommand c (Or.inr (Or.inl hc))
        · exact hpart c (isPart_of_isIdentity hc)
        · exact hpart c hc
        · exact hc.elim)
      (fun hn => hn.elim) (fun hn => hn.elim) (fun hn => hn.elim) (fun hn => hn.elim)
      (fun hn => hn.elim)
  have hset := @made_setGiduid_of partRole (fun _ => rfl) (fun _ => rfl)
  refine Role.keeps_of_parts hlook (fun c hc => ?_) hstore (fun _ => hadd)
    (fun _ p flags =>
      (made_entryOpen_of hset (fun _ _ _ => rfl) (fun _ _ => rfl) p flags).valid hkeeps)
    (fun _ entry => (made_entryClose_of (fun _ => rfl) (fun _ => rfl) (fun _ => rfl) entry).valid
      hkeeps)
    (fun _ storageId path =>
      (made_makeFile_of hset (fun _ _ _ => rfl) (fun _ => rfl) storageId path).valid hkeeps)
  rcases hc with hc | hc | hc | hc
  · exact hcommand c (Or.inl hc)
  · exact hcommand c (Or.inr (Or.inl hc))
  · exact hpart c (isPart_of_isIdentity hc)
  · exact hcommand c (Or.inr (Or.inr (Or.inr hc)))

-- A handler that gives a view of its state as the context.
theorem valid_getCtx_bind_of {view : ω → MtpCtx} {f : MtpCtx → M α} {Q : α → ω → Prop}
    (hview : ∀ w, h .getCtx w = (view w, w)) (hok : ∀ w, I w → ok w .getCtx)
    (hf : ∀ ctx, Valid h ok (fun w => I w ∧ view w = ctx) (f ctx) Q) :
    Valid h ok I (M.getCtx.bind f) Q := by
  intro w hw
  obtain ⟨hs, hq⟩ := hf (view w) w ⟨hw, rfl⟩
  have hexec : exec h M.getCtx w = (view w, w) := hview w
  refine ⟨(safe_bind _ _ _).mpr ⟨?_, ?_⟩, ?_⟩
  · simpa [Safe, M.getCtx] using hok w hw
  · rw [hexec]
    exact hs
  · rw [exec_bind, hexec]
    exact hq

theorem valid_getCtx_bind {σ : Type} {os : Os σ} {ok : World σ → Cmd → Prop}
    {I : World σ → Prop} {f : MtpCtx → M α} {Q : α → World σ → Prop}
    (hok : ∀ w, I w → ok w .getCtx)
    (hf : ∀ ctx, Valid (World.handle os) ok (fun w => I w ∧ w.ctx = ctx) (f ctx) Q) :
    Valid (World.handle os) ok I (M.getCtx.bind f) Q :=
  valid_getCtx_bind_of (fun _ => rfl) hok hf

end Keeps

end Umtp
