import Umtp.Effects.Requests

namespace Umtp

open Lib Lib.Prog Handles

variable {σ α β : Type} {os : Os σ} {fp : Footprint} {ctx ctx' ctx'' : MtpCtx} {p : EntryPtr}

-- What GetObjectHandles lists: the root entry of the storage, or the folder with
-- the parent handle.
def MtpCtx.listedFolder (ctx : MtpCtx) (hdr : Buffer) : Option EntryPtr :=
  if param hdr 2 = 0 ∨ param hdr 2 = NO_HANDLE then
    ctx.getEntryByHandleAndStorageid 0 (param hdr 0)
  else
    ctx.getEntryByHandle (param hdr 2)

-- The handle of the parent that SendObjectInfo names.
def newParent (hdr : Buffer) : Nat :=
  if param hdr 1 = NO_HANDLE then 0 else param hdr 1

-- The entries a request reads files of.
inductive MtpCtx.Reads (ctx : MtpCtx) (hdr : Buffer) (p : EntryPtr) : Prop
  | properties (code : hdrCode hdr = MTP_OPERATION_GET_OBJECT_INFO ∨
      hdrCode hdr = MTP_OPERATION_GET_OBJECT_PROP_LIST)
    (found : ctx.getEntryByHandle (param hdr 0) = some p)
  | content (code : hdrCode hdr = MTP_OPERATION_GET_OBJECT ∨
      hdrCode hdr = MTP_OPERATION_GET_PARTIAL_OBJECT ∨
      hdrCode hdr = MTP_OPERATION_GET_PARTIAL_OBJECT_64)
    (found : ctx.getEntryByHandle (param hdr 0) = some p)
    (granted : ctx.checkHandleAccess (some p) (param hdr 0) false = none)
  | folder (code : hdrCode hdr = MTP_OPERATION_GET_OBJECT_HANDLES)
    (found : ctx.listedFolder hdr = some p)

-- The entries it changes files of. The data phases know the object from the
-- requests before.
inductive MtpCtx.Writes (ctx : MtpCtx) (hdr : Buffer) (p : EntryPtr) : Prop
  | object (code : hdrCode hdr = MTP_OPERATION_DELETE_OBJECT ∨
      hdrCode hdr = MTP_OPERATION_TRUNCATE_OBJECT)
    (found : ctx.getEntryByHandle (param hdr 0) = some p)
    (granted : ctx.checkHandleAccess (some p) (param hdr 0) true = none)
  | content (code : hdrCode hdr = MTP_OPERATION_SEND_OBJECT ∨
      hdrCode hdr = MTP_OPERATION_SEND_PARTIAL_OBJECT)
    (data : hdrOperation hdr = MTP_CONTAINER_TYPE_DATA)
    (found : ctx.getEntryByHandle ctx.sendObjInfoHandle = some p)
    (granted : ctx.checkHandleAccess (some p) 0 true = none)
  | name (code : hdrCode hdr = MTP_OPERATION_SET_OBJECT_PROP_VALUE)
    (data : hdrOperation hdr = MTP_CONTAINER_TYPE_DATA)
    (found : ctx.getEntryByHandle ctx.setObjectPropValueHandle = some p)
    (granted : ctx.checkHandleAccess (some p) 0 true = none)
  | newObject (code : hdrCode hdr = MTP_OPERATION_SEND_OBJECT_INFO)
    (found : ctx.getEntryByHandleAndStorageid (newParent hdr) (param hdr 0) = some p)
    (isDir : (ctx.entry p).isDir = true)
    (known : ctx.mtpGetStorageFlags (param hdr 0) ≠ NO_STORAGE_FLAGS)
    (writable : hasFlag (ctx.mtpGetStorageFlags (param hdr 0)) UMTP_STORAGE_READONLY = false)

-- Everything a request does.
def requestFootprint (ctx : MtpCtx) (hdr : Buffer) : Footprint where
  path path :=
    (∃ p, (ctx.Reads hdr p ∨ ctx.Writes hdr p) ∧ ctx.rootOf p <+: path) ∨
      hdrCode hdr = MTP_OPERATION_GET_OBJECT_HANDLES ∧
        ∃ root, ctx.mtpGetStorageRoot (param hdr 0) = some root ∧ root <+: path
  changes storageId := ∃ p, ctx.Writes hdr p ∧ (ctx.entry p).storageId = storageId
  watches p := hdrCode hdr = MTP_OPERATION_GET_OBJECT_HANDLES ∧
    ctx.listedFolder hdr = some p ∧ (ctx.entry p).isDir = true
  renames _ := hdrCode hdr = MTP_OPERATION_SET_OBJECT_PROP_VALUE
  flags site _ :=
    hdrCode hdr = MTP_OPERATION_GET_OBJECT_HANDLES ∧ site = .scanAndAddFolder ∨
      hdrCode hdr = MTP_OPERATION_DELETE_OBJECT ∧ (site = .deleteDbTree ∨ site = .deleteTree)
  allocates parent storageId := storageId = param hdr 0 ∧
    (hdrCode hdr = MTP_OPERATION_GET_OBJECT_HANDLES ∧
      (parent = 0 ∨ parent = param hdr 2 ∧ ∃ p, ctx.getEntryByHandle parent = some p) ∨
    hdrCode hdr = MTP_OPERATION_SEND_OBJECT_INFO ∧ parent = newParent hdr ∧
      ∃ p, ctx.Writes hdr p)
  searches _ _ := True

section Request

variable {hdr : Buffer}

theorem below_of_reads (hr : ctx.Reads hdr p) : (requestFootprint ctx hdr).Below (ctx.rootOf p) :=
  fun rest => Or.inl ⟨p, Or.inl hr, List.prefix_append _ rest⟩

theorem below_of_writes (hw : ctx.Writes hdr p) :
    (requestFootprint ctx hdr).Below (ctx.rootOf p) :=
  fun rest => Or.inl ⟨p, Or.inr hw, List.prefix_append _ rest⟩

theorem checkHandleAccess_none {handle : Nat} {wraccess : Bool}
    (hfind : ctx.getEntryByHandle handle = some p) :
    ctx.checkHandleAccess none handle wraccess = ctx.checkHandleAccess (some p) handle
    wraccess := by
  simp [MtpCtx.checkHandleAccess, hfind]

theorem touches_of_found (ho : ctx.Ordered) {handle : Nat}
    (hfind : ctx.getEntryByHandle handle = some p) (hr : ctx.Reads hdr p) :
    Touches (requestFootprint ctx hdr) ctx p :=
  ⟨(ho.getEntryByHandle_live hfind).1.1, below_of_reads hr⟩

theorem alters_of_found (ho : ctx.Ordered) {handle : Nat}
    (hfind : ctx.getEntryByHandle handle = some p) (hw : ctx.Writes hdr p) :
    Alters (requestFootprint ctx hdr) ctx p :=
  ⟨⟨(ho.getEntryByHandle_live hfind).1.1, below_of_writes hw⟩, p, hw, rfl⟩

theorem lists_request (ho : ctx.Ordered)
    (hcode : hdrCode hdr = MTP_OPERATION_GET_OBJECT_HANDLES) :
    Lists (requestFootprint ctx hdr) ctx (param hdr 0) (param hdr 2) where
  flags _ := Or.inl ⟨hcode, rfl⟩
  searches _ _ := trivial
  below root hroot rest := Or.inr ⟨hcode, root, hroot, List.prefix_append _ rest⟩
  root hparent := by
    refine ⟨⟨rfl, Or.inl ⟨hcode, Or.inl rfl⟩⟩, fun p hfind hdir => ⟨hcode, ?_, hdir⟩⟩
    rw [MtpCtx.listedFolder, if_pos hparent]
    exact hfind
  folder hparent p hfind := by
    have hlisted : ctx.listedFolder hdr = some p := by
      rw [MtpCtx.listedFolder, if_neg (by omega)]
      exact hfind
    exact ⟨touches_of_found ho hfind (.folder hcode hlisted),
      ⟨rfl, Or.inl ⟨hcode, Or.inr ⟨rfl, p, hfind⟩⟩⟩, fun hdir => ⟨hcode, hlisted, hdir⟩⟩

theorem accepts_request (hcode : hdrCode hdr = MTP_OPERATION_SEND_OBJECT_INFO) :
    Accepts (requestFootprint ctx hdr) ctx (param hdr 0) (newParent hdr) := by
  intro folder hfind hdir hflags hro
  have hw : ctx.Writes hdr folder := .newObject hcode hfind hdir hflags hro
  have hmem := (MtpCtx.getEntryByHandleAndStorageid_live hfind).1.1
  exact ⟨⟨⟨hmem, below_of_writes hw⟩, folder, hw, rfl⟩,
    rfl, Or.inr ⟨hcode, rfl, folder, hw⟩⟩

theorem obeys_performOperation (ho : ctx.Ordered) (hdr : Buffer) (rawsize : Nat)
    (hopen : hdrCode hdr ≠ MTP_OPERATION_OPEN_SESSION)
    (hclose : hdrCode hdr ≠ MTP_OPERATION_CLOSE_SESSION) :
    Obeys os (requestFootprint ctx hdr) ctx (performOperation hdr rawsize) := by
  have hread : ∀ {op : M Response}, (hdrCode hdr = MTP_OPERATION_GET_OBJECT ∨
      hdrCode hdr = MTP_OPERATION_GET_PARTIAL_OBJECT ∨
      hdrCode hdr = MTP_OPERATION_GET_PARTIAL_OBJECT_64) →
      ((∀ p, ctx.getEntryByHandle (param hdr 0) = some p →
        ctx.checkHandleAccess (some p) (param hdr 0) false = none →
        Touches (requestFootprint ctx hdr) ctx p) →
        Obeys os (requestFootprint ctx hdr) ctx op) →
      Obeys os (requestFootprint ctx hdr) ctx op :=
    fun hcode hop => hop fun p hfind hgranted =>
      touches_of_found ho hfind (.content hcode hfind hgranted)
  unfold performOperation
  split
  · rename_i op hop
    have hm := mem_of_lookup hop
    simp only [operations, List.mem_cons, Prod.mk.injEq, List.not_mem_nil, or_false] at hm
    rcases hm with ⟨hc, rfl⟩ | ⟨hc, rfl⟩ | ⟨hc, rfl⟩ | ⟨hc, rfl⟩ | ⟨hc, rfl⟩ | ⟨hc, rfl⟩ |
      ⟨hc, rfl⟩ | ⟨hc, rfl⟩ | ⟨hc, rfl⟩ | ⟨hc, rfl⟩ | ⟨hc, rfl⟩ | ⟨hc, rfl⟩ | ⟨hc, rfl⟩ |
      ⟨hc, rfl⟩ | ⟨hc, rfl⟩ | ⟨hc, rfl⟩ | ⟨hc, rfl⟩ | ⟨hc, rfl⟩ | ⟨hc, rfl⟩ | ⟨hc, rfl⟩ |
      ⟨hc, rfl⟩ | ⟨hc, rfl⟩ | ⟨hc, rfl⟩ | ⟨hc, rfl⟩ | ⟨hc, rfl⟩
    · exact absurd hc hopen
    · exact absurd hc hclose
    · exact obeys_still ho (uses_mtpOpGetDeviceInfos hdr)
    · exact obeys_still ho (uses_mtpOpGetStorageIDs hdr)
    · exact obeys_still ho (uses_mtpOpGetStorageInfo hdr)
    · exact obeys_still ho (uses_mtpOpGetDevicePropDesc hdr)
    · exact obeys_still ho (uses_mtpOpGetDevicePropValue hdr)
    · exact obeys_mtpOpGetObjectHandles ho hdr (lists_request ho hc)
    · exact obeys_mtpOpGetObjectInfo ho hdr fun p hfind =>
        touches_of_found ho hfind (.properties (Or.inl hc) hfind)
    · exact hread (Or.inr (Or.inr hc)) (obeys_mtpOpGetPartialObject ho hdr)
    · exact hread (Or.inr (Or.inl hc)) (obeys_mtpOpGetPartialObject ho hdr)
    · exact hread (Or.inl hc) (obeys_mtpOpGetObject ho hdr)
    · exact obeys_mtpOpSendObjectInfo ho hdr (accepts_request hc)
    · exact obeys_mtpOpSendObject ho hdr rawsize fun hdata p hfind hgranted =>
        alters_of_found ho hfind (.content (Or.inr hc) hdata hfind hgranted)
    · exact obeys_mtpOpSendObject ho hdr rawsize fun hdata p hfind hgranted =>
        alters_of_found ho hfind (.content (Or.inl hc) hdata hfind hgranted)
    · refine obeys_mtpOpDeleteObject ho hdr (fun p hfind hgranted => ?_)
        (fun p => ⟨Or.inr ⟨hc, Or.inl rfl⟩, Or.inr ⟨hc, Or.inr rfl⟩⟩) fun _ _ => trivial
      rw [checkHandleAccess_none hfind] at hgranted
      exact alters_of_found ho hfind (.object (Or.inl hc) hfind hgranted)
    · exact obeys_still ho (uses_mtpOpGetObjectPropsSupported hdr)
    · exact obeys_still ho (uses_mtpOpGetObjectPropDesc hdr)
    · exact obeys_mtpOpGetObjectPropValue ho hdr
    · exact obeys_mtpOpSetObjectPropValue ho hdr fun hdata p hfind hgranted =>
        ⟨alters_of_found ho hfind (.name hc hdata hfind hgranted), hc⟩
    · exact obeys_mtpOpGetObjectPropList ho hdr fun p hfind =>
        touches_of_found ho hfind (.properties (Or.inr hc) hfind)
    · exact obeys_mtpOpGetObjectReferences ho hdr
    · exact obeys_mtpOpBeginEditObject ho hdr
    · exact obeys_mtpOpEndEditObject ho hdr
    · exact obeys_mtpOpTruncateObject ho hdr fun p hfind hgranted =>
        alters_of_found ho hfind (.object (Or.inr hc) hfind hgranted)
  · exact obeys_pure ho _

theorem uses_sendResponse {R : (c : Cmd) → c.Ans → Prop} (hdr : Buffer) (response : Response) :
    Uses R (Cmd.Within fp) (sendResponse hdr response) := by
  unfold sendResponse
  grind

-- The header that a packet leaves in the read buffer.
def MtpCtx.header (ctx : MtpCtx) (packet : List UInt8) : Buffer :=
  ctx.rdbuffer.write 0 (packet.take ctx.usbRdBufferMaxSize)

theorem reads_rdbuffer (buffer : Buffer) :
    ({ ctx with rdbuffer := buffer } : MtpCtx).Reads hdr p ↔ ctx.Reads hdr p := by
  constructor
  all_goals
    intro h
    cases h with
    | properties code found => exact .properties code found
    | content code found granted => exact .content code found granted
    | folder code found => exact .folder code found

theorem writes_rdbuffer (buffer : Buffer) :
    ({ ctx with rdbuffer := buffer } : MtpCtx).Writes hdr p ↔ ctx.Writes hdr p := by
  constructor
  all_goals
    intro h
    cases h with
    | object code found granted => exact .object code found granted
    | content code data found granted => exact .content code data found granted
    | name code data found granted => exact .name code data found granted
    | newObject code found isDir known writable => exact .newObject code found isDir known writable

theorem requestFootprint_rdbuffer (buffer : Buffer) :
    requestFootprint { ctx with rdbuffer := buffer } hdr = requestFootprint ctx hdr := by
  simp only [requestFootprint, reads_rdbuffer, writes_rdbuffer]
  rfl

theorem obeys_setRdbuffer_bind (ho : ctx.Ordered) (buffer : Buffer) {f : Unit → M α}
    (hf : Obeys os fp { ctx with rdbuffer := buffer } (f ())) :
    Obeys os fp ctx (M.cmd (.setRdbuffer buffer) >>= f) := by
  intro s
  obtain ⟨hs, hl⟩ := hf s
  have hl' : Later ctx { ctx with rdbuffer := buffer } := Later.of_eq ho rfl rfl
  refine ⟨(safe_bind _ _ _).mpr ⟨?_, hs⟩, hl'.trans hl⟩
  simp [Safe, M.cmd, Sited, Cmd.Within, Cmd.Proper]

-- Whatever a packet asks for, except for the opening and closing of a session,
-- keeps to the footprint of the request.
theorem obeys_mtpIncomingPacket (ho : ctx.Ordered) (packet : List UInt8)
    (hopen : hdrCode (ctx.header packet) ≠ MTP_OPERATION_OPEN_SESSION)
    (hclose : hdrCode (ctx.header packet) ≠ MTP_OPERATION_CLOSE_SESSION) :
    Obeys os (requestFootprint ctx (ctx.header packet)) ctx (mtpIncomingPacket packet) := by
  have ho' : ({ ctx with rdbuffer := ctx.header packet } : MtpCtx).Ordered :=
    ⟨ho.slots, ho.stored⟩
  unfold mtpIncomingPacket
  refine obeys_getCtx_bind (obeys_setRdbuffer_bind ho _ ?_)
  split
  · have hop := @obeys_performOperation _ os _ ho' (ctx.header packet)
      (packet.take ctx.usbRdBufferMaxSize).length hopen hclose
    rw [requestFootprint_rdbuffer] at hop
    refine obeys_bind hop fun response ctx' hl => ?_
    exact obeys_still hl.ordered (uses_sendResponse _ _)
  · exact obeys_pure ho' _

end Request

-- The entries an event is about.
def MtpCtx.Watching (ctx : MtpCtx) (wd : Nat) (p : EntryPtr) : Prop :=
  ctx.db.Live p ∧ (ctx.entry p).watchDescriptor = wd

-- Everything the inotify thread does for an event.
def eventFootprint (ctx : MtpCtx) (event : InotifyEvent) : Footprint where
  path path := ∃ p, ctx.Watching event.wd p ∧ ctx.rootOf p <+: path
  changes _ := False
  watches _ := False
  renames _ := False
  flags site _ := site = .inotifyThread
  allocates parent storageId := ∃ p, ctx.Watching event.wd p ∧ (ctx.entry p).handle = parent ∧
    (ctx.entry p).storageId = storageId
  searches _ _ := False

-- No entry gets a watch point: it keeps the one it had, or loses it.
def Unwatched (ctx ctx' : MtpCtx) : Prop :=
  ∀ p ∈ ctx'.db.entryList, (ctx'.entry p).watchDescriptor = -1 ∨
    p ∈ ctx.db.entryList ∧ (ctx'.entry p).watchDescriptor = (ctx.entry p).watchDescriptor

theorem Unwatched.refl (ctx : MtpCtx) : Unwatched ctx ctx :=
  fun _ hp => Or.inr ⟨hp, rfl⟩

theorem Unwatched.trans (hu : Unwatched ctx ctx') (hu' : Unwatched ctx' ctx'') :
    Unwatched ctx ctx'' := by
  intro p hp
  rcases hu' p hp with hnone | ⟨hp', heq'⟩
  · exact Or.inl hnone
  · rcases hu p hp' with hnone | ⟨hp'', heq⟩
    · exact Or.inl (heq'.trans hnone)
    · exact Or.inr ⟨hp'', heq'.trans heq⟩

theorem Unwatched.watching {wd : Nat} (hu : Unwatched ctx ctx') (hl : Later ctx ctx')
    (hw : ctx'.Watching wd p) : ctx.Watching wd p := by
  obtain ⟨⟨hmem, hlive⟩, hwd⟩ := hw
  rcases hu p hmem with hnone | ⟨hmem', heq⟩
  · rw [hnone] at hwd
    omega
  · refine ⟨⟨hmem', ?_⟩, heq.symm.trans hwd⟩
    by_contra hdel
    rw [Bool.not_eq_false] at hdel
    have hdel' := hl.frozen.deleted p hmem' hdel
    rw [hlive] at hdel'
    exact Bool.false_ne_true hdel'

theorem unwatched_step {w : World σ} {c : Cmd} (ho : w.ctx.Ordered)
    (hw : ∀ p, ¬ fp.watches p) (hc : Sited fp w c) :
    Unwatched w.ctx (World.handle os c w).2.ctx := by
  have happly : ∀ op : DbOp, (∀ p wd, op = .setWatchDescriptor p wd → wd = -1) →
      Unwatched w.ctx (w.ctx.applyDb op) := by
    intro op hset p hp
    rcases w.ctx.applyDb_cases op with heq | heq
    · rw [heq] at hp
      exact Or.inr ⟨hp, by rw [MtpCtx.entry, heq]; rfl⟩
    · rw [heq] at hp
      rw [MtpCtx.entry, heq]
      exact (DbOp.watch_step ho.slots op hp).imp_left fun h => h.elim id fun hop => hset _ _ hop
  obtain ⟨hin, -⟩ := hc
  cases c with
  | db op =>
      refine happly op fun p wd hop => ?_
      subst hop
      exact hin.resolve_right (hw p)
  | flagDeleted site p =>
      refine happly _ fun q wd hop => ?_
      cases hop
  | initFsDb => exact hin.elim
  | dropFsDb => exact hin.elim
  | setSessionId id => exact hin.elim
  | setStorage i storage => exact hin.elim
  | _ => exact Unwatched.refl _

theorem unwatched_of_safe {prog : M α} (ho : ctx.Ordered) (hw : ∀ p, ¬ fp.watches p) {s : σ}
    (hs : Safe (World.handle os) (Sited fp) prog ⟨ctx, s⟩) :
    Unwatched ctx (exec (World.handle os) prog ⟨ctx, s⟩).2.ctx := by
  refine (exec_keeps (I := fun w : World σ => Later ctx w.ctx ∧ Unwatched ctx w.ctx) ?_ prog
    ⟨ctx, s⟩ hs ⟨Later.refl ho, Unwatched.refl ctx⟩).2
  rintro w c ⟨hl, hu⟩ hc
  exact ⟨hl.trans (sited_later hl.ordered hc), hu.trans (unwatched_step hl.ordered hw hc)⟩

-- What the inotify thread relies on.
structure Watched (fp : Footprint) (ctx : MtpCtx) (wd : Nat) : Prop where
  below : ∀ p, ctx.Watching wd p → fp.Below (ctx.rootOf p)
  allocates : ∀ p, ctx.Watching wd p →
    fp.allocates (ctx.entry p).handle (ctx.entry p).storageId
  flags : ∀ p, fp.flags .inotifyThread p
  watches : ∀ p, ¬ fp.watches p

theorem Watched.later {wd : Nat} (h : Watched fp ctx wd) (hl : Later ctx ctx')
    (hu : Unwatched ctx ctx') : Watched fp ctx' wd := by
  refine ⟨fun p hp => ?_, fun p hp => ?_, h.flags, h.watches⟩
  · have hold := hu.watching hl hp
    rw [hl.rootOf_eq hold.1.1]
    exact h.below p hold
  · have hold := hu.watching hl hp
    obtain ⟨hhandle, -, hid⟩ := hl.entry_eq hold.1.1
    rw [hhandle, hid]
    exact h.allocates p hold

theorem obeys_bind_unwatched {prog : M α} {f : α → M β} (ho : ctx.Ordered)
    (hw : ∀ p, ¬ fp.watches p) (hp : Obeys os fp ctx prog)
    (hf : ∀ value ctx', Later ctx ctx' → Unwatched ctx ctx' → Obeys os fp ctx' (f value)) :
    Obeys os fp ctx (prog >>= f) := by
  intro s
  obtain ⟨hs, hl⟩ := hp s
  obtain ⟨hs', hl'⟩ := hf (exec (World.handle os) prog ⟨ctx, s⟩).1 _ hl
    (unwatched_of_safe ho hw hs) _
  exact ⟨(safe_bind prog f _).mpr ⟨hs, hs'⟩, by simpa using hl.trans hl'⟩

theorem uses_getFileInfo {R : (c : Cmd) → c.Ans → Prop} (event : InotifyEvent)
    {entry : Option EntryPtr} (deleted : Bool) (hc : ∀ p, entry = some p → Covers R fp p) :
    Uses R (Cmd.Within fp) (getFileInfo event entry deleted) := by
  unfold getFileInfo
  split
  · rename_i p
    refine uses_entryPath_bind (hc p rfl) fun found hfound => ?_
    split
    · rename_i path
      have hpath : fp.path (path ++ SLASH :: event.name) := hfound _
      refine uses_bind (uses_plain _ rfl) fun memory => ?_
      grind
    · exact uses_pure _
  · exact uses_pure _

-- The mutex is held while the file of an event is looked at.
theorem obeys_getFileInfo_bind (ho : ctx.Ordered) (event : InotifyEvent)
    (h : Watched fp ctx event.wd) {entry : Option EntryPtr} (deleted : Bool) {f : Bool → M α}
    (hentry : ∀ p, entry = some p → ctx.Watching event.wd p)
    (hf : ∀ value ctx', Later ctx ctx' → Unwatched ctx ctx' →
      (∀ p, entry = some p → ctx'.db.Live p) → Obeys os fp ctx' (f value)) :
    Obeys os fp ctx (getFileInfo event entry deleted >>= f) := by
  have hinfo : Uses (Knows ctx fun _ => True) (Cmd.Within (fp.adding ctx))
      (getFileInfo event entry deleted) := by
    refine uses_getFileInfo event deleted fun p hp => ?_
    have ht : Touches fp ctx p := ⟨(hentry p hp).1.1, h.below p (hentry p hp)⟩
    exact ht.covers rfl
  intro s
  obtain ⟨hs, -, hl, hlive⟩ := @answers_adding _ _ os _ _ _ _ ho hinfo s
  obtain ⟨hs', hl'⟩ := hf _ _ hl (unwatched_of_safe ho h.watches hs)
    (fun p hp => hlive p (hentry p hp).1) (exec (World.handle os) _ ⟨ctx, s⟩).2.os
  exact ⟨(safe_bind _ f _).mpr ⟨hs, hs'⟩, by simpa using hl.trans hl'⟩

theorem uses_mtpPushEvent {R : (c : Cmd) → c.Ans → Prop} (event : Nat) (parameters : List Nat) :
    Uses R (Cmd.Within fp) (mtpPushEvent event parameters) := by
  unfold mtpPushEvent
  grind

attribute [grind ←] uses_mtpPushEvent

theorem getEntryByWd_mem {wd : Nat} {start : List EntryPtr}
    (hstart : ∀ q ∈ start, q ∈ ctx.db.entryList) :
    ∀ q ∈ ctx.db.getEntryByWd wd start, q ∈ ctx.db.entryList := by
  intro q hq
  have hsub := (List.dropWhile_suffix _).subset hq
  split at hsub
  · exact hsub
  · exact hstart q hsub

theorem watching_of_head {wd : Nat} {start : List EntryPtr}
    (hstart : ∀ q ∈ start, q ∈ ctx.db.entryList)
    (h : (ctx.db.getEntryByWd wd start).head? = some p) : ctx.Watching wd p := by
  obtain ⟨hlive, hwd⟩ := FsHandlesDb.walkFrom_head? h
  exact ⟨⟨getEntryByWd_mem hstart p (List.mem_of_mem_head? h), hlive⟩, beq_iff_eq.mp hwd⟩

theorem obeys_forWatchedFolders (event : InotifyEvent) (deleted : Bool) (code : Nat)
    {change : EntryPtr → M (Option EntryPtr)}
    (hchange : ∀ (ctx : MtpCtx) (folder : EntryPtr), ctx.Ordered → ctx.db.Live folder →
      fp.allocates (ctx.entry folder).handle (ctx.entry folder).storageId →
      Obeys os fp ctx (change folder)) (fuel : Nat) {ctx : MtpCtx} (ho : ctx.Ordered)
    (h : Watched fp ctx event.wd) {start : List EntryPtr}
    (hstart : ∀ q ∈ start, q ∈ ctx.db.entryList) :
    Obeys os fp ctx (forWatchedFolders event deleted code change fuel start) := by
  induction fuel generalizing ctx start with
  | zero => exact obeys_pure ho _
  | succ fuel ih =>
      unfold forWatchedFolders
      refine obeys_plain_bind _ rfl fun locked => ?_
      split
      · refine obeys_getCtx_bind ?_
        dsimp only
        have hmem := @getEntryByWd_mem _ event.wd _ hstart
        refine obeys_getFileInfo_bind ho event h deleted (fun p hp => watching_of_head hstart hp) ?_
        intro known ctx1 hl1 hu1 hlive1
        -- the walk goes on in any later context
        have hnext : ∀ ctx2, Later ctx ctx2 → Unwatched ctx ctx2 → Obeys os fp ctx2
            (if (ctx.db.getEntryByWd event.wd start).tail ≠ [] then
              forWatchedFolders event deleted code change fuel
                (ctx.db.getEntryByWd event.wd start).tail
            else
              return true) := by
          intro ctx2 hl2 hu2
          split
          · exact ih hl2.ordered (h.later hl2 hu2) fun q hq => hl2.mem
              (hmem q (List.mem_of_mem_tail hq))
          · exact obeys_pure hl2.ordered _
        have hrest : ∀ ctx2, Later ctx ctx2 → Unwatched ctx ctx2 → ∀ changed : Option EntryPtr,
            Obeys os fp ctx2 (endTurn code changed
              (if (ctx.db.getEntryByWd event.wd start).tail ≠ [] then
                forWatchedFolders event deleted code change fuel
                  (ctx.db.getEntryByWd event.wd start).tail
              else
                return true)) := by
          intro ctx2 hl2 hu2 changed
          refine obeys_getCtx_bind (obeys_plain_bind _ rfl fun unlocked => ?_)
          split
          · dsimp only
            split
            · refine obeys_bind_unwatched hl2.ordered h.watches
                (obeys_still hl2.ordered (uses_mtpPushEvent _ _)) fun _ ctx3 hl3 hu3 => ?_
              exact hnext ctx3 (hl2.trans hl3) (hu2.trans hu3)
            · exact hnext ctx2 hl2 hu2
          · exact obeys_pure hl2.ordered _
        split
        · rename_i folder hhead
          have hwatching := watching_of_head hstart hhead
          obtain ⟨hhandle, -, hid⟩ := hl1.entry_eq hwatching.1.1
          have halloc : fp.allocates (ctx1.entry folder).handle (ctx1.entry folder).storageId := by
            rw [hhandle, hid]
            exact h.allocates folder hwatching
          refine obeys_bind_unwatched hl1.ordered h.watches
            (hchange ctx1 folder hl1.ordered (hlive1 folder hhead) halloc) fun changed ctx2
            hl2 hu2 => ?_
          exact hrest ctx2 (hl1.trans hl2) (hu1.trans hu2) changed
        · exact hrest ctx1 hl1 hu1 none
      · exact obeys_pure ho _

theorem obeys_entryCreated {folder : EntryPtr} (ho : ctx.Ordered) (hlive : ctx.db.Live folder)
    (halloc : fp.allocates (ctx.entry folder).handle (ctx.entry folder).storageId) :
    Obeys os fp ctx (entryCreated folder) := by
  refine obeys_getCtx_bind ?_
  dsimp only
  split
  · exact obeys_pure ho _
  · have hadding : (fp.adding ctx).allocates (ctx.entry folder).handle
        (ctx.entry folder).storageId := ⟨halloc, Or.inr ⟨folder, hlive, rfl⟩⟩
    exact obeys_adding ho (uses_addEntry _ hadding)

theorem obeys_entryModified {folder : EntryPtr} (ho : ctx.Ordered) :
    Obeys os fp ctx (entryModified folder) :=
  obeys_getCtx_bind (obeys_pure ho _)

theorem obeys_entryDeleted {folder : EntryPtr} (ho : ctx.Ordered)
    (hflags : ∀ p, fp.flags .inotifyThread p) : Obeys os fp ctx (entryDeleted folder) := by
  refine obeys_getCtx_bind ?_
  dsimp only
  split
  · rename_i p hfind
    have hflag : (fp.still ctx).flags .inotifyThread p := hflags p
    exact obeys_still ho <| uses_bind (uses_flagDeleted hflag) fun _ =>
      uses_bind uses_dropWatch fun _ => uses_pure _
  · exact obeys_pure ho _

theorem watched_event (ctx : MtpCtx) (event : InotifyEvent) :
    Watched (eventFootprint ctx event) ctx event.wd where
  below p hp rest := ⟨p, hp, List.prefix_append _ rest⟩
  allocates p hp := ⟨p, hp, rfl, rfl⟩
  flags _ := rfl
  watches _ := id

-- An event is served within the footprint of the folders that are watched for
-- it.
theorem obeys_inotifyThread (ho : ctx.Ordered) (event : InotifyEvent) :
    Obeys os (eventFootprint ctx event) ctx (inotifyThread event) := by
  have hw := watched_event ctx event
  have hwalk : ∀ (deleted : Bool) (code turns : Nat) (change : EntryPtr → M (Option EntryPtr)),
      (∀ (ctx' : MtpCtx) (folder : EntryPtr), ctx'.Ordered → ctx'.db.Live folder →
        (eventFootprint ctx event).allocates (ctx'.entry folder).handle
          (ctx'.entry folder).storageId →
        Obeys os (eventFootprint ctx event) ctx' (change folder)) →
      ∀ ctx', Later ctx ctx' → Unwatched ctx ctx' →
        Obeys os (eventFootprint ctx event) ctx'
          (forWatchedFolders event deleted code change turns []) :=
    fun deleted code turns change hchange ctx' hl hu =>
      obeys_forWatchedFolders event deleted code hchange turns hl.ordered (hw.later hl hu)
        fun _ hq => absurd hq List.not_mem_nil
  unfold inotifyThread
  split
  · refine obeys_getCtx_bind ?_
    dsimp only
    generalize ctx.db.entryList.length + 1 = turns
    have hremoved : ∀ ctx', Later ctx ctx' → Unwatched ctx ctx' → ∀ goesOn : Bool,
        Obeys os (eventFootprint ctx event) ctx'
          (if goesOn && hasAnyFlag event.mask IN_DELETE IN_MOVED_FROM then do
            let _ ← forWatchedFolders event true MTP_EVENT_OBJECT_REMOVED entryDeleted turns []
            return ()
          else
            return ()) := by
      intro ctx' hl hu goesOn
      split
      · refine obeys_bind (hwalk _ _ _ _ (fun _ _ ho' _ _ => obeys_entryDeleted ho' hw.flags)
          ctx' hl hu) fun _ ctx'' hl' => ?_
        exact obeys_pure hl'.ordered _
      · exact obeys_pure hl.ordered _
    have hmodified : ∀ ctx', Later ctx ctx' → Unwatched ctx ctx' → ∀ goesOn : Bool,
        Obeys os (eventFootprint ctx event) ctx' (do
          let goesOn ←
            if goesOn && hasFlag event.mask IN_MODIFY then
              forWatchedFolders event true MTP_EVENT_OBJECT_INFO_CHANGED entryModified turns []
            else
              pure goesOn
          if goesOn && hasAnyFlag event.mask IN_DELETE IN_MOVED_FROM then
            let _ ← forWatchedFolders event true MTP_EVENT_OBJECT_REMOVED entryDeleted
              turns []) := by
      intro ctx' hl hu goesOn
      dsimp only
      split
      · refine obeys_bind_unwatched hl.ordered hw.watches
          (hwalk _ _ _ _ (fun _ _ ho' _ _ => obeys_entryModified ho') ctx' hl hu) ?_
        exact fun goesOn ctx'' hl' hu' => hremoved ctx'' (hl.trans hl') (hu.trans hu') goesOn
      · exact hremoved ctx' hl hu goesOn
    split
    · refine obeys_bind_unwatched ho hw.watches
        (hwalk _ _ _ _ (fun _ _ ho' hlive halloc => obeys_entryCreated ho' hlive halloc)
          ctx (Later.refl ho) (Unwatched.refl ctx)) ?_
      exact fun goesOn ctx' hl hu => hmodified ctx' hl hu goesOn
    · exact hmodified ctx (Later.refl ho) (Unwatched.refl ctx) true
  · exact obeys_pure ho _

end Umtp
