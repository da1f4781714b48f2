import Umtp.Effects.Events
import Umtp.MemOs

namespace Umtp

open Lib Lib.Prog Handles

variable {σ α β : Type} {os : Os σ} {ctx ctx' : MtpCtx} {w : World σ}

-- The id of a storage is the one of its slot.
def MtpCtx.SlotIds (ctx : MtpCtx) : Prop :=
  ∀ i, (ctx.storages i).rootPath.isSome = true →
    (ctx.storages i).storageId = FIRST_STORAGE_ID + i

-- The database of a session is made by its operations.
def MtpCtx.Recorded (ctx : MtpCtx) : Prop :=
  ∃ ops, ctx.db = run DbOp.step initFsDb ops

-- What holds of the context between two events.
structure MtpCtx.Regular (ctx : MtpCtx) : Prop where
  ordered : ctx.Ordered
  slotIds : ctx.SlotIds
  recorded : ctx.Recorded

-- The daemon starts without a session.
def MtpCtx.Initial (ctx : MtpCtx) : Prop :=
  ctx.fsDb = none ∧ ctx.SlotIds

theorem initial_startCtx (storages : List (CString × CString × BitVec 32)) :
    (startCtx (storagesOf storages)).Initial := by
  refine ⟨rfl, fun i hroot => ?_⟩
  change (storagesOf storages i).rootPath.isSome = true at hroot
  change (storagesOf storages i).storageId = _
  unfold storagesOf at hroot ⊢
  cases hstorage : storages[i.val]? with
  | none =>
      rw [hstorage] at hroot
      cases hroot
  | some storage => rfl

theorem twoStorages_initial : twoStorages.ctx.Initial := initial_startCtx _

theorem MtpCtx.Initial.regular (hi : ctx.Initial) : ctx.Regular := by
  have hdb : ctx.db = initFsDb := by rw [MtpCtx.db, hi.1]; rfl
  exact ⟨⟨by rw [hdb]; exact Slots.init, by rw [hdb]; exact Stored.init⟩, hi.2, [], hdb⟩

theorem recorded_applyDb (hr : ctx.Recorded) (op : DbOp) : (ctx.applyDb op).Recorded := by
  obtain ⟨ops, hops⟩ := hr
  rcases ctx.applyDb_cases op with heq | heq
  · exact ⟨ops, heq.trans hops⟩
  · refine ⟨ops ++ [op], ?_⟩
    rw [heq, hops, run_append]
    rfl

-- Whatever a program does, the database is made by its operations.
theorem recorded_step (c : Cmd) (hr : w.ctx.Recorded) :
    (World.handle os c w).2.ctx.Recorded := by
  cases c with
  | db op => exact recorded_applyDb hr op
  | flagDeleted site p => exact recorded_applyDb hr (.setDeleted p)
  | initFsDb => exact ⟨[], rfl⟩
  | dropFsDb => exact ⟨[], rfl⟩
  | _ => exact hr

-- What the opening and closing of a session and the messages may do: the ids
-- under which a storage may stand in a slot, and whether the session changes.
structure Management where
  ids : Fin MAX_STORAGE_NB → Nat → Prop
  session : Prop

-- No object is added or renamed.
def Cmd.Manages (m : Management) : Cmd → Prop
  | db (.allocEntry _ _ _ _) | db (.renameEntry _ _ _) => False
  | initFsDb | dropFsDb | setSessionId _ => m.session
  | setStorage i storage => storage.rootPath.isSome = true → m.ids i storage.storageId
  | _ => True

def MtpCtx.HasIds (ctx : MtpCtx) (m : Management) : Prop :=
  ∀ i, (ctx.storages i).rootPath.isSome = true → m.ids i (ctx.storages i).storageId

def KnowsSlots (m : Management) : (c : Cmd) → c.Ans → Prop
  | .getCtx, ctx => ctx.HasIds m
  | _, _ => True

def slotManagement : Management := ⟨fun i storageId => storageId = FIRST_STORAGE_ID + i, True⟩

theorem hasIds_step {m : Management} {c : Cmd} (hi : w.ctx.HasIds m) (hc : c.Manages m) :
    (World.handle os c w).2.ctx.HasIds m := by
  cases c with
  | setStorage i storage =>
      intro j hj
      by_cases hji : j = i
      · subst hji
        simp only [World.handle, Function.update_self] at hj ⊢
        exact hc hj
      · simp only [World.handle, Function.update_of_ne hji] at hj ⊢
        exact hi j hj
  | _ => exact hi

theorem ordered_step {m : Management} {c : Cmd} (ho : w.ctx.Ordered) (hc : c.Manages m) :
    (World.handle os c w).2.ctx.Ordered := by
  cases c with
  | db op =>
      refine (Later.of_applyDb ho ?_).ordered
      cases op with
      | renameEntry mem p name => exact hc.elim
      | _ => trivial
  | flagDeleted site p => exact (@Later.of_applyDb _ ho (.setDeleted p) trivial).ordered
  | initFsDb => exact ⟨Slots.init, Stored.init⟩
  | dropFsDb => exact ⟨Slots.init, Stored.init⟩
  | _ => exact ⟨ho.slots, ho.stored⟩

-- A part of the daemon that adds and renames nothing.
def Footprint.any : Footprint where
  path _ := True
  changes _ := True
  watches _ := True
  renames _ := False
  flags _ _ := True
  allocates _ _ := False
  searches _ _ := True

theorem manages_of_within {m : Management} {prog : M α}
    (hp : Uses (KnowsSlots m) (Cmd.Within Footprint.any) prog) :
    Uses (KnowsSlots m) (Cmd.Manages m) prog := by
  refine uses_mono hp fun c hc => ?_
  cases c with
  | db op => cases op <;> trivial
  | setStorage i storage => exact hc.elim
  | initFsDb => exact hc.elim
  | dropFsDb => exact hc.elim
  | setSessionId id => exact hc.elim
  | _ => trivial

abbrev Managed (m : Management) (prog : M α) : Prop :=
  Uses (KnowsSlots m) (Cmd.Manages m) prog

section Managed

variable {m : Management}

theorem managed_act (a : Action) : Managed m (M.act a) :=
  ⟨trivial, fun _ _ => trivial⟩

theorem managed_act_ (a : Action) : Managed m (M.act_ a) :=
  uses_bind (managed_act a) fun _ => uses_pure ()

theorem managed_query (q : Query) : Managed m (M.query q) :=
  ⟨trivial, fun _ _ => trivial⟩

theorem managed_getCtx_bind {f : MtpCtx → M α}
    (hf : ∀ ctx : MtpCtx, ctx.HasIds m → Managed m (f ctx)) :
    Managed m (M.getCtx >>= f) :=
  ⟨trivial, hf⟩

theorem managed_allocRootEntry (mem : AllocMem) (storageId : Nat) :
    Managed m (M.db_ (.allocRootEntry mem storageId)) :=
  uses_bind ⟨trivial, fun _ _ => trivial⟩ fun _ => uses_pure ()

theorem managed_flagDeleted (site : Site) (p : EntryPtr) : Managed m (M.flagDeleted site p) :=
  ⟨trivial, fun _ _ => trivial⟩

theorem managed_setStorage (i : Fin MAX_STORAGE_NB) (storage : MtpStorage)
    (h : storage.rootPath.isSome = true → m.ids i storage.storageId) :
    Managed m (M.cmd (.setStorage i storage)) :=
  ⟨h, fun _ _ => trivial⟩

theorem managed_freeSlot (i : Fin MAX_STORAGE_NB) : Managed m (M.cmd (.setStorage i freeSlot)) :=
  managed_setStorage i freeSlot fun h => by simp [freeSlot] at h

theorem managed_dropWatch (p : EntryPtr) : Managed m (dropWatch p) :=
  manages_of_within uses_dropWatch

theorem managed_mtpPushEvent (event : Nat) (parameters : List Nat) :
    Managed m (mtpPushEvent event parameters) :=
  manages_of_within (uses_mtpPushEvent _ _)

attribute [grind ←] managed_act managed_act_ managed_query managed_getCtx_bind
  managed_allocRootEntry managed_flagDeleted managed_freeSlot managed_dropWatch
  managed_mtpPushEvent

-- mtp.c and mtp_cfg.c

theorem managed_mtpAddStorage (hids : ∀ i, m.ids i (FIRST_STORAGE_ID + i))
    (path description : CString) (uid gid : Int) (flags : BitVec 32) :
    Managed m (mtpAddStorage path description uid gid flags) := by
  unfold mtpAddStorage
  refine managed_getCtx_bind fun ctx _ => ?_
  split
  · split
    · refine uses_bind (managed_query _) fun rootPath => uses_bind (managed_act _) fun memory => ?_
      split
      · exact managed_setStorage _ _ fun _ => hids _
      · exact managed_freeSlot _
    · exact uses_pure _
  · exact uses_pure _

theorem managed_mtpRemoveStorage (name : CString) : Managed m (mtpRemoveStorage name) := by
  unfold mtpRemoveStorage
  grind

-- mtp_ops_helpers.c

theorem managed_umountEntries (storageId fuel : Nat) (start : List EntryPtr) :
    Managed m (umountEntries storageId fuel start) := by
  induction fuel generalizing start with
  | zero => exact uses_pure _
  | succ fuel ih =>
      unfold umountEntries
      grind

theorem managed_setStorageFlags (i : Fin MAX_STORAGE_NB) (change : BitVec 32 → BitVec 32) :
    Managed m (setStorageFlags i change) :=
  managed_getCtx_bind fun _ hs => managed_setStorage i _ (hs i)

attribute [grind ←] managed_mtpRemoveStorage managed_umountEntries managed_setStorageFlags

theorem managed_umountStore (i : Fin MAX_STORAGE_NB) (updateFlag : Bool) :
    Managed m (umountStore i updateFlag) := by
  unfold umountStore
  grind

theorem managed_mountStore (i : Fin MAX_STORAGE_NB) (updateFlag : Bool) :
    Managed m (mountStore i updateFlag) := by
  unfold mountStore
  grind

-- msgqueue.c

theorem managed_switchStore (name : CString) {switch : Fin MAX_STORAGE_NB → M Unit}
    (hs : ∀ i, Managed m (switch i)) (event : Nat) : Managed m (switchStore name switch event) := by
  unfold switchStore
  grind

theorem managed_switchLocks (locked : Bool) {switch : Fin MAX_STORAGE_NB → M Unit}
    (hs : ∀ i, Managed m (switch i)) (change : BitVec 32 → BitVec 32) (event : Nat)
    (slots : List (Fin MAX_STORAGE_NB)) :
    Managed m (switchLocks locked switch change event slots) := by
  induction slots with
  | nil => exact uses_pure _
  | cons i rest ih =>
      unfold switchLocks
      refine managed_getCtx_bind fun ctx _ => ?_
      grind

theorem managed_msgqueueThread (message : CString)
    (hids : ADDSTORAGE_MESSAGE.isPrefixOf message = true → ∀ i, m.ids i (FIRST_STORAGE_ID + i)) :
    Managed m (msgqueueThread message) := by
  unfold msgqueueThread mtpAddStorageFromLine mtpRemoveStorageFromLine
  split
  · rename_i hadd
    have haddstorage := managed_mtpAddStorage (hids hadd)
    grind
  · have hmount := fun updateFlag i => managed_mountStore (m := m) i updateFlag
    have humount := fun updateFlag i => managed_umountStore (m := m) i updateFlag
    grind [managed_switchStore, managed_switchLocks]

-- The session

theorem managed_allocRootEntries (slots : List (Fin MAX_STORAGE_NB)) :
    Managed m (allocRootEntries slots) := by
  induction slots with
  | nil => exact uses_pure _
  | cons i rest ih =>
      unfold allocRootEntries
      grind

theorem managed_mtpOpOpenSession (hm : m.session) (hdr : Buffer) : Managed m
    (mtpOpOpenSession hdr) := by
  have hsession : ∀ id, Managed m (M.cmd (.setSessionId id)) :=
    fun _ => ⟨hm, fun _ _ => trivial⟩
  have hinit : Managed m (M.cmd .initFsDb) := ⟨hm, fun _ _ => trivial⟩
  unfold mtpOpOpenSession
  refine managed_getCtx_bind fun ctx _ => ?_
  split
  · exact uses_pure _
  · split
    · exact uses_pure _
    · refine uses_bind (hsession _) fun _ => uses_bind (managed_act _) fun memory => ?_
      split
      · exact uses_bind hinit fun _ => managed_allocRootEntries _
      · exact uses_pure _

theorem managed_deinitFsDb : Managed m deinitFsDb := by
  unfold deinitFsDb
  refine managed_getCtx_bind fun ctx _ => ?_
  dsimp only
  generalize List.filter _ _ = watched
  refine uses_bind ?_ fun _ => manages_of_within (uses_entryClose _)
  induction watched with
  | nil => exact uses_pure _
  | cons p rest ih => exact uses_bind (manages_of_within (uses_rmwatch _)) fun _ => ih

theorem managed_mtpOpCloseSession (hm : m.session) : Managed m mtpOpCloseSession := by
  have hdrop : Managed m (M.cmd .dropFsDb) := ⟨hm, fun _ _ => trivial⟩
  have hdeinit := managed_deinitFsDb (m := m)
  unfold mtpOpCloseSession inSession
  grind

theorem managed_performOperation (hm : m.session) {hdr : Buffer} (rawsize : Nat)
    (hcode : hdrCode hdr = MTP_OPERATION_OPEN_SESSION ∨
      hdrCode hdr = MTP_OPERATION_CLOSE_SESSION) : Managed m (performOperation hdr rawsize) := by
  rcases hcode with hcode | hcode
  · have hop : operations.lookup (hdrCode hdr) = some fun hdr _ => mtpOpOpenSession hdr := by
      rw [hcode]
      rfl
    rw [performOperation, hop]
    exact managed_mtpOpOpenSession hm hdr
  · have hop : operations.lookup (hdrCode hdr) = some fun _ _ => mtpOpCloseSession := by
      rw [hcode]
      rfl
    rw [performOperation, hop]
    exact managed_mtpOpCloseSession hm

end Managed

-- The events

theorem regular_of_managed {prog : M α} (hp : Managed slotManagement prog)
    (hr : w.ctx.Regular) : (exec (World.handle os) prog w).2.ctx.Regular := by
  have hv : Valid (World.handle os) (fun _ _ => True) (fun w => w.ctx.Regular) prog
      fun _ w => True ∧ w.ctx.Regular := by
    refine valid_of_runs hp fun w c hr hc => ?_
    have hids : w.ctx.HasIds slotManagement := hr.slotIds
    refine ⟨trivial, ?_, ordered_step hr.ordered hc, hasIds_step hids hc,
      recorded_step c hr.recorded⟩
    cases c with
    | getCtx => exact hids
    | _ => trivial
  exact (hv w hr).2.2

theorem Later.regular (hr : ctx.Regular) (hl : Later ctx ctx') (hrecorded : ctx'.Recorded) :
    ctx'.Regular :=
  ⟨hl.ordered, by rw [MtpCtx.SlotIds, hl.storages]; exact hr.slotIds, hrecorded⟩

theorem recorded_exec (prog : M α) (hr : w.ctx.Recorded) :
    (exec (World.handle os) prog w).2.ctx.Recorded :=
  @exec_keeps _ _ _ _ _ (fun _ _ => True) (fun w : World σ => w.ctx.Recorded)
  (fun _ c h _ => recorded_step c h) prog w (fun _ _ => trivial) hr

theorem Obeys.regular {fp : Footprint} {prog : M α} (hr : w.ctx.Regular)
    (h : Obeys os fp w.ctx prog) : (exec (World.handle os) prog w).2.ctx.Regular :=
  (h w.os).2.regular hr (recorded_exec prog hr.recorded)

theorem regular_mtpIncomingPacket (hr : w.ctx.Regular) (packet : List UInt8) :
    (exec (World.handle os) (mtpIncomingPacket packet) w).2.ctx.Regular := by
  by_cases hcode : hdrCode (w.ctx.header packet) = MTP_OPERATION_OPEN_SESSION ∨
      hdrCode (w.ctx.header packet) = MTP_OPERATION_CLOSE_SESSION
  · have hset : Managed slotManagement (M.cmd (.setRdbuffer (w.ctx.header packet))) :=
      ⟨trivial, fun _ _ => trivial⟩
    have hrest : Managed slotManagement (do
        M.cmd (.setRdbuffer (w.ctx.header packet))
        if packet.take w.ctx.usbRdBufferMaxSize ≠ [] then
          processInPacket (w.ctx.header packet)
            (packet.take w.ctx.usbRdBufferMaxSize).length) := by
      refine uses_bind hset fun _ => ?_
      split
      · exact uses_bind (managed_performOperation trivial _ hcode) fun _ =>
          manages_of_within (uses_sendResponse _ _)
      · exact uses_pure _
    have hregular := @regular_of_managed _ _ os _ _ hrest hr
    exact hregular
  · rw [not_or] at hcode
    exact (obeys_mtpIncomingPacket hr.ordered packet hcode.1 hcode.2).regular hr

theorem regular_step (hr : w.ctx.Regular) (event : Event σ) :
    (World.step os w event).ctx.Regular := by
  cases event with
  | packet bytes => exact regular_mtpIncomingPacket hr bytes
  | inotify event => exact (obeys_inotifyThread hr.ordered event).regular hr
  | message text => exact regular_of_managed (managed_msgqueueThread text fun _ _ => rfl) hr
  | outside change => exact hr

theorem regular_run (events : List (Event σ)) (hr : w.ctx.Regular) :
    (run (World.step os) w events).ctx.Regular := by
  induction events generalizing w with
  | nil => exact hr
  | cons event rest ih => exact ih (regular_step hr event)

-- A handle designates one entry as long as the counter has not wrapped.
theorem MtpCtx.Recorded.handle_inj (hr : ctx.Recorded)
    (hlen : ctx.db.entryList.length < UINT32_SIZE - 1) {p q : EntryPtr}
    (hp : p ∈ ctx.db.entryList) (hq : q ∈ ctx.db.entryList) (hpos : (ctx.entry p).handle ≠ 0)
    (heq : (ctx.entry p).handle = (ctx.entry q).handle) : p = q := by
  obtain ⟨ops, hops⟩ := hr
  have hrun : (run DbOp.record (initFsDb, []) ops).1 = ctx.db := by
    rw [DbOp.record_fst, hops]
  have hn := DbOp.numbered_run Slots.init Numbered.init ops (by rw [hrun]; exact hlen)
  rw [hrun] at hn
  have hobject : ∀ r ∈ ctx.db.entryList, (ctx.entry r).handle ≠ 0 →
      r ∈ (run DbOp.record (initFsDb, []) ops).2 := by
    intro r hr hne
    by_contra hroot
    exact hne (hn.roots r hr hroot).1
  exact hn.distinct p (hobject p hp hpos) q (hobject q hq (heq ▸ hpos)) heq

end Umtp
