import Umtp.Lib.SlotTable
import Umtp.DatasetReplies
import Umtp.Messages
import Umtp.Effects.Opening
import Umtp.Effects.Roles

namespace Umtp

open Lib Lib.Prog Handles

variable {σ α : Type} {os : Os σ} {ctx : MtpCtx} {w : World σ}

def MtpStorage.registered (storage : MtpStorage) : Bool := storage.rootPath.isSome

def MtpStorage.setFlags (change : BitVec 32 → BitVec 32) (storage : MtpStorage) : MtpStorage :=
  { storage with flags := change storage.flags }

-- The storages by name: what the slots stand for.
abbrev Registry := CString → Option MtpStorage

namespace MtpCtx

def registry (ctx : MtpCtx) : Registry :=
  SlotTable.contents MtpStorage.registered MtpStorage.description ctx.storages

-- No name is registered twice, and the id of a storage is the one of its slot.
structure WellRegistered (ctx : MtpCtx) : Prop where
  names : SlotTable.Distinct MtpStorage.registered MtpStorage.description ctx.storages
  slotIds : ctx.SlotIds

theorem WellRegistered.ids (h : ctx.WellRegistered) :
    SlotTable.Distinct MtpStorage.registered MtpStorage.storageId ctx.storages := by
  intro i j hi hj hid
  rw [h.slotIds i hi, h.slotIds j hj] at hid
  exact Fin.ext (by omega)

-- The lookups by name and by id are the ones of the table.
theorem indexByName_eq (ctx : MtpCtx) (name : CString) : ctx.mtpGetStorageIndexByName name =
    SlotTable.lookup MtpStorage.registered MtpStorage.description ctx.storages name := rfl

theorem indexById_eq (ctx : MtpCtx) (storageId : Nat) : ctx.mtpGetStorageIndexById storageId =
    SlotTable.lookup MtpStorage.registered MtpStorage.storageId ctx.storages storageId := rfl

end MtpCtx

-- What a message does to the storages.
inductive RegistryOp where
  | add (storage : MtpStorage)
  | remove (name : CString)
  | setFlags (name : CString) (change : BitVec 32 → BitVec 32)
  | setLocks (locked : Bool) (change : BitVec 32 → BitVec 32)
  | nothing

-- The lockable storages change, unless they are locked already or not locked.
def switchLock (locked : Bool) (change : BitVec 32 → BitVec 32) (storage : MtpStorage) :
    MtpStorage :=
  if storage.rootPath.isSome ∧ hasFlag storage.flags UMTP_STORAGE_LOCKABLE = true ∧
      hasFlag storage.flags UMTP_STORAGE_LOCKED = locked then
    storage.setFlags change
  else
    storage

def RegistryOp.apply : RegistryOp → Registry → Registry
  | add storage, registry => Function.update registry storage.description (some storage)
  | remove name, registry => Function.update registry name none
  | setFlags name change, registry =>
    Function.update registry name ((registry name).map (MtpStorage.setFlags change))
  | setLocks locked change, registry => fun name => (registry name).map (switchLock locked change)
  | nothing, registry => registry

-- The operation that an event stands for. A storage is added when there is a slot
-- for it and its path is found.
def World.messageOp (os : Os σ) (w : World σ) (text : CString) : RegistryOp :=
  if ADDSTORAGE_MESSAGE.isPrefixOf text then
    match w.addedStorage os text with
    | some (_, storage) => .add storage
    | none => .nothing
  else if RMSTORAGE_MESSAGE.isPrefixOf text then
    match getParam (text.drop RMSTORAGE_MESSAGE.length) 0 with
    | some name => .remove name
    | none => .nothing
  else if MOUNT_MESSAGE.isPrefixOf text then
    .setFlags (text.drop MOUNT_MESSAGE.length) (lower · UMTP_STORAGE_NOTMOUNTED)
  else if UNMOUNT_MESSAGE.isPrefixOf text then
    .setFlags (text.drop UNMOUNT_MESSAGE.length) (raise · UMTP_STORAGE_NOTMOUNTED)
  else if LOCK_MESSAGE.isPrefixOf text then
    .setLocks false (raise · UMTP_STORAGE_LOCKED)
  else if UNLOCK_MESSAGE.isPrefixOf text then
    .setLocks true (lower · UMTP_STORAGE_LOCKED)
  else
    .nothing

def World.registryOp (os : Os σ) (w : World σ) : Event σ → RegistryOp
  | .message text => w.messageOp os text
  | _ => .nothing

-- The mutex of the database is got and given back.
def Os.LocksMutex (os : Os σ) : Prop :=
  ∀ s, (os.act .lockInotifyMutex s).1 = true ∧ (os.act .unlockInotifyMutex s).1 = true

-- What puts nothing in a slot leaves the storages alone.
def Cmd.isSetStorage : Cmd → Bool
  | setStorage _ _ => true
  | _ => false

theorem storages_step {c : Cmd} (hc : c.isSetStorage = false) (w : World σ) :
    (World.handle os c w).2.ctx.storages = w.ctx.storages := by
  cases c with
  | setStorage i storage => cases hc
  | _ => rfl

theorem storages_exec {prog : M α} (hp : Uses AnyAnswer (fun c => c.isSetStorage = false) prog)
    (w : World σ) : (exec (World.handle os) prog w).2.ctx.storages = w.ctx.storages :=
  @uses_exec _ _ _ _ _ _ (fun w' : World σ => w'.ctx.storages = w.ctx.storages) hp _
    (fun w' _ hc hw => (storages_step hc w').trans hw) w rfl

theorem isSetStorage_of_within {fp : Footprint} {c : Cmd} (hc : c.Within fp) :
    c.isSetStorage = false := by
  cases c with
  | setStorage i storage => exact hc.elim
  | _ => rfl

theorem storages_within {fp : Footprint} {prog : M α} (hp : Uses AnyAnswer (Cmd.Within fp) prog)
    (w : World σ) : (exec (World.handle os) prog w).2.ctx.storages = w.ctx.storages :=
  storages_exec (uses_mono hp fun _ hc => isSetStorage_of_within hc) w

-- The requests and the events of the file system.
def servingRole : Role := roleBut fun c => c.isSetStorage = true

theorem servingRole_serves : servingRole.Serves := by
  have hfree : ∀ c : Cmd, c.isSetStorage = false → ¬(c.isSetStorage = true) := by
    intro c hc hset
    rw [hc] at hset
    cases hset
  exact {
    opens := trivial
    closes := trivial
    transferring := fun _ => hfree _ rfl
    getCancelReq := hfree _ rfl
    clearCancelReq := hfree _ rfl
    lock := hfree _ rfl
    unlock := hfree _ rfl
    receives := fun _ => hfree _ rfl
    write := fun _ _ _ => hfree _ rfl
    readUsb := fun _ => hfree _ rfl
    latch := fun _ _ _ => hfree _ rfl
    removes := fun _ => ⟨fun _ _ => Or.inl (hfree _ rfl), fun _ => Or.inl (hfree _ rfl),
      fun _ => Or.inl (hfree _ rfl)⟩
    switches := trivial
    rename := fun _ _ _ => hfree _ rfl
    renameEntry := fun _ _ _ => hfree _ rfl
    latchProp := fun _ _ => hfree _ rfl
    adds := trivial
    mkdir := fun _ _ => hfree _ rfl
    makes := trivial
    flag := fun _ _ => hfree _ rfl
    session := fun _ => hfree _ rfl
    init := hfree _ rfl
    root := fun _ _ => hfree _ rfl
    truncate := fun _ _ _ => hfree _ rfl
    dropFsDb := hfree _ rfl
    sees := trivial
    setRdbuffer := fun _ => hfree _ rfl
    setRdbuffer2 := fun _ => hfree _ rfl }

theorem servingRole_keeps (storages : Fin MAX_STORAGE_NB → MtpStorage) :
    servingRole.Keeps (World.handle os) (fun _ _ => True) fun w => w.ctx.storages = storages := by
  refine roleBut_keeps (fun _ _ _ => trivial) (fun c hc => ?_) fun c w hc hw => ?_
  · cases c with
    | setStorage i storage => rfl
    | _ => cases hc
  · rw [Bool.not_eq_true] at hc
    exact (storages_step hc w).trans hw

theorem storages_mtpIncomingPacket (packet : List UInt8) (w : World σ) :
    (exec (World.handle os) (mtpIncomingPacket packet) w).2.ctx.storages = w.ctx.storages :=
  ((made_mtpIncomingPacket servingRole_serves packet).valid (servingRole_keeps _) w rfl).2

theorem storages_inotifyThread (event : InotifyEvent) (w : World σ) :
    (exec (World.handle os) (inotifyThread event) w).2.ctx.storages = w.ctx.storages :=
  ((made_inotifyThread trivial (fun _ => Bool.false_ne_true) event).valid
    (servingRole_keeps _) w rfl).2

-- The messages

theorem storages_mtpPushEvent (event : Nat) (parameters : List Nat) (w : World σ) :
    (exec (World.handle os) (mtpPushEvent event parameters) w).2.ctx.storages =
      w.ctx.storages := by
  have hpush : Uses AnyAnswer (Cmd.Within Footprint.any) (mtpPushEvent event parameters) :=
    uses_mtpPushEvent _ _
  exact storages_within hpush w

theorem storages_umountEntries (storageId fuel : Nat) (start : List EntryPtr) :
    Uses AnyAnswer (fun c => c.isSetStorage = false) (umountEntries storageId fuel start) := by
  induction fuel generalizing start with
  | zero => exact uses_pure _
  | succ fuel ih =>
      have hdrop : ∀ p, Uses AnyAnswer (fun c => c.isSetStorage = false) (dropWatch p) := by
        intro p
        have hwithin : Uses AnyAnswer (Cmd.Within Footprint.any) (dropWatch p) := uses_dropWatch
        exact uses_mono hwithin fun _ => isSetStorage_of_within
      refine uses_bind (uses_cmd rfl) fun ctx => ?_
      cases ctx.db.getEntryByStorageid storageId start with
      | nil => exact uses_pure _
      | cons p next =>
          refine uses_bind (uses_cmd rfl) fun _ => uses_bind (hdrop p) fun _ => ?_
          by_cases hnext : next = []
          · rw [if_neg fun h => h hnext]
            exact uses_pure _
          · rw [if_pos hnext]
            exact ih next

-- The flags of a storage are set behind something that leaves the storages alone.
theorem storages_updateFlag {prog : M Unit}
    (hp : Uses AnyAnswer (fun c => c.isSetStorage = false) prog) (i : Fin MAX_STORAGE_NB)
    (change : BitVec 32 → BitVec 32) (updateFlag : Bool) (w : World σ) :
    (exec (World.handle os) (prog >>= fun _ =>
        if updateFlag = true then setStorageFlags i change else pure ()) w).2.ctx.storages =
      if updateFlag = true then
        Function.update w.ctx.storages i ((w.ctx.storages i).setFlags change)
      else w.ctx.storages := by
  have hsame := @storages_exec _ _ os _ hp w
  rw [bind_eq, exec_bind]
  cases updateFlag with
  | true =>
      change Function.update (exec (World.handle os) prog w).2.ctx.storages i
        (((exec (World.handle os) prog w).2.ctx.storages i).setFlags change) = _
      rw [hsame]
      rfl
  | false => exact hsame

theorem storages_mountStore {i : Fin MAX_STORAGE_NB}
    (hroot : (w.ctx.storages i).rootPath.isSome = true) (updateFlag : Bool) :
    (exec (World.handle os) (mountStore i updateFlag) w).2.ctx.storages =
      if updateFlag = true then Function.update w.ctx.storages i
        ((w.ctx.storages i).setFlags (lower · UMTP_STORAGE_NOTMOUNTED)) else w.ctx.storages := by
  have halloc : Uses AnyAnswer (fun c => c.isSetStorage = false) (do
      let mem ← M.act .entryMemory
      M.db_ (.allocRootEntry mem (w.ctx.storages i).storageId)) :=
    uses_bind (uses_cmd rfl) fun _ => uses_db_ rfl
  rw [mountStore, exec_getCtx_bind, if_pos hroot]
  by_cases hnot : hasFlag (w.ctx.storages i).flags UMTP_STORAGE_NOTMOUNTED = true
  · rw [if_pos hnot]
    exact storages_updateFlag halloc i _ updateFlag w
  · rw [if_neg hnot]
    exact storages_updateFlag (uses_pure ()) i _ updateFlag w

theorem storages_umountStore {i : Fin MAX_STORAGE_NB}
    (hroot : (w.ctx.storages i).rootPath.isSome = true) (updateFlag : Bool) :
    (exec (World.handle os) (umountStore i updateFlag) w).2.ctx.storages =
      if updateFlag = true then Function.update w.ctx.storages i
        ((w.ctx.storages i).setFlags (raise · UMTP_STORAGE_NOTMOUNTED)) else w.ctx.storages := by
  rw [umountStore, exec_getCtx_bind, if_pos hroot]
  exact storages_updateFlag (storages_umountEntries _ _ _) i _ updateFlag w

theorem storages_switchStore (hmutex : os.LocksMutex) {name : CString} {i : Fin MAX_STORAGE_NB}
    (hname : w.ctx.mtpGetStorageIndexByName name = some i)
    {switch : Fin MAX_STORAGE_NB → M Unit} {change : BitVec 32 → BitVec 32}
    (hswitch : ∀ w' : World σ, w'.ctx = w.ctx →
      (exec (World.handle os) (switch i) w').2.ctx.storages =
        Function.update w.ctx.storages i ((w.ctx.storages i).setFlags change)) (event : Nat) :
    (exec (World.handle os) (switchStore name switch event) w).2.ctx.storages =
      Function.update w.ctx.storages i ((w.ctx.storages i).setFlags change) := by
  rw [switchStore, exec_getCtx_bind, hname]
  dsimp only
  rw [exec_act_bind, if_pos (hmutex _).1, bind_eq, exec_bind, bind_eq, exec_bind]
  refine Eq.trans (storages_mtpPushEvent _ _ _) (hswitch _ rfl)

theorem storages_switchLocks (hmutex : os.LocksMutex) (locked : Bool)
    {switch : Fin MAX_STORAGE_NB → M Unit}
    (hswitch : ∀ i (w : World σ), (w.ctx.storages i).rootPath.isSome = true →
      (exec (World.handle os) (switch i) w).2.ctx.storages = w.ctx.storages)
    (change : BitVec 32 → BitVec 32) (event : Nat) {slots : List (Fin MAX_STORAGE_NB)}
    (hnodup : slots.Nodup) (w : World σ) :
    (exec (World.handle os) (switchLocks locked switch change event slots) w).2.ctx.storages =
      fun j => if j ∈ slots then switchLock locked change (w.ctx.storages j)
        else w.ctx.storages j := by
  induction slots generalizing w with
  | nil =>
      funext j
      rw [if_neg List.not_mem_nil]
      rfl
  | cons i rest ih =>
      obtain ⟨hnew, hnodup⟩ := List.nodup_cons.mp hnodup
      -- the slots behind this one still hold what they held
      have hrest : ∀ w' : World σ, w'.ctx.storages =
          Function.update w.ctx.storages i (switchLock locked change (w.ctx.storages i)) →
          (exec (World.handle os) (switchLocks locked switch change event rest)
              w').2.ctx.storages = fun j =>
            if j ∈ i :: rest then switchLock locked change (w.ctx.storages j)
              else w.ctx.storages j := by
        intro w' hw'
        rw [ih hnodup, hw']
        funext j
        by_cases hji : j = i
        · rw [hji, if_neg hnew, if_pos List.mem_cons_self, Function.update_self]
        · simp only [List.mem_cons, hji, false_or, Function.update_of_ne hji]
      rw [switchLocks, exec_getCtx_bind]
      dsimp only
      by_cases hcond : (w.ctx.storages i).rootPath.isSome ∧
          hasFlag (w.ctx.storages i).flags UMTP_STORAGE_LOCKABLE = true ∧
            hasFlag (w.ctx.storages i).flags UMTP_STORAGE_LOCKED = locked
      · rw [if_pos hcond, exec_act_bind, if_pos (hmutex _).1, bind_eq, exec_bind, bind_eq,
          exec_bind, bind_eq, exec_bind, exec_act_bind, if_pos (hmutex _).2]
        refine hrest _ ?_
        rw [switchLock, if_pos hcond]
        refine Eq.trans (storages_mtpPushEvent _ _ _) ?_
        have hheld := hswitch i ⟨w.ctx, (os.act .lockInotifyMutex w.os).2⟩ hcond.1
        change Function.update (exec (World.handle os) (switch i) _).2.ctx.storages i
          (((exec (World.handle os) (switch i) _).2.ctx.storages i).setFlags change) = _
        rw [hheld]
      · rw [if_neg hcond]
        refine hrest w ?_
        rw [switchLock, if_neg hcond, Function.update_eq_self]

-- What an operation makes of the storages.
structure Tracks (op : RegistryOp) (ctx ctx' : MtpCtx) : Prop where
  well : ctx'.WellRegistered
  registry : ctx'.registry = op.apply ctx.registry

section Tracks

variable {ctx' : MtpCtx} {i : Fin MAX_STORAGE_NB} {name : CString}

theorem tracks_nothing (hr : ctx.WellRegistered) (h : ctx'.storages = ctx.storages) :
    Tracks .nothing ctx ctx' where
  well := ⟨h ▸ hr.names, fun j hj => by rw [h] at hj ⊢; exact hr.slotIds j hj⟩
  registry := congrArg (SlotTable.contents MtpStorage.registered MtpStorage.description) h

theorem registry_eq_none (h : ctx.mtpGetStorageIndexByName name = none) :
    ctx.registry name = none := by
  rw [MtpCtx.registry, SlotTable.contents, ← MtpCtx.indexByName_eq, h]
  rfl

theorem registry_eq_some (h : ctx.mtpGetStorageIndexByName name = some i) :
    ctx.registry name = some (ctx.storages i) := by
  rw [MtpCtx.registry, SlotTable.contents, ← MtpCtx.indexByName_eq, h]
  rfl

-- An operation on a name that is not registered.
theorem tracks_unknown {op : RegistryOp} (hr : ctx.WellRegistered)
    (hop : op.apply ctx.registry = Function.update ctx.registry name (ctx.registry name))
    (h : ctx'.storages = ctx.storages) : Tracks op ctx ctx' where
  well := (tracks_nothing hr h).well
  registry := by rw [hop, Function.update_eq_self, (tracks_nothing hr h).registry]; rfl

theorem tracks_remove (hr : ctx.WellRegistered)
    (hname : ctx.mtpGetStorageIndexByName name = some i)
    (h : ctx'.storages = Function.update ctx.storages i freeSlot) :
    Tracks (.remove name) ctx ctx' := by
  obtain ⟨hused, hkey⟩ := SlotTable.lookup_held (ctx.indexByName_eq name ▸ hname)
  refine ⟨⟨h ▸ SlotTable.distinct_free hr.names rfl, fun j hj => ?_⟩, ?_⟩
  · rw [h] at hj ⊢
    by_cases hji : j = i
    · rw [hji, Function.update_self] at hj
      cases hj
    · rw [Function.update_of_ne hji] at hj ⊢
      exact hr.slotIds j hj
  · rw [MtpCtx.registry, h, SlotTable.contents_free hr.names rfl hused, hkey]
    rfl

theorem tracks_setFlags (hr : ctx.WellRegistered)
    (hname : ctx.mtpGetStorageIndexByName name = some i) {change : BitVec 32 → BitVec 32}
    (h : ctx'.storages = Function.update ctx.storages i ((ctx.storages i).setFlags change)) :
    Tracks (.setFlags name change) ctx ctx' := by
  obtain ⟨hused, hkey⟩ := SlotTable.lookup_held (ctx.indexByName_eq name ▸ hname)
  have hnew : ∀ j, j ≠ i → (ctx.storages j).registered = true →
      (ctx.storages j).description ≠ ((ctx.storages i).setFlags change).description :=
    fun j hji hj heq => hji (hr.names j i hj hused heq)
  refine ⟨⟨h ▸ SlotTable.distinct_put hr.names hnew, fun j hj => ?_⟩, ?_⟩
  · rw [h] at hj ⊢
    by_cases hji : j = i
    · rw [hji, Function.update_self]
      exact hr.slotIds i hused
    · rw [Function.update_of_ne hji] at hj ⊢
      exact hr.slotIds j hj
  · have hput := SlotTable.contents_put (v := (ctx.storages i).setFlags change) hr.names hused hnew
      fun _ => rfl
    rw [MtpCtx.registry, h, hput]
    change Function.update ctx.registry (ctx.storages i).description _ = _
    rw [hkey, RegistryOp.apply, registry_eq_some hname]
    rfl

theorem tracks_setLocks (hr : ctx.WellRegistered) {locked : Bool}
    {change : BitVec 32 → BitVec 32}
    (h : ctx'.storages = fun j => switchLock locked change (ctx.storages j)) :
    Tracks (.setLocks locked change) ctx ctx' := by
  have hkept : ∀ storage : MtpStorage,
      (switchLock locked change storage).registered = storage.registered ∧
        (switchLock locked change storage).description = storage.description ∧
        (switchLock locked change storage).storageId = storage.storageId := by
    intro storage
    rw [switchLock]
    split
    · exact ⟨rfl, rfl, rfl⟩
    · exact ⟨rfl, rfl, rfl⟩
  refine ⟨⟨?_, fun j hj => ?_⟩, ?_⟩
  · rw [h]
    exact SlotTable.distinct_map (fun s => (hkept s).1) (fun s => (hkept s).2.1) hr.names
  · rw [h] at hj ⊢
    refine (hkept _).2.2.trans (hr.slotIds j ?_)
    exact (hkept (ctx.storages j)).1.symm.trans hj
  · rw [MtpCtx.registry, h, SlotTable.contents_map (fun s => (hkept s).1) fun s => (hkept s).2.1]
    rfl

theorem tracks_add (hr : ctx.WellRegistered) {storage : MtpStorage}
    (ha : Added ctx ctx' (some (i, storage))) (hused : storage.registered = true)
    (hid : storage.storageId = FIRST_STORAGE_ID + i)
    (hname : ctx.mtpGetStorageIndexByName storage.description = none) :
    Tracks (.add storage) ctx ctx' := by
  have hnone := SlotTable.lookup_eq_none_iff.mp (ctx.indexByName_eq _ ▸ hname)
  obtain ⟨hfree, hput⟩ := ha.put i storage rfl
  -- the slots that are used hold what they held, and the new storage
  have hheld : ∀ j, (ctx'.storages j).registered = true →
      ctx'.storages j = Function.update ctx.storages i storage j := by
    intro j hj
    by_cases hji : j = i
    · rw [hji, Function.update_self, hput]
    · rw [Function.update_of_ne hji]
      rcases ha.storages j hj with heq | heq
      · exact heq
      · exact absurd (congrArg Prod.fst (Option.some.inj heq)).symm hji
  have hheld' : ∀ j, (Function.update ctx.storages i storage j).registered = true →
      ctx'.storages j = Function.update ctx.storages i storage j := by
    intro j hj
    by_cases hji : j = i
    · rw [hji, Function.update_self, hput]
    · rw [Function.update_of_ne hji] at hj ⊢
      exact ha.kept j hj
  have hnew : ∀ j, j ≠ i → (ctx.storages j).registered = true →
      (ctx.storages j).description ≠ storage.description := fun j _ hj => hnone j hj
  have hd := SlotTable.distinct_put hr.names hnew
  refine ⟨⟨SlotTable.distinct_congr hheld hd, fun j hj => ?_⟩, ?_⟩
  · rw [hheld j hj]
    by_cases hji : j = i
    · rw [hji, Function.update_self]
      exact hid
    · have hj' : (Function.update ctx.storages i storage j).registered = true := hheld j hj ▸ hj
      rw [Function.update_of_ne hji] at hj' ⊢
      exact hr.slotIds j hj'
  · rw [MtpCtx.registry, SlotTable.contents_congr hheld hheld' hd,
      SlotTable.contents_put hr.names hused hnew fun hi => ?_]
    · rfl
    · rw [MtpStorage.registered, hfree] at hi
      cases hi

-- Nothing is added.
theorem tracks_refused (hr : ctx.WellRegistered) (ha : Added ctx ctx' none) :
    Tracks .nothing ctx ctx' := by
  have hheld : ∀ j, (ctx'.storages j).registered = true → ctx'.storages j = ctx.storages j := by
    intro j hj
    rcases ha.storages j hj with heq | heq
    · exact heq
    · cases heq
  refine ⟨⟨SlotTable.distinct_congr hheld hr.names, fun j hj => ?_⟩,
    SlotTable.contents_congr hheld ha.kept hr.names⟩
  rw [hheld j hj]
  exact hr.slotIds j (hheld j hj ▸ hj)

end Tracks

theorem newStorage_some {path description : CString} {uid gid : Int} {flags : BitVec 32}
    {i : Fin MAX_STORAGE_NB} {storage : MtpStorage}
    (h : w.newStorage os path description uid gid flags = some (i, storage)) :
    storage.registered = true ∧ storage.storageId = FIRST_STORAGE_ID + i ∧
      w.ctx.mtpGetStorageIdByName storage.description = NO_HANDLE := by
  rw [World.newStorage] at h
  split at h
  · rename_i hname
    obtain ⟨j, -, hput⟩ := Option.bind_eq_some_iff.mp h
    split at hput
    · obtain ⟨rfl, rfl⟩ := Prod.mk.inj (Option.some.inj hput)
      exact ⟨rfl, rfl, hname⟩
    · cases hput
  · cases h

theorem addedStorage_some {text : CString} {i : Fin MAX_STORAGE_NB} {storage : MtpStorage}
    (h : w.addedStorage os text = some (i, storage)) :
    storage.registered = true ∧ storage.storageId = FIRST_STORAGE_ID + i ∧
      w.ctx.mtpGetStorageIdByName storage.description = NO_HANDLE := by
  rw [World.addedStorage] at h
  split at h
  · dsimp only at h
    split at h
    · exact newStorage_some h
    · cases h
  · cases h

-- No storage has the id that stands for none.
theorem MtpCtx.WellRegistered.index_eq_none {name : CString} (hr : ctx.WellRegistered)
    (h : ctx.mtpGetStorageIdByName name = NO_HANDLE) :
    ctx.mtpGetStorageIndexByName name = none := by
  cases hfind : ctx.mtpGetStorageIndexByName name with
  | none => rfl
  | some i =>
      have hid := hr.slotIds i (SlotTable.lookup_held (ctx.indexByName_eq name ▸ hfind)).1
      rw [MtpCtx.mtpGetStorageIdByName, hfind] at h
      dsimp only at h
      have hi := i.isLt
      rw [hid] at h
      unfold FIRST_STORAGE_ID NO_HANDLE at h
      unfold MAX_STORAGE_NB at hi
      omega

theorem tracks_switchStore (hmutex : os.LocksMutex) (hr : w.ctx.WellRegistered) (name : CString)
    {switch : Fin MAX_STORAGE_NB → M Unit} {change : BitVec 32 → BitVec 32}
    (hswitch : ∀ i (w' : World σ), (w'.ctx.storages i).rootPath.isSome = true →
      (exec (World.handle os) (switch i) w').2.ctx.storages =
        Function.update w'.ctx.storages i ((w'.ctx.storages i).setFlags change)) (event : Nat) :
    Tracks (.setFlags name change) w.ctx
      (exec (World.handle os) (switchStore name switch event) w).2.ctx := by
  cases hname : w.ctx.mtpGetStorageIndexByName name with
  | none =>
      refine @tracks_unknown _ _ name _ hr ?_ ?_
      · rw [RegistryOp.apply, registry_eq_none hname]
        rfl
      · rw [switchStore, exec_getCtx_bind, hname]
        rfl
  | some i =>
      have hused := (SlotTable.lookup_held (w.ctx.indexByName_eq name ▸ hname)).1
      refine tracks_setFlags hr hname (storages_switchStore hmutex hname (fun w' hw' => ?_) event)
      rw [hswitch i w' (hw' ▸ hused), hw']

theorem tracks_switchLocks (hmutex : os.LocksMutex) (hr : w.ctx.WellRegistered) (locked : Bool)
    {switch : Fin MAX_STORAGE_NB → M Unit}
    (hswitch : ∀ i (w : World σ), (w.ctx.storages i).rootPath.isSome = true →
      (exec (World.handle os) (switch i) w).2.ctx.storages = w.ctx.storages)
    (change : BitVec 32 → BitVec 32) (event : Nat) :
    Tracks (.setLocks locked change) w.ctx
      (exec (World.handle os) (switchLocks locked switch change event MtpCtx.slots) w).2.ctx := by
  refine tracks_setLocks hr ?_
  rw [@storages_switchLocks _ os hmutex locked _ hswitch change event MtpCtx.slots
    (List.nodup_finRange _) w]
  funext j
  have hj : j ∈ MtpCtx.slots := List.mem_finRange j
  rw [if_pos hj]

theorem tracks_message (hmutex : os.LocksMutex) (hr : w.ctx.WellRegistered) (text : CString) :
    Tracks (w.messageOp os text) w.ctx (World.step os w (.message text)).ctx := by
  rw [World.messageOp]
  by_cases hadd : ADDSTORAGE_MESSAGE.isPrefixOf text = true
  · have ha := @added_message _ os w _ hadd
    rw [if_pos hadd]
    cases hnew : w.addedStorage os text with
    | none => exact tracks_refused hr (hnew ▸ ha)
    | some new =>
        obtain ⟨hused, hid, hname⟩ := @addedStorage_some _ _ _ _ new.1 new.2 hnew
        exact tracks_add hr (hnew ▸ ha) hused hid (hr.index_eq_none hname)
  rw [if_neg hadd]
  change Tracks _ w.ctx (exec (World.handle os) (msgqueueThread text) w).2.ctx
  rw [msgqueueThread, if_neg hadd]
  by_cases hremove : RMSTORAGE_MESSAGE.isPrefixOf text = true
  · rw [if_pos hremove, if_pos hremove, mtpRemoveStorageFromLine]
    cases getParam (text.drop RMSTORAGE_MESSAGE.length) 0 with
    | none => exact tracks_nothing hr rfl
    | some name =>
        dsimp only
        rw [mtpRemoveStorage, exec_getCtx_bind]
        cases hname : w.ctx.mtpGetStorageIndexByName name with
        | none =>
            refine @tracks_unknown _ _ name _ hr ?_ rfl
            rw [RegistryOp.apply, registry_eq_none hname]
        | some i => exact tracks_remove hr hname rfl
  rw [if_neg hremove, if_neg hremove]
  by_cases hmount : MOUNT_MESSAGE.isPrefixOf text = true
  · rw [if_pos hmount, if_pos hmount]
    exact tracks_switchStore hmutex hr _ (fun _ _ hroot => storages_mountStore hroot true) _
  rw [if_neg hmount, if_neg hmount]
  by_cases hunmount : UNMOUNT_MESSAGE.isPrefixOf text = true
  · rw [if_pos hunmount, if_pos hunmount]
    exact tracks_switchStore hmutex hr _ (fun _ _ hroot => storages_umountStore hroot true) _
  rw [if_neg hunmount, if_neg hunmount]
  by_cases hlock : LOCK_MESSAGE.isPrefixOf text = true
  · rw [if_pos hlock, if_pos hlock]
    exact tracks_switchLocks hmutex hr _ (fun _ _ hroot => storages_umountStore hroot false) _ _
  rw [if_neg hlock, if_neg hlock]
  by_cases hunlock : UNLOCK_MESSAGE.isPrefixOf text = true
  · rw [if_pos hunlock, if_pos hunlock]
    exact tracks_switchLocks hmutex hr _ (fun _ _ hroot => storages_mountStore hroot false) _ _
  rw [if_neg hunlock, if_neg hunlock]
  exact tracks_nothing hr rfl

theorem tracks_event (hmutex : os.LocksMutex) (hr : w.ctx.WellRegistered) (event : Event σ) :
    Tracks (w.registryOp os event) w.ctx (World.step os w event).ctx := by
  cases event with
  | packet bytes => exact tracks_nothing hr (storages_mtpIncomingPacket bytes w)
  | inotify event => exact tracks_nothing hr (storages_inotifyThread event w)
  | message text => exact tracks_message hmutex hr text
  | outside change => exact tracks_nothing hr rfl

-- What happens to the storages in a run.
def registryOps (os : Os σ) : World σ → List (Event σ) → List RegistryOp
  | _, [] => []
  | w, event :: rest => w.registryOp os event :: registryOps os (World.step os w event) rest

theorem tracks_run (hmutex : os.LocksMutex) (hr : w.ctx.WellRegistered) (events : List (Event σ)) :
    (run (World.step os) w events).ctx.WellRegistered ∧
      (run (World.step os) w events).ctx.registry =
        (registryOps os w events).foldl (fun registry op => op.apply registry) w.ctx.registry := by
  induction events generalizing w with
  | nil => exact ⟨hr, rfl⟩
  | cons event rest ih =>
      have hstep := tracks_event hmutex hr event
      have hrest := ih hstep.well
      rw [hstep.registry] at hrest
      exact hrest

-- The slots of the storages stand for the storages that were added and not removed
-- since, with the flags they were given, and every lookup by name and by id finds
-- what is registered under it and nothing else.
theorem storage_registry (hmutex : os.LocksMutex) (hr : w.ctx.WellRegistered)
    (events : List (Event σ)) :
    let ctx := (run (World.step os) w events).ctx
    let registry := (registryOps os w events).foldl (fun registry op => op.apply registry)
      w.ctx.registry
    (∀ name i, ctx.mtpGetStorageIndexByName name = some i ↔
      (ctx.storages i).registered = true ∧ (ctx.storages i).description = name) ∧
    (∀ storageId i, ctx.mtpGetStorageIndexById storageId = some i ↔
      (ctx.storages i).registered = true ∧ (ctx.storages i).storageId = storageId) ∧
    ∀ name, (ctx.mtpGetStorageIndexByName name).map ctx.storages = registry name ∧
      ∀ storage, registry name = some storage →
        ctx.mtpGetStorageRoot storage.storageId = storage.rootPath ∧
        ctx.mtpGetStorageDescription storage.storageId = some name ∧
        ctx.mtpGetStorageFlags storage.storageId = storage.flags ∧
        ctx.mtpGetStorageIdByName name = storage.storageId := by
  obtain ⟨hwell, hregistry⟩ := tracks_run hmutex hr events
  refine ⟨fun name i => SlotTable.lookup_eq_some_iff hwell.names,
    fun storageId i => SlotTable.lookup_eq_some_iff hwell.ids, fun name => ?_⟩
  rw [← hregistry]
  refine ⟨rfl, fun storage hstorage => ?_⟩
  obtain ⟨i, hused, rfl, rfl⟩ := (SlotTable.contents_eq_some_iff hwell.names).mp hstorage
  have hid := (SlotTable.lookup_eq_some_iff hwell.ids).mpr ⟨hused, rfl⟩
  have hname := (SlotTable.lookup_eq_some_iff hwell.names).mpr ⟨hused, rfl⟩
  rw [← MtpCtx.indexById_eq] at hid
  rw [← MtpCtx.indexByName_eq] at hname
  refine ⟨?_, ?_, ?_, ?_⟩
  · rw [MtpCtx.mtpGetStorageRoot, hid]
    rfl
  · rw [MtpCtx.mtpGetStorageDescription, hid]
    rfl
  · rw [MtpCtx.mtpGetStorageFlags, hid]
  · rw [MtpCtx.mtpGetStorageIdByName, hname]

-- mtp_op_getstorageids.c

def MtpStorage.available (storage : MtpStorage) : Bool :=
  !hasFlag storage.flags UMTP_STORAGE_NOTMOUNTED && !hasFlag storage.flags UMTP_STORAGE_LOCKED

-- The ids that GetStorageIDs lists, and the array they are sent in.
def MtpCtx.listedIds (ctx : MtpCtx) : List Nat :=
  ctx.availableStorages.map fun i => (ctx.storages i).storageId

def idArray (ids : List Nat) : List UInt8 :=
  littleEndian 4 ids.length ++ ids.flatMap (littleEndian 4)

theorem mem_availableStorages {i : Fin MAX_STORAGE_NB} : i ∈ ctx.availableStorages ↔
    (∀ j, j ≤ i → (ctx.storages j).registered = true) ∧ (ctx.storages i).available = true := by
  rw [MtpCtx.availableStorages, List.mem_filter]
  refine and_congr (SlotTable.mem_takeWhile_iff (fun j => (ctx.storages j).registered) i) ?_
  rw [MtpStorage.available]

theorem length_listedIds_le (ctx : MtpCtx) : ctx.listedIds.length ≤ MAX_STORAGE_NB := by
  have htake : (MtpCtx.slots.takeWhile fun i => (ctx.storages i).rootPath.isSome).length ≤
      MtpCtx.slots.length := (List.takeWhile_sublist _).length_le
  have hslots : MtpCtx.slots.length = MAX_STORAGE_NB := List.length_finRange
  rw [MtpCtx.listedIds, List.length_map, MtpCtx.availableStorages]
  exact (List.length_filter_le _ _).trans (htake.trans hslots.le)

theorem nodup_listedIds (hr : ctx.WellRegistered) : ctx.listedIds.Nodup := by
  refine List.Nodup.map_on (fun i hi j hj hid => ?_) ?_
  · exact hr.ids i j ((mem_availableStorages.mp hi).1 i (le_refl i))
      ((mem_availableStorages.mp hj).1 j (le_refl j)) hid
  · exact ((List.nodup_finRange _).sublist (List.takeWhile_sublist _)).filter _

-- The reply to GetStorageIDs.
theorem reply_mtpOpGetStorageIDs {hdr : Buffer} (hsession : w.ctx.fsDb.isSome = true)
    (hroom : MTP_HEADER_SIZE + 4 + 4 * MAX_STORAGE_NB < w.ctx.usbWrBufferMaxSize)
    (hmax : w.ctx.usbWrBufferMaxSize < 2 ^ 31)
    (hcancel : (os.act .getCancelReq w.os).1 = false) :
    let out := exec (stream os) (mtpOpGetStorageIDs hdr) (w, noStream)
    out.1.1 = MTP_RESPONSE_OK ∧ out.2.2.sent = dataContainer hdr (idArray w.ctx.listedIds) := by
  have hlen := length_listedIds_le w.ctx
  have hflat := length_flatMap_littleEndian 4 w.ctx.listedIds
  have hcount : (w.ctx.listedIds.flatMap (littleEndian 4)).length / 4 = w.ctx.listedIds.length := by
    omega
  have hencodes : Encodes (w.ctx.usbWrBufferMaxSize - MTP_HEADER_SIZE)
      (pokeArray (w.ctx.usbWrBufferMaxSize - MTP_HEADER_SIZE) 4
        (w.ctx.listedIds.flatMap (littleEndian 4)) true) (idArray w.ctx.listedIds) := by
    rw [idArray, ← hcount]
    exact encodes_pokeArray 4 _
  have hne : idArray w.ctx.listedIds ≠ [] :=
    append_ne_nil (by decide) _
  have harray : (idArray w.ctx.listedIds).length = 4 + 4 * w.ctx.listedIds.length := by
    rw [idArray, List.length_append, hflat, littleEndian, List.length_map, List.length_range]
  have hreply := @reply_sendDataset _ os w noStream hdr none
    (fun buffer maxsize => do
      let ctx ← M.getCtx
      let ids := ctx.availableStorages.map fun i => (ctx.storages i).storageId
      return pokeArray maxsize 4 (ids.flatMap (littleEndian 4)) true (buffer, 0))
    (some (idArray w.ctx.listedIds))
    (fun _ _ => uses_bind (uses_cmd trivial) fun _ => uses_pure _)
    (by omega) hmax (hencodes.yields hne) (fun _ h => by cases h)
    (fun h => by cases h) (fun _ => rfl) rfl
  have hfits : MTP_HEADER_SIZE + (idArray w.ctx.listedIds).length < w.ctx.usbWrBufferMaxSize := by
    omega
  have hop : exec (stream os) (mtpOpGetStorageIDs hdr) (w, noStream) =
      exec (stream os) (sendDataset hdr none fun buffer maxsize => do
        let ctx ← M.getCtx
        let ids := ctx.availableStorages.map fun i => (ctx.storages i).storageId
        return pokeArray maxsize 4 (ids.flatMap (littleEndian 4)) true (buffer, 0))
        (w, noStream) := by
    rw [mtpOpGetStorageIDs, inSession, exec_stream_getCtx_bind, if_pos hsession]
  dsimp only
  rw [hop]
  rw [DatasetReply, if_pos hfits] at hreply
  refine ⟨hreply.1, hreply.2.trans (if_neg ?_)⟩
  change ¬(os.act .getCancelReq w.os).1 = true
  rw [hcancel]
  exact Bool.false_ne_true

-- No storage that is available comes behind a free slot.
def MtpCtx.Gapless (ctx : MtpCtx) : Prop :=
  ∀ i j, (ctx.storages i).registered = true → (ctx.storages i).available = true → j < i →
    (ctx.storages j).registered = true

-- GetStorageIDs lists storages that are available, each once. All of them are listed
-- when none comes behind a slot that was freed, and only then.
theorem storage_ids_exact_iff (hmutex : os.LocksMutex) (hr : w.ctx.WellRegistered)
    (events : List (Event σ)) (hdr : Buffer) :
    let w' := run (World.step os) w events
    let registry := (registryOps os w events).foldl (fun registry op => op.apply registry)
      w.ctx.registry
    let out := exec (stream os) (mtpOpGetStorageIDs hdr) (w', noStream)
    w'.ctx.fsDb.isSome = true →
    MTP_HEADER_SIZE + 4 + 4 * MAX_STORAGE_NB < w'.ctx.usbWrBufferMaxSize →
    w'.ctx.usbWrBufferMaxSize < 2 ^ 31 → (os.act .getCancelReq w'.os).1 = false →
    ∃ ids, out.1.1 = MTP_RESPONSE_OK ∧ out.2.2.sent = dataContainer hdr (idArray ids) ∧
      ids.Nodup ∧
      (∀ id ∈ ids, ∃ name storage, registry name = some storage ∧ storage.available = true ∧
        storage.storageId = id) ∧
      ((∀ name storage, registry name = some storage → storage.available = true →
        storage.storageId ∈ ids) ↔ w'.ctx.Gapless) := by
  intro w' registry out hsession hroom hmax hcancel
  obtain ⟨hwell, hregistry⟩ := tracks_run hmutex hr events
  obtain ⟨hcode, hsent⟩ := @reply_mtpOpGetStorageIDs _ os w' hdr hsession hroom hmax hcancel
  have hheld : ∀ name storage, registry name = some storage ↔ ∃ i,
      (w'.ctx.storages i).registered = true ∧ (w'.ctx.storages i).description = name ∧
        w'.ctx.storages i = storage := by
    intro name storage
    have heq : registry = w'.ctx.registry := hregistry.symm
    rw [heq]
    exact SlotTable.contents_eq_some_iff hwell.names
  refine ⟨w'.ctx.listedIds, hcode, hsent, nodup_listedIds hwell, fun id hid => ?_, ?_⟩
  · obtain ⟨i, hi, rfl⟩ := List.mem_map.mp hid
    obtain ⟨hfront, havailable⟩ := mem_availableStorages.mp hi
    exact ⟨_, _, (hheld _ _).mpr ⟨i, hfront i (le_refl i), rfl, rfl⟩, havailable, rfl⟩
  · constructor
    · intro hall i j hi havailable hj
      obtain ⟨l, hl, hid⟩ := List.mem_map.mp
        (hall _ _ ((hheld _ _).mpr ⟨i, hi, rfl, rfl⟩) havailable)
      obtain ⟨hfront, -⟩ := mem_availableStorages.mp hl
      have hli : l = i := hwell.ids l i (hfront l (le_refl l)) hi hid
      exact hfront j (hli ▸ hj.le)
    · intro hgapless name storage hstorage havailable
      obtain ⟨i, hi, -, rfl⟩ := (hheld _ _).mp hstorage
      refine List.mem_map.mpr ⟨i, mem_availableStorages.mpr ⟨fun j hj => ?_, havailable⟩, rfl⟩
      rcases hj.lt_or_eq with hlt | rfl
      · exact hgapless i j hi havailable hlt
      · exact hi

section Samples

theorem memOs_locksMutex : memOs.LocksMutex := fun _ => ⟨rfl, rfl⟩

theorem twoStorages_wellRegistered : twoStorages.ctx.WellRegistered where
  names := by decide +kernel
  slotIds := (initial_startCtx [(A_ROOT, A_STORAGE, 0), (B_ROOT, B_STORAGE, 0)]).2

-- A session is opened, the first storage is removed and the second unmounted.
def switchedStorages : List (Event MemSystem) :=
  [openSession, .message (RMSTORAGE_MESSAGE ++ A_STORAGE), .message (UNMOUNT_MESSAGE ++ B_STORAGE)]

theorem storage_registry_sample :
    let ctx := (run (World.step memOs) twoStorages switchedStorages).ctx
    let registry := (registryOps memOs twoStorages switchedStorages).foldl
      (fun registry op => op.apply registry) twoStorages.ctx.registry
    (∀ name i, ctx.mtpGetStorageIndexByName name = some i ↔
      (ctx.storages i).registered = true ∧ (ctx.storages i).description = name) ∧
    (∀ storageId i, ctx.mtpGetStorageIndexById storageId = some i ↔
      (ctx.storages i).registered = true ∧ (ctx.storages i).storageId = storageId) ∧
    ∀ name, (ctx.mtpGetStorageIndexByName name).map ctx.storages = registry name ∧
      ∀ storage, registry name = some storage →
        ctx.mtpGetStorageRoot storage.storageId = storage.rootPath ∧
        ctx.mtpGetStorageDescription storage.storageId = some name ∧
        ctx.mtpGetStorageFlags storage.storageId = storage.flags ∧
        ctx.mtpGetStorageIdByName name = storage.storageId :=
  storage_registry memOs_locksMutex twoStorages_wellRegistered switchedStorages

def storageIdsRequest : Buffer :=
  Buffer.write (fun _ => 0) 0 (commandPacket MTP_OPERATION_GET_STORAGE_IDS [])

theorem storage_ids_exact_iff_sample :
    let w' := run (World.step memOs) twoStorages switchedStorages
    let registry := (registryOps memOs twoStorages switchedStorages).foldl
      (fun registry op => op.apply registry) twoStorages.ctx.registry
    let out := exec (stream memOs) (mtpOpGetStorageIDs storageIdsRequest) (w', noStream)
    ∃ ids, out.1.1 = MTP_RESPONSE_OK ∧
      out.2.2.sent = dataContainer storageIdsRequest (idArray ids) ∧ ids.Nodup ∧
      (∀ id ∈ ids, ∃ name storage, registry name = some storage ∧ storage.available = true ∧
        storage.storageId = id) ∧
      ((∀ name storage, registry name = some storage → storage.available = true →
        storage.storageId ∈ ids) ↔ w'.ctx.Gapless) :=
  storage_ids_exact_iff memOs_locksMutex twoStorages_wellRegistered switchedStorages
    storageIdsRequest (by decide +kernel) (by decide +kernel) (by decide +kernel)
    (by decide +kernel)

end Samples

end Umtp
