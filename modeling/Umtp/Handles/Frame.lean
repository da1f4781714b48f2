import Umtp.Handles.Slots

namespace Umtp.Handles

open Lib

-- What an entry keeps for as long as it is listed.
def FsEntry.identity (entry : FsEntry) : Nat × Nat × Nat :=
  (entry.handle, entry.parent, entry.storageId)

-- Listed entries stay listed, keep their identity and kind, and are never
-- brought back once flagged as deleted.
structure Frozen (db db' : FsHandlesDb) : Prop where
  suffix : db.entryList <:+ db'.entryList
  identity : ∀ p ∈ db.entryList, (db'.pool p).identity = (db.pool p).identity
  isDir : ∀ p ∈ db.entryList, (db'.pool p).isDir = (db.pool p).isDir
  deleted : ∀ p ∈ db.entryList, (db.pool p).isDeleted = true → (db'.pool p).isDeleted = true

namespace Frozen

variable {db db' db'' : FsHandlesDb}

theorem refl (db : FsHandlesDb) : Frozen db db :=
  ⟨List.suffix_rfl, fun _ _ => rfl, fun _ _ => rfl, fun _ _ hd => hd⟩

theorem mem (hf : Frozen db db') {p : EntryPtr} (hp : p ∈ db.entryList) : p ∈ db'.entryList :=
  hf.suffix.subset hp

theorem trans (hf : Frozen db db') (hf' : Frozen db' db'') : Frozen db db'' where
  suffix := hf.suffix.trans hf'.suffix
  identity p hp := (hf'.identity p (hf.mem hp)).trans (hf.identity p hp)
  isDir p hp := (hf'.isDir p (hf.mem hp)).trans (hf.isDir p hp)
  deleted p hp hd := hf'.deleted p (hf.mem hp) (hf.deleted p hp hd)

-- A change of anything but the list and the entries.
theorem of_eq (hlist : db'.entryList = db.entryList) (hpool : db'.pool = db.pool) :
    Frozen db db' := by
  refine ⟨hlist ▸ List.suffix_rfl, ?_, ?_, ?_⟩ <;> intro q _
  · rw [hpool]
  · rw [hpool]
  · rw [hpool]
    exact id

-- Writing one entry is harmless when the new value keeps what is frozen.
theorem setEntry (db : FsHandlesDb) (p : EntryPtr) (entry : FsEntry)
    (hid : entry.identity = (db.pool p).identity) (hdir : entry.isDir = (db.pool p).isDir)
    (hdel : (db.pool p).isDeleted = true → entry.isDeleted = true) :
    Frozen db (db.setEntry p entry) := by
  have hcase : ∀ q, q = p ∧ (db.setEntry p entry).pool q = entry ∨
      (db.setEntry p entry).pool q = db.pool q := by
    intro q
    by_cases hq : q = p
    · exact Or.inl ⟨hq, by rw [hq, FsHandlesDb.setEntry_pool_self]⟩
    · exact Or.inr (FsHandlesDb.setEntry_pool_of_ne _ _ hq)
  refine ⟨List.suffix_rfl, fun q _ => ?_, fun q _ => ?_, fun q _ => ?_⟩
  · rcases hcase q with ⟨rfl, hq⟩ | hq
    · rw [hq, hid]
    · rw [hq]
  · rcases hcase q with ⟨rfl, hq⟩ | hq
    · rw [hq, hdir]
    · rw [hq]
  · rcases hcase q with ⟨rfl, hq⟩ | hq
    · rw [hq]
      exact hdel
    · rw [hq]
      exact id

end Frozen

theorem Allocated.frozen {db db' : FsHandlesDb} {p : EntryPtr} {entry : FsEntry}
    (ha : Allocated db db' p entry) : Frozen db db' := by
  have hpool : ∀ q ∈ db.entryList, db'.pool q = db.pool q :=
    fun q hq => ha.pool_of_ne q fun heq => ha.fresh (heq ▸ hq)
  refine ⟨by rw [ha.entryList]; exact List.suffix_cons _ _, ?_, ?_, ?_⟩ <;> intro q hq
  · rw [hpool q hq]
  · rw [hpool q hq]
  · rw [hpool q hq]
    exact id

theorem NotAllocated.frozen {db db' : FsHandlesDb} (hn : NotAllocated db db') :
    Frozen db db' := by
  refine ⟨hn.entryList ▸ List.suffix_rfl, ?_, ?_, ?_⟩ <;> intro q hq
  · rw [hn.pool q hq]
  · rw [hn.pool q hq]
  · rw [hn.pool q hq]
    exact id

namespace FsHandlesDb

variable (db : FsHandlesDb)

@[simp] theorem insertEntry_entryList (mem : AllocMem) (p : EntryPtr) :
    (db.insertEntry mem p).entryList = db.entryList := rfl

@[simp] theorem insertEntry_pool (mem : AllocMem) (p : EntryPtr) :
    (db.insertEntry mem p).pool = db.pool := rfl

@[simp] theorem removeEntry_pool (p : EntryPtr) : (db.removeEntry p).pool = db.pool := rfl

@[simp] theorem renameEntry_entryList (mem : AllocMem) (p : EntryPtr) (name : CString) :
    (db.renameEntry mem p name).entryList = db.entryList := rfl

theorem renameEntry_pool (mem : AllocMem) (p : EntryPtr) (name : CString) :
    (db.renameEntry mem p name).pool =
      (db.setEntry p { db.pool p with name := name }).pool := rfl

@[simp] theorem initSearchHandle_entryList (parent storageId : Nat) :
    (db.initSearchHandle parent storageId).entryList = db.entryList := rfl

@[simp] theorem initSearchHandle_pool (parent storageId : Nat) :
    (db.initSearchHandle parent storageId).pool = db.pool := rfl

-- `get_next_child_handle` only moves the cursor.
theorem getNextChildHandle_snd :
    db.getNextChildHandle.2 = { db with searchEntry := db.getNextChildHandle.2.searchEntry } := by
  rw [getNextChildHandle]
  split <;> rfl

end FsHandlesDb

namespace DbOp

variable {db : FsHandlesDb}

-- Only the two allocations take slots.
theorem slots_step (hs : Slots db) (op : DbOp) : Slots (op.step db) := by
  cases op with
  | allocEntry mem fileinfo parent storageId =>
      rcases FsHandlesDb.allocEntry_cases hs mem fileinfo parent storageId with
        ⟨p, db', heq, hs', -⟩ | ⟨db', heq, hs', -⟩
      all_goals
        rw [step, apply, heq]
        exact hs'
  | allocRootEntry mem storageId =>
      rcases FsHandlesDb.allocRootEntry_cases hs mem storageId with
        ⟨p, db', heq, hs', -⟩ | ⟨db', heq, hs', -⟩
      all_goals
        rw [step, apply, heq]
        exact hs'
  | getNextChildHandle =>
      rw [step, apply, FsHandlesDb.getNextChildHandle_snd]
      exact hs.congr rfl rfl rfl
  | _ => exact hs.congr rfl rfl rfl

theorem frozen_step (hs : Slots db) (op : DbOp) : Frozen db (op.step db) := by
  cases op with
  | allocEntry mem fileinfo parent storageId =>
      rcases FsHandlesDb.allocEntry_cases hs mem fileinfo parent storageId with
        ⟨p, db', heq, -, ha, -⟩ | ⟨db', heq, -, hn⟩
      · rw [step, apply, heq]
        exact ha.frozen
      · rw [step, apply, heq]
        exact hn.frozen
  | allocRootEntry mem storageId =>
      rcases FsHandlesDb.allocRootEntry_cases hs mem storageId with
        ⟨p, db', heq, -, ha, -⟩ | ⟨db', heq, -, hn⟩
      · rw [step, apply, heq]
        exact ha.frozen
      · rw [step, apply, heq]
        exact hn.frozen
  | renameEntry mem p name =>
      have hf := Frozen.setEntry db p { db.pool p with name := name } rfl rfl id
      exact ⟨hf.suffix, hf.identity, hf.isDir, hf.deleted⟩
  | setDeleted p =>
      exact Frozen.setEntry db p _ rfl (FsEntry.isDir_setDeleted _)
        fun _ => FsEntry.isDeleted_setDeleted _
  | setSize p size => exact Frozen.setEntry db p _ rfl rfl id
  | setFileDescriptor p fileDescriptor => exact Frozen.setEntry db p _ rfl rfl id
  | setWatchDescriptor p watchDescriptor => exact Frozen.setEntry db p _ rfl rfl id
  | initSearchHandle parent storageId => exact Frozen.of_eq rfl rfl
  | getNextChildHandle =>
      rw [step, apply, FsHandlesDb.getNextChildHandle_snd]
      exact Frozen.of_eq rfl rfl

-- What an operation does to an entry that is listed before it.
def change (q : EntryPtr) (entry : FsEntry) : DbOp → FsEntry
  | renameEntry _ p name => if q = p then { entry with name := name } else entry
  | setDeleted p => if q = p then entry.setDeleted else entry
  | setSize p size => if q = p then { entry with size := size } else entry
  | setFileDescriptor p fileDescriptor =>
    if q = p then { entry with fileDescriptor := fileDescriptor } else entry
  | setWatchDescriptor p watchDescriptor =>
    if q = p then { entry with watchDescriptor := watchDescriptor } else entry
  | _ => entry

-- The entry it lists, if it lists one.
def created (db : FsHandlesDb) : DbOp → Option FsEntry
  | allocEntry _ fileinfo parent storageId =>
    some (FsHandlesDb.newEntry fileinfo db.nextHandle parent storageId)
  | allocRootEntry _ storageId => some (FsHandlesDb.newRootEntry storageId)
  | _ => none

theorem pool_setEntry (db : FsHandlesDb) (p q : EntryPtr) (f : FsEntry → FsEntry) :
    (db.setEntry p (f (db.pool p))).pool q = if q = p then f (db.pool q) else db.pool q := by
  by_cases hq : q = p
  · rw [if_pos hq, hq, FsHandlesDb.setEntry_pool_self]
  · rw [if_neg hq, FsHandlesDb.setEntry_pool_of_ne _ _ hq]

theorem pool_step (hs : Slots db) (op : DbOp) {q : EntryPtr} (hq : q ∈ db.entryList) :
    (op.step db).pool q = op.change q (db.pool q) := by
  cases op with
  | allocEntry mem fileinfo parent storageId =>
      rcases FsHandlesDb.allocEntry_cases hs mem fileinfo parent storageId with
        ⟨p, db', heq, -, ha, -⟩ | ⟨db', heq, -, hn⟩
      · rw [step, apply, heq]
        exact ha.pool_of_ne q fun hqp => ha.fresh (hqp ▸ hq)
      · rw [step, apply, heq]
        exact hn.pool q hq
  | allocRootEntry mem storageId =>
      rcases FsHandlesDb.allocRootEntry_cases hs mem storageId with
        ⟨p, db', heq, -, ha, -⟩ | ⟨db', heq, -, hn⟩
      · rw [step, apply, heq]
        exact ha.pool_of_ne q fun hqp => ha.fresh (hqp ▸ hq)
      · rw [step, apply, heq]
        exact hn.pool q hq
  | getNextChildHandle =>
      rw [step, apply, FsHandlesDb.getNextChildHandle_snd]
      rfl
  | initSearchHandle parent storageId => rfl
  | renameEntry mem p name => exact pool_setEntry db p q fun entry => { entry with name := name }
  | setDeleted p => exact pool_setEntry db p q FsEntry.setDeleted
  | setSize p size => exact pool_setEntry db p q fun entry => { entry with size := size }
  | setFileDescriptor p fileDescriptor =>
      exact pool_setEntry db p q fun entry => { entry with fileDescriptor := fileDescriptor }
  | setWatchDescriptor p watchDescriptor =>
      exact pool_setEntry db p q fun entry => { entry with watchDescriptor := watchDescriptor }

theorem listed_step (hs : Slots db) (op : DbOp) {p : EntryPtr}
    (hp : p ∈ (op.step db).entryList) :
    p ∈ db.entryList ∨ p ∉ db.entryList ∧ op.created db = some ((op.step db).pool p) := by
  cases op with
  | allocEntry mem fileinfo parent storageId =>
      rcases FsHandlesDb.allocEntry_cases hs mem fileinfo parent storageId with
        ⟨q, db', heq, -, ha, -⟩ | ⟨db', heq, -, hn⟩
      · rw [step, apply, heq] at hp ⊢
        rcases List.mem_cons.mp (ha.entryList ▸ hp) with rfl | hp
        · exact Or.inr ⟨ha.fresh, congrArg some ha.pool_self.symm⟩
        · exact Or.inl hp
      · rw [step, apply, heq] at hp
        exact Or.inl (hn.entryList ▸ hp)
  | allocRootEntry mem storageId =>
      rcases FsHandlesDb.allocRootEntry_cases hs mem storageId with
        ⟨q, db', heq, -, ha, -⟩ | ⟨db', heq, -, hn⟩
      · rw [step, apply, heq] at hp ⊢
        rcases List.mem_cons.mp (ha.entryList ▸ hp) with rfl | hp
        · exact Or.inr ⟨ha.fresh, congrArg some ha.pool_self.symm⟩
        · exact Or.inl hp
      · rw [step, apply, heq] at hp
        exact Or.inl (hn.entryList ▸ hp)
  | getNextChildHandle =>
      rw [step, apply, FsHandlesDb.getNextChildHandle_snd] at hp
      exact Or.inl hp
  | _ => exact Or.inl hp

-- Only the marking of an entry brings its flags to another value.
theorem flags_step (hs : Slots db) (op : DbOp) {q : EntryPtr} (hq : q ∈ db.entryList)
    (hne : op ≠ setDeleted q) : ((op.step db).pool q).flags = (db.pool q).flags := by
  rw [pool_step hs op hq]
  cases op with
  | setDeleted p =>
      have hqp : q ≠ p := fun heq => hne (heq ▸ rfl)
      rw [change, if_neg hqp]
  | allocEntry mem fileinfo parent storageId => rfl
  | allocRootEntry mem storageId => rfl
  | initSearchHandle parent storageId => rfl
  | getNextChildHandle => rfl
  | _ =>
      simp only [change]
      split <;> rfl

-- An entry has a watch point when it had it before, or when it is given one.
theorem watch_step (hs : Slots db) (op : DbOp) {p : EntryPtr}
    (hp : p ∈ (op.step db).entryList) :
    (((op.step db).pool p).watchDescriptor = -1 ∨
      op = setWatchDescriptor p ((op.step db).pool p).watchDescriptor) ∨
    p ∈ db.entryList ∧ ((op.step db).pool p).watchDescriptor = (db.pool p).watchDescriptor := by
  rcases listed_step hs op hp with hmem | ⟨-, hcreated⟩
  · rw [pool_step hs op hmem]
    cases op with
    | setWatchDescriptor q wd =>
        by_cases hq : p = q
        · subst hq
          exact Or.inl (Or.inr (by simp [change]))
        · exact Or.inr ⟨hmem, by rw [change, if_neg hq]⟩
    | allocEntry mem fileinfo parent storageId => exact Or.inr ⟨hmem, rfl⟩
    | allocRootEntry mem storageId => exact Or.inr ⟨hmem, rfl⟩
    | initSearchHandle parent storageId => exact Or.inr ⟨hmem, rfl⟩
    | getNextChildHandle => exact Or.inr ⟨hmem, rfl⟩
    | _ =>
        refine Or.inr ⟨hmem, ?_⟩
        simp only [change]
        split <;> rfl
  · refine Or.inl (Or.inl ?_)
    cases op with
    | allocEntry mem fileinfo parent storageId =>
        rw [← Option.some.inj hcreated]
        rfl
    | allocRootEntry mem storageId =>
        rw [← Option.some.inj hcreated]
        rfl
    | _ => simp [created] at hcreated

theorem live_step (hs : Slots db) (op : DbOp) {q : EntryPtr} (hq : db.Live q)
    (hne : op ≠ setDeleted q) : (op.step db).Live q := by
  refine ⟨(frozen_step hs op).mem hq.1, ?_⟩
  rw [FsEntry.isDeleted, flags_step hs op hq.1 hne]
  exact hq.2

theorem slots_run (hs : Slots db) (ops : List DbOp) : Slots (run step db ops) := by
  induction ops generalizing db with
  | nil => exact hs
  | cons op rest ih => exact ih (slots_step hs op)

theorem frozen_run (hs : Slots db) (ops : List DbOp) : Frozen db (run step db ops) := by
  induction ops generalizing db with
  | nil => exact Frozen.refl db
  | cons op rest ih => exact (frozen_step hs op).trans (ih (slots_step hs op))

end DbOp

-- The entries the lookups of the database can return.
inductive Found (db : FsHandlesDb) : EntryPtr → Prop
  | byHandle {storageRoot : Nat → Option CString} {handle : Nat} {p : EntryPtr}
    (h : db.getEntryByHandle storageRoot handle = some p) : Found db p
  | byHandleAndStorageid {handle storageId : Nat} {p : EntryPtr}
    (h : db.getEntryByHandleAndStorageid handle storageId = some p) : Found db p
  | byName {name : CString} {parent storageId : Nat} {p : EntryPtr}
    (h : db.findEntry name parent storageId = some p) : Found db p
  | byChildIteration {p : EntryPtr} (h : db.getNextChildHandle.1 = some p) : Found db p
  | byWd {watchDescriptor : Int} {start : List EntryPtr} {p : EntryPtr}
    (h : (db.getEntryByWd watchDescriptor start).head? = some p) : Found db p
  | byStorageid {storageId : Nat} {start : List EntryPtr} {p : EntryPtr}
    (h : (db.getEntryByStorageid storageId start).head? = some p) : Found db p

namespace FsHandlesDb

variable {db : FsHandlesDb}

theorem getEntryByHandle_eq_some {storageRoot : Nat → Option CString} {handle : Nat}
    {p : EntryPtr} (h : db.getEntryByHandle storageRoot handle = some p) :
    (db.pool p).isDeleted = false ∧ (db.pool p).handle = handle ∧
      (storageRoot (db.pool p).storageId).isSome = true := by
  have hp := List.find?_some h
  simpa [and_assoc] using hp

theorem getEntryByHandleAndStorageid_eq_some {handle storageId : Nat} {p : EntryPtr}
    (h : db.getEntryByHandleAndStorageid handle storageId = some p) :
    p ∈ db.entryList ∧ (db.pool p).isDeleted = false ∧ (db.pool p).handle = handle ∧
      (db.pool p).storageId = storageId := by
  have hp := List.find?_some h
  exact ⟨List.mem_of_find?_eq_some h, by simpa [and_assoc] using hp⟩

theorem findEntry_eq_some {name : CString} {parent storageId : Nat} {p : EntryPtr}
    (h : db.findEntry name parent storageId = some p) :
    (db.pool p).name = name ∧ (db.pool p).parent = parent ∧ (db.pool p).storageId = storageId ∧
      (db.pool p).isDeleted = false := by
  have hp := List.find?_some h
  simpa [and_assoc] using hp

-- The entry after which the cursor stands is the first one left that the
-- search wants.
theorem getNextChildHandle_eq_some {p : EntryPtr} (h : db.getNextChildHandle.1 = some p) :
    db.searchEntry.dropWhile (fun q => !db.isSearchedChild q) =
        p :: db.getNextChildHandle.2.searchEntry ∧
      db.isSearchedChild p = true := by
  rw [getNextChildHandle] at h ⊢
  split at h
  · simp at h
  · rename_i q next hq
    obtain rfl : q = p := Option.some.inj h
    rw [hq]
    refine ⟨rfl, ?_⟩
    have hhead := List.head?_dropWhile_not (fun q => !db.isSearchedChild q) db.searchEntry
    simpa [hq] using hhead

theorem getNextChildHandle_mem {p : EntryPtr} (h : db.getNextChildHandle.1 = some p) :
    p ∈ db.searchEntry := by
  have hmem : p ∈ db.searchEntry.dropWhile fun q => !db.isSearchedChild q := by
    rw [(getNextChildHandle_eq_some h).1]
    exact List.mem_cons_self
  exact (List.dropWhile_suffix _).subset hmem

-- The cursor only moves towards the end of the list.
theorem getNextChildHandle_suffix :
    db.getNextChildHandle.2.searchEntry <:+ db.searchEntry := by
  have hdrop := List.dropWhile_suffix (fun q => !db.isSearchedChild q) (l := db.searchEntry)
  rw [getNextChildHandle]
  split
  · exact List.nil_suffix
  · rename_i p next heq
    rw [heq] at hdrop
    exact (List.suffix_cons p next).trans hdrop

theorem walkFrom_head? {start : List EntryPtr} {wanted : FsEntry → Bool} {p : EntryPtr}
    (h : (db.walkFrom start wanted).head? = some p) :
    (db.pool p).isDeleted = false ∧ wanted (db.pool p) = true := by
  rw [walkFrom] at h
  generalize (if start = [] then db.entryList else start) = from_ at h
  have hall := List.head?_dropWhile_not (fun q => !(!(db.pool q).isDeleted && wanted (db.pool q)))
    from_
  rw [h] at hall
  simpa using hall

theorem getEntryByHandle_congr {db' : FsHandlesDb} (storageRoot : Nat → Option CString)
    (htable : db'.hashTableByHandle = db.hashTableByHandle)
    (hdel : ∀ p, (db'.pool p).isDeleted = (db.pool p).isDeleted)
    (hhandle : ∀ p, (db'.pool p).handle = (db.pool p).handle)
    (hid : ∀ p, (db'.pool p).storageId = (db.pool p).storageId) (handle : Nat) :
    db'.getEntryByHandle storageRoot handle = db.getEntryByHandle storageRoot handle := by
  simp only [getEntryByHandle, htable, hdel, hhandle, hid]

end FsHandlesDb

-- Neither the list nor what the lookups compare is changed.
@[simp] def DbOp.keepsLookups : DbOp → Bool
  | .setSize _ _ | .setFileDescriptor _ _ | .setWatchDescriptor _ _ | .initSearchHandle _ _
  | .getNextChildHandle => true
  | _ => false

theorem DbOp.getEntryByHandle_step (db : FsHandlesDb) (storageRoot : Nat → Option CString)
    {op : DbOp} (hop : op.keepsLookups = true) (handle : Nat) :
    (op.step db).getEntryByHandle storageRoot handle = db.getEntryByHandle storageRoot handle := by
  have hset : ∀ p entry, entry.isDeleted = (db.pool p).isDeleted →
      entry.handle = (db.pool p).handle → entry.storageId = (db.pool p).storageId →
      (db.setEntry p entry).getEntryByHandle storageRoot handle =
        db.getEntryByHandle storageRoot handle := by
    intro p entry hdel hhandle hid
    exact @FsHandlesDb.getEntryByHandle_congr db (db.setEntry p entry) storageRoot rfl
      (db.setEntry_keeps_key FsEntry.isDeleted p hdel)
      (db.setEntry_keeps_key FsEntry.handle p hhandle)
      (db.setEntry_keeps_key FsEntry.storageId p hid) handle
  cases op with
  | setSize p size => exact hset p _ rfl rfl rfl
  | setFileDescriptor p fileDescriptor => exact hset p _ rfl rfl rfl
  | setWatchDescriptor p watchDescriptor => exact hset p _ rfl rfl rfl
  | initSearchHandle parent storageId => rfl
  | getNextChildHandle =>
      rw [step, apply, FsHandlesDb.getNextChildHandle_snd]
      rfl
  | _ => simp at hop

-- The slot of the pool that the operation takes and clears.
def DbOp.slot (db : FsHandlesDb) : DbOp → Option EntryPtr
  | allocEntry mem _ _ _ | allocRootEntry mem _ => (db.takeSlot mem.poolBlock).map Prod.fst
  | _ => none

-- A slot that is taken is cleared, and no other one.
theorem FsHandlesDb.fileDescriptor_takeSlot {db taken : FsHandlesDb} {memory : Bool} {p : EntryPtr}
    (h : db.takeSlot memory = some (p, taken)) (q : EntryPtr) :
    p = q ∧ (taken.pool q).fileDescriptor = 0 ∨
      p ≠ q ∧ (taken.pool q).fileDescriptor = (db.pool q).fileDescriptor := by
  rw [takeSlot, Option.map_eq_some_iff] at h
  obtain ⟨ready, hready, heq⟩ := h
  have hpool : ready.pool = db.pool := by
    split at hready
    · rw [allocatePoolBlock] at hready
      split at hready
      · cases hready
        rfl
      · cases hready
    · cases hready
      rfl
  cases heq
  by_cases hq : ⟨ready.poolHead, ready.poolFreeCount - 1⟩ = q
  · subst hq
    exact Or.inl ⟨rfl, by rw [setEntry_pool_self, FsEntry.zero]⟩
  · refine Or.inr ⟨hq, ?_⟩
    rw [setEntry_pool_of_ne _ _ (Ne.symm hq)]
    exact congrArg (fun pool => (pool q).fileDescriptor) hpool

-- Only one operation gives a slot a descriptor. Those that allocate clear it.
theorem DbOp.fileDescriptor_step (db : FsHandlesDb) {op : DbOp}
    (hop : ∀ p file, op ≠ .setFileDescriptor p file) (q : EntryPtr) :
    op.slot db = some q ∧ ((op.step db).pool q).fileDescriptor = 0 ∨
      op.slot db ≠ some q ∧
        ((op.step db).pool q).fileDescriptor = (db.pool q).fileDescriptor := by
  have htaken : ∀ {taken : FsHandlesDb} {memory : Bool} {p : EntryPtr},
      db.takeSlot memory = some (p, taken) →
      (db.takeSlot memory).map Prod.fst = some q ∧ (taken.pool q).fileDescriptor = 0 ∨
        (db.takeSlot memory).map Prod.fst ≠ some q ∧
          (taken.pool q).fileDescriptor = (db.pool q).fileDescriptor := by
    intro taken memory p htake
    rw [htake, Option.map_some, Ne, Option.some_inj]
    exact FsHandlesDb.fileDescriptor_takeSlot htake q
  have hfill : ∀ {taken filled : FsHandlesDb} {memory : Bool} {p : EntryPtr} (entry : FsEntry),
      db.takeSlot memory = some (p, taken) → entry.fileDescriptor = 0 →
      filled.pool = (taken.setEntry p entry).pool →
      (db.takeSlot memory).map Prod.fst = some q ∧ (filled.pool q).fileDescriptor = 0 ∨
        (db.takeSlot memory).map Prod.fst ≠ some q ∧
          (filled.pool q).fileDescriptor = (db.pool q).fileDescriptor := by
    intro taken filled memory p entry htake hentry hfilled
    rw [hfilled]
    by_cases hq : q = p
    · subst hq
      exact Or.inl ⟨by rw [htake, Option.map_some],
        by rw [FsHandlesDb.setEntry_pool_self, hentry]⟩
    · rw [FsHandlesDb.setEntry_pool_of_ne _ _ hq]
      exact htaken htake
  cases op with
  | allocEntry mem fileinfo parent storageId =>
      rw [step, apply, FsHandlesDb.allocEntry]
      split
      · rename_i htake
        exact Or.inr ⟨by rw [slot, htake]; simp, rfl⟩
      · rename_i p taken htake
        split
        · exact hfill (FsHandlesDb.newEntry fileinfo taken.nextHandle parent storageId) htake
            rfl rfl
        · exact @htaken taken _ p htake
  | allocRootEntry mem storageId =>
      rw [step, apply, FsHandlesDb.allocRootEntry]
      split
      · rename_i htake
        exact Or.inr ⟨by rw [slot, htake]; simp, rfl⟩
      · rename_i p taken htake
        split
        · exact hfill (FsHandlesDb.newRootEntry storageId) htake rfl rfl
        · exact hfill { FsEntry.zero with storageId := storageId } htake rfl rfl
  | renameEntry mem p name =>
      exact Or.inr ⟨by simp [slot], @FsHandlesDb.setEntry_keeps_key (db.removeEntry p) _
        FsEntry.fileDescriptor p { (db.removeEntry p).pool p with name := name } rfl q⟩
  | setDeleted p =>
      exact Or.inr ⟨by simp [slot], @FsHandlesDb.setEntry_keeps_key db _
        FsEntry.fileDescriptor p (db.pool p).setDeleted rfl q⟩
  | setSize p size =>
      exact Or.inr ⟨by simp [slot], @FsHandlesDb.setEntry_keeps_key db _
        FsEntry.fileDescriptor p { db.pool p with size := size } rfl q⟩
  | setFileDescriptor p file => exact absurd rfl (hop p file)
  | setWatchDescriptor p wd =>
      exact Or.inr ⟨by simp [slot], @FsHandlesDb.setEntry_keeps_key db _
        FsEntry.fileDescriptor p { db.pool p with watchDescriptor := wd } rfl q⟩
  | initSearchHandle parent storageId => exact Or.inr ⟨by simp [slot], rfl⟩
  | getNextChildHandle =>
      refine Or.inr ⟨by simp [slot], ?_⟩
      rw [step, apply, FsHandlesDb.getNextChildHandle_snd]

open FsHandlesDb in
theorem Found.not_deleted {db : FsHandlesDb} {p : EntryPtr} (hf : Found db p) :
    (db.pool p).isDeleted = false := by
  cases hf with
  | byHandle h => exact (getEntryByHandle_eq_some h).1
  | byHandleAndStorageid h => exact (getEntryByHandleAndStorageid_eq_some h).2.1
  | byName h => exact (findEntry_eq_some h).2.2.2
  | byChildIteration h =>
      have hc := (getNextChildHandle_eq_some h).2
      simp only [isSearchedChild, Bool.and_eq_true, Bool.not_eq_true'] at hc
      exact hc.1.1.1
  | byWd h => exact (walkFrom_head? h).1
  | byStorageid h => exact (walkFrom_head? h).1

end Umtp.Handles
