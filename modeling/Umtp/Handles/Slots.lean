import Umtp.Handles.Db
import Umtp.Lib.Runs

namespace Umtp.Handles

open Lib

-- The listed entries are distinct slots of the allocated blocks, and the slots
-- of the head block that are still free are the lowest ones.
structure Slots (db : FsHandlesDb) : Prop where
  nodup : db.entryList.Nodup
  placed : ∀ p ∈ db.entryList, p.index < POOL_BLOCK_SIZE ∧ 0 < p.block ∧ p.block ≤ db.poolHead ∧
    (p.block = db.poolHead → db.poolFreeCount ≤ p.index)
  room : db.poolFreeCount ≤ POOL_BLOCK_SIZE
  head : 0 < db.poolFreeCount → 0 < db.poolHead

-- What a new entry leaves as it was.
structure Allocated (db db' : FsHandlesDb) (p : EntryPtr) (entry : FsEntry) : Prop where
  fresh : p ∉ db.entryList
  entryList : db'.entryList = p :: db.entryList
  pool_self : db'.pool p = entry
  pool_of_ne : ∀ q, q ≠ p → db'.pool q = db.pool q
  searchEntry : db'.searchEntry = db.searchEntry
  handleSearch : db'.handleSearch = db.handleSearch
  storageSearch : db'.storageSearch = db.storageSearch

-- A failed allocation touches no listed entry, no bucket and no cursor.
structure NotAllocated (db db' : FsHandlesDb) : Prop where
  entryList : db'.entryList = db.entryList
  pool : ∀ q ∈ db.entryList, db'.pool q = db.pool q
  hashTableByName : db'.hashTableByName = db.hashTableByName
  hashTableByHandle : db'.hashTableByHandle = db.hashTableByHandle
  nextHandle : db'.nextHandle = db.nextHandle
  searchEntry : db'.searchEntry = db.searchEntry
  handleSearch : db'.handleSearch = db.handleSearch
  storageSearch : db'.storageSearch = db.storageSearch

theorem NotAllocated.refl (db : FsHandlesDb) : NotAllocated db db :=
  ⟨rfl, fun _ _ => rfl, rfl, rfl, rfl, rfl, rfl, rfl⟩

namespace Slots

variable {db : FsHandlesDb}

theorem init : Slots initFsDb := by
  refine ⟨List.nodup_nil, ?_, Nat.zero_le _, ?_⟩
  · intro p hp
    simp [initFsDb] at hp
  · intro hpos
    simp [initFsDb] at hpos

-- The slot taken is inside the head block and no listed entry occupies it.
theorem takeSlot_spec (hs : Slots db) {memory : Bool} {p : EntryPtr} {taken : FsHandlesDb}
    (ht : db.takeSlot memory = some (p, taken)) :
    p.index < POOL_BLOCK_SIZE ∧ p.block = taken.poolHead ∧ 0 < taken.poolHead ∧
      p ∉ db.entryList ∧ taken.poolFreeCount = p.index ∧ db.poolHead ≤ taken.poolHead ∧
      (db.poolHead = taken.poolHead → taken.poolFreeCount < db.poolFreeCount) ∧
      taken = { db.setEntry p FsEntry.zero with
        poolHead := taken.poolHead, poolFreeCount := taken.poolFreeCount } := by
  have hroom := hs.room
  have hblock : POOL_BLOCK_SIZE = 1024 := rfl
  rw [FsHandlesDb.takeSlot] at ht
  split at ht
  · rename_i hempty
    cases memory with
    | false => simp [FsHandlesDb.allocatePoolBlock] at ht
    | true =>
        simp only [FsHandlesDb.allocatePoolBlock, if_true, Option.map_some, Option.some.injEq,
          Prod.mk.injEq] at ht
        obtain ⟨rfl, rfl⟩ := ht
        refine ⟨?_, rfl, Nat.succ_pos _, ?_, rfl, Nat.le_succ _, ?_, rfl⟩
        · show db.poolFreeCount + POOL_BLOCK_SIZE - 1 < POOL_BLOCK_SIZE
          omega
        · -- a listed entry lies in an older block
          intro hp
          have hold : db.poolHead + 1 ≤ db.poolHead := (hs.placed _ hp).2.2.1
          omega
        · intro heq
          have hold : db.poolHead = db.poolHead + 1 := heq
          omega
  · rename_i hfree
    simp only [Option.map_some, Option.some.injEq, Prod.mk.injEq] at ht
    obtain ⟨rfl, rfl⟩ := ht
    refine ⟨?_, rfl, hs.head (Nat.pos_of_ne_zero hfree), ?_, rfl, le_refl _, ?_, rfl⟩
    · show db.poolFreeCount - 1 < POOL_BLOCK_SIZE
      omega
    · -- the listed entries of the head block have larger indices
      intro hp
      have hold : db.poolFreeCount ≤ db.poolFreeCount - 1 := (hs.placed _ hp).2.2.2 rfl
      omega
    · intro _
      show db.poolFreeCount - 1 < db.poolFreeCount
      omega

-- The slots stay in order when the slot taken is listed, when it is lost and
-- when it is given back.
theorem of_takeSlot (hs : Slots db) {memory : Bool} {p : EntryPtr} {taken db' : FsHandlesDb}
    (ht : db.takeSlot memory = some (p, taken)) (hhead : db'.poolHead = taken.poolHead)
    (hcase : db'.entryList = p :: db.entryList ∧ db'.poolFreeCount = taken.poolFreeCount ∨
      db'.entryList = db.entryList ∧ taken.poolFreeCount ≤ db'.poolFreeCount ∧
        db'.poolFreeCount ≤ taken.poolFreeCount + 1) :
    Slots db' := by
  obtain ⟨hindex, hblock, hpos, hfresh, hfree, hle, hless, -⟩ := hs.takeSlot_spec ht
  have hold : ∀ q ∈ db.entryList, q.index < POOL_BLOCK_SIZE ∧ 0 < q.block ∧
      q.block ≤ db'.poolHead ∧ (q.block = db'.poolHead → taken.poolFreeCount + 1 ≤ q.index) := by
    intro q hq
    obtain ⟨hi, hb, hh, hf⟩ := hs.placed q hq
    refine ⟨hi, hb, by omega, fun heq => ?_⟩
    have hsame : db.poolHead = taken.poolHead := by omega
    have hfq := hf (by omega)
    have hlt := hless hsame
    omega
  rcases hcase with ⟨hlist, hcount⟩ | ⟨hlist, hcount, hcount'⟩
  · refine ⟨?_, ?_, by omega, by omega⟩
    · rw [hlist]
      exact List.nodup_cons.mpr ⟨hfresh, hs.nodup⟩
    · intro q hq
      rw [hlist] at hq
      rcases List.mem_cons.mp hq with rfl | hq
      · exact ⟨hindex, by omega, by omega, fun _ => by omega⟩
      · obtain ⟨hi, hb, hh, hf⟩ := hold q hq
        exact ⟨hi, hb, hh, fun heq => by have := hf heq; omega⟩
  · refine ⟨by rw [hlist]; exact hs.nodup, ?_, by omega, by omega⟩
    intro q hq
    rw [hlist] at hq
    obtain ⟨hi, hb, hh, hf⟩ := hold q hq
    exact ⟨hi, hb, hh, fun heq => by have := hf heq; omega⟩

-- The slots do not depend on anything but the list and the pool counters.
theorem congr {db' : FsHandlesDb} (hs : Slots db) (hlist : db'.entryList = db.entryList)
    (hhead : db'.poolHead = db.poolHead) (hfree : db'.poolFreeCount = db.poolFreeCount) :
    Slots db' := by
  refine ⟨by rw [hlist]; exact hs.nodup, ?_, by rw [hfree]; exact hs.room, ?_⟩
  · rw [hlist, hhead, hfree]
    exact hs.placed
  · rw [hfree, hhead]
    exact hs.head

end Slots

namespace FsHandlesDb

variable {db : FsHandlesDb}

-- `alloc_entry` lists a new entry with the next handle, in the buckets of its
-- name and handle, or gives everything back.
theorem allocEntry_cases (hs : Slots db) (mem : AllocMem) (fileinfo : FileFoundInfo)
    (parent storageId : Nat) :
    (∃ p, ∃ db', db.allocEntry mem fileinfo parent storageId = (some p, db') ∧ Slots db' ∧
      Allocated db db' p (newEntry fileinfo db.nextHandle parent storageId) ∧
      db'.nextHandle = (db.nextHandle + 1) % UINT32_SIZE ∧
      db'.hashTableByName = Function.update db.hashTableByName (bucketOfName fileinfo.filename)
        ((db.hashTableByName (bucketOfName fileinfo.filename)).insertEntryGeneric p
          mem.nodeName) ∧
      db'.hashTableByHandle = Function.update db.hashTableByHandle (bucketOfHandle db.nextHandle)
        ((db.hashTableByHandle (bucketOfHandle db.nextHandle)).insertEntryGeneric p
          mem.nodeHandle)) ∨
    (∃ db', db.allocEntry mem fileinfo parent storageId = (none, db') ∧ Slots db' ∧
      NotAllocated db db') := by
  rw [allocEntry]
  split
  · exact Or.inr ⟨db, rfl, hs, NotAllocated.refl db⟩
  · rename_i p taken ht
    obtain ⟨-, -, -, hfresh, -, -, -, htaken⟩ := hs.takeSlot_spec ht
    have hnext : taken.nextHandle = db.nextHandle := by rw [htaken]; rfl
    split
    · refine Or.inl ⟨p, _, rfl, hs.of_takeSlot ht rfl (Or.inl ⟨?_, rfl⟩), ?_, ?_, ?_, ?_⟩
      · rw [htaken]; rfl
      · refine ⟨hfresh, by rw [htaken]; rfl, ?_, ?_, by rw [htaken]; rfl, by rw [htaken]; rfl,
          by rw [htaken]; rfl⟩
        · rw [← hnext]
          exact setEntry_pool_self _ _ _
        · intro q hq
          refine (setEntry_pool_of_ne _ _ hq).trans ?_
          rw [htaken]
          exact setEntry_pool_of_ne _ _ hq
      · rw [← hnext]; rfl
      · simp only [link, insertEntry, setEntry_pool_self]
        rw [htaken]; rfl
      · simp only [link, insertEntry, setEntry_pool_self]
        rw [htaken]; rfl
    · refine Or.inr ⟨_, rfl, hs.of_takeSlot ht rfl (Or.inr ⟨?_, ?_, ?_⟩), ?_⟩
      · rw [htaken]; rfl
      · exact Nat.le_succ _
      · exact le_refl _
      · refine ⟨by rw [htaken]; rfl, ?_, by rw [htaken]; rfl, by rw [htaken]; rfl,
          by rw [htaken]; rfl, by rw [htaken]; rfl, by rw [htaken]; rfl, by rw [htaken]; rfl⟩
        intro q hq
        rw [htaken]
        exact setEntry_pool_of_ne _ _ (fun heq => hfresh (heq ▸ hq))

-- `alloc_root_entry` lists a new entry with handle 0, or loses a slot.
theorem allocRootEntry_cases (hs : Slots db) (mem : AllocMem) (storageId : Nat) :
    (∃ p, ∃ db', db.allocRootEntry mem storageId = (some p, db') ∧ Slots db' ∧
      Allocated db db' p (newRootEntry storageId) ∧ db'.nextHandle = db.nextHandle ∧
      db'.hashTableByName = Function.update db.hashTableByName (bucketOfName [SLASH])
        ((db.hashTableByName (bucketOfName [SLASH])).insertEntryGeneric p mem.nodeName) ∧
      db'.hashTableByHandle = Function.update db.hashTableByHandle (bucketOfHandle 0)
        ((db.hashTableByHandle (bucketOfHandle 0)).insertEntryGeneric p mem.nodeHandle)) ∨
    (∃ db', db.allocRootEntry mem storageId = (none, db') ∧ Slots db' ∧ NotAllocated db db') := by
  rw [allocRootEntry]
  split
  · exact Or.inr ⟨db, rfl, hs, NotAllocated.refl db⟩
  · rename_i p taken ht
    obtain ⟨-, -, -, hfresh, -, -, -, htaken⟩ := hs.takeSlot_spec ht
    split
    · refine Or.inl ⟨p, _, rfl, hs.of_takeSlot ht rfl (Or.inl ⟨?_, rfl⟩), ?_, ?_, ?_, ?_⟩
      · rw [htaken]; rfl
      · refine ⟨hfresh, by rw [htaken]; rfl, setEntry_pool_self _ _ _, ?_, by rw [htaken]; rfl,
          by rw [htaken]; rfl, by rw [htaken]; rfl⟩
        intro q hq
        refine (setEntry_pool_of_ne _ _ hq).trans ?_
        rw [htaken]
        exact setEntry_pool_of_ne _ _ hq
      · rw [htaken]; rfl
      · simp only [link, insertEntry, setEntry_pool_self]
        rw [htaken]; rfl
      · simp only [link, insertEntry, setEntry_pool_self]
        rw [htaken]; rfl
    · refine Or.inr ⟨_, rfl, hs.of_takeSlot ht rfl (Or.inr ⟨?_, ?_, ?_⟩), ?_⟩
      · rw [htaken]; rfl
      · exact le_refl _
      · exact Nat.le_succ _
      · refine ⟨by rw [htaken]; rfl, ?_, by rw [htaken]; rfl, by rw [htaken]; rfl,
          by rw [htaken]; rfl, by rw [htaken]; rfl, by rw [htaken]; rfl, by rw [htaken]; rfl⟩
        intro q hq
        have hne : q ≠ p := fun heq => hfresh (heq ▸ hq)
        refine (setEntry_pool_of_ne _ _ hne).trans ?_
        rw [htaken]
        exact setEntry_pool_of_ne _ _ hne

end FsHandlesDb

end Umtp.Handles
