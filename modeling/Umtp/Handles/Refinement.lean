import Mathlib.Data.List.Perm.Subperm
import Umtp.Handles.Identity
import Umtp.Handles.Index

namespace Umtp.Handles

open Lib

-- What the hash tables are for: each listed entry stands exactly once in the
-- bucket of its name and once in the bucket of its handle, nothing else stands
-- anywhere, and the two lookups see what a walk over the list would see.
structure RefinesList (db : FsHandlesDb) : Prop where
  byName : ∀ i p, (db.hashTableByName i).entries.count p =
    if p ∈ db.entryList ∧ bucketOfName (db.pool p).name = i then 1 else 0
  byHandle : ∀ i p, (db.hashTableByHandle i).entries.count p =
    if p ∈ db.entryList ∧ bucketOfHandle (db.pool p).handle = i then 1 else 0
  findEntry_none : ∀ name parent storageId, db.findEntry name parent storageId = none ↔
    ∀ p, db.Live p → ¬ ((db.pool p).name = name ∧ (db.pool p).parent = parent ∧
      (db.pool p).storageId = storageId)
  findEntry_some : ∀ name parent storageId p, db.findEntry name parent storageId = some p →
    db.Live p ∧ (db.pool p).name = name ∧ (db.pool p).parent = parent ∧
      (db.pool p).storageId = storageId
  getEntryByHandle_none : ∀ storageRoot handle, db.getEntryByHandle storageRoot handle = none ↔
    ∀ p, db.Live p → (db.pool p).handle = handle → storageRoot (db.pool p).storageId = none
  getEntryByHandle_some : ∀ storageRoot handle p,
    db.getEntryByHandle storageRoot handle = some p →
    db.Live p ∧ (db.pool p).handle = handle ∧ (storageRoot (db.pool p).storageId).isSome = true

section Lookups

variable {db : FsHandlesDb}

-- The handle lookup returns listed entries even when insertions have failed.
theorem Stored.getEntryByHandle_live (hst : Stored db)
    {storageRoot : Nat → Option CString} {handle : Nat} {p : EntryPtr}
    (h : db.getEntryByHandle storageRoot handle = some p) :
    db.Live p ∧ (db.pool p).handle = handle ∧
      (storageRoot (db.pool p).storageId).isSome = true := by
  obtain ⟨hlive, hhandle, hroot⟩ := FsHandlesDb.getEntryByHandle_eq_some h
  exact ⟨⟨hst.byHandle.of_find?_eq_some h, hlive⟩, hhandle, hroot⟩

theorem Stored.findEntry_live (hst : Stored db) {name : CString} {parent storageId : Nat}
    {p : EntryPtr} (h : db.findEntry name parent storageId = some p) :
    db.Live p ∧ (db.pool p).name = name ∧ (db.pool p).parent = parent ∧
      (db.pool p).storageId = storageId := by
  obtain ⟨hname, hparent, hsid, hlive⟩ := FsHandlesDb.findEntry_eq_some h
  exact ⟨⟨hst.byName.of_find?_eq_some h, hlive⟩, hname, hparent, hsid⟩

theorem Indexed.findEntry_eq_none (hix : Indexed db) (name : CString) (parent storageId : Nat) :
    db.findEntry name parent storageId = none ↔
      ∀ p, db.Live p → ¬ ((db.pool p).name = name ∧ (db.pool p).parent = parent ∧
        (db.pool p).storageId = storageId) := by
  rw [FsHandlesDb.findEntry]
  refine (hix.byName.find?_eq_none_iff (bucketOfName name) _).trans ?_
  constructor
  · rintro h p ⟨hp, hlive⟩ ⟨hname, hparent, hsid⟩
    have hf := h p hp (congrArg bucketOfName hname)
    simp [hname, hparent, hsid, hlive] at hf
  · intro h p hp hkey
    by_contra hw
    rw [Bool.not_eq_false] at hw
    simp only [Bool.and_eq_true, beq_iff_eq, Bool.not_eq_true'] at hw
    exact h p ⟨hp, hw.2⟩ ⟨hw.1.1.1, hw.1.1.2, hw.1.2⟩

theorem Indexed.getEntryByHandle_eq_none (hix : Indexed db)
    (storageRoot : Nat → Option CString) (handle : Nat) :
    db.getEntryByHandle storageRoot handle = none ↔
      ∀ p, db.Live p → (db.pool p).handle = handle →
        storageRoot (db.pool p).storageId = none := by
  rw [FsHandlesDb.getEntryByHandle]
  refine (hix.byHandle.find?_eq_none_iff (bucketOfHandle handle) _).trans ?_
  constructor
  · rintro h p ⟨hp, hlive⟩ hhandle
    have hf := h p hp (congrArg bucketOfHandle hhandle)
    simpa [hhandle, hlive] using hf
  · intro h p hp hkey
    by_contra hw
    rw [Bool.not_eq_false] at hw
    simp only [Bool.and_eq_true, beq_iff_eq, Bool.not_eq_true'] at hw
    have hnone := h p ⟨hp, hw.1.1⟩ hw.1.2
    rw [hnone] at hw
    exact Bool.false_ne_true hw.2

theorem RefinesList.of_indexed (hst : Stored db) (hix : Indexed db) : RefinesList db where
  byName i p := by
    classical exact (hix.byName.count_eq i p).trans (if_congr Iff.rfl rfl rfl)
  byHandle i p := by
    classical exact (hix.byHandle.count_eq i p).trans (if_congr Iff.rfl rfl rfl)
  findEntry_none := hix.findEntry_eq_none
  findEntry_some _ _ _ _ h := hst.findEntry_live h
  getEntryByHandle_none := hix.getEntryByHandle_eq_none
  getEntryByHandle_some _ _ _ h := hst.getEntryByHandle_live h

end Lookups

namespace DbOp

-- The operation renames a listed entry, if it renames one, and its allocations
-- succeed.
def Sound (db : FsHandlesDb) (op : DbOp) : Prop :=
  op.Enabled db ∧ op.Succeeds

instance (db : FsHandlesDb) (op : DbOp) : Decidable (op.Sound db) :=
  inferInstanceAs (Decidable (op.Enabled db ∧ op.Succeeds))

-- After it, no bucket has to hold more entries than it can.
def Indexable (db : FsHandlesDb) (op : DbOp) : Prop :=
  op.Sound db ∧ BucketsFit (op.step db)

theorem indexed_run (ops : List DbOp) (ha : Allowed step Indexable initFsDb ops) :
    Slots (run step initFsDb ops) ∧ Stored (run step initFsDb ops) ∧
      Indexed (run step initFsDb ops) := by
  refine run_keeps (I := fun db => Slots db ∧ Stored db ∧ Indexed db) ?_ initFsDb ops ha
    ⟨Slots.init, Stored.init, Indexed.init⟩
  rintro db op ⟨hs, hst, hix⟩ ⟨⟨he, hok⟩, hfit⟩
  exact ⟨slots_step hs op, stored_step hs hst op he, indexed_step hs hst hix op he hok hfit⟩

end DbOp

-- As long as no bucket has to hold more than 2^28 entries, the hash tables are
-- indexes of the list in every state of a run.
theorem hash_indexes_refine_list (ops : List DbOp)
    (ha : Allowed DbOp.step DbOp.Indexable initFsDb ops) :
    RefinesList (run DbOp.step initFsDb ops) :=
  RefinesList.of_indexed (DbOp.indexed_run ops ha).2.1 (DbOp.indexed_run ops ha).2.2

theorem sampleOps_indexable : Allowed DbOp.step DbOp.Indexable initFsDb sampleOps := by
  have hfit : ∀ k, k ≤ 5 → BucketsFit (run DbOp.step initFsDb (sampleOps.take k)) := by
    intro k hk
    refine bucketsFit_of_length_le (le_trans ?_ (show 3 ≤ NODE_CAPACITY_LIMIT by decide))
    revert k
    decide
  exact ⟨⟨by decide, hfit 1 (by decide)⟩, ⟨by decide, hfit 2 (by decide)⟩,
    ⟨by decide, hfit 3 (by decide)⟩, ⟨by decide, hfit 4 (by decide)⟩,
    ⟨by decide, hfit 5 (by decide)⟩, trivial⟩

theorem hash_indexes_refine_list_sample : RefinesList (run DbOp.step initFsDb sampleOps) :=
  hash_indexes_refine_list sampleOps sampleOps_indexable

section FullBucket

-- A run that only registers storage roots.
def rootOps (n : Nat) : List DbOp :=
  List.replicate n (.allocRootEntry AllocMem.success 0xFFFF0001)

theorem rootOps_sound (db : FsHandlesDb) (n : Nat) :
    Allowed DbOp.step DbOp.Sound db (rootOps n) := by
  induction n generalizing db with
  | zero => trivial
  | succ n ih =>
      rw [rootOps, List.replicate_succ]
      exact ⟨⟨trivial, rfl⟩, ih _⟩

theorem takeSlot_success (db : FsHandlesDb) : (db.takeSlot true).isSome = true := by
  rw [FsHandlesDb.takeSlot]
  split <;> simp [FsHandlesDb.allocatePoolBlock]

-- Every step lists one more entry, with handle 0.
theorem rootOps_entryList {db : FsHandlesDb} (hs : Slots db)
    (hzero : ∀ p ∈ db.entryList, (db.pool p).handle = 0) (n : Nat) :
    (run DbOp.step db (rootOps n)).entryList.length = db.entryList.length + n ∧
      ∀ p ∈ (run DbOp.step db (rootOps n)).entryList,
        ((run DbOp.step db (rootOps n)).pool p).handle = 0 := by
  induction n generalizing db with
  | zero => exact ⟨rfl, hzero⟩
  | succ n ih =>
      rw [rootOps, List.replicate_succ, run_cons]
      rcases FsHandlesDb.allocRootEntry_cases hs AllocMem.success 0xFFFF0001 with
        ⟨p, db', heq, hs', ha, -⟩ | ⟨db', heq, -⟩
      · rw [DbOp.step, DbOp.apply, heq]
        have hz' : ∀ q ∈ db'.entryList, (db'.pool q).handle = 0 := by
          intro q hq
          rw [ha.entryList] at hq
          rcases List.mem_cons.mp hq with rfl | hq
          · rw [ha.pool_self]
            rfl
          · rw [ha.pool_of_ne q fun hqp => ha.fresh (hqp ▸ hq)]
            exact hzero q hq
        obtain ⟨hlen, hall⟩ := ih hs' hz'
        refine ⟨?_, hall⟩
        refine hlen.trans ?_
        rw [ha.entryList, List.length_cons]
        omega
      · -- the pool block and the name were allocated
        have hnone := congrArg Prod.fst heq
        rw [FsHandlesDb.allocRootEntry] at hnone
        obtain ⟨slot, hslot⟩ := Option.isSome_iff_exists.mp (takeSlot_success db)
        simp [AllocMem.success, hslot] at hnone

-- With 2^28 + 1 roots the bucket of handle 0 is too small, though every
-- allocation has succeeded: `expand_hash_node` refuses to grow it.
theorem not_refinesList_of_full_bucket :
    ¬ ∀ ops, Allowed DbOp.step DbOp.Sound initFsDb ops →
      RefinesList (run DbOp.step initFsDb ops) := by
  intro hall
  have href := hall (rootOps (2 ^ 28 + 1)) (rootOps_sound _ _)
  obtain ⟨hlen, hzero⟩ := rootOps_entryList Slots.init (by simp [initFsDb]) (2 ^ 28 + 1)
  generalize hdb : run DbOp.step initFsDb (rootOps (2 ^ 28 + 1)) = db at href hlen hzero
  have hinv : Slots db ∧ Stored db := by
    rw [← hdb]
    refine run_keeps (I := fun db => Slots db ∧ Stored db) ?_ initFsDb _ (rootOps_sound _ _)
      ⟨Slots.init, Stored.init⟩
    rintro db op ⟨hs, hst⟩ ⟨he, -⟩
    exact ⟨DbOp.slots_step hs op, DbOp.stored_step hs hst op he⟩
  have hsub : db.entryList ⊆ (db.hashTableByHandle (bucketOfHandle 0)).entries := by
    intro p hp
    have hcount := href.byHandle (bucketOfHandle 0) p
    rw [if_pos ⟨hp, by rw [hzero p hp]⟩] at hcount
    exact List.count_pos_iff.mp (by omega)
  have hle := (List.subperm_of_subset hinv.1.nodup hsub).length_le
  have hsound := hinv.2.soundHandle (bucketOfHandle 0)
  have hsize := hsound.size_le
  have hcap := hsound.capacity_le
  have hlimit := node_capacity_limit_eq
  have hinit : initFsDb.entryList.length = 0 := rfl
  omega

end FullBucket

end Umtp.Handles
