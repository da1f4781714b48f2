import Umtp.Handles.Frame

namespace Umtp.Handles

open Lib

-- The database and the entries that `alloc_entry` has returned, newest first.
-- The other entries of the list are storage roots.
def DbOp.record (session : FsHandlesDb × List EntryPtr) (op : DbOp) :
    FsHandlesDb × List EntryPtr :=
  (op.step session.1,
    match op with
    | .allocEntry .. => (op.apply session.1).1.toList ++ session.2
    | _ => session.2)

-- Handles are numbered from 1 in the order of allocation.
structure Numbered (db : FsHandlesDb) (objects : List EntryPtr) : Prop where
  nextHandle : db.nextHandle = objects.length + 1
  fewer : objects.length ≤ db.entryList.length
  listed : ∀ p ∈ objects, p ∈ db.entryList
  roots : ∀ p ∈ db.entryList, p ∉ objects → (db.pool p).handle = 0 ∧ (db.pool p).parent = 0
  handles : ∀ p ∈ objects, 0 < (db.pool p).handle ∧ (db.pool p).handle < db.nextHandle
  distinct : ∀ p ∈ objects, ∀ q ∈ objects, (db.pool p).handle = (db.pool q).handle → p = q

namespace Numbered

variable {db db' : FsHandlesDb} {objects : List EntryPtr}

theorem init : Numbered initFsDb [] :=
  ⟨rfl, le_refl _, by simp, by simp [initFsDb], by simp, by simp⟩

theorem handle_eq (hf : Frozen db db') {p : EntryPtr} (hp : p ∈ db.entryList) :
    (db'.pool p).handle = (db.pool p).handle ∧ (db'.pool p).parent = (db.pool p).parent := by
  have hid := hf.identity p hp
  simp only [FsEntry.identity, Prod.mk.injEq] at hid
  exact ⟨hid.1, hid.2.1⟩

-- Nothing is allocated.
theorem keep (hn : Numbered db objects) (hf : Frozen db db')
    (hlist : db'.entryList = db.entryList) (hnext : db'.nextHandle = db.nextHandle) :
    Numbered db' objects := by
  refine ⟨by rw [hnext]; exact hn.nextHandle, by rw [hlist]; exact hn.fewer,
    by rw [hlist]; exact hn.listed, ?_, ?_, ?_⟩
  · intro p hp hobj
    rw [hlist] at hp
    rw [(handle_eq hf hp).1, (handle_eq hf hp).2]
    exact hn.roots p hp hobj
  · intro p hp
    rw [(handle_eq hf (hn.listed p hp)).1, hnext]
    exact hn.handles p hp
  · intro p hp q hq
    rw [(handle_eq hf (hn.listed p hp)).1, (handle_eq hf (hn.listed q hq)).1]
    exact hn.distinct p hp q hq

theorem push_root (hn : Numbered db objects) {p : EntryPtr} {storageId : Nat}
    (ha : Allocated db db' p (FsHandlesDb.newRootEntry storageId))
    (hnext : db'.nextHandle = db.nextHandle) : Numbered db' objects := by
  have hlisted : ∀ q ∈ objects, q ∈ db'.entryList := fun q hq => ha.frozen.mem (hn.listed q hq)
  refine ⟨by rw [hnext]; exact hn.nextHandle, ?_, hlisted, ?_, ?_, ?_⟩
  · rw [ha.entryList, List.length_cons]
    exact Nat.le_succ_of_le hn.fewer
  · intro q hq hobj
    rw [ha.entryList] at hq
    rcases List.mem_cons.mp hq with rfl | hq
    · rw [ha.pool_self]
      exact ⟨rfl, rfl⟩
    · rw [(handle_eq ha.frozen hq).1, (handle_eq ha.frozen hq).2]
      exact hn.roots q hq hobj
  · intro q hq
    rw [(handle_eq ha.frozen (hn.listed q hq)).1, hnext]
    exact hn.handles q hq
  · intro q hq r hr
    rw [(handle_eq ha.frozen (hn.listed q hq)).1, (handle_eq ha.frozen (hn.listed r hr)).1]
    exact hn.distinct q hq r hr

-- A new object takes a handle above all others as long as the counter does not
-- wrap.
theorem push_object (hn : Numbered db objects) {p : EntryPtr} {fileinfo : FileFoundInfo}
    {parent storageId : Nat}
    (ha : Allocated db db' p
      (FsHandlesDb.newEntry fileinfo db.nextHandle parent storageId))
    (hnext : db'.nextHandle = (db.nextHandle + 1) % UINT32_SIZE)
    (hlen : db'.entryList.length < UINT32_SIZE - 1) : Numbered db' (p :: objects) := by
  have hcount := hn.nextHandle
  have hfewer := hn.fewer
  have hgrow : db'.entryList.length = db.entryList.length + 1 := by
    rw [ha.entryList, List.length_cons]
  have hnowrap : db'.nextHandle = db.nextHandle + 1 := by
    rw [hnext]
    exact Nat.mod_eq_of_lt (by omega)
  have hself : (db'.pool p).handle = db.nextHandle := by
    rw [ha.pool_self]
    rfl
  have hold : ∀ q ∈ objects, (db'.pool q).handle = (db.pool q).handle :=
    fun q hq => (handle_eq ha.frozen (hn.listed q hq)).1
  refine ⟨by rw [hnowrap, hcount, List.length_cons], ?_, ?_, ?_, ?_, ?_⟩
  · rw [hgrow, List.length_cons]
    exact Nat.succ_le_succ hfewer
  · intro q hq
    rw [ha.entryList]
    rcases List.mem_cons.mp hq with rfl | hq
    · exact List.mem_cons_self
    · exact List.mem_cons_of_mem _ (hn.listed q hq)
  · intro q hq hobj
    rw [ha.entryList] at hq
    rcases List.mem_cons.mp hq with rfl | hq
    · exact absurd List.mem_cons_self hobj
    · rw [(handle_eq ha.frozen hq).1, (handle_eq ha.frozen hq).2]
      exact hn.roots q hq fun hm => hobj (List.mem_cons_of_mem _ hm)
  · intro q hq
    rcases List.mem_cons.mp hq with rfl | hq
    · omega
    · have hb := hn.handles q hq
      rw [hold q hq]
      omega
  · -- an older object has a smaller handle than the new one
    have hless : ∀ q ∈ objects, (db'.pool q).handle ≠ (db'.pool p).handle := by
      intro q hq
      have hb := hn.handles q hq
      rw [hold q hq, hself]
      omega
    intro q hq r hr heq
    rcases List.mem_cons.mp hq with hqp | hqo <;> rcases List.mem_cons.mp hr with hrp | hro
    · rw [hqp, hrp]
    · rw [hqp] at heq
      exact absurd heq.symm (hless r hro)
    · rw [hrp] at heq
      exact absurd heq (hless q hqo)
    · rw [hold q hqo, hold r hro] at heq
      exact hn.distinct q hqo r hro heq

end Numbered

namespace DbOp

theorem numbered_record {session : FsHandlesDb × List EntryPtr} (hs : Slots session.1)
    (hn : Numbered session.1 session.2) (op : DbOp)
    (hlen : (record session op).1.entryList.length < UINT32_SIZE - 1) :
    Numbered (record session op).1 (record session op).2 := by
  obtain ⟨db, objects⟩ := session
  cases op with
  | allocEntry mem fileinfo parent storageId =>
      rcases FsHandlesDb.allocEntry_cases hs mem fileinfo parent storageId with
        ⟨p, db', heq, -, ha, hnext, -⟩ | ⟨db', heq, -, hnot⟩
      · simp only [record, step, apply, heq] at hlen ⊢
        exact hn.push_object ha hnext hlen
      · simp only [record, step, apply, heq]
        exact hn.keep hnot.frozen hnot.entryList hnot.nextHandle
  | allocRootEntry mem storageId =>
      rcases FsHandlesDb.allocRootEntry_cases hs mem storageId with
        ⟨p, db', heq, -, ha, hnext, -⟩ | ⟨db', heq, -, hnot⟩
      · simp only [record, step, apply, heq]
        exact hn.push_root ha hnext
      · simp only [record, step, apply, heq]
        exact hn.keep hnot.frozen hnot.entryList hnot.nextHandle
  | getNextChildHandle =>
      refine hn.keep (frozen_step hs getNextChildHandle) ?_ ?_ <;>
        simp only [record, step, apply] <;> rw [FsHandlesDb.getNextChildHandle_snd]
  | renameEntry mem p name => exact hn.keep (frozen_step hs (renameEntry mem p name)) rfl rfl
  | setDeleted p => exact hn.keep (frozen_step hs (setDeleted p)) rfl rfl
  | setSize p size => exact hn.keep (frozen_step hs (setSize p size)) rfl rfl
  | setFileDescriptor p fd => exact hn.keep (frozen_step hs (setFileDescriptor p fd)) rfl rfl
  | setWatchDescriptor p wd => exact hn.keep (frozen_step hs (setWatchDescriptor p wd)) rfl rfl
  | initSearchHandle parent storageId =>
      exact hn.keep (frozen_step hs (initSearchHandle parent storageId)) rfl rfl

theorem record_fst (session : FsHandlesDb × List EntryPtr) (ops : List DbOp) :
    (run record session ops).1 = run step session.1 ops := by
  induction ops generalizing session with
  | nil => rfl
  | cons op rest ih => exact ih (record session op)

theorem numbered_run {session : FsHandlesDb × List EntryPtr} (hs : Slots session.1)
    (hn : Numbered session.1 session.2) (ops : List DbOp)
    (hlen : (run record session ops).1.entryList.length < UINT32_SIZE - 1) :
    Numbered (run record session ops).1 (run record session ops).2 := by
  induction ops generalizing session with
  | nil => exact hn
  | cons op rest ih =>
      -- the list never shrinks, so the bound holds after the first step too
      have hs' : Slots (record session op).1 := slots_step hs op
      refine ih hs' (numbered_record hs hn op ?_) hlen
      have hgrow := (frozen_run hs' rest).suffix.length_le
      rw [run_cons, record_fst] at hlen
      omega

end DbOp

-- In a session of fewer than 2^32 - 2 entries the objects keep distinct handles,
-- slots and identities, and a deleted entry is never found again.
theorem handles_designate_one_object (ops : List DbOp) :
    let db := (run DbOp.record (initFsDb, []) ops).1
    let objects := (run DbOp.record (initFsDb, []) ops).2
    db.entryList.length < 2 ^ 32 - 2 →
    (∀ p ∈ db.entryList, p ∉ objects → (db.pool p).handle = 0 ∧ (db.pool p).parent = 0) ∧
    (∀ p ∈ objects, p ∈ db.entryList ∧ (db.pool p).handle ≠ 0 ∧
      (db.pool p).handle ≠ 0xFFFFFFFF) ∧
    (∀ p ∈ objects, ∀ q ∈ objects, (db.pool p).handle = (db.pool q).handle → p = q) ∧
    db.entryList.Nodup ∧
    (∀ memory p taken, db.takeSlot memory = some (p, taken) →
      p.index < POOL_BLOCK_SIZE ∧ p.block = taken.poolHead ∧ 0 < taken.poolHead ∧
        p ∉ db.entryList) ∧
    ∀ later, ∀ p ∈ db.entryList,
      ((run DbOp.step db later).pool p).handle = (db.pool p).handle ∧
      ((run DbOp.step db later).pool p).parent = (db.pool p).parent ∧
      ((run DbOp.step db later).pool p).storageId = (db.pool p).storageId ∧
      ((db.pool p).isDeleted = true → ¬ Found (run DbOp.step db later) p) := by
  intro db objects hlen
  have hsize : UINT32_SIZE = 2 ^ 32 := rfl
  have hs : Slots db := by
    rw [show db = run DbOp.step initFsDb ops from DbOp.record_fst _ ops]
    exact DbOp.slots_run Slots.init ops
  have hn : Numbered db objects :=
    DbOp.numbered_run Slots.init Numbered.init ops (lt_of_lt_of_le hlen (by omega))
  refine ⟨hn.roots, ?_, hn.distinct, hs.nodup, ?_, ?_⟩
  · intro p hp
    have hb := hn.handles p hp
    have hc := hn.nextHandle
    have hf := hn.fewer
    exact ⟨hn.listed p hp, by omega, by omega⟩
  · intro memory p taken ht
    obtain ⟨hindex, hblock, hpos, hfresh, -⟩ := hs.takeSlot_spec ht
    exact ⟨hindex, hblock, hpos, hfresh⟩
  · intro later p hp
    have hf := DbOp.frozen_run hs later
    have hid := hf.identity p hp
    simp only [FsEntry.identity, Prod.mk.injEq] at hid
    refine ⟨hid.1, hid.2.1, hid.2.2, fun hd hfound => ?_⟩
    have hdel := hf.deleted p hp hd
    rw [hfound.not_deleted] at hdel
    exact Bool.false_ne_true hdel

-- A storage root, a folder in it, a file in the folder that is renamed, and the
-- folder marked as deleted.
def sampleOps : List DbOp :=
  [.allocRootEntry AllocMem.success 0xFFFF0001,
    .allocEntry AllocMem.success ⟨true, [0x64], 0⟩ 0 0xFFFF0001,
    .allocEntry AllocMem.success ⟨false, [0x66], 5⟩ 1 0xFFFF0001,
    .renameEntry AllocMem.success ⟨1, 1021⟩ [0x67],
    .setDeleted ⟨1, 1022⟩]

-- The folder is not found again when another of its name is added.
theorem handles_designate_one_object_sample :
    ¬ Found (run DbOp.step (run DbOp.record (initFsDb, []) sampleOps).1
      [.allocEntry AllocMem.success ⟨true, [0x64], 0⟩ 0 0xFFFF0001]) ⟨1, 1022⟩ :=
  ((handles_designate_one_object sampleOps (by decide)).2.2.2.2.2
    [.allocEntry AllocMem.success ⟨true, [0x64], 0⟩ 0 0xFFFF0001] ⟨1, 1022⟩
    (by decide)).2.2.2 (by decide)

end Umtp.Handles
