import Umtp.Handles.Frame
import Umtp.Lib.Buckets

namespace Umtp.Handles

open Lib

theorem node_capacity_limit_eq : NODE_CAPACITY_LIMIT = 2 ^ 28 := by decide

-- A bucket holds at most its capacity, which is 0 or a power of two up to the
-- limit.
structure HashNode.Sound (node : HashNode) : Prop where
  size_le : node.entries.length ≤ node.capacity
  shape : node.capacity = 0 ∨ ∃ k, k ≤ 28 ∧ node.capacity = 2 ^ k

namespace HashNode

variable {node : HashNode}

theorem Sound.empty : Sound ⟨[], 0⟩ :=
  ⟨le_refl _, Or.inl rfl⟩

theorem Sound.capacity_le (hs : node.Sound) : node.capacity ≤ NODE_CAPACITY_LIMIT := by
  rw [node_capacity_limit_eq]
  rcases hs.shape with h0 | ⟨k, hk, hc⟩
  · omega
  · rw [hc]
    exact Nat.pow_le_pow_right (by omega) hk

theorem sound_init (hs : node.Sound) {memory : Bool} {ready : HashNode}
    (hi : node.init memory = some ready) :
    ready.Sound ∧ ready.entries = node.entries ∧ 0 < ready.capacity := by
  rw [init] at hi
  split at hi
  · rename_i h0
    split at hi
    · obtain rfl : ⟨[], INITIAL_NODE_CAPACITY⟩ = ready := Option.some.inj hi
      have hempty : node.entries = [] := by
        have hsize := hs.size_le
        exact List.eq_nil_of_length_eq_zero (by omega)
      exact ⟨⟨Nat.zero_le _, Or.inr ⟨2, by omega, rfl⟩⟩, hempty.symm, by decide⟩
    · cases hi
  · rename_i hpos
    obtain rfl : node = ready := Option.some.inj hi
    exact ⟨hs, rfl, Nat.pos_of_ne_zero hpos⟩

theorem sound_expand (hs : node.Sound) (hpos : 0 < node.capacity) {memory : Bool}
    {larger : HashNode} (he : node.expand memory = some larger) :
    larger.entries = node.entries ∧ node.capacity < larger.capacity ∧
      ∃ k, k ≤ 28 ∧ larger.capacity = 2 ^ k := by
  have hlimit := node_capacity_limit_eq
  rw [expand] at he
  split at he
  · cases he
  · rename_i hsmall
    split at he
    · obtain rfl := Option.some.inj he
      rcases hs.shape with h0 | ⟨k, hk, hc⟩
      · omega
      · have hlt : k < 28 := by
          by_contra hge
          obtain rfl : k = 28 := by omega
          omega
        refine ⟨rfl, ?_, k + 1, hlt, ?_⟩
        · show node.capacity < node.capacity * NODE_GROWTH_FACTOR
          rw [show NODE_GROWTH_FACTOR = 2 from rfl]
          omega
        · show node.capacity * NODE_GROWTH_FACTOR = 2 ^ (k + 1)
          rw [hc, Nat.pow_succ]
          rfl
    · cases he

-- An insertion appends the entry or leaves the bucket's entries as they are.
theorem insertEntryGeneric_cases (hs : node.Sound) (p : EntryPtr) (memory : Bool) :
    (node.insertEntryGeneric p memory).Sound ∧
      ((node.insertEntryGeneric p memory).entries = node.entries ∨
        (node.insertEntryGeneric p memory).entries = node.entries ++ [p]) := by
  rw [insertEntryGeneric]
  split
  · exact ⟨hs, Or.inl rfl⟩
  · rename_i ready hi
    obtain ⟨hr, hentries, hpos⟩ := sound_init hs hi
    have hsize := hr.size_le
    split
    · rename_i hfull
      split
      · exact ⟨hr, Or.inl hentries⟩
      · rename_i larger he
        obtain ⟨hl, hgrow, hshape⟩ := sound_expand hr hpos he
        refine ⟨⟨?_, Or.inr hshape⟩, Or.inr ?_⟩
        · show (larger.entries ++ [p]).length ≤ larger.capacity
          rw [hl, List.length_append, List.length_singleton]
          omega
        · show larger.entries ++ [p] = node.entries ++ [p]
          rw [hl, hentries]
    · rename_i hroom
      refine ⟨⟨?_, hr.shape⟩, Or.inr ?_⟩
      · show (ready.entries ++ [p]).length ≤ ready.capacity
        rw [List.length_append, List.length_singleton]
        omega
      · show ready.entries ++ [p] = node.entries ++ [p]
        rw [hentries]

-- Growth is refused only to a bucket that holds as many entries as the limit.
theorem insertEntryGeneric_entries (hs : node.Sound) (p : EntryPtr)
    (hroom : node.entries.length < NODE_CAPACITY_LIMIT) :
    (node.insertEntryGeneric p true).entries = node.entries ++ [p] := by
  rw [insertEntryGeneric]
  split
  · rename_i hi
    rw [init] at hi
    split at hi
    · simp at hi
    · cases hi
  · rename_i ready hi
    obtain ⟨hr, hentries, -⟩ := sound_init hs hi
    rw [← hentries] at hroom
    split
    · rename_i hfull
      have hcap : ¬ NODE_CAPACITY_LIMIT ≤ ready.capacity := by omega
      simp [expand, hcap, hentries]
    · simp [hentries]

theorem sound_removeEntryGeneric (hs : node.Sound) (p : EntryPtr) :
    (node.removeEntryGeneric p).Sound := by
  refine ⟨?_, hs.shape⟩
  show (node.entries.erase p).length ≤ node.capacity
  exact le_trans List.length_erase_le hs.size_le

end HashNode

-- The entries of the buckets.
def entriesOf (table : Fin HASH_TABLE_SIZE → HashNode) : Fin HASH_TABLE_SIZE → List EntryPtr :=
  fun i => (table i).entries

section Tables

variable {table : Fin HASH_TABLE_SIZE → HashNode} (i : Fin HASH_TABLE_SIZE) (p : EntryPtr)

theorem entriesOf_update (node : HashNode) :
    entriesOf (Function.update table i node) =
      Function.update (entriesOf table) i node.entries := by
  funext j
  by_cases hj : j = i
  · subst hj
    simp [entriesOf]
  · simp [entriesOf, Function.update_of_ne hj]

theorem sound_update {node : HashNode} (hs : ∀ j, (table j).Sound) (hn : node.Sound) :
    ∀ j, (Function.update table i node j).Sound := by
  intro j
  by_cases hj : j = i
  · subst hj
    rwa [Function.update_self]
  · rw [Function.update_of_ne hj]
    exact hs j

theorem entriesOf_insert (hs : ∀ j, (table j).Sound) (memory : Bool) :
    entriesOf (Function.update table i ((table i).insertEntryGeneric p memory)) =
        entriesOf table ∨
      Appends (entriesOf table)
        (entriesOf (Function.update table i ((table i).insertEntryGeneric p memory))) i p := by
  rw [entriesOf_update]
  rcases (HashNode.insertEntryGeneric_cases (hs i) p memory).2 with he | he
  · exact Or.inl (by rw [he]; exact Function.update_eq_self i _)
  · exact Or.inr (by rw [he]; rfl)

theorem entriesOf_insert_room (hs : ∀ j, (table j).Sound)
    (hroom : (entriesOf table i).length < NODE_CAPACITY_LIMIT) :
    Appends (entriesOf table)
      (entriesOf (Function.update table i ((table i).insertEntryGeneric p true))) i p := by
  rw [entriesOf_update, HashNode.insertEntryGeneric_entries (hs i) p hroom]
  rfl

theorem entriesOf_remove :
    entriesOf (Function.update table i ((table i).removeEntryGeneric p)) =
      erased (entriesOf table) i p := by
  rw [entriesOf_update]
  rfl

end Tables

namespace FsHandlesDb

variable (db : FsHandlesDb)

def listed : Set EntryPtr := {p | p ∈ db.entryList}

def nameKey (p : EntryPtr) : Fin HASH_TABLE_SIZE := bucketOfName (db.pool p).name

def handleKey (p : EntryPtr) : Fin HASH_TABLE_SIZE := bucketOfHandle (db.pool p).handle

end FsHandlesDb

-- The buckets are sound and hold listed entries only.
structure Stored (db : FsHandlesDb) : Prop where
  byName : Stores (entriesOf db.hashTableByName) db.nameKey db.listed
  byHandle : Stores (entriesOf db.hashTableByHandle) db.handleKey db.listed
  soundName : ∀ i, (db.hashTableByName i).Sound
  soundHandle : ∀ i, (db.hashTableByHandle i).Sound

-- Both hash tables are indexes of the list.
structure Indexed (db : FsHandlesDb) : Prop where
  byName : Indexes (entriesOf db.hashTableByName) db.nameKey db.listed
  byHandle : Indexes (entriesOf db.hashTableByHandle) db.handleKey db.listed

-- No more listed entries share a bucket than a bucket can hold.
def BucketsFit (db : FsHandlesDb) : Prop :=
  ∀ i, db.entryList.countP (fun p => db.nameKey p = i) ≤ NODE_CAPACITY_LIMIT ∧
    db.entryList.countP (fun p => db.handleKey p = i) ≤ NODE_CAPACITY_LIMIT

theorem bucketsFit_of_length_le {db : FsHandlesDb}
    (hlen : db.entryList.length ≤ NODE_CAPACITY_LIMIT) : BucketsFit db :=
  fun _ => ⟨List.countP_le_length.trans hlen, List.countP_le_length.trans hlen⟩

theorem Stored.init : Stored initFsDb :=
  ⟨Stores.empty _ _, Stores.empty _ _, fun _ => HashNode.Sound.empty,
    fun _ => HashNode.Sound.empty⟩

theorem Indexed.init : Indexed initFsDb := by
  have hnone : initFsDb.listed = ∅ := by
    ext p
    simp [FsHandlesDb.listed, initFsDb]
  constructor <;> rw [hnone] <;> exact Indexes.empty _

section Steps

variable {db db' : FsHandlesDb}

-- A step that leaves the list, the names, the handles and the buckets alone.
theorem Stored.keep (hst : Stored db) (hlist : db'.entryList = db.entryList)
    (hname : ∀ q ∈ db.entryList, (db'.pool q).name = (db.pool q).name)
    (hhandle : ∀ q ∈ db.entryList, (db'.pool q).handle = (db.pool q).handle)
    (htn : db'.hashTableByName = db.hashTableByName)
    (hth : db'.hashTableByHandle = db.hashTableByHandle) : Stored db' := by
  have hl : db'.listed = db.listed := by
    simp only [FsHandlesDb.listed, hlist]
  refine ⟨?_, ?_, by rw [htn]; exact hst.soundName, by rw [hth]; exact hst.soundHandle⟩
  · rw [htn, hl]
    exact hst.byName.congr_key fun q hq => congrArg bucketOfName (hname q hq)
  · rw [hth, hl]
    exact hst.byHandle.congr_key fun q hq => congrArg bucketOfHandle (hhandle q hq)

theorem Indexed.keep (hix : Indexed db) (hlist : db'.entryList = db.entryList)
    (hname : ∀ q ∈ db.entryList, (db'.pool q).name = (db.pool q).name)
    (hhandle : ∀ q ∈ db.entryList, (db'.pool q).handle = (db.pool q).handle)
    (htn : db'.hashTableByName = db.hashTableByName)
    (hth : db'.hashTableByHandle = db.hashTableByHandle) : Indexed db' := by
  have hl : db'.listed = db.listed := by
    simp only [FsHandlesDb.listed, hlist]
  constructor
  · rw [htn, hl]
    exact hix.byName.congr_key fun q hq => congrArg bucketOfName (hname q hq)
  · rw [hth, hl]
    exact hix.byHandle.congr_key fun q hq => congrArg bucketOfHandle (hhandle q hq)

variable {p : EntryPtr} {entry : FsEntry} {mem : AllocMem}

theorem Allocated.listed_eq (ha : Allocated db db' p entry) : db'.listed = insert p db.listed := by
  ext q
  simp [FsHandlesDb.listed, ha.entryList]

theorem Allocated.nameKey_eq (ha : Allocated db db' p entry) :
    ∀ q ∈ db.listed, db'.nameKey q = db.nameKey q := by
  intro q hq
  rw [FsHandlesDb.nameKey, ha.pool_of_ne q fun heq => ha.fresh (heq ▸ hq)]
  rfl

theorem Allocated.handleKey_eq (ha : Allocated db db' p entry) :
    ∀ q ∈ db.listed, db'.handleKey q = db.handleKey q := by
  intro q hq
  rw [FsHandlesDb.handleKey, ha.pool_of_ne q fun heq => ha.fresh (heq ▸ hq)]
  rfl

-- The entry is allocated and put in the buckets of its name and handle.
theorem Stored.push (hst : Stored db) (ha : Allocated db db' p entry)
    (htn : db'.hashTableByName = Function.update db.hashTableByName (bucketOfName entry.name)
      ((db.hashTableByName (bucketOfName entry.name)).insertEntryGeneric p mem.nodeName))
    (hth : db'.hashTableByHandle = Function.update db.hashTableByHandle
      (bucketOfHandle entry.handle)
      ((db.hashTableByHandle (bucketOfHandle entry.handle)).insertEntryGeneric p
        mem.nodeHandle)) : Stored db' := by
  have hself := ha.pool_self
  refine ⟨?_, ?_, ?_, ?_⟩
  · rw [ha.listed_eq]
    refine hst.byName.push ha.fresh ha.nameKey_eq ?_
    rw [htn, FsHandlesDb.nameKey, hself]
    exact entriesOf_insert _ p hst.soundName _
  · rw [ha.listed_eq]
    refine hst.byHandle.push ha.fresh ha.handleKey_eq ?_
    rw [hth, FsHandlesDb.handleKey, hself]
    exact entriesOf_insert _ p hst.soundHandle _
  · rw [htn]
    exact sound_update _ hst.soundName
      (HashNode.insertEntryGeneric_cases (hst.soundName _) p _).1
  · rw [hth]
    exact sound_update _ hst.soundHandle
      (HashNode.insertEntryGeneric_cases (hst.soundHandle _) p _).1

-- A bucket that fits with the new entry has room for it.
theorem room_of_fit {table : Fin HASH_TABLE_SIZE → List EntryPtr} {l : List EntryPtr}
    {key : EntryPtr → Fin HASH_TABLE_SIZE} (hix : Indexes table key {a | a ∈ l})
    (hl : l.Nodup) (hfit : (p :: l).countP (fun q => key q = key p) ≤ NODE_CAPACITY_LIMIT) :
    (table (key p)).length < NODE_CAPACITY_LIMIT := by
  rw [hix.length_eq hl]
  rw [List.countP_cons_of_pos (by simp)] at hfit
  omega

theorem Indexed.push (hst : Stored db) (hix : Indexed db) (hnodup : db.entryList.Nodup)
    (ha : Allocated db db' p entry) (hfit : BucketsFit db')
    (htn : db'.hashTableByName = Function.update db.hashTableByName (bucketOfName entry.name)
      ((db.hashTableByName (bucketOfName entry.name)).insertEntryGeneric p true))
    (hth : db'.hashTableByHandle = Function.update db.hashTableByHandle
      (bucketOfHandle entry.handle)
      ((db.hashTableByHandle (bucketOfHandle entry.handle)).insertEntryGeneric p true)) :
    Indexed db' := by
  have hself := ha.pool_self
  constructor
  · have hold := hix.byName.congr_key ha.nameKey_eq
    have hroom := room_of_fit hold hnodup (by rw [← ha.entryList]; exact (hfit _).1)
    rw [FsHandlesDb.nameKey, hself] at hroom
    rw [ha.listed_eq]
    refine hix.byName.push ha.fresh ha.nameKey_eq ?_
    rw [htn, FsHandlesDb.nameKey, hself]
    exact entriesOf_insert_room _ p hst.soundName hroom
  · have hold := hix.byHandle.congr_key ha.handleKey_eq
    have hroom := room_of_fit hold hnodup (by rw [← ha.entryList]; exact (hfit _).2)
    rw [FsHandlesDb.handleKey, hself] at hroom
    rw [ha.listed_eq]
    refine hix.byHandle.push ha.fresh ha.handleKey_eq ?_
    rw [hth, FsHandlesDb.handleKey, hself]
    exact entriesOf_insert_room _ p hst.soundHandle hroom

end Steps

section Rename

variable {db : FsHandlesDb} {p : EntryPtr} {mem : AllocMem} {name : CString}

theorem renameEntry_hashTableByName (db : FsHandlesDb) (mem : AllocMem) (p : EntryPtr)
    (name : CString) :
    let removed := Function.update db.hashTableByName (db.nameKey p)
      ((db.hashTableByName (db.nameKey p)).removeEntryGeneric p)
    (db.renameEntry mem p name).hashTableByName = Function.update removed (bucketOfName name)
      ((removed (bucketOfName name)).insertEntryGeneric p mem.nodeName) := by
  simp only [FsHandlesDb.renameEntry, FsHandlesDb.insertEntry, FsHandlesDb.setEntry_pool_self]
  rfl

theorem renameEntry_hashTableByHandle (db : FsHandlesDb) (mem : AllocMem) (p : EntryPtr)
    (name : CString) :
    let removed := Function.update db.hashTableByHandle (db.handleKey p)
      ((db.hashTableByHandle (db.handleKey p)).removeEntryGeneric p)
    (db.renameEntry mem p name).hashTableByHandle = Function.update removed (db.handleKey p)
      ((removed (db.handleKey p)).insertEntryGeneric p mem.nodeHandle) := by
  simp only [FsHandlesDb.renameEntry, FsHandlesDb.insertEntry, FsHandlesDb.setEntry_pool_self]
  rfl

theorem renameEntry_listed : (db.renameEntry mem p name).listed = db.listed := rfl

theorem renameEntry_nameKey_self : (db.renameEntry mem p name).nameKey p = bucketOfName name := by
  rw [FsHandlesDb.nameKey, FsHandlesDb.renameEntry_pool, FsHandlesDb.setEntry_pool_self]

theorem renameEntry_nameKey_of_ne {q : EntryPtr} (hne : q ≠ p) :
    (db.renameEntry mem p name).nameKey q = db.nameKey q := by
  rw [FsHandlesDb.nameKey, FsHandlesDb.renameEntry_pool, FsHandlesDb.setEntry_pool_of_ne _ _ hne]
  rfl

theorem renameEntry_handleKey (q : EntryPtr) :
    (db.renameEntry mem p name).handleKey q = db.handleKey q := by
  by_cases hq : q = p
  · subst hq
    rw [FsHandlesDb.handleKey, FsHandlesDb.renameEntry_pool, FsHandlesDb.setEntry_pool_self]
    rfl
  · rw [FsHandlesDb.handleKey, FsHandlesDb.renameEntry_pool,
      FsHandlesDb.setEntry_pool_of_ne _ _ hq]
    rfl

theorem sound_removed {table : Fin HASH_TABLE_SIZE → HashNode} (hs : ∀ i, (table i).Sound)
    (i : Fin HASH_TABLE_SIZE) (p : EntryPtr) :
    ∀ j, (Function.update table i ((table i).removeEntryGeneric p) j).Sound :=
  sound_update i hs (HashNode.sound_removeEntryGeneric (hs i) p)

theorem Stored.rename (hst : Stored db) (hp : p ∈ db.entryList) (mem : AllocMem)
    (name : CString) : Stored (db.renameEntry mem p name) := by
  have hsn := sound_removed hst.soundName (db.nameKey p) p
  have hsh := sound_removed hst.soundHandle (db.handleKey p) p
  refine ⟨?_, ?_, ?_, ?_⟩
  · refine hst.byName.move hp (fun q _ hne => renameEntry_nameKey_of_ne hne) ?_
    rw [renameEntry_hashTableByName, renameEntry_nameKey_self, ← entriesOf_remove]
    exact entriesOf_insert _ p hsn _
  · refine hst.byHandle.move hp (fun q _ _ => renameEntry_handleKey q) ?_
    rw [renameEntry_hashTableByHandle, renameEntry_handleKey, ← entriesOf_remove]
    exact entriesOf_insert _ p hsh _
  · rw [renameEntry_hashTableByName]
    exact sound_update _ hsn (HashNode.insertEntryGeneric_cases (hsn _) p _).1
  · rw [renameEntry_hashTableByHandle]
    exact sound_update _ hsh (HashNode.insertEntryGeneric_cases (hsh _) p _).1

-- Taking `p` out leaves room in every bucket that fits with it.
theorem room_of_erased {table : Fin HASH_TABLE_SIZE → List EntryPtr} {l : List EntryPtr}
    {key key' : EntryPtr → Fin HASH_TABLE_SIZE} (hix : Indexes table key {a | a ∈ l})
    (hl : l.Nodup) (hp : p ∈ l) (hkey : ∀ q ∈ l, q ≠ p → key' q = key q)
    (hfit : l.countP (fun q => key' q = key' p) ≤ NODE_CAPACITY_LIMIT) :
    (erased table (key p) p (key' p)).length < NODE_CAPACITY_LIMIT := by
  have hrest : Indexes (erased table (key p) p) key' {a | a ∈ l.erase p} := by
    have hset : ({a | a ∈ l.erase p} : Set EntryPtr) = {a | a ∈ l} \ {p} := by
      ext a
      simp [hl.mem_erase_iff, and_comm]
    rw [hset]
    exact (hix.erase p).congr_key fun q hq => hkey q hq.1 hq.2
  rw [hrest.length_eq (hl.erase p)]
  have hperm := (List.perm_cons_erase hp).countP_eq fun q => decide (key' q = key' p)
  rw [List.countP_cons_of_pos (by simp)] at hperm
  omega

theorem Indexed.rename (hst : Stored db) (hix : Indexed db) (hnodup : db.entryList.Nodup)
    (hp : p ∈ db.entryList) (hname : mem.nodeName = true) (hhandle : mem.nodeHandle = true)
    (hfit : BucketsFit (db.renameEntry mem p name)) :
    Indexed (db.renameEntry mem p name) := by
  have hsn := sound_removed hst.soundName (db.nameKey p) p
  have hsh := sound_removed hst.soundHandle (db.handleKey p) p
  constructor
  · have hkey : ∀ q ∈ db.entryList, q ≠ p →
        (db.renameEntry mem p name).nameKey q = db.nameKey q :=
      fun q _ hne => renameEntry_nameKey_of_ne hne
    have hroom := room_of_erased hix.byName hnodup hp hkey (hfit _).1
    rw [renameEntry_nameKey_self, ← entriesOf_remove] at hroom
    refine hix.byName.move hp hkey ?_
    rw [renameEntry_hashTableByName, renameEntry_nameKey_self, ← entriesOf_remove, hname]
    exact entriesOf_insert_room _ p hsn hroom
  · have hkey : ∀ q ∈ db.entryList, q ≠ p →
        (db.renameEntry mem p name).handleKey q = db.handleKey q :=
      fun q _ _ => renameEntry_handleKey q
    have hroom := room_of_erased hix.byHandle hnodup hp hkey (hfit _).2
    rw [renameEntry_handleKey, ← entriesOf_remove] at hroom
    refine hix.byHandle.move hp hkey ?_
    rw [renameEntry_hashTableByHandle, renameEntry_handleKey, ← entriesOf_remove, hhandle]
    exact entriesOf_insert_room _ p hsh hroom

end Rename

namespace DbOp

variable {db : FsHandlesDb}

theorem stored_setEntry (hst : Stored db) (p : EntryPtr) {entry : FsEntry}
    (hname : entry.name = (db.pool p).name) (hhandle : entry.handle = (db.pool p).handle) :
    Stored (db.setEntry p entry) :=
  hst.keep rfl (fun q _ => FsHandlesDb.setEntry_keeps_key db FsEntry.name p hname q)
    (fun q _ => FsHandlesDb.setEntry_keeps_key db FsEntry.handle p hhandle q) rfl rfl

theorem indexed_setEntry (hix : Indexed db) (p : EntryPtr) {entry : FsEntry}
    (hname : entry.name = (db.pool p).name) (hhandle : entry.handle = (db.pool p).handle) :
    Indexed (db.setEntry p entry) :=
  hix.keep rfl (fun q _ => FsHandlesDb.setEntry_keeps_key db FsEntry.name p hname q)
    (fun q _ => FsHandlesDb.setEntry_keeps_key db FsEntry.handle p hhandle q) rfl rfl

-- Whatever the allocations give, the buckets hold listed entries only.
theorem stored_step (hs : Slots db) (hst : Stored db) (op : DbOp) (he : op.Enabled db) :
    Stored (op.step db) := by
  cases op with
  | allocEntry mem fileinfo parent storageId =>
      rcases FsHandlesDb.allocEntry_cases hs mem fileinfo parent storageId with
        ⟨p, db', heq, -, ha, -, htn, hth⟩ | ⟨db', heq, -, hn⟩
      · rw [step, apply, heq]
        exact hst.push ha htn hth
      · rw [step, apply, heq]
        exact hst.keep hn.entryList (fun q hq => by rw [hn.pool q hq])
          (fun q hq => by rw [hn.pool q hq]) hn.hashTableByName hn.hashTableByHandle
  | allocRootEntry mem storageId =>
      rcases FsHandlesDb.allocRootEntry_cases hs mem storageId with
        ⟨p, db', heq, -, ha, -, htn, hth⟩ | ⟨db', heq, -, hn⟩
      · rw [step, apply, heq]
        exact hst.push ha htn hth
      · rw [step, apply, heq]
        exact hst.keep hn.entryList (fun q hq => by rw [hn.pool q hq])
          (fun q hq => by rw [hn.pool q hq]) hn.hashTableByName hn.hashTableByHandle
  | renameEntry mem p name => exact hst.rename he mem name
  | setDeleted p => exact stored_setEntry hst p rfl rfl
  | setSize p size => exact stored_setEntry hst p rfl rfl
  | setFileDescriptor p fd => exact stored_setEntry hst p rfl rfl
  | setWatchDescriptor p wd => exact stored_setEntry hst p rfl rfl
  | initSearchHandle parent storageId =>
      exact hst.keep rfl (fun _ _ => rfl) (fun _ _ => rfl) rfl rfl
  | getNextChildHandle =>
      rw [step, apply, FsHandlesDb.getNextChildHandle_snd]
      exact hst.keep rfl (fun _ _ => rfl) (fun _ _ => rfl) rfl rfl

-- The allocations of the operation succeed.
def Succeeds : DbOp → Prop
  | allocEntry mem _ _ _ => mem = AllocMem.success
  | allocRootEntry mem _ => mem = AllocMem.success
  | renameEntry mem _ _ => mem = AllocMem.success
  | _ => True

instance : (op : DbOp) → Decidable op.Succeeds
  | allocEntry mem _ _ _ => inferInstanceAs (Decidable (mem = AllocMem.success))
  | allocRootEntry mem _ => inferInstanceAs (Decidable (mem = AllocMem.success))
  | renameEntry mem _ _ => inferInstanceAs (Decidable (mem = AllocMem.success))
  | setDeleted _ => isTrue trivial
  | setSize _ _ => isTrue trivial
  | setFileDescriptor _ _ => isTrue trivial
  | setWatchDescriptor _ _ => isTrue trivial
  | initSearchHandle _ _ => isTrue trivial
  | getNextChildHandle => isTrue trivial

theorem indexed_step (hs : Slots db) (hst : Stored db) (hix : Indexed db) (op : DbOp)
    (he : op.Enabled db) (hok : op.Succeeds) (hfit : BucketsFit (op.step db)) :
    Indexed (op.step db) := by
  cases op with
  | allocEntry mem fileinfo parent storageId =>
      obtain rfl : mem = AllocMem.success := hok
      rcases FsHandlesDb.allocEntry_cases hs AllocMem.success fileinfo parent storageId with
        ⟨p, db', heq, -, ha, -, htn, hth⟩ | ⟨db', heq, -, hn⟩
      · rw [step, apply, heq] at hfit ⊢
        exact hix.push hst hs.nodup ha hfit htn hth
      · rw [step, apply, heq]
        exact hix.keep hn.entryList (fun q hq => by rw [hn.pool q hq])
          (fun q hq => by rw [hn.pool q hq]) hn.hashTableByName hn.hashTableByHandle
  | allocRootEntry mem storageId =>
      obtain rfl : mem = AllocMem.success := hok
      rcases FsHandlesDb.allocRootEntry_cases hs AllocMem.success storageId with
        ⟨p, db', heq, -, ha, -, htn, hth⟩ | ⟨db', heq, -, hn⟩
      · rw [step, apply, heq] at hfit ⊢
        exact hix.push hst hs.nodup ha hfit htn hth
      · rw [step, apply, heq]
        exact hix.keep hn.entryList (fun q hq => by rw [hn.pool q hq])
          (fun q hq => by rw [hn.pool q hq]) hn.hashTableByName hn.hashTableByHandle
  | renameEntry mem p name =>
      obtain rfl : mem = AllocMem.success := hok
      exact hix.rename hst hs.nodup he rfl rfl hfit
  | setDeleted p => exact indexed_setEntry hix p rfl rfl
  | setSize p size => exact indexed_setEntry hix p rfl rfl
  | setFileDescriptor p fd => exact indexed_setEntry hix p rfl rfl
  | setWatchDescriptor p wd => exact indexed_setEntry hix p rfl rfl
  | initSearchHandle parent storageId =>
      exact hix.keep rfl (fun _ _ => rfl) (fun _ _ => rfl) rfl rfl
  | getNextChildHandle =>
      rw [step, apply, FsHandlesDb.getNextChildHandle_snd]
      exact hix.keep rfl (fun _ _ => rfl) (fun _ _ => rfl) rfl rfl

end DbOp

end Umtp.Handles
