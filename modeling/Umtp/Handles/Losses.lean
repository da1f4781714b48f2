import Umtp.Handles.Refinement

namespace Umtp.Handles

open Lib

-- Whether the bucket has a place for one entry more: a new bucket needs memory,
-- a full one needs memory and a capacity below the limit.
def HashNode.takes (node : HashNode) (memory : Bool) : Bool :=
  if node.capacity = 0 then memory
  else if node.capacity ≤ node.entries.length then
    memory && decide (node.capacity < NODE_CAPACITY_LIMIT)
  else true

theorem HashNode.insertEntryGeneric_takes {node : HashNode} (hs : node.Sound) (p : EntryPtr)
    (memory : Bool) :
    (node.insertEntryGeneric p memory).entries =
      if node.takes memory = true then node.entries ++ [p] else node.entries := by
  have hsize := hs.size_le
  rw [insertEntryGeneric, takes, init]
  by_cases hunused : node.capacity = 0
  · have hempty : node.entries = [] := List.eq_nil_of_length_eq_zero (by omega)
    cases memory with
    | true => simp [hunused, hempty, INITIAL_NODE_CAPACITY]
    | false => simp [hunused]
  · simp only [if_neg hunused]
    by_cases hfull : node.capacity ≤ node.entries.length
    · simp only [if_pos hfull, expand]
      by_cases hlimit : node.capacity < NODE_CAPACITY_LIMIT
      · cases memory with
        | true => simp [hlimit, Nat.not_le.mpr hlimit]
        | false => simp [Nat.not_le.mpr hlimit]
      · simp [hlimit, Nat.not_lt.mp hlimit]
    · simp [if_neg hfull]

-- What an operation that indexes an entry achieves: the entry, and whether the
-- bucket of its name and the bucket of its handle have taken it.
structure Placement where
  entry : EntryPtr
  byName : Bool
  byHandle : Bool
deriving DecidableEq, Repr

namespace FsHandlesDb

variable (db : FsHandlesDb)

-- The buckets of the name and of the handle are asked to take `p`.
def placing (mem : AllocMem) (p : EntryPtr) (name : CString) (handle : Nat) : Placement where
  entry := p
  byName := (db.hashTableByName (bucketOfName name)).takes mem.nodeName
  byHandle := (db.hashTableByHandle (bucketOfHandle handle)).takes mem.nodeHandle

end FsHandlesDb

-- The placement of the operation, if it creates or renames an entry.
def DbOp.placement (db : FsHandlesDb) (op : DbOp) : Option Placement :=
  match op with
  | allocEntry mem fileinfo _ _ =>
    (op.apply db).1.map fun p => db.placing mem p fileinfo.filename db.nextHandle
  | allocRootEntry mem _ => (op.apply db).1.map fun p => db.placing mem p [SLASH] 0
  | renameEntry mem p name =>
    some ((db.removeEntry p).placing mem p name (db.pool p).handle)
  | _ => none

-- The database with the placements made so far, newest first.
def DbOp.note (state : FsHandlesDb × List Placement) (op : DbOp) :
    FsHandlesDb × List Placement :=
  (op.step state.1, (op.placement state.1).toList ++ state.2)

theorem DbOp.note_fst (state : FsHandlesDb × List Placement) (ops : List DbOp) :
    (run note state ops).1 = run step state.1 ops := by
  induction ops generalizing state with
  | nil => rfl
  | cons op rest ih => exact ih _

theorem DbOp.note_allowed (state : FsHandlesDb × List Placement) (ops : List DbOp)
    (ha : Allowed step Enabled state.1 ops) :
    Allowed note (fun s op => op.Enabled s.1) state ops := by
  induction ops generalizing state with
  | nil => trivial
  | cons op rest ih => exact ⟨ha.1, ih _ ha.2⟩

def lastPlacement (notes : List Placement) (q : EntryPtr) : Option Placement :=
  notes.find? fun note => note.entry == q

-- The last placement of `q` put it where `took` tells.
def heldBy (took : Placement → Bool) (notes : List Placement) (q : EntryPtr) : Bool :=
  (lastPlacement notes q).any took

section Notes

variable {took : Placement → Bool} {notes : List Placement} {note : Placement}

theorem lastPlacement_cons (q : EntryPtr) :
    lastPlacement (note :: notes) q =
      if note.entry = q then some note else lastPlacement notes q := by
  rw [lastPlacement, List.find?_cons]
  by_cases heq : note.entry = q
  · simp [heq]
  · rw [if_neg heq, beq_false_of_ne heq]
    rfl

-- Another placement of `p` decides whether `p` is held, and nothing else.
theorem held_cons (l : Set EntryPtr) {p : EntryPtr} (hp : note.entry = p) :
    {q | q ∈ insert p l ∧ heldBy took (note :: notes) q = true} =
      if took note = true then insert p ({q | q ∈ l ∧ heldBy took notes q = true} \ {p})
      else {q | q ∈ l ∧ heldBy took notes q = true} \ {p} := by
  subst hp
  ext q
  by_cases hq : q = note.entry
  · subst hq
    by_cases ht : took note = true
    · simp [heldBy, lastPlacement_cons, ht]
    · simp [heldBy, lastPlacement_cons, ht]
  · have hne : note.entry ≠ q := fun h => hq h.symm
    by_cases ht : took note = true
    · simp [heldBy, lastPlacement_cons, ht, hq, hne]
    · simp [heldBy, lastPlacement_cons, ht, hq, hne]

end Notes

section Tables

variable {table : Fin HASH_TABLE_SIZE → HashNode} {key key' : EntryPtr → Fin HASH_TABLE_SIZE}
  {held : Set EntryPtr} {i : Fin HASH_TABLE_SIZE} {p : EntryPtr}

-- The table indexes what it held, and the new entry if it takes it.
theorem indexes_insert (hs : ∀ j, (table j).Sound) (hix : Indexes (entriesOf table) key held)
    (hp : p ∉ held) (hkey : ∀ q ∈ held, key' q = key q) (hi : key' p = i) (memory : Bool) :
    Indexes (entriesOf (Function.update table i ((table i).insertEntryGeneric p memory))) key'
      (if (table i).takes memory = true then insert p held else held) := by
  subst hi
  rw [entriesOf_update, HashNode.insertEntryGeneric_takes (hs _)]
  by_cases htakes : (table (key' p)).takes memory = true
  · rw [if_pos htakes, if_pos htakes]
    exact hix.push hp hkey rfl
  · rw [if_neg htakes, if_neg htakes]
    have hsame := hix.congr_key hkey
    rwa [show (table (key' p)).entries = entriesOf table (key' p) from rfl,
      Function.update_eq_self]

-- Taken out and inserted again.
theorem indexes_reinsert (hs : ∀ j, (table j).Sound) (hix : Indexes (entriesOf table) key held)
    (hkey : ∀ q ∈ held, q ≠ p → key' q = key q) (hi : key' p = i) (memory : Bool) :
    let removed := Function.update table (key p) ((table (key p)).removeEntryGeneric p)
    Indexes (entriesOf (Function.update removed i ((removed i).insertEntryGeneric p memory))) key'
      (if (removed i).takes memory = true then insert p (held \ {p}) else held \ {p}) := by
  intro removed
  have hrest : Indexes (entriesOf removed) key (held \ {p}) := by
    rw [entriesOf_remove]
    exact hix.erase p
  exact indexes_insert (sound_removed hs _ p) hrest (fun h => h.2 rfl)
    (fun q hq => hkey q hq.1 hq.2) hi memory

end Tables

-- Each table is an index of the entries whose last placement it took.
structure Ledger (state : FsHandlesDb × List Placement) : Prop where
  slots : Slots state.1
  soundName : ∀ i, (state.1.hashTableByName i).Sound
  soundHandle : ∀ i, (state.1.hashTableByHandle i).Sound
  byName : Indexes (entriesOf state.1.hashTableByName) state.1.nameKey
    {q | q ∈ state.1.listed ∧ heldBy Placement.byName state.2 q = true}
  byHandle : Indexes (entriesOf state.1.hashTableByHandle) state.1.handleKey
    {q | q ∈ state.1.listed ∧ heldBy Placement.byHandle state.2 q = true}
  noted : ∀ q ∈ state.1.entryList, (lastPlacement state.2 q).isSome = true

namespace Ledger

theorem init : Ledger (initFsDb, []) := by
  have hnone : ∀ took, {q | q ∈ initFsDb.listed ∧ heldBy took [] q = true} = ∅ := by
    intro took
    ext q
    simp [heldBy, lastPlacement]
  refine ⟨Slots.init, fun _ => HashNode.Sound.empty, fun _ => HashNode.Sound.empty, ?_, ?_, ?_⟩
  · rw [hnone]
    exact Indexes.empty _
  · rw [hnone]
    exact Indexes.empty _
  · simp [initFsDb]

variable {db db' : FsHandlesDb} {notes : List Placement} {p : EntryPtr} {entry : FsEntry}
  {mem : AllocMem}

-- The list, the buckets and what the buckets are chosen by stay as they are.
theorem keep (hl : Ledger (db, notes)) (hs : Slots db') (hlist : db'.entryList = db.entryList)
    (hname : ∀ q ∈ db.entryList, (db'.pool q).name = (db.pool q).name)
    (hhandle : ∀ q ∈ db.entryList, (db'.pool q).handle = (db.pool q).handle)
    (htn : db'.hashTableByName = db.hashTableByName)
    (hth : db'.hashTableByHandle = db.hashTableByHandle) : Ledger (db', notes) := by
  have hsame : db'.listed = db.listed := by
    simp only [FsHandlesDb.listed, hlist]
  refine ⟨hs, by rw [htn]; exact hl.soundName, by rw [hth]; exact hl.soundHandle, ?_, ?_,
    by rw [hlist]; exact hl.noted⟩
  · dsimp only
    rw [htn, hsame]
    exact hl.byName.congr_key fun q hq => congrArg bucketOfName (hname q hq.1)
  · dsimp only
    rw [hth, hsame]
    exact hl.byHandle.congr_key fun q hq => congrArg bucketOfHandle (hhandle q hq.1)

theorem noted_cons (hl : Ledger (db, notes)) (note : Placement) {l : List EntryPtr}
    (hsub : ∀ q ∈ l, q = note.entry ∨ q ∈ db.entryList) :
    ∀ q ∈ l, (lastPlacement (note :: notes) q).isSome = true := by
  intro q hq
  rw [lastPlacement_cons]
  by_cases heq : note.entry = q
  · rw [if_pos heq]
    rfl
  · rw [if_neg heq]
    rcases hsub q hq with h | h
    · exact absurd h.symm heq
    · exact hl.noted q h

-- A new entry stands where the buckets took it.
theorem push (hl : Ledger (db, notes)) (hs : Slots db') (ha : Allocated db db' p entry)
    (htn : db'.hashTableByName = Function.update db.hashTableByName (bucketOfName entry.name)
      ((db.hashTableByName (bucketOfName entry.name)).insertEntryGeneric p mem.nodeName))
    (hth : db'.hashTableByHandle = Function.update db.hashTableByHandle
      (bucketOfHandle entry.handle)
      ((db.hashTableByHandle (bucketOfHandle entry.handle)).insertEntryGeneric p
        mem.nodeHandle)) :
    Ledger (db', db.placing mem p entry.name entry.handle :: notes) := by
  have hself := ha.pool_self
  have hout : ∀ took, p ∉ {q | q ∈ db.listed ∧ heldBy took notes q = true} :=
    fun took h => ha.fresh h.1
  refine ⟨hs, ?_, ?_, ?_, ?_, hl.noted_cons _ ?_⟩
  · dsimp only
    rw [htn]
    exact sound_update _ hl.soundName
      (HashNode.insertEntryGeneric_cases (hl.soundName _) p _).1
  · dsimp only
    rw [hth]
    exact sound_update _ hl.soundHandle
      (HashNode.insertEntryGeneric_cases (hl.soundHandle _) p _).1
  · dsimp only
    rw [ha.listed_eq, held_cons db.listed (p := p) rfl,
      Set.sdiff_singleton_eq_self (hout _), htn]
    refine indexes_insert hl.soundName hl.byName (hout _) (fun q hq => ha.nameKey_eq q hq.1) ?_ _
    rw [FsHandlesDb.nameKey, hself]
  · dsimp only
    rw [ha.listed_eq, held_cons db.listed (p := p) rfl,
      Set.sdiff_singleton_eq_self (hout _), hth]
    refine indexes_insert hl.soundHandle hl.byHandle (hout _)
      (fun q hq => ha.handleKey_eq q hq.1) ?_ _
    rw [FsHandlesDb.handleKey, hself]
  · intro q hq
    rw [ha.entryList] at hq
    exact List.mem_cons.mp hq

-- A renamed entry stands where the buckets took it back.
theorem rename (hl : Ledger (db, notes)) {name : CString}
    (hs : Slots (db.renameEntry mem p name)) (hp : p ∈ db.entryList) :
    Ledger (db.renameEntry mem p name,
      (db.removeEntry p).placing mem p name (db.pool p).handle :: notes) := by
  have hsn := sound_removed hl.soundName (db.nameKey p) p
  have hsh := sound_removed hl.soundHandle (db.handleKey p) p
  have hmem : p ∈ db.listed := hp
  have hlisted : db.listed = insert p db.listed := (Set.insert_eq_of_mem hmem).symm
  refine ⟨hs, ?_, ?_, ?_, ?_, hl.noted_cons _ fun q hq => Or.inr hq⟩
  · dsimp only
    rw [renameEntry_hashTableByName]
    exact sound_update _ hsn (HashNode.insertEntryGeneric_cases (hsn _) p _).1
  · dsimp only
    rw [renameEntry_hashTableByHandle]
    exact sound_update _ hsh (HashNode.insertEntryGeneric_cases (hsh _) p _).1
  · dsimp only
    rw [renameEntry_listed, hlisted, held_cons db.listed (p := p) rfl,
      renameEntry_hashTableByName]
    exact indexes_reinsert hl.soundName hl.byName
      (fun q _ hne => renameEntry_nameKey_of_ne hne) renameEntry_nameKey_self _
  · dsimp only
    rw [renameEntry_listed, hlisted, held_cons db.listed (p := p) rfl,
      renameEntry_hashTableByHandle]
    exact indexes_reinsert hl.soundHandle hl.byHandle
      (fun q _ _ => renameEntry_handleKey q) (renameEntry_handleKey p) _

theorem setEntry (hl : Ledger (db, notes)) (hs : Slots (db.setEntry p entry))
    (hname : entry.name = (db.pool p).name) (hhandle : entry.handle = (db.pool p).handle) :
    Ledger (db.setEntry p entry, notes) :=
  hl.keep hs rfl (fun q _ => FsHandlesDb.setEntry_keeps_key db FsEntry.name p hname q)
    (fun q _ => FsHandlesDb.setEntry_keeps_key db FsEntry.handle p hhandle q) rfl rfl

end Ledger

namespace DbOp

variable {db : FsHandlesDb} {notes : List Placement}

theorem ledger_step (hl : Ledger (db, notes)) (op : DbOp) (he : op.Enabled db) :
    Ledger (op.note (db, notes)) := by
  have hs := slots_step hl.slots op
  dsimp only at hs
  cases op with
  | allocEntry mem fileinfo parent storageId =>
      rw [note, placement]
      rcases FsHandlesDb.allocEntry_cases hl.slots mem fileinfo parent storageId with
        ⟨p, db', heq, hs', ha, -, htn, hth⟩ | ⟨db', heq, hs', hn⟩
      · rw [step, apply, heq]
        exact hl.push hs' ha htn hth
      · rw [step, apply, heq]
        exact hl.keep hs' hn.entryList (fun q hq => by rw [hn.pool q hq])
          (fun q hq => by rw [hn.pool q hq]) hn.hashTableByName hn.hashTableByHandle
  | allocRootEntry mem storageId =>
      rw [note, placement]
      rcases FsHandlesDb.allocRootEntry_cases hl.slots mem storageId with
        ⟨p, db', heq, hs', ha, -, htn, hth⟩ | ⟨db', heq, hs', hn⟩
      · rw [step, apply, heq]
        exact hl.push hs' ha htn hth
      · rw [step, apply, heq]
        exact hl.keep hs' hn.entryList (fun q hq => by rw [hn.pool q hq])
          (fun q hq => by rw [hn.pool q hq]) hn.hashTableByName hn.hashTableByHandle
  | renameEntry mem p name => exact hl.rename hs he
  | setDeleted p => exact hl.setEntry hs rfl rfl
  | setSize p size => exact hl.setEntry hs rfl rfl
  | setFileDescriptor p fd => exact hl.setEntry hs rfl rfl
  | setWatchDescriptor p wd => exact hl.setEntry hs rfl rfl
  | initSearchHandle parent storageId =>
      exact hl.keep hs rfl (fun _ _ => rfl) (fun _ _ => rfl) rfl rfl
  | getNextChildHandle =>
      rw [note, step, apply] at *
      rw [FsHandlesDb.getNextChildHandle_snd] at *
      exact hl.keep hs rfl (fun _ _ => rfl) (fun _ _ => rfl) rfl rfl

theorem ledger_run (ops : List DbOp) (ha : Allowed step Enabled initFsDb ops) :
    Ledger (run note (initFsDb, []) ops) :=
  run_keeps (I := Ledger) (fun state op hl he => @ledger_step state.1 state.2 hl op he)
    (initFsDb, []) ops (note_allowed _ ops ha) Ledger.init

-- Without a placement nothing was listed, indexed or numbered.
theorem unplaced (hs : Slots db) (op : DbOp) (hnone : op.placement db = none) :
    (op.step db).entryList = db.entryList ∧
      (op.step db).hashTableByName = db.hashTableByName ∧
      (op.step db).hashTableByHandle = db.hashTableByHandle ∧
      (op.step db).nextHandle = db.nextHandle := by
  cases op with
  | allocEntry mem fileinfo parent storageId =>
      rcases FsHandlesDb.allocEntry_cases hs mem fileinfo parent storageId with
        ⟨p, db', heq, -, -, -, -, -⟩ | ⟨db', heq, -, hn⟩
      · rw [placement, apply, heq] at hnone
        cases hnone
      · rw [step, apply, heq]
        exact ⟨hn.entryList, hn.hashTableByName, hn.hashTableByHandle, hn.nextHandle⟩
  | allocRootEntry mem storageId =>
      rcases FsHandlesDb.allocRootEntry_cases hs mem storageId with
        ⟨p, db', heq, -, -, -, -, -⟩ | ⟨db', heq, -, hn⟩
      · rw [placement, apply, heq] at hnone
        cases hnone
      · rw [step, apply, heq]
        exact ⟨hn.entryList, hn.hashTableByName, hn.hashTableByHandle, hn.nextHandle⟩
  | renameEntry mem p name => cases hnone
  | setDeleted p => exact ⟨rfl, rfl, rfl, rfl⟩
  | setSize p size => exact ⟨rfl, rfl, rfl, rfl⟩
  | setFileDescriptor p fd => exact ⟨rfl, rfl, rfl, rfl⟩
  | setWatchDescriptor p wd => exact ⟨rfl, rfl, rfl, rfl⟩
  | initSearchHandle parent storageId => exact ⟨rfl, rfl, rfl, rfl⟩
  | getNextChildHandle =>
      rw [step, apply, FsHandlesDb.getNextChildHandle_snd]
      exact ⟨rfl, rfl, rfl, rfl⟩

end DbOp

-- What is lost when a bucket takes no more: the entry stays in the list, and the
-- lookup of that table does not see it.
structure Accounted (db : FsHandlesDb) (notes : List Placement) : Prop where
  noted : ∀ q ∈ db.entryList, (lastPlacement notes q).isSome = true
  byName : ∀ i q, (db.hashTableByName i).entries.count q =
    if (q ∈ db.entryList ∧ heldBy Placement.byName notes q = true) ∧ db.nameKey q = i
    then 1 else 0
  byHandle : ∀ i q, (db.hashTableByHandle i).entries.count q =
    if (q ∈ db.entryList ∧ heldBy Placement.byHandle notes q = true) ∧ db.handleKey q = i
    then 1 else 0
  findEntry_none : ∀ name parent storageId, db.findEntry name parent storageId = none ↔
    ∀ q, db.Live q → (db.pool q).name = name → (db.pool q).parent = parent →
      (db.pool q).storageId = storageId → heldBy Placement.byName notes q = false
  getEntryByHandle_none : ∀ storageRoot handle, db.getEntryByHandle storageRoot handle = none ↔
    ∀ q, db.Live q → (db.pool q).handle = handle →
      (storageRoot (db.pool q).storageId).isSome = true →
      heldBy Placement.byHandle notes q = false

namespace Ledger

variable {db : FsHandlesDb} {notes : List Placement}

theorem findEntry_eq_none (hl : Ledger (db, notes)) (name : CString) (parent storageId : Nat) :
    db.findEntry name parent storageId = none ↔
      ∀ q, db.Live q → (db.pool q).name = name → (db.pool q).parent = parent →
        (db.pool q).storageId = storageId → heldBy Placement.byName notes q = false := by
  rw [FsHandlesDb.findEntry]
  refine (hl.byName.find?_eq_none_iff (bucketOfName name) _).trans ?_
  constructor
  · rintro h q ⟨hq, hlive⟩ hname hparent hsid
    by_contra hheld
    rw [Bool.not_eq_false] at hheld
    have hf := h q ⟨hq, hheld⟩ (congrArg bucketOfName hname)
    simp [hname, hparent, hsid, hlive] at hf
  · rintro h q ⟨hq, hheld⟩ hkey
    by_contra hw
    rw [Bool.not_eq_false] at hw
    simp only [Bool.and_eq_true, beq_iff_eq, Bool.not_eq_true'] at hw
    rw [h q ⟨hq, hw.2⟩ hw.1.1.1 hw.1.1.2 hw.1.2] at hheld
    exact Bool.false_ne_true hheld

theorem getEntryByHandle_eq_none (hl : Ledger (db, notes))
    (storageRoot : Nat → Option CString) (handle : Nat) :
    db.getEntryByHandle storageRoot handle = none ↔
      ∀ q, db.Live q → (db.pool q).handle = handle →
        (storageRoot (db.pool q).storageId).isSome = true →
        heldBy Placement.byHandle notes q = false := by
  rw [FsHandlesDb.getEntryByHandle]
  refine (hl.byHandle.find?_eq_none_iff (bucketOfHandle handle) _).trans ?_
  constructor
  · rintro h q ⟨hq, hlive⟩ hhandle hroot
    by_contra hheld
    rw [Bool.not_eq_false] at hheld
    have hf := h q ⟨hq, hheld⟩ (congrArg bucketOfHandle hhandle)
    simp [hhandle, hlive, hroot] at hf
  · rintro h q ⟨hq, hheld⟩ hkey
    by_contra hw
    rw [Bool.not_eq_false] at hw
    simp only [Bool.and_eq_true, beq_iff_eq, Bool.not_eq_true'] at hw
    rw [h q ⟨hq, hw.1.1⟩ hw.1.2 hw.2] at hheld
    exact Bool.false_ne_true hheld

theorem accounted (hl : Ledger (db, notes)) : Accounted db notes where
  noted := hl.noted
  byName i q := by
    classical exact (hl.byName.count_eq i q).trans (if_congr Iff.rfl rfl rfl)
  byHandle i q := by
    classical exact (hl.byHandle.count_eq i q).trans (if_congr Iff.rfl rfl rfl)
  findEntry_none := hl.findEntry_eq_none
  getEntryByHandle_none := hl.getEntryByHandle_eq_none

end Ledger

section Renamed

variable {db : FsHandlesDb} {p : EntryPtr} {mem : AllocMem} {name : CString}

-- With nothing else of the new name in its folder, a renamed entry is found under it
-- unless its bucket did not take it back.
theorem findEntry_renameEntry (hst : Stored db) (hp : db.Live p)
    (hnone : db.findEntry name (db.pool p).parent (db.pool p).storageId = none) :
    (db.renameEntry mem p name).findEntry name (db.pool p).parent (db.pool p).storageId =
      if ((db.removeEntry p).hashTableByName (bucketOfName name)).takes mem.nodeName = true
      then some p else none := by
  have hremoved : (db.removeEntry p).hashTableByName = Function.update db.hashTableByName
      (db.nameKey p) ((db.hashTableByName (db.nameKey p)).removeEntryGeneric p) := rfl
  have hsn := sound_removed hst.soundName (db.nameKey p) p
  have hrest := hst.byName.erase p
  rw [← hremoved] at hsn
  rw [show Function.update (entriesOf db.hashTableByName) (db.nameKey p)
    ((entriesOf db.hashTableByName (db.nameKey p)).erase p) =
      erased (entriesOf db.hashTableByName) (db.nameKey p) p from rfl, ← entriesOf_remove,
    ← hremoved] at hrest
  have hpool := FsHandlesDb.renameEntry_pool db mem p name
  have hself : (db.renameEntry mem p name).pool p = { db.pool p with name := name } := by
    rw [hpool, FsHandlesDb.setEntry_pool_self]
  -- the others in the bucket were no match before
  have hothers : ((db.removeEntry p).hashTableByName (bucketOfName name)).entries.find? (fun q =>
      ((db.renameEntry mem p name).pool q).name == name &&
        ((db.renameEntry mem p name).pool q).parent == (db.pool p).parent &&
        ((db.renameEntry mem p name).pool q).storageId == (db.pool p).storageId &&
        !((db.renameEntry mem p name).pool q).isDeleted) = none := by
    rw [List.find?_eq_none]
    intro q hq
    have hne : q ≠ p := (hrest.mem _ q hq).1.2
    have hbefore : q ∈ (db.hashTableByName (bucketOfName name)).entries := by
      rw [hremoved] at hq
      by_cases hkey : bucketOfName name = db.nameKey p
      · rw [hkey, Function.update_self] at hq
        rw [hkey]
        exact List.mem_of_mem_erase hq
      · rwa [Function.update_of_ne hkey] at hq
    rw [hpool, FsHandlesDb.setEntry_pool_of_ne _ _ hne]
    exact List.find?_eq_none.mp hnone q hbefore
  have htable : (db.renameEntry mem p name).hashTableByName (bucketOfName name) =
      ((db.removeEntry p).hashTableByName (bucketOfName name)).insertEntryGeneric p
        mem.nodeName := by
    rw [renameEntry_hashTableByName, Function.update_self]
    rfl
  rw [FsHandlesDb.findEntry, htable, HashNode.insertEntryGeneric_takes (hsn _)]
  by_cases htakes :
      ((db.removeEntry p).hashTableByName (bucketOfName name)).takes mem.nodeName = true
  · rw [if_pos htakes, if_pos htakes, List.find?_append, hothers, Option.none_or]
    have hlive : ({ db.pool p with name := name } : FsEntry).isDeleted = false := hp.2
    simp only [List.find?_singleton, hself, hlive, beq_self_eq_true, Bool.not_false, Bool.and_true,
      if_true]
  · rw [if_neg htakes, if_neg htakes, hothers]

end Renamed

-- The allocations may fail in any pattern. What the last operation that indexed
-- an entry achieved decides what the lookups see of it, and an operation that
-- places no entry leaves the list, the tables and the next handle alone.
theorem lookups_miss_what_was_lost (ops : List DbOp)
    (ha : Allowed DbOp.step DbOp.Enabled initFsDb ops) :
    Accounted (run DbOp.step initFsDb ops) (run DbOp.note (initFsDb, []) ops).2 ∧
      ∀ op : DbOp, op.placement (run DbOp.step initFsDb ops) = none →
        (op.step (run DbOp.step initFsDb ops)).entryList =
            (run DbOp.step initFsDb ops).entryList ∧
          (op.step (run DbOp.step initFsDb ops)).hashTableByName =
            (run DbOp.step initFsDb ops).hashTableByName ∧
          (op.step (run DbOp.step initFsDb ops)).hashTableByHandle =
            (run DbOp.step initFsDb ops).hashTableByHandle ∧
          (op.step (run DbOp.step initFsDb ops)).nextHandle =
            (run DbOp.step initFsDb ops).nextHandle := by
  have hl := DbOp.ledger_run ops ha
  have hfst := DbOp.note_fst (initFsDb, []) ops
  dsimp only at hfst
  rw [← hfst]
  exact ⟨hl.accounted, fun op => DbOp.unplaced hl.slots op⟩

-- The second file finds no memory for the bucket of its name.
def lossyOps : List DbOp :=
  [.allocRootEntry AllocMem.success 0xFFFF0001,
    .allocEntry ⟨true, true, true, false⟩ ⟨false, [0x66], 5⟩ 0 0xFFFF0001]

theorem lookups_miss_what_was_lost_sample :
    heldBy Placement.byName (run DbOp.note (initFsDb, []) lossyOps).2 ⟨1, 1022⟩ = false :=
  ((lookups_miss_what_was_lost lossyOps (by decide)).1.findEntry_none [0x66] 0
    0xFFFF0001).mp (by decide) ⟨1, 1022⟩ ⟨by decide, by decide⟩ (by decide) (by decide)
    (by decide)

end Umtp.Handles
