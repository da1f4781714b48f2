import Umtp.Handles.Index

namespace Umtp.Handles

-- What tells the children of a folder apart.
def FsEntry.place (entry : FsEntry) : CString × Nat × Nat :=
  (entry.name, entry.parent, entry.storageId)

namespace FsHandlesDb

variable (db : FsHandlesDb)

-- An object is an entry with a handle other than the one of the roots.
def Object (p : EntryPtr) : Prop :=
  p ∈ db.entryList ∧ (db.pool p).handle ≠ 0

-- No two live objects have one name in one folder.
def UniqueNames : Prop :=
  ∀ p q, db.Object p → db.Object q → (db.pool p).isDeleted = false →
    (db.pool q).isDeleted = false → (db.pool p).place = (db.pool q).place → p = q

-- Every object is in the bucket of its name.
structure Named : Prop where
  slots : Slots db
  sound : ∀ i, (db.hashTableByName i).Sound
  found : ∀ p, db.Object p → p ∈ (db.hashTableByName (db.nameKey p)).entries
  unique : db.UniqueNames

end FsHandlesDb

-- The bucket of the name has memory, and room for one entry more.
def NameFits (table : Fin HASH_TABLE_SIZE → HashNode) (mem : AllocMem) (name : CString) : Prop :=
  mem.nodeName = true ∧ (table (bucketOfName name)).entries.length < NODE_CAPACITY_LIMIT

-- The operation is indexed by name, and gives no object the name of another one
-- in its folder.
def DbOp.KeepsNames (db : FsHandlesDb) : DbOp → Prop
  | allocEntry mem fileinfo parent storageId =>
    (db.allocEntry mem fileinfo parent storageId).1.isSome = true →
      NameFits db.hashTableByName mem fileinfo.filename
  | renameEntry mem p name =>
    NameFits (db.removeEntry p).hashTableByName mem name ∧
      ((db.pool p).handle ≠ 0 → ∀ q ∈ db.entryList, q ≠ p → (db.pool q).handle ≠ 0 →
        (db.pool q).isDeleted = false → (db.pool q).place ≠ { db.pool p with name := name }.place)
  | _ => True

-- `add_entry` looks for the name first.
def DbOp.Looked (db : FsHandlesDb) : DbOp → Prop
  | allocEntry _ fileinfo parent storageId =>
    db.findEntry fileinfo.filename parent storageId = none
  | _ => True

variable {db db' : FsHandlesDb} {p : EntryPtr}

theorem FsHandlesDb.Named.init : initFsDb.Named where
  slots := Slots.init
  sound _ := HashNode.Sound.empty
  found p hp := by simp [FsHandlesDb.Object, initFsDb] at hp
  unique p q hp := by simp [FsHandlesDb.Object, initFsDb] at hp

-- A name that is not found is the name of no live object.
theorem FsHandlesDb.Named.not_found (hn : db.Named) {name : CString} {parent storageId : Nat}
    (hnone : db.findEntry name parent storageId = none) (hp : db.Object p)
    (hlive : (db.pool p).isDeleted = false) : (db.pool p).place ≠ (name, parent, storageId) := by
  intro hplace
  simp only [FsEntry.place, Prod.mk.injEq] at hplace
  obtain ⟨hname, hparent, hsid⟩ := hplace
  have hmem := hn.found p hp
  rw [FsHandlesDb.nameKey, hname] at hmem
  have hno := List.find?_eq_none.mp hnone p hmem
  simp [hname, hparent, hsid, hlive] at hno

-- Nothing happens to the names.
theorem FsHandlesDb.Named.keep (hn : db.Named) (hs : Slots db')
    (hlist : db'.entryList = db.entryList) (htable : db'.hashTableByName = db.hashTableByName)
    (hplace : ∀ q ∈ db.entryList, (db'.pool q).place = (db.pool q).place)
    (hhandle : ∀ q ∈ db.entryList, (db'.pool q).handle = (db.pool q).handle)
    (hdel : ∀ q ∈ db.entryList, (db'.pool q).isDeleted = false → (db.pool q).isDeleted = false) :
    db'.Named := by
  have hobject : ∀ q, db'.Object q → db.Object q := by
    rintro q ⟨hmem, hpos⟩
    rw [hlist] at hmem
    exact ⟨hmem, hhandle q hmem ▸ hpos⟩
  refine ⟨hs, by rw [htable]; exact hn.sound, fun q hq => ?_, fun q r hq hr hdq hdr heq => ?_⟩
  · have hq' := hobject q hq
    have hname : (db'.pool q).name = (db.pool q).name := congrArg (·.1) (hplace q hq'.1)
    rw [htable, FsHandlesDb.nameKey, hname]
    exact hn.found q hq'
  · have hq' := hobject q hq
    have hr' := hobject r hr
    rw [hplace q hq'.1, hplace r hr'.1] at heq
    exact hn.unique q r hq' hr' (hdel q hq'.1 hdq) (hdel r hr'.1 hdr) heq

theorem FsHandlesDb.Named.setEntry (hn : db.Named) (p : EntryPtr) {entry : FsEntry}
    (hplace : entry.place = (db.pool p).place) (hhandle : entry.handle = (db.pool p).handle)
    (hdel : entry.isDeleted = false → (db.pool p).isDeleted = false) :
    (db.setEntry p entry).Named := by
  have hcase : ∀ q, q = p ∧ (db.setEntry p entry).pool q = entry ∨
      (db.setEntry p entry).pool q = db.pool q := by
    intro q
    by_cases hq : q = p
    · exact Or.inl ⟨hq, by rw [hq, FsHandlesDb.setEntry_pool_self]⟩
    · exact Or.inr (FsHandlesDb.setEntry_pool_of_ne _ _ hq)
  refine hn.keep (hn.slots.congr rfl rfl rfl) rfl rfl ?_ ?_ ?_ <;> intro q _
  · rcases hcase q with ⟨rfl, heq⟩ | heq
    · rw [heq, hplace]
    · rw [heq]
  · rcases hcase q with ⟨rfl, heq⟩ | heq
    · rw [heq, hhandle]
    · rw [heq]
  · rcases hcase q with ⟨rfl, heq⟩ | heq
    · rw [heq]
      exact hdel
    · rw [heq]
      exact id

theorem mem_insertEntryGeneric {node : HashNode} (hs : node.Sound) {q : EntryPtr}
    (hq : q ∈ node.entries) (memory : Bool) : q ∈ (node.insertEntryGeneric p memory).entries := by
  rcases (HashNode.insertEntryGeneric_cases hs p memory).2 with heq | heq
  · rw [heq]
    exact hq
  · rw [heq]
    exact List.mem_append_left _ hq

-- Entries stay in the buckets when another one is put there.
theorem mem_bucket_insert {table : Fin HASH_TABLE_SIZE → HashNode} (hs : ∀ i, (table i).Sound)
    {i j : Fin HASH_TABLE_SIZE} {q : EntryPtr} (hq : q ∈ (table j).entries) (memory : Bool) :
    q ∈ (Function.update table i ((table i).insertEntryGeneric p memory) j).entries := by
  by_cases hj : j = i
  · subst hj
    rw [Function.update_self]
    exact mem_insertEntryGeneric (hs j) hq memory
  · rw [Function.update_of_ne hj]
    exact hq

-- A new object has a name of its own and is put in its bucket.
theorem FsHandlesDb.Named.push (hn : db.Named) {entry : FsEntry} (hs : Slots db')
    (ha : Allocated db db' p entry) {memory : Bool}
    (htable : db'.hashTableByName = Function.update db.hashTableByName (bucketOfName entry.name)
      ((db.hashTableByName (bucketOfName entry.name)).insertEntryGeneric p memory))
    (hnew : entry.handle ≠ 0 → memory = true ∧
      (db.hashTableByName (bucketOfName entry.name)).entries.length < NODE_CAPACITY_LIMIT ∧
      ∀ q, db.Object q → (db.pool q).isDeleted = false → (db.pool q).place ≠ entry.place) :
    db'.Named := by
  have hcase : ∀ q, db'.Object q → q = p ∧ entry.handle ≠ 0 ∧ db'.pool q = entry ∨
      q ≠ p ∧ db.Object q ∧ db'.pool q = db.pool q := by
    rintro q ⟨hmem, hpos⟩
    rw [ha.entryList] at hmem
    by_cases hq : q = p
    · subst hq
      rw [ha.pool_self] at hpos
      exact Or.inl ⟨rfl, hpos, ha.pool_self⟩
    · have hold := ha.pool_of_ne q hq
      rw [hold] at hpos
      exact Or.inr ⟨hq, ⟨(List.mem_cons.mp hmem).resolve_left hq, hpos⟩, hold⟩
  refine ⟨hs, ?_, fun q hq => ?_, fun q r hq hr hdq hdr heq => ?_⟩
  · rw [htable]
    exact sound_update _ hn.sound (HashNode.insertEntryGeneric_cases (hn.sound _) _ _).1
  · rw [htable]
    rcases hcase q hq with ⟨rfl, hpos, hpool⟩ | ⟨-, hobject, hpool⟩
    · obtain ⟨rfl, hroom, -⟩ := hnew hpos
      rw [FsHandlesDb.nameKey, hpool, Function.update_self,
        HashNode.insertEntryGeneric_entries (hn.sound _) _ hroom]
      exact List.mem_append_right _ (List.mem_singleton_self _)
    · rw [FsHandlesDb.nameKey, hpool]
      exact mem_bucket_insert hn.sound (hn.found q hobject) memory
  · rcases hcase q hq with ⟨rfl, hpos, hpool⟩ | ⟨hqp, hobject, hpool⟩
    · rcases hcase r hr with ⟨rfl, -, -⟩ | ⟨-, hobject', hpool'⟩
      · rfl
      · rw [hpool, hpool'] at heq
        rw [hpool'] at hdr
        exact absurd heq.symm ((hnew hpos).2.2 r hobject' hdr)
    · rcases hcase r hr with ⟨rfl, hpos, hpool'⟩ | ⟨-, hobject', hpool'⟩
      · rw [hpool, hpool'] at heq
        rw [hpool] at hdq
        exact absurd heq ((hnew hpos).2.2 q hobject hdq)
      · rw [hpool, hpool'] at heq
        rw [hpool] at hdq
        rw [hpool'] at hdr
        exact hn.unique q r hobject hobject' hdq hdr heq

theorem FsHandlesDb.Named.rename (hn : db.Named) {mem : AllocMem} {name : CString}
    (hk : (DbOp.renameEntry mem p name).KeepsNames db) : (db.renameEntry mem p name).Named := by
  obtain ⟨⟨hmem, hroom⟩, hother⟩ := hk
  have hpool : ∀ q, q = p ∧ (db.renameEntry mem p name).pool q = { db.pool p with name := name } ∨
      q ≠ p ∧ (db.renameEntry mem p name).pool q = db.pool q := by
    intro q
    rw [FsHandlesDb.renameEntry_pool]
    by_cases hq : q = p
    · exact Or.inl ⟨hq, by rw [hq, FsHandlesDb.setEntry_pool_self]⟩
    · exact Or.inr ⟨hq, FsHandlesDb.setEntry_pool_of_ne _ _ hq⟩
  have hobject : ∀ q, (db.renameEntry mem p name).Object q → db.Object q := by
    rintro q ⟨hmem, hpos⟩
    refine ⟨hmem, ?_⟩
    rcases hpool q with ⟨rfl, heq⟩ | ⟨-, heq⟩
    · rw [heq] at hpos
      exact hpos
    · rw [heq] at hpos
      exact hpos
  have hsound : ∀ i, ((db.removeEntry p).hashTableByName i).Sound :=
    sound_removed hn.sound (db.nameKey p) p
  have htable : (db.renameEntry mem p name).hashTableByName =
      Function.update (db.removeEntry p).hashTableByName (bucketOfName name)
        (((db.removeEntry p).hashTableByName (bucketOfName name)).insertEntryGeneric p
          mem.nodeName) := renameEntry_hashTableByName db mem p name
  refine ⟨hn.slots.congr rfl rfl rfl, ?_, fun q hq => ?_, fun q r hq hr hdq hdr heq => ?_⟩
  · rw [htable]
    exact sound_update _ hsound (HashNode.insertEntryGeneric_cases (hsound _) _ _).1
  · rw [htable]
    rcases hpool q with ⟨rfl, hnew⟩ | ⟨hqp, hold⟩
    · rw [FsHandlesDb.nameKey, hnew, Function.update_self, hmem,
        HashNode.insertEntryGeneric_entries (hsound _) _ hroom]
      exact List.mem_append_right _ (List.mem_singleton_self _)
    · -- the others stay where they are
      rw [FsHandlesDb.nameKey, hold]
      refine mem_bucket_insert hsound ?_ _
      have hmem' := hn.found q (hobject q hq)
      show q ∈ (Function.update db.hashTableByName (db.nameKey p)
        ((db.hashTableByName (db.nameKey p)).removeEntryGeneric p) (db.nameKey q)).entries
      by_cases hkey : db.nameKey q = db.nameKey p
      · rw [hkey] at hmem' ⊢
        rw [Function.update_self]
        exact (List.mem_erase_of_ne hqp).mpr hmem'
      · rw [Function.update_of_ne hkey]
        exact hmem'
  · have hq' := hobject q hq
    have hr' := hobject r hr
    rcases hpool q with ⟨rfl, hq''⟩ | ⟨hqp, hq''⟩
    · rcases hpool r with ⟨rfl, -⟩ | ⟨hrp, hr''⟩
      · rfl
      · rw [hq'', hr''] at heq
        rw [hr''] at hdr
        exact absurd heq.symm (hother hq'.2 r hr'.1 hrp hr'.2 hdr)
    · rcases hpool r with ⟨rfl, hr''⟩ | ⟨hrp, hr''⟩
      · rw [hq'', hr''] at heq
        rw [hq''] at hdq
        exact absurd heq (hother hr'.2 q hq'.1 hqp hq'.2 hdq)
      · rw [hq'', hr''] at heq
        rw [hq''] at hdq
        rw [hr''] at hdr
        exact hn.unique q r hq' hr' hdq hdr heq

theorem FsHandlesDb.Named.notAllocated (hn : db.Named) (hs : Slots db')
    (h : NotAllocated db db') : db'.Named := by
  refine hn.keep hs h.entryList h.hashTableByName ?_ ?_ ?_ <;> intro q hq
  · rw [h.pool q hq]
  · rw [h.pool q hq]
  · rw [h.pool q hq]
    exact id

theorem DbOp.named_step (hn : db.Named) (op : DbOp) (hk : op.KeepsNames db)
    (hl : op.Looked db) : (op.step db).Named := by
  cases op with
  | allocEntry mem fileinfo parent storageId =>
      rcases FsHandlesDb.allocEntry_cases hn.slots mem fileinfo parent storageId with
        ⟨p, db', heq, hs, ha, -, htable, -⟩ | ⟨db', heq, hs, hnot⟩
      · have hfits := hk (by rw [heq]; rfl)
        rw [step, apply, heq]
        refine hn.push hs ha htable fun _ => ⟨hfits.1, hfits.2, fun q hq hlive => ?_⟩
        exact hn.not_found hl hq hlive
      · rw [step, apply, heq]
        exact hn.notAllocated hs hnot
  | allocRootEntry mem storageId =>
      rcases FsHandlesDb.allocRootEntry_cases hn.slots mem storageId with
        ⟨p, db', heq, hs, ha, -, htable, -⟩ | ⟨db', heq, hs, hnot⟩
      · rw [step, apply, heq]
        exact hn.push hs ha htable fun hpos => absurd rfl hpos
      · rw [step, apply, heq]
        exact hn.notAllocated hs hnot
  | renameEntry mem p name => exact hn.rename hk
  | setDeleted p =>
      refine hn.setEntry p rfl rfl fun hdel => ?_
      rw [FsEntry.isDeleted_setDeleted] at hdel
      cases hdel
  | setSize p size => exact hn.setEntry p rfl rfl id
  | setFileDescriptor p fileDescriptor => exact hn.setEntry p rfl rfl id
  | setWatchDescriptor p watchDescriptor => exact hn.setEntry p rfl rfl id
  | initSearchHandle parent storageId =>
      exact hn.keep (hn.slots.congr rfl rfl rfl) rfl rfl (fun _ _ => rfl) (fun _ _ => rfl)
        fun _ _ => id
  | getNextChildHandle =>
      rw [step, apply, FsHandlesDb.getNextChildHandle_snd]
      exact hn.keep (hn.slots.congr rfl rfl rfl) rfl rfl (fun _ _ => rfl) (fun _ _ => rfl)
        fun _ _ => id

end Umtp.Handles
