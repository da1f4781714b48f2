import Umtp.TreeRemoval

namespace Umtp

open Lib Lib.Prog Handles Text

variable {σ α : Type} {os : Os σ} {tree : σ → FileTree} {w : World σ}

-- The database while entries are flagged

-- The database is the one at the start, but for the cursor of the search and for
-- entries that were flagged. Those are no roots of storages.
structure Kept (start ctx : MtpCtx) : Prop where
  session : ctx.fsDb.isSome = true
  storages : ctx.storages = start.storages
  table : ctx.db.hashTableByHandle = start.db.hashTableByHandle
  entryList : ctx.db.entryList = start.db.entryList
  entry : ∀ q, ctx.entry q = start.entry q ∨
    (start.entry q).handle ≠ 0 ∧ ctx.entry q = (start.entry q).setDeleted

namespace MtpCtx

theorem db_applyDb {ctx : MtpCtx} (h : ctx.fsDb.isSome = true) (op : DbOp) :
    (ctx.applyDb op).db = op.step ctx.db ∧ (ctx.applyDb op).fsDb.isSome = true := by
  rw [applyDb, db, db]
  cases hdb : ctx.fsDb with
  | none =>
      rw [hdb] at h
      cases h
  | some db => exact ⟨rfl, rfl⟩

theorem mem_climb_succ {ctx : MtpCtx} {p r : EntryPtr} {fuel : Nat} (h : r ∈ ctx.climb fuel p) :
    r ∈ ctx.climb (fuel + 1) p := by
  induction fuel generalizing p with
  | zero =>
      obtain ⟨above, habove⟩ := @climb_head ctx p 1
      rw [List.mem_singleton.mp h, habove]
      exact List.mem_cons_self
  | succ fuel ih =>
      rw [climb] at h ⊢
      split at h
      · rename_i hup
        rw [if_pos hup]
        cases hq : ctx.getEntryByHandle (ctx.entry p).parent with
        | none =>
            rw [hq] at h
            exact h
        | some q =>
            rw [hq] at h
            rcases List.mem_cons.mp h with rfl | h
            · exact List.mem_cons_self
            · exact List.mem_cons_of_mem _ (ih h)
      · rename_i hup
        rw [if_neg hup]
        exact h

end MtpCtx

theorem find?_of_imp {α : Type} {wanted wanted' : α → Bool} {l : List α} {x : α}
    (himp : ∀ y ∈ l, wanted' y = true → wanted y = true) (h : l.find? wanted = some x)
    (hx : wanted' x = true) : l.find? wanted' = some x := by
  obtain ⟨-, front, back, rfl, hfront⟩ := List.find?_eq_some_iff_append.mp h
  refine List.find?_eq_some_iff_append.mpr ⟨hx, front, back, rfl, fun y hy => ?_⟩
  have hno := hfront y hy
  cases hcases : wanted' y with
  | false => rfl
  | true =>
      rw [himp y (List.mem_append_left _ hy) hcases] at hno
      cases hno

-- What comes before an element of a list without duplicates.
theorem mem_of_before {α : Type} {l front behind front' behind' : List α} {x y : α}
    (hnodup : l.Nodup) (h : l = front ++ x :: behind) (hy : y ∈ behind)
    (h' : l = front' ++ y :: behind') : x ∈ front' := by
  rw [h] at hnodup
  have hne : y ≠ x := fun heq =>
    (List.nodup_cons.mp (List.nodup_append.mp hnodup).2.1).1 (heq ▸ hy)
  rw [← h, h'] at hnodup
  rw [h] at h'
  rcases List.append_eq_append_iff.mp h' with ⟨mid, rfl, hmid⟩ | ⟨mid, rfl, hmid⟩
  · cases mid with
    | nil => exact absurd (List.cons.inj hmid).1.symm hne
    | cons c mid =>
        rw [(List.cons.inj hmid).1]
        exact List.mem_append_right _ List.mem_cons_self
  · have hbehind : y ∈ behind' := by
      cases mid with
      | nil => exact absurd (List.cons.inj hmid).1 hne
      | cons c mid =>
          rw [(List.cons.inj hmid).2]
          exact List.mem_append_right _ (List.mem_cons_of_mem _ hy)
    exact absurd hbehind (List.nodup_cons.mp (List.nodup_append.mp hnodup).2.1).1

namespace Kept

variable {start ctx : MtpCtx}

theorem refl (h : start.fsDb.isSome = true) : Kept start start :=
  ⟨h, rfl, rfl, rfl, fun _ => Or.inl rfl⟩

theorem applyDb (h : Kept start ctx) {op : DbOp}
    (htable : (op.step ctx.db).hashTableByHandle = ctx.db.hashTableByHandle)
    (hlist : (op.step ctx.db).entryList = ctx.db.entryList)
    (hentry : ∀ q, (op.step ctx.db).pool q = ctx.entry q ∨
      (start.entry q).handle ≠ 0 ∧ (op.step ctx.db).pool q = (ctx.entry q).setDeleted) :
    Kept start (ctx.applyDb op) := by
  obtain ⟨hdb, hsession⟩ := MtpCtx.db_applyDb h.session op
  refine ⟨hsession, h.storages, by rw [hdb, htable, h.table], by rw [hdb, hlist, h.entryList],
    fun q => ?_⟩
  have hagain : ∀ entry : FsEntry, entry.setDeleted.setDeleted = entry.setDeleted := by
    intro entry
    simp [FsEntry.setDeleted, raise, BitVec.or_assoc]
  rw [MtpCtx.entry, hdb]
  rcases hentry q with hsame | ⟨hpos, hflag⟩
  · rw [hsame]
    exact h.entry q
  · rw [hflag]
    rcases h.entry q with hold | ⟨-, hold⟩
    · exact Or.inr ⟨hpos, by rw [hold]⟩
    · exact Or.inr ⟨hpos, by rw [hold, hagain]⟩

theorem fields (h : Kept start ctx) (q : EntryPtr) :
    (ctx.entry q).handle = (start.entry q).handle ∧ (ctx.entry q).parent = (start.entry q).parent ∧
      (ctx.entry q).storageId = (start.entry q).storageId ∧
      (ctx.entry q).name = (start.entry q).name := by
  rcases h.entry q with hold | ⟨-, hold⟩
  · rw [hold]
    exact ⟨rfl, rfl, rfl, rfl⟩
  · rw [hold]
    exact ⟨rfl, rfl, rfl, rfl⟩

-- An entry that is still live was not flagged.
theorem live (h : Kept start ctx) {q : EntryPtr} (hlive : (ctx.entry q).isDeleted = false) :
    ctx.entry q = start.entry q := by
  rcases h.entry q with hold | ⟨-, hold⟩
  · exact hold
  · rw [hold, FsEntry.isDeleted_setDeleted] at hlive
    cases hlive

theorem root (h : Kept start ctx) : ctx.mtpGetStorageRoot = start.mtpGetStorageRoot :=
  MtpCtx.root_eq_of_storages h.storages

theorem getEntryByHandle_some (h : Kept start ctx) {handle : Nat} {r : EntryPtr}
    (hr : start.getEntryByHandle handle = some r) (hsame : ctx.entry r = start.entry r) :
    ctx.getEntryByHandle handle = some r := by
  rw [MtpCtx.getEntryByHandle, FsHandlesDb.getEntryByHandle, h.table, h.root]
  refine find?_of_imp (fun q _ hq => ?_) hr ?_
  · simp only [Bool.and_eq_true, Bool.not_eq_true'] at hq ⊢
    have hlive := h.live hq.1.1
    rw [MtpCtx.entry, MtpCtx.entry] at hlive
    rw [← hlive]
    exact hq
  · have hfound := List.find?_some hr
    rw [MtpCtx.entry, MtpCtx.entry] at hsame
    rw [hsame]
    exact hfound

theorem getEntryByHandle_none (h : Kept start ctx) {handle : Nat}
    (hr : start.getEntryByHandle handle = none) : ctx.getEntryByHandle handle = none := by
  rw [MtpCtx.getEntryByHandle, FsHandlesDb.getEntryByHandle, List.find?_eq_none] at hr ⊢
  rw [h.table, h.root]
  intro q hq hwanted
  refine hr q hq ?_
  simp only [Bool.and_eq_true, Bool.not_eq_true'] at hwanted ⊢
  have hlive := h.live hwanted.1.1
  rw [MtpCtx.entry, MtpCtx.entry] at hlive
  rw [← hlive]
  exact hwanted

-- As long as the entries above it are not flagged, the path of an entry stays.
theorem climb (h : Kept start ctx) {q : EntryPtr} {fuel : Nat}
    (habove : ∀ r ∈ (start.climb fuel q).tail, ctx.entry r = start.entry r) :
    ctx.climb fuel q = start.climb fuel q := by
  induction fuel generalizing q with
  | zero => rfl
  | succ fuel ih =>
      rw [MtpCtx.climb] at habove
      rw [MtpCtx.climb, MtpCtx.climb, (h.fields q).2.1]
      split
      · rename_i hup
        rw [if_pos hup] at habove
        cases hr : start.getEntryByHandle (start.entry q).parent with
        | none => rw [h.getEntryByHandle_none hr]
        | some r =>
            rw [hr] at habove
            dsimp only [List.tail_cons] at habove
            obtain ⟨above, hclimb⟩ := @MtpCtx.climb_head start r fuel
            rw [hclimb] at habove
            rw [h.getEntryByHandle_some hr (habove r List.mem_cons_self)]
            dsimp only
            rw [ih fun s hs => habove s (List.mem_cons_of_mem _ (by rwa [hclimb] at hs))]
      · rfl

theorem relativePath (h : Kept start ctx) {q : EntryPtr}
    (habove : ∀ r ∈ (start.climb start.db.entryList.length q).tail,
      ctx.entry r = start.entry r) (name : CString) :
    ctx.relativePath q name = start.relativePath q name := by
  rw [MtpCtx.relativePath, MtpCtx.relativePath, h.entryList, h.climb habove]
  refine List.flatMap_congr fun r _ => ?_
  rw [(h.fields r).2.2.2]

theorem resolved (h : Kept start ctx) {q : EntryPtr}
    (habove : ∀ r ∈ (start.climb start.db.entryList.length q).tail,
      ctx.entry r = start.entry r) (fs : CString → Except Errno CString) :
    ctx.resolved fs q = start.resolved fs q := by
  obtain ⟨-, -, hstorage, hname⟩ := h.fields q
  rw [MtpCtx.resolved, MtpCtx.resolved, h.root, hstorage, hname, h.relativePath habove]

end Kept

-- What a folder is deleted with

namespace MtpCtx

-- The search for the children of `d` finds `q`.
def IsChild (ctx : MtpCtx) (d q : EntryPtr) : Prop :=
  q ∈ ctx.childrenOf (ctx.entry d).handle (ctx.entry d).storageId

-- The search comes to `q`. It ends with the first sub-folder that is searched itself,
-- which those that lie too deep are not.
def IsSearched (ctx : MtpCtx) (levels : Nat) (d q : EntryPtr) : Prop :=
  ctx.IsChild d q ∧ ∃ passed rest, ctx.db.entryList = passed ++ q :: rest ∧
    (levels = 0 ∨ ∀ r ∈ passed, ctx.IsChild d r → (ctx.entry r).isDir = false)

-- The folders that the deletion of `p` searches, each with the levels that are left.
inductive DeletesIn (ctx : MtpCtx) (p : EntryPtr) : Nat → EntryPtr → Prop where
  | top : DeletesIn ctx p MAX_TREE_DEPTH p
  | down {levels : Nat} {d q : EntryPtr} (above : DeletesIn ctx p (levels + 1) d)
      (hq : ctx.IsSearched (levels + 1) d q) (hdir : (ctx.entry q).isDir = true) :
      DeletesIn ctx p levels q

-- After whatever removals of what is inside, all that can be removed with the entry is
-- inside.
def StaysInside (ctx : MtpCtx) (files : FileTree) (inside : List FileName → Prop)
    (q : EntryPtr) : Prop :=
  ∀ rest : FileTree, files.Cleared inside rest →
    ∀ path, ctx.resolved rest.realpath q = some path →
      ∀ place, rest.Removable (ctx.entry q).isDir path place → inside place

-- The removal of the entry can succeed.
def CanVanish (ctx : MtpCtx) (files : FileTree) (q : EntryPtr) : Prop :=
  ∃ path, ctx.resolved files.realpath q = some path ∧ files.Removes (ctx.entry q).isDir path

-- All that is searched in a folder can be removed, after whatever removals of what is
-- inside. A folder that lies too deep never is.
def Empties (ctx : MtpCtx) (files : FileTree) (inside : List FileName → Prop) :
    Nat → EntryPtr → Prop
  | 0, d => ∀ q, ctx.IsSearched 0 d q → (ctx.entry q).isDir = false ∧
      ∃ rest : FileTree, files.Cleared inside rest ∧ ctx.CanVanish rest q
  | levels + 1, d => ∀ q, ctx.IsSearched (levels + 1) d q →
      ((ctx.entry q).isDir = true → Empties ctx files inside levels q) ∧
        ∃ rest : FileTree, files.Cleared inside rest ∧ ctx.CanVanish rest q

-- A folder is only removed when all that was searched in it is.
def IsEmptied (ctx : MtpCtx) (files : FileTree) (inside : List FileName → Prop) (levels : Nat)
    (q : EntryPtr) : Prop :=
  (ctx.entry q).isDir = true → ∃ below, levels = below + 1 ∧ ctx.Empties files inside below q

-- So it is for the children that are removed with their folder.
def ChildrenInside (ctx : MtpCtx) (files : FileTree) (inside : List FileName → Prop)
    (p : EntryPtr) : Prop :=
  ∀ levels d q, ctx.DeletesIn p levels d → ctx.IsSearched levels d q →
    ctx.IsEmptied files inside levels q → ctx.StaysInside files inside q

structure DeletesInside (ctx : MtpCtx) (files : FileTree) (inside : List FileName → Prop)
    (p : EntryPtr) : Prop where
  object : ((ctx.entry p).isDir = true → ctx.Empties files inside MAX_TREE_DEPTH p) →
    ∀ path, ctx.resolved files.realpath p = some path →
      ∀ place, files.Removable (ctx.entry p).isDir path place → inside place
  children : (ctx.entry p).isDir = true → (ctx.resolved files.realpath p).isSome = true →
    ctx.ChildrenInside files inside p

-- The object can be removed with what is searched in it.
def Vanishes (ctx : MtpCtx) (files : FileTree) (inside : List FileName → Prop)
    (p : EntryPtr) : Prop :=
  ctx.CanVanish files p ∧
    ((ctx.entry p).isDir = true → ctx.Empties files inside MAX_TREE_DEPTH p)

-- What is searched in a folder goes entry by entry.
theorem Empties.of_searched {ctx : MtpCtx} {files : FileTree} {inside : List FileName → Prop}
    {levels : Nat} {d : EntryPtr}
    (h : ∀ q, ctx.IsSearched levels d q → ctx.IsEmptied files inside levels q ∧
      ∃ rest : FileTree, files.Cleared inside rest ∧ ctx.CanVanish rest q) :
    ctx.Empties files inside levels d := by
  cases levels with
  | zero =>
      refine fun q hq => ⟨?_, (h q hq).2⟩
      rw [← Bool.not_eq_true]
      intro hdir
      obtain ⟨below, hbelow, -⟩ := (h q hq).1 hdir
      exact absurd hbelow.symm (Nat.succ_ne_zero below)
  | succ levels =>
      refine fun q hq => ⟨fun hdir => ?_, (h q hq).2⟩
      obtain ⟨below, hbelow, hempties⟩ := (h q hq).1 hdir
      obtain rfl := Nat.succ.inj hbelow
      exact hempties

def RefusesDeletion (ctx : MtpCtx) (handle : Nat) : Prop :=
  (ctx.checkHandleAccess none handle true).isSome = true

theorem isNamed_of_realpath {files : FileTree} {path found : CString}
    (h : files.realpath path = .ok found) : IsNamed found := by
  obtain ⟨place, left, -, -, rfl⟩ := FileTree.lookup_of_realpath h
  refine ⟨head_of_canonical (canonical_render place), ?_⟩
  induction place using List.reverseRecOn with
  | nil => exact Or.inl rfl
  | append_singleton dir name _ =>
      refine Or.inr ⟨dir.flatMap fun name => SLASH :: name.val, name, ?_⟩
      rw [render, if_neg (by simp), List.flatMap_append, List.flatMap_singleton]

theorem isNamed_of_resolved {ctx : MtpCtx} {files : FileTree} {q : EntryPtr} {path : CString}
    (h : ctx.resolved files.realpath q = some path) : IsNamed path := by
  obtain ⟨root, -, h⟩ := Option.bind_eq_some_iff.mp h
  obtain ⟨found, hfound, hcheck⟩ := Option.bind_eq_some_iff.mp h
  obtain ⟨rfl, -⟩ := checkRoot_eq_some.mp hcheck
  rw [resolution] at hfound
  split at hfound
  · rename_i path hpath
    cases hfound
    exact isNamed_of_realpath hpath
  · split at hfound
    · rename_i parentPath hparent
      obtain ⟨sanitized, hsanitized, rfl⟩ := Option.map_eq_some_iff.mp hfound
      have hname := (isSanitized_of_sanitizeName hsanitized).isFileName
      exact ⟨head_of_front (isNamed_of_realpath hparent).1 (List.prefix_append _ _),
        Or.inr ⟨parentPath, ⟨sanitized, hname⟩, rfl⟩⟩
    · cases hfound
  · cases hfound

end MtpCtx

-- What is known of a folder that is deleted.
structure Deletable (tree : σ → FileTree) (start : World σ) (inside : List FileName → Prop)
    (p : EntryPtr) : Prop where
  session : start.ctx.fsDb.isSome = true
  grown : start.ctx.WellGrown
  count : start.ctx.db.entryList.length < UINT32_SIZE - 1
  listed : p ∈ start.ctx.db.entryList
  root : ∃ root, start.ctx.mtpGetStorageRoot (start.ctx.entry p).storageId = some root ∧
    root.head? = some SLASH
  children : start.ctx.ChildrenInside (tree start.os) inside p

namespace Deletable

variable {start : World σ} {inside : List FileName → Prop} {p d q : EntryPtr} {levels : Nat}

theorem child (h : Deletable tree start inside p) (hq : start.ctx.IsChild d q) :
    q ∈ start.ctx.db.entryList ∧
      (start.ctx.entry q).parent = (start.ctx.entry d).handle ∧
      (start.ctx.entry q).storageId = (start.ctx.entry d).storageId ∧
      (start.ctx.entry d).handle < (start.ctx.entry q).handle := by
  obtain ⟨hlisted, hwanted⟩ := List.mem_filter.mp hq
  simp only [Bool.and_eq_true, beq_iff_eq, bne_iff_ne] at hwanted
  obtain ⟨⟨⟨-, hparent⟩, hstorage⟩, hne⟩ := hwanted
  refine ⟨hlisted, hparent, hstorage, ?_⟩
  rcases h.grown.rising h.count q hlisted with hzero | hless
  · rw [← hparent, hzero]
    exact Nat.pos_of_ne_zero fun h0 => hne (h0.trans hzero.symm)
  · rw [← hparent]
    exact hless

theorem folder (h : Deletable tree start inside p) (hd : start.ctx.DeletesIn p levels d) :
    d ∈ start.ctx.db.entryList ∧
      (start.ctx.entry d).storageId = (start.ctx.entry p).storageId := by
  induction hd with
  | top => exact ⟨h.listed, rfl⟩
  | down _ hq _ ih =>
      obtain ⟨hlisted, -, hsame, -⟩ := h.child hq.1
      exact ⟨hlisted, hsame.trans ih.2⟩

-- The entries above a child are its folder and those above the folder.
theorem above (h : Deletable tree start inside p) (hd : start.ctx.DeletesIn p levels d)
    (hq : start.ctx.IsChild d q) :
    ∀ r ∈ (start.ctx.climb start.ctx.db.entryList.length q).tail,
      r ∈ start.ctx.climb start.ctx.db.entryList.length d := by
  obtain ⟨hlisted, -⟩ := h.folder hd
  obtain ⟨hmem, hparent, -, -⟩ := h.child hq
  obtain ⟨turns, hturns⟩ := Nat.exists_eq_succ_of_ne_zero (List.length_pos_of_mem hmem).ne'
  intro r hr
  rw [hturns, MtpCtx.climb] at hr
  split at hr
  · rename_i hup
    cases hfound : start.ctx.getEntryByHandle (start.ctx.entry q).parent with
    | none =>
        rw [hfound] at hr
        cases hr
    | some d' =>
        rw [hfound] at hr
        obtain ⟨hlive, hhandle, -⟩ := h.grown.ordered.getEntryByHandle_live hfound
        have hsame : d = d' := h.grown.recorded.handle_inj h.count hlisted hlive.1
          (hparent ▸ hup.1) (hparent.symm.trans hhandle.symm)
        rw [hturns, hsame]
        exact MtpCtx.mem_climb_succ hr
  · cases hr

end Deletable

-- delete_db_tree

-- Entries are flagged, but none of the safe ones.
structure Deleting (tree : σ → FileTree) (start : World σ) (inside : List FileName → Prop)
    (safe : EntryPtr → Prop) (w : World σ) : Prop where
  kept : Kept start.ctx w.ctx
  cleared : (tree start.os).Cleared inside (tree w.os)
  safe : ∀ r, safe r → w.ctx.entry r = start.ctx.entry r

-- While a folder is deleted, it is safe with all entries above it. None of the safe
-- entries is younger.
structure Guards (start : World σ) (d : EntryPtr) (safe : EntryPtr → Prop) : Prop where
  climb : ∀ r ∈ start.ctx.climb start.ctx.db.entryList.length d, safe r
  older : ∀ r, safe r → (start.ctx.entry r).handle ≤ (start.ctx.entry d).handle

-- The search looks for children of the folder, or has come to its end. Those that it
-- has not come to are as they were. Less than `n` entries are left to look at.
structure Searches (start : World σ) (d : EntryPtr) (n : Nat) (ctx : MtpCtx) : Prop where
  search : ∀ r ∈ ctx.db.searchEntry, ctx.db.handleSearch = (start.ctx.entry d).handle ∧
    ctx.db.storageSearch = (start.ctx.entry d).storageId
  fresh : ∀ r ∈ ctx.db.searchEntry, start.ctx.IsChild d r → ctx.entry r = start.ctx.entry r
  left : ctx.db.searchEntry.length < n

-- Nothing was flagged in the folders with a handle from `handle` on.
def Untouched (start : World σ) (handle : Nat) (ctx : MtpCtx) : Prop :=
  ∀ r, handle ≤ (start.ctx.entry r).parent → ctx.entry r = start.ctx.entry r

-- The child can be removed from its folder.
def Goes (tree : σ → FileTree) (start : World σ) (inside : List FileName → Prop) (levels : Nat)
    (q : EntryPtr) : Prop :=
  start.ctx.IsEmptied (tree start.os) inside levels q ∧
    ∃ rest : FileTree, (tree start.os).Cleared inside rest ∧ start.ctx.CanVanish rest q

-- As long as the search goes on it has passed no sub-folder that it was to end with.
-- Where nothing failed so far, what it has passed was removed.
structure Searching (tree : σ → FileTree) (start : World σ) (inside : List FileName → Prop)
    (safe : EntryPtr → Prop) (levels : Nat) (d : EntryPtr) (n fcnt : Nat) (w : World σ) : Prop
    extends Deleting tree start inside safe w, Searches start d n w.ctx where
  gone : fcnt = 0 → ∀ q, start.ctx.IsSearched levels d q →
    q ∈ w.ctx.db.searchEntry ∨ Goes tree start inside levels q
  passed : w.ctx.db.searchEntry ≠ [] → ∃ passed,
    start.ctx.db.entryList = passed ++ w.ctx.db.searchEntry ∧
      (levels = 0 ∨ ∀ r ∈ passed, start.ctx.IsChild d r → (start.ctx.entry r).isDir = false)
  below : w.ctx.db.searchEntry ≠ [] → Untouched start ((start.ctx.entry d).handle + 1) w.ctx

-- The search has come to `q`, which is live.
structure Found (tree : σ → FileTree) (start : World σ) (inside : List FileName → Prop)
    (safe : EntryPtr → Prop) (levels : Nat) (d q : EntryPtr) (n fcnt : Nat) (w : World σ) :
    Prop extends Deleting tree start inside safe w, Searches start d n w.ctx where
  gone : fcnt = 0 → ∀ r, r ≠ q → start.ctx.IsSearched levels d r →
    r ∈ w.ctx.db.searchEntry ∨ Goes tree start inside levels r
  child : start.ctx.IsChild d q
  entry : w.ctx.entry q = start.ctx.entry q
  passed : ∃ passed, start.ctx.db.entryList = passed ++ q :: w.ctx.db.searchEntry ∧
    (levels = 0 ∨ ∀ r ∈ passed, start.ctx.IsChild d r → (start.ctx.entry r).isDir = false)
  below : Untouched start ((start.ctx.entry d).handle + 1) w.ctx

section Loop

variable {start : World σ} {inside : List FileName → Prop} {p d q : EntryPtr}
  {levels n fcnt : Nat} {safe : EntryPtr → Prop} {files : FileTree}

theorem Found.isSearched (hw : Found tree start inside safe levels d q n fcnt w) :
    start.ctx.IsSearched levels d q := by
  obtain ⟨passed, hlist, hno⟩ := hw.passed
  exact ⟨hw.child, passed, _, hlist, hno⟩

theorem Found.notMem (h : Deletable tree start inside p)
    (hw : Found tree start inside safe levels d q n fcnt w) : q ∉ w.ctx.db.searchEntry := by
  obtain ⟨passed, hlist, -⟩ := hw.passed
  have hnodup := h.grown.ordered.slots.nodup
  rw [hlist] at hnodup
  exact (List.nodup_cons.mp (List.nodup_append.mp hnodup).2.1).1

-- Nothing behind a sub-folder is searched.
theorem Found.gone_of_dir (h : Deletable tree start inside p)
    (hw : Found tree start inside safe levels d q n fcnt w) (hlevels : levels ≠ 0)
    (hdir : (start.ctx.entry q).isDir = true) (hzero : fcnt = 0) {r : EntryPtr} (hr : r ≠ q)
    (hsearched : start.ctx.IsSearched levels d r) : Goes tree start inside levels r := by
  refine (hw.gone hzero r hr hsearched).resolve_left fun hmem => ?_
  obtain ⟨passed, hlist, -⟩ := hw.passed
  obtain ⟨-, before, behind, hlist', hno⟩ := hsearched
  have hbefore := mem_of_before h.grown.ordered.slots.nodup hlist hmem hlist'
  rw [hno.resolve_left hlevels q hbefore hw.child] at hdir
  cases hdir

-- The child that is removed is behind the search.
structure RemovesChild (tree : σ → FileTree) (start : World σ) (inside : List FileName → Prop)
    (safe : EntryPtr → Prop) (levels : Nat) (d q : EntryPtr) (n fcnt : Nat) (w : World σ) : Prop
    extends Searching tree start inside safe levels d n 1 w where
  behind : q ∉ w.ctx.db.searchEntry
  others : fcnt = 0 → ∀ r, r ≠ q → start.ctx.IsSearched levels d r →
    r ∈ w.ctx.db.searchEntry ∨ Goes tree start inside levels r

-- The search goes on behind a file, and behind a folder that lies too deep.
theorem Found.removes (h : Deletable tree start inside p)
    (hw : Found tree start inside safe levels d q n fcnt w)
    (hq : levels = 0 ∨ (start.ctx.entry q).isDir = false) :
    RemovesChild tree start inside safe levels d q n fcnt w := by
  refine ⟨⟨hw.toDeleting, hw.toSearches, fun hone => absurd hone Nat.one_ne_zero, fun _ => ?_,
    fun _ => hw.below⟩, hw.notMem h, hw.gone⟩
  obtain ⟨passed, hlist, hno⟩ := hw.passed
  refine ⟨passed ++ [q], by rw [hlist, List.append_assoc]; rfl, ?_⟩
  rcases hq with hzero | hfile
  · exact Or.inl hzero
  · refine hno.imp_right fun hno r hr hchild => ?_
    rcases List.mem_append.mp hr with hr | hr
    · exact hno r hr hchild
    · rw [List.mem_singleton.mp hr]
      exact hfile

-- What is counted behind the child.
theorem RemovesChild.searching (hw : RemovesChild tree start inside safe levels d q n fcnt w)
    {fcnt' : Nat} (hcount : fcnt' = 0 → fcnt = 0 ∧ Goes tree start inside levels q) :
    Searching tree start inside safe levels d n fcnt' w := by
  refine ⟨hw.toDeleting, hw.toSearches, fun hzero r hr => ?_, hw.passed, hw.below⟩
  obtain ⟨hzero, hgoes⟩ := hcount hzero
  by_cases hsame : r = q
  · rw [hsame]
    exact Or.inr hgoes
  · exact hw.others hzero r hsame hr

-- A search that has come to its end.
theorem Deleting.removes (hw : Deleting tree start inside safe w)
    (hend : w.ctx.db.searchEntry = []) (hn : 0 < n)
    (hothers : fcnt = 0 → ∀ r, r ≠ q → start.ctx.IsSearched levels d r →
      Goes tree start inside levels r) :
    RemovesChild tree start inside safe levels d q n fcnt w := by
  have hnone : ∀ r, r ∉ w.ctx.db.searchEntry := fun r => by
    rw [hend]
    exact List.not_mem_nil
  refine ⟨⟨hw, ⟨fun r hr => absurd hr (hnone r), fun r hr => absurd hr (hnone r), ?_⟩,
    fun hone => absurd hone Nat.one_ne_zero, fun hne => absurd hend hne,
    fun hne => absurd hend hne⟩, hnone q, fun hzero r hr hsearched =>
      Or.inr (hothers hzero r hr hsearched)⟩
  rw [hend]
  exact hn

-- What is removed from the tree that is left.
theorem RemovesChild.of_clears (hw : RemovesChild tree start inside safe levels d q n fcnt w)
    {w' : World σ} (h : Clears tree (tree w.os) inside w.ctx w') :
    RemovesChild tree start inside safe levels d q n fcnt w' := by
  obtain ⟨hctx, hcleared⟩ := h
  exact ⟨⟨⟨hctx ▸ hw.kept, hw.cleared.trans hcleared, hctx ▸ hw.safe⟩, hctx ▸ hw.toSearches,
    fun hone => absurd hone Nat.one_ne_zero, hctx ▸ hw.passed, hctx ▸ hw.below⟩,
    hctx ▸ hw.behind, hctx ▸ hw.others⟩

theorem always_getCtx_bind {P : World σ → Prop} {Q : α → World σ → Prop} {f : MtpCtx → M α}
    (hf : ∀ ctx, Always os (fun w => P w ∧ w.ctx = ctx) (f ctx) Q) :
    Always os P (M.getCtx >>= f) Q :=
  fun w hw hs => hf _ w ⟨hw, rfl⟩ ((safe_bind _ _ w).mp hs).2

-- What the search passes over is no child any more, and what it has not come to is
-- as it was.
theorem always_getNextChildHandle :
    Always os (Searching tree start inside safe levels d (n + 1) fcnt) (M.db .getNextChildHandle)
      fun next w =>
        match next with
        | some q => Found tree start inside safe levels d q n fcnt w
        | none => Deleting tree start inside safe w ∧ w.ctx.db.searchEntry = [] ∧
          (fcnt = 0 → start.ctx.Empties (tree start.os) inside levels d) := by
  refine ensures_perform fun w hw _ => ?_
  obtain ⟨db, hdb⟩ := Option.isSome_iff_exists.mp hw.kept.session
  have hctx : w.ctx.db = db := by rw [MtpCtx.db, hdb, Option.getD_some]
  have hanswer : (World.handle os (.db .getNextChildHandle) w).1 = db.getNextChildHandle.1 := by
    rw [World.handle, hdb]
    rfl
  have hnext := (MtpCtx.db_applyDb hw.kept.session .getNextChildHandle).1
  rw [hctx] at hnext
  have hnext : (w.ctx.applyDb .getNextChildHandle).db = db.getNextChildHandle.2 := hnext
  have hsnd := @FsHandlesDb.getNextChildHandle_snd db
  have hpool : ∀ r, (w.ctx.applyDb .getNextChildHandle).entry r = w.ctx.entry r := by
    intro r
    rw [MtpCtx.entry, MtpCtx.entry, hnext, hsnd, hctx]
  have hfields : db.getNextChildHandle.2.hashTableByHandle = db.hashTableByHandle ∧
      db.getNextChildHandle.2.entryList = db.entryList ∧
      db.getNextChildHandle.2.pool = db.pool := by
    rw [hsnd]
    exact ⟨rfl, rfl, rfl⟩
  have hkept : Kept start.ctx (w.ctx.applyDb .getNextChildHandle) :=
    hw.kept.applyDb (by rw [hctx]; exact hfields.1) (by rw [hctx]; exact hfields.2.1) fun r =>
      Or.inl (by
        rw [MtpCtx.entry, hctx]
        exact congrFun hfields.2.2 r)
  have hdeleting : Deleting tree start inside safe ⟨w.ctx.applyDb .getNextChildHandle, w.os⟩ :=
    ⟨hkept, hw.cleared, fun r hr => (hpool r).trans (hw.safe r hr)⟩
  rw [hanswer]
  change match db.getNextChildHandle.1 with
    | some q => Found tree start inside safe levels d q n fcnt
        ⟨w.ctx.applyDb .getNextChildHandle, w.os⟩
    | none => Deleting tree start inside safe ⟨w.ctx.applyDb .getNextChildHandle, w.os⟩ ∧
        (w.ctx.applyDb .getNextChildHandle).db.searchEntry = [] ∧
        (fcnt = 0 → start.ctx.Empties (tree start.os) inside levels d)
  -- a child that is as it was is one that the search looks for
  have hlooked : ∀ r ∈ w.ctx.db.searchEntry, start.ctx.IsChild d r →
      db.isSearchedChild r = true := by
    intro r hr hchild
    have hsame := hw.fresh r hr hchild
    have hsearch := hw.search r hr
    have hthere := (List.mem_filter.mp hchild).2
    rw [← hsame, ← hsearch.1, ← hsearch.2, hctx] at hthere
    rw [MtpCtx.entry, hctx] at hthere
    exact hthere
  cases hfound : db.getNextChildHandle.1 with
  | none =>
      rw [FsHandlesDb.getNextChildHandle] at hfound
      split at hfound
      · rename_i hdrop
        refine ⟨hdeleting, ?_, fun hzero => .of_searched fun r hr => ?_⟩
        · rw [hnext, FsHandlesDb.getNextChildHandle, hdrop]
        · refine (hw.gone hzero r hr).resolve_left fun hmem => ?_
          have hskipped := List.dropWhile_eq_nil_iff.mp hdrop r (hctx ▸ hmem)
          rw [hlooked r hmem hr.1] at hskipped
          cases hskipped
      · cases hfound
  | some q =>
      obtain ⟨hdrop, hwanted⟩ := FsHandlesDb.getNextChildHandle_eq_some hfound
      have hsplit := List.takeWhile_append_dropWhile
        (p := fun r => !db.isSearchedChild r) (l := db.searchEntry)
      rw [hdrop] at hsplit
      have hmem : ∀ r, r = q ∨ r ∈ db.getNextChildHandle.2.searchEntry →
          r ∈ w.ctx.db.searchEntry := by
        intro r hr
        rw [hctx, ← hsplit]
        exact List.mem_append_right _ (List.mem_cons.mpr hr)
      have hsearch := hw.search q (hmem q (Or.inl rfl))
      -- those that are passed over are no children
      have hskip : ∀ r ∈ db.searchEntry.takeWhile fun r => !db.isSearchedChild r,
          ¬start.ctx.IsChild d r := by
        intro r hr hchild
        have hskipped := List.mem_takeWhile_imp hr
        have hin : r ∈ w.ctx.db.searchEntry := by
          rw [hctx, ← hsplit]
          exact List.mem_append_left _ hr
        rw [hlooked r hin hchild] at hskipped
        cases hskipped
      have hlive : w.ctx.entry q = start.ctx.entry q := by
        refine hw.kept.live ?_
        simp only [FsHandlesDb.isSearchedChild, Bool.and_eq_true, Bool.not_eq_true'] at hwanted
        rw [MtpCtx.entry, hctx]
        exact hwanted.1.1.1
      have hne := List.ne_nil_of_mem (hmem q (Or.inl rfl))
      obtain ⟨passed, hlist, hno⟩ := hw.passed hne
      have hchild : start.ctx.IsChild d q := by
        refine List.mem_filter.mpr ⟨?_, ?_⟩
        · rw [hlist]
          exact List.mem_append_right _ (hmem q (Or.inl rfl))
        · rw [FsHandlesDb.isSearchedChild] at hwanted
          rw [← hlive, ← hsearch.1, ← hsearch.2, hctx, MtpCtx.entry, hctx]
          exact hwanted
      refine ⟨hdeleting, ⟨fun r hr => ?_, fun r hr hr' => ?_, ?_⟩, fun hzero r hr hr' => ?_,
        hchild, (hpool q).trans hlive,
        ⟨passed ++ db.searchEntry.takeWhile fun r => !db.isSearchedChild r, ?_, ?_⟩,
        fun r hr => (hpool r).trans (hw.below hne r hr)⟩
      · rw [hnext] at hr ⊢
        have hold := hw.search r (hmem r (Or.inr hr))
        rw [hctx] at hold
        rw [hsnd]
        exact hold
      · rw [hpool]
        rw [hnext] at hr
        exact hw.fresh r (hmem r (Or.inr hr)) hr'
      · have hleft := hw.left
        rw [hctx, ← hsplit, List.length_append, List.length_cons] at hleft
        change (w.ctx.applyDb .getNextChildHandle).db.searchEntry.length < n
        rw [hnext]
        omega
      · refine (hw.gone hzero r hr').imp_left fun hmem => ?_
        change r ∈ (w.ctx.applyDb .getNextChildHandle).db.searchEntry
        rw [hnext]
        rw [hctx, ← hsplit] at hmem
        rcases List.mem_append.mp hmem with hmem | hmem
        · exact absurd hr'.1 (hskip r hmem)
        · exact (List.mem_cons.mp hmem).resolve_left hr
      · change _ = _ ++ q :: (w.ctx.applyDb .getNextChildHandle).db.searchEntry
        rw [hnext, hlist, hctx, List.append_assoc]
        exact congrArg (passed ++ ·) hsplit.symm
      · refine hno.imp_right fun hno r hr hchild => ?_
        rcases List.mem_append.mp hr with hr | hr
        · exact hno r hr hchild
        · exact absurd hchild (hskip r hr)

theorem always_entryPath (hlinks : os.HasLinks tree) (h : Deletable tree start inside p)
    (hd : start.ctx.DeletesIn p levels d) (hguards : Guards start d safe)
    (hq : start.ctx.IsChild d q) :
    Always os (fun w => RemovesChild tree start inside safe levels d q n fcnt w ∧
      tree w.os = files) (entryPath q) fun found w =>
        (RemovesChild tree start inside safe levels d q n fcnt w ∧ tree w.os = files) ∧
          ∀ path, found = some path → start.ctx.resolved files.realpath q = some path := by
  rintro w ⟨hw, rfl⟩ _
  have hctx := @looks_exec _ _ os _ (looks_entryPath q) w
  have htree := hlinks.kept (keepsFiles_identifies.entryPath q) w
  refine ⟨⟨hw.of_clears ⟨hctx, ?_⟩, htree⟩, fun path hpath => ?_⟩
  · rw [htree]
    exact .refl _ _
  · obtain ⟨root, hroot, habsolute⟩ := h.root
    have hsame : start.ctx.mtpGetStorageRoot (start.ctx.entry q).storageId = some root := by
      rw [(h.child hq).2.2.1, (h.folder hd).2, hroot]
    have hnow : w.ctx.mtpGetStorageRoot (w.ctx.entry q).storageId = some root := by
      rw [hw.kept.root, (hw.kept.fields q).2.2.1, hsame]
    have hresolved := exec_entryPath hlinks hnow habsolute hpath
    rwa [hw.kept.resolved fun r hr => hw.safe r (hguards.climb r (h.above hd hq r hr))]
      at hresolved

-- The flag is put on a child, and so on no entry above it.
theorem always_flagDeleted (h : Deletable tree start inside p) (hguards : Guards start d safe)
    (hq : start.ctx.IsChild d q) :
    Always os (RemovesChild tree start inside safe levels d q n fcnt)
      (M.flagDeleted .deleteDbTree q)
      fun _ => RemovesChild tree start inside safe levels d q n fcnt := by
  obtain ⟨-, hparent, -, hless⟩ := h.child hq
  refine ensures_perform fun w hw _ => ?_
  change RemovesChild tree start inside safe levels d q n fcnt
    ⟨w.ctx.applyDb (.setDeleted q), w.os⟩
  have hdb : (w.ctx.applyDb (.setDeleted q)).db =
      w.ctx.db.setEntry q (w.ctx.db.pool q).setDeleted :=
    (MtpCtx.db_applyDb hw.kept.session (.setDeleted q)).1
  have hother : ∀ r, r ≠ q → (w.ctx.applyDb (.setDeleted q)).entry r = w.ctx.entry r := by
    intro r hr
    rw [MtpCtx.entry, hdb, FsHandlesDb.setEntry_pool_of_ne _ _ hr]
    rfl
  have hkept : Kept start.ctx (w.ctx.applyDb (.setDeleted q)) := by
    refine hw.kept.applyDb rfl rfl fun r => ?_
    change (w.ctx.db.setEntry q (w.ctx.db.pool q).setDeleted).pool r = w.ctx.entry r ∨ _
    by_cases hr : r = q
    · subst hr
      refine Or.inr ⟨by omega, ?_⟩
      exact FsHandlesDb.setEntry_pool_self _ _ _
    · exact Or.inl (FsHandlesDb.setEntry_pool_of_ne _ _ hr)
  refine ⟨⟨⟨hkept, hw.cleared, fun r hr => ?_⟩, ⟨?_, fun r hr hr' => ?_, ?_⟩,
    fun hone => absurd hone Nat.one_ne_zero, ?_, fun hne r hr => ?_⟩, ?_, ?_⟩
  · have hle := hguards.older r hr
    rw [hother r fun heq => by rw [heq] at hle; omega]
    exact hw.safe r hr
  · rw [hdb]
    exact hw.search
  · rw [hdb] at hr
    rw [hother r fun heq => hw.behind (heq ▸ hr)]
    exact hw.fresh r hr hr'
  · rw [hdb]
    exact hw.left
  · rw [hdb]
    exact hw.passed
  · rw [hdb] at hne
    rw [hother r fun heq => by rw [heq] at hr; omega]
    exact hw.below hne r hr
  · rw [hdb]
    exact hw.behind
  · rw [hdb]
    exact hw.others

theorem always_removeChild (hdirs : os.HasDirectories tree) (h : Deletable tree start inside p)
    (hd : start.ctx.DeletesIn p levels d) (hguards : Guards start d safe)
    (hq : start.ctx.IsSearched levels d q)
    (hemptied : start.ctx.IsEmptied (tree start.os) inside levels q) {isDir : Bool}
    (hisDir : isDir = (start.ctx.entry q).isDir) :
    Always os (RemovesChild tree start inside safe levels d q n fcnt) (removeChild q isDir)
      fun failed w => RemovesChild tree start inside safe levels d q n fcnt w ∧
        (failed = false → Goes tree start inside levels q) := by
  intro w hw
  have hstays := h.children levels d q hd hq hemptied (tree w.os) hw.cleared
  have hgoes : ∀ path, start.ctx.resolved (tree w.os).realpath q = some path →
      (tree w.os).Removes isDir path → Goes tree start inside levels q := by
    intro path hpath hremoves
    rw [hisDir] at hremoves
    exact ⟨hemptied, tree w.os, hw.cleared, path, hpath, hremoves⟩
  rw [← hisDir] at hstays
  have hclears : ∀ {β : Type} {prog : M β} {fact : β → Prop}, (∀ ctx, Always os
      (Clears tree (tree w.os) inside ctx) prog
        fun value v => Clears tree (tree w.os) inside ctx v ∧ fact value) →
      Always os (fun v => RemovesChild tree start inside safe levels d q n fcnt v ∧
        tree v.os = tree w.os) prog fun value v =>
          RemovesChild tree start inside safe levels d q n fcnt v ∧ fact value := by
    intro β prog fact hprog v hv hs
    obtain ⟨hcleared, hfact⟩ := hprog v.ctx v ⟨rfl, by rw [hv.2]; exact .refl _ _⟩ hs
    rw [← hv.2] at hcleared
    exact ⟨hv.1.of_clears hcleared, hfact⟩
  have hrun : Always os (fun v => RemovesChild tree start inside safe levels d q n fcnt v ∧
      tree v.os = tree w.os) (removeChild q isDir) fun failed v =>
        RemovesChild tree start inside safe levels d q n fcnt v ∧
          (failed = false → Goes tree start inside levels q) := by
    unfold removeChild
    refine always_getCtx_bind fun ctx => ?_
    refine ensures_bind (ensures_weaken (always_entryPath hdirs.toHasLinks h hd hguards hq.1)
      (fun _ hv => hv.1) fun _ _ hv => hv) fun found => ?_
    cases found with
    | none => exact ensures_ret fun _ hv => ⟨hv.1.1, fun hno => absurd hno (by decide)⟩
    | some path =>
        refine ensures_of_fact (fun v hv => hv.2 path rfl) fun hresolved => ?_
        have hnamed := MtpCtx.isNamed_of_resolved hresolved
        have hinside := hstays path hresolved
        have hrest : ∀ failed : Bool, Always os
            (fun v => RemovesChild tree start inside safe levels d q n fcnt v ∧
              (failed = false → (tree w.os).Removes isDir path)) (if failed then
                return true
              else do
                M.flagDeleted .deleteDbTree q
                return false) fun failed v =>
            RemovesChild tree start inside safe levels d q n fcnt v ∧
              (failed = false → Goes tree start inside levels q) := by
          intro failed
          split
          · exact ensures_ret fun _ hv => ⟨hv.1, fun hno => absurd hno (by decide)⟩
          · rename_i hdone
            rw [Bool.not_eq_true] at hdone
            refine ensures_of_fact (fun v hv => hv.2 hdone) fun hremoves => ?_
            refine ensures_weaken (P := RemovesChild tree start inside safe levels d q n fcnt) ?_
              (fun _ hv => hv.1) fun _ _ hv => hv
            exact ensures_bind (always_flagDeleted h hguards hq.1) fun _ =>
              ensures_ret fun _ hv => ⟨hv, fun _ => hgoes path hresolved hremoves⟩
        refine ensures_weaken (P := fun v =>
          RemovesChild tree start inside safe levels d q n fcnt v ∧ tree v.os = tree w.os) ?_
          (fun _ hv => hv.1) fun _ _ hv => hv
        dsimp only
        split
        · rename_i hdir
          rw [hdir] at hinside hrest
          exact ensures_bind (hclears fun _ =>
            always_fsRemoveTree hdirs PATH_MAX hnamed hinside) hrest
        · rename_i hfile
          rw [Bool.not_eq_true] at hfile
          rw [hfile] at hinside hrest
          refine ensures_bind (hclears fun _ => always_remove hdirs hnamed hinside)
            fun removed => ensures_weaken (hrest !removed) (fun v hv => ⟨hv.1, fun hdone => ?_⟩)
              fun _ _ hv => hv
          rw [Bool.not_eq_false'] at hdone
          exact ⟨hv.2 hdone, fun hno => absurd hno (by decide)⟩
  exact hrun w ⟨hw, rfl⟩

-- The recursive call on a sub-folder may start another search, which it brings to
-- its end. A folder that lies too deep is not removed.
theorem always_deleteChildren (hdirs : os.HasDirectories tree) (h : Deletable tree start inside p)
    (hd : start.ctx.DeletesIn p levels d) (hguards : Guards start d safe)
    {deleteSubTree : EntryPtr → M Nat}
    (hsub : ∀ q, start.ctx.IsSearched levels d q → (start.ctx.entry q).isDir = true → ∀ n fcnt,
      Always os (fun w => Found tree start inside safe levels d q (n + 1) fcnt w)
        (deleteSubTree q) fun count w =>
          RemovesChild tree start inside safe levels d q (n + 1) fcnt w ∧
            (count = 0 → start.ctx.IsEmptied (tree start.os) inside levels q)) (fuel fcnt : Nat) :
    Always os (Searching tree start inside safe levels d fuel fcnt)
      (deleteChildren deleteSubTree fuel fcnt)
      fun count w => Deleting tree start inside safe w ∧ w.ctx.db.searchEntry = [] ∧
        (count = 0 → start.ctx.Empties (tree start.os) inside levels d) := by
  induction fuel generalizing fcnt with
  | zero => exact fun w hw _ => absurd hw.left (Nat.not_lt_zero _)
  | succ fuel ih =>
      unfold deleteChildren
      refine ensures_bind always_getNextChildHandle fun next => ?_
      cases next with
      | none => exact ensures_ret fun _ hw => hw
      | some q =>
          refine ensures_of_fact (fun w hw => hw.isSearched) fun hq => ?_
          refine ensures_of_fact (fun w hw => Nat.zero_lt_of_lt hw.left) fun hpos => ?_
          obtain ⟨n, rfl⟩ := Nat.exists_eq_add_of_lt hpos
          rw [Nat.zero_add] at ih ⊢
          dsimp only
          refine always_getCtx_bind fun ctx => ?_
          refine ensures_of_fact (fun w hw => hw.2 ▸ hw.1.entry) fun hentry => ?_
          rw [hentry]
          refine ensures_weaken (P := Found tree start inside safe levels d q (n + 1) fcnt) ?_
            (fun _ hw => hw.1) fun _ _ hw => hw
          have hlive := (List.mem_filter.mp hq.1).2
          simp only [Bool.and_eq_true, Bool.not_eq_true'] at hlive
          rw [if_neg (by rw [Bool.not_eq_true]; exact hlive.1.1.1)]
          -- the next turn, with what was counted for the child
          have hnext : ∀ (failed : Bool) (tmpFcnt : Nat), Always os (fun w =>
              RemovesChild tree start inside safe levels d q (n + 1) fcnt w ∧
                (failed = false → tmpFcnt = 0 → Goes tree start inside levels q))
              (deleteChildren deleteSubTree (n + 1) (fcnt + failed.toNat + tmpFcnt))
              fun count w => Deleting tree start inside safe w ∧ w.ctx.db.searchEntry = [] ∧
                (count = 0 → start.ctx.Empties (tree start.os) inside levels d) := by
            refine fun failed tmpFcnt => ensures_weaken (ih _) (fun w hw => ?_) fun _ _ hw => hw
            refine hw.1.searching fun hcount => ?_
            cases failed with
            | false =>
                rw [Bool.toNat_false] at hcount
                exact ⟨by omega, hw.2 rfl (by omega)⟩
            | true =>
                rw [Bool.toNat_true] at hcount
                omega
          have hremove : start.ctx.IsEmptied (tree start.os) inside levels q → Always os
              (RemovesChild tree start inside safe levels d q (n + 1) fcnt)
              (removeChild q (start.ctx.entry q).isDir) fun failed w =>
                RemovesChild tree start inside safe levels d q (n + 1) fcnt w ∧
                  (failed = false → Goes tree start inside levels q) := fun hemptied =>
            always_removeChild hdirs h hd hguards hq hemptied rfl
          split
          · rename_i hdir
            rw [hdir] at hremove
            refine ensures_bind (hsub q hq hdir n fcnt) fun tmpFcnt => ?_
            split
            · rename_i hzero
              refine ensures_of_fact (fun w hw => hw.2 hzero) fun hemptied => ?_
              exact ensures_bind (ensures_weaken (hremove hemptied) (fun _ hw => hw.1)
                fun _ _ hw => hw) fun failed => ensures_weaken (hnext failed tmpFcnt)
                  (fun _ hw => ⟨hw.1, fun hdone _ => hw.2 hdone⟩) fun _ _ hw => hw
            · rename_i hcount
              exact ensures_weaken (hnext false tmpFcnt)
                (fun _ hw => ⟨hw.1, fun _ hzero => absurd hzero hcount⟩) fun _ _ hw => hw
          · rename_i hfile
            rw [Bool.not_eq_true] at hfile
            rw [hfile] at hremove
            refine ensures_weaken (ensures_bind (hremove fun hdir => ?_) fun failed =>
              ensures_weaken (hnext failed 0) (fun _ hw => ⟨hw.1, fun hdone _ => hw.2 hdone⟩)
                fun _ _ hw => hw) (fun w hw => hw.removes h (Or.inr hfile)) fun _ _ hw => hw
            rw [hfile] at hdir
            cases hdir

theorem always_initSearchHandle (h : Deletable tree start inside p) {parent storageId : Nat}
    (hparent : parent = (start.ctx.entry d).handle)
    (hstorage : storageId = (start.ctx.entry d).storageId) :
    Always os (fun w => Deleting tree start inside safe w ∧
      Untouched start (start.ctx.entry d).handle w.ctx) (M.db_ (.initSearchHandle parent storageId))
      fun _ => Searching tree start inside safe levels d
        (start.ctx.db.entryList.length + 1) 0 := by
  have hinit : Always os (fun w => Deleting tree start inside safe w ∧
      Untouched start (start.ctx.entry d).handle w.ctx) (M.db (.initSearchHandle parent storageId))
      fun _ => Searching tree start inside safe levels d
        (start.ctx.db.entryList.length + 1) 0 := by
    refine ensures_perform fun w hw _ => ?_
    obtain ⟨hw, hbelow⟩ := hw
    change Searching tree start inside safe levels d _ _
      ⟨w.ctx.applyDb (.initSearchHandle parent storageId), w.os⟩
    have hdb : (w.ctx.applyDb (.initSearchHandle parent storageId)).db =
        w.ctx.db.initSearchHandle parent storageId := (MtpCtx.db_applyDb hw.kept.session _).1
    have hpool : ∀ r, (w.ctx.applyDb (.initSearchHandle parent storageId)).entry r =
        w.ctx.entry r := by
      intro r
      rw [MtpCtx.entry, hdb]
      rfl
    refine ⟨⟨hw.kept.applyDb rfl rfl fun r => Or.inl rfl, hw.cleared,
        fun r hr => (hpool r).trans (hw.safe r hr)⟩,
      ⟨fun r hr => ?_, fun r _ hr => (hpool r).trans (hbelow r ?_), ?_⟩,
      fun _ r hr => Or.inl ?_, fun _ => ⟨[], ?_, ?_⟩,
      fun _ r hr => (hpool r).trans (hbelow r (by omega))⟩
    · rw [hdb]
      exact ⟨hparent, hstorage⟩
    · rw [(h.child hr).2.1]
    · change (w.ctx.applyDb (.initSearchHandle parent storageId)).db.searchEntry.length < _
      rw [hdb]
      change w.ctx.db.entryList.length < _
      rw [hw.kept.entryList]
      exact Nat.lt_succ_self _
    · change r ∈ (w.ctx.applyDb (.initSearchHandle parent storageId)).db.searchEntry
      rw [hdb]
      change r ∈ w.ctx.db.entryList
      rw [hw.kept.entryList]
      exact (h.child hr.1).1
    · change _ = (w.ctx.applyDb (.initSearchHandle parent storageId)).db.searchEntry
      rw [hdb]
      exact hw.kept.entryList.symm
    · exact Or.inr fun r hr => absurd hr List.not_mem_nil
  exact ensures_bind hinit fun _ => ensures_ret fun _ hw => hw

theorem Guards.child (hguards : Guards start d safe) (h : Deletable tree start inside p)
    (hd : start.ctx.DeletesIn p levels d) (hq : start.ctx.IsChild d q) :
    Guards start q fun r => safe r ∨ r = q := by
  obtain ⟨-, -, -, hless⟩ := h.child hq
  refine ⟨fun r hr => ?_, fun r hr => ?_⟩
  · obtain ⟨above, habove⟩ := @MtpCtx.climb_head start.ctx q start.ctx.db.entryList.length
    rw [habove] at hr
    rcases List.mem_cons.mp hr with rfl | hr
    · exact Or.inr rfl
    · exact Or.inl (hguards.climb r (h.above hd hq r (by rw [habove]; exact hr)))
  · rcases hr with hr | rfl
    · have hle := hguards.older r hr
      omega
    · exact le_refl _

theorem always_childFuel :
    Always os (Searching tree start inside safe levels d (start.ctx.db.entryList.length + 1) fcnt)
      childFuel fun fuel => Searching tree start inside safe levels d fuel fcnt := by
  refine always_getCtx_bind fun ctx => ensures_ret fun w hw => ?_
  rw [← hw.2, hw.1.kept.entryList]
  exact hw.1

theorem always_deleteDbTree (hdirs : os.HasDirectories tree) (h : Deletable tree start inside p)
    (levels : Nat) (hd : start.ctx.DeletesIn p levels d) (hguards : Guards start d safe) :
    Always os (fun w => Deleting tree start inside safe w ∧
      Untouched start (start.ctx.entry d).handle w.ctx) (deleteDbTree levels d)
      fun count w => Deleting tree start inside safe w ∧ w.ctx.db.searchEntry = [] ∧
        (count = 0 → start.ctx.Empties (tree start.os) inside levels d) := by
  have hrun : ∀ {levels : Nat} {sub : EntryPtr → M Nat} {d : EntryPtr} {safe : EntryPtr → Prop},
      start.ctx.DeletesIn p levels d → Guards start d safe →
      (∀ q, start.ctx.IsSearched levels d q → (start.ctx.entry q).isDir = true → ∀ n fcnt,
        Always os (fun w => Found tree start inside safe levels d q (n + 1) fcnt w) (sub q)
          fun count w => RemovesChild tree start inside safe levels d q (n + 1) fcnt w ∧
            (count = 0 → start.ctx.IsEmptied (tree start.os) inside levels q)) →
      Always os (fun w => Deleting tree start inside safe w ∧
        Untouched start (start.ctx.entry d).handle w.ctx) (do
        let ctx ← M.getCtx
        M.db_ (.initSearchHandle (ctx.entry d).handle (ctx.entry d).storageId)
        let fuel ← childFuel
        deleteChildren sub fuel 0)
        fun count w => Deleting tree start inside safe w ∧ w.ctx.db.searchEntry = [] ∧
          (count = 0 → start.ctx.Empties (tree start.os) inside levels d) := by
    intro levels sub d safe hd hguards hsub
    refine always_getCtx_bind fun ctx => ?_
    refine ensures_of_fact (fun w hw => hw.2 ▸ hw.1.1.kept.fields d) fun hfields => ?_
    refine ensures_bind (Q := fun _ => Searching tree start inside safe levels d
        (start.ctx.db.entryList.length + 1) 0)
      (ensures_weaken (always_initSearchHandle h hfields.1 hfields.2.2.1)
        (fun _ hw => hw.1) fun _ _ hw => hw) fun _ => ?_
    exact ensures_bind always_childFuel fun fuel =>
      always_deleteChildren hdirs h hd hguards hsub fuel 0
  induction levels generalizing d safe with
  | zero =>
      unfold deleteDbTree
      exact hrun hd hguards fun q hq hdir n fcnt => ensures_ret fun w hw =>
        ⟨hw.removes h (Or.inl rfl), fun hone => absurd hone (by decide)⟩
  | succ levels ih =>
      unfold deleteDbTree
      refine hrun hd hguards fun q hq hdir n fcnt => ?_
      have hless := (h.child hq.1).2.2.2
      refine ensures_of_fact (fun w hw => fun hzero r hr =>
        @Found.gone_of_dir _ _ _ _ _ _ _ _ _ _ _ _ h hw (Nat.succ_ne_zero levels) hdir hzero r hr)
        fun hgone => ?_
      refine ensures_weaken (ih (hd.down hq hdir) (hguards.child h hd hq.1)) (fun w hw => ?_)
        fun _ w hw => ?_
      · refine ⟨⟨hw.kept, hw.cleared, fun r hr => ?_⟩, fun r hr => hw.below r (by omega)⟩
        rcases hr with hr | rfl
        · exact hw.safe r hr
        · exact hw.entry
      · obtain ⟨hdeleting, hend, hempties⟩ := hw
        have hback : Deleting tree start inside safe w :=
          ⟨hdeleting.kept, hdeleting.cleared, fun r hr => hdeleting.safe r (Or.inl hr)⟩
        exact ⟨hback.removes hend (Nat.succ_pos n) hgone,
          fun hcount _ => ⟨levels, rfl, hempties hcount⟩⟩

end Loop

-- delete_tree

-- What was removed is inside. No root of a storage was flagged, other than the object
-- that is deleted, and that only if it can vanish.
structure Deleted (tree : σ → FileTree) (start : World σ) (inside : List FileName → Prop)
    (p : EntryPtr) (w : World σ) : Prop where
  cleared : (tree start.os).Cleared inside (tree w.os)
  roots : ∀ q, (start.ctx.entry q).handle = 0 → w.ctx.entry q = start.ctx.entry q ∨
    q = p ∧ start.ctx.Vanishes (tree start.os) inside p

section Entry

variable {start : World σ} {inside : List FileName → Prop} {p : EntryPtr}
  {safe : EntryPtr → Prop}

theorem Deleting.deleted {w : World σ} (hw : Deleting tree start inside safe w) :
    Deleted tree start inside p w :=
  ⟨hw.cleared, fun q hzero => Or.inl ((hw.kept.entry q).resolve_right fun h => h.1 hzero)⟩

-- What changes nothing but the entry that is deleted.
theorem always_changeEntry (hvanish : start.ctx.Vanishes (tree start.os) inside p) {c : Cmd}
    {op : DbOp} (hc : ∀ w : World σ, (World.handle os c w).2 = ⟨w.ctx.applyDb op, w.os⟩)
    (hother : ∀ db q, q ≠ p → (op.step db).pool q = db.pool q) :
    Always os (Deleted tree start inside p) (M.cmd c) fun _ => Deleted tree start inside p := by
  refine ensures_perform fun w hw _ => ?_
  rw [hc]
  refine ⟨hw.cleared, fun q hzero => ?_⟩
  by_cases hq : q = p
  · exact Or.inr ⟨hq, hvanish⟩
  · have hsame : (w.ctx.applyDb op).entry q = w.ctx.entry q := by
      rw [MtpCtx.entry, MtpCtx.entry]
      rcases w.ctx.applyDb_cases op with hdb | hdb
      · rw [hdb]
      · rw [hdb, hother _ q hq]
    rw [hsame]
    exact hw.roots q hzero

theorem always_dropWatch (hdirs : os.HasDirectories tree)
    (hvanish : start.ctx.Vanishes (tree start.os) inside p) :
    Always os (Deleted tree start inside p) (dropWatch p) fun _ => Deleted tree start inside p := by
  have hset : Always os (Deleted tree start inside p) (M.db_ (.setWatchDescriptor p (-1)))
      fun _ => Deleted tree start inside p :=
    ensures_bind (always_changeEntry hvanish (fun _ => rfl) fun db q hne =>
      FsHandlesDb.setEntry_pool_of_ne _ _ hne) fun _ => ensures_ret fun _ hw => hw
  have hremove : ∀ wd, Always os (Deleted tree start inside p) (M.act (.inotifyRmWatch wd))
      fun _ => Deleted tree start inside p := fun wd =>
    ensures_perform fun w hw _ => ⟨by
      change (tree start.os).Cleared inside (tree (os.act (.inotifyRmWatch wd) w.os).2)
      rw [hdirs.rmWatch]
      exact hw.cleared, hw.roots⟩
  unfold dropWatch inotifyHandlerRmwatch
  refine always_getCtx_bind fun ctx => ?_
  refine ensures_weaken (P := Deleted tree start inside p) ?_ (fun _ hw => hw.1) fun _ _ hw => hw
  split
  · refine ensures_bind (Q := fun _ => Deleted tree start inside p) ?_ fun _ => hset
    refine always_getCtx_bind fun ctx => ?_
    refine ensures_weaken (P := Deleted tree start inside p) ?_ (fun _ hw => hw.1) fun _ _ hw => hw
    split
    · exact hremove _
    · exact ensures_ret fun _ hw => hw
  · exact ensures_ret fun _ hw => hw

theorem always_resolved (hlinks : os.HasLinks tree)
    (hroot : ∃ root, start.ctx.mtpGetStorageRoot (start.ctx.entry p).storageId = some root ∧
      root.head? = some SLASH) :
    Always os (· = start) (entryPath p) fun found w =>
      (w.ctx = start.ctx ∧ tree w.os = tree start.os) ∧ ∀ path, found = some path →
        start.ctx.resolved (tree start.os).realpath p = some path := by
  rintro w rfl _
  obtain ⟨root, hroot, habsolute⟩ := hroot
  refine ⟨⟨looks_exec (looks_entryPath p) w, hlinks.kept (keepsFiles_identifies.entryPath p) w⟩,
    fun path hpath => exec_entryPath hlinks hroot habsolute hpath⟩

theorem always_deleteEntry (hdirs : os.HasDirectories tree)
    (hroot : ∃ root, start.ctx.mtpGetStorageRoot (start.ctx.entry p).storageId = some root ∧
      root.head? = some SLASH)
    (hobject : ((start.ctx.entry p).isDir = true →
        start.ctx.Empties (tree start.os) inside MAX_TREE_DEPTH p) →
      ∀ path, start.ctx.resolved (tree start.os).realpath p = some path →
        ∀ place, (tree start.os).Removable (start.ctx.entry p).isDir path place → inside place)
    (hdel : (start.ctx.entry p).isDir = true →
      (start.ctx.resolved (tree start.os).realpath p).isSome = true →
        Deletable tree start inside p) :
    Always os (· = start) (deleteEntry p) fun _ => Deleted tree start inside p := by
  unfold deleteEntry
  refine always_getCtx_bind fun ctx => ?_
  refine ensures_of_fact (fun w hw => (hw.2.symm.trans (congrArg World.ctx hw.1) : ctx = start.ctx))
    fun hctx => ?_
  subst hctx
  refine ensures_bind (ensures_weaken (always_resolved hdirs.toHasLinks hroot)
    (fun _ hw => hw.1) fun _ _ hw => hw) fun found => ?_
  have hstart : ∀ w : World σ, w.ctx = start.ctx ∧ tree w.os = tree start.os →
      Deleted tree start inside p w := by
    rintro w ⟨hctx, htree⟩
    refine ⟨?_, fun q _ => Or.inl (by rw [hctx])⟩
    rw [htree]
    exact .refl _ _
  cases found with
  | none => exact ensures_ret fun w hw => hstart w hw.1
  | some path =>
      refine ensures_of_fact (fun w hw => hw.2 path rfl) fun hresolved => ?_
      have hnamed := MtpCtx.isNamed_of_resolved hresolved
      have hclears : ∀ {β : Type} {prog : M β} {fact : β → Prop}, (∀ ctx, Always os
          (Clears tree (tree start.os) inside ctx) prog
            fun value w => Clears tree (tree start.os) inside ctx w ∧ fact value) →
          Always os (Deleted tree start inside p) prog
            fun value w => Deleted tree start inside p w ∧ fact value :=
        fun hprog w hw hs => by
          obtain ⟨⟨hctx, hcleared⟩, hfact⟩ := hprog w.ctx w ⟨rfl, hw.cleared⟩ hs
          exact ⟨⟨hcleared, hctx ▸ hw.roots⟩, hfact⟩
      have hrest : ∀ removed : Bool,
          (removed = true → start.ctx.Vanishes (tree start.os) inside p) →
          Always os (Deleted tree start inside p) (do
            if removed then
              M.flagDeleted .deleteTree p
              dropWatch p
            return removed) fun _ => Deleted tree start inside p := by
        intro removed hvanish
        dsimp only
        split
        · rename_i hremoved
          have hflag : Always os (Deleted tree start inside p) (M.flagDeleted .deleteTree p)
              fun _ => Deleted tree start inside p :=
            always_changeEntry (hvanish hremoved) (fun _ => rfl) fun db q hne =>
              FsHandlesDb.setEntry_pool_of_ne _ _ hne
          exact ensures_bind hflag fun _ =>
            ensures_bind (always_dropWatch hdirs (hvanish hremoved)) fun _ =>
              ensures_ret fun _ hw => hw
        · exact ensures_ret fun _ hw => hw
      refine ensures_weaken (P := fun w => w.ctx = start.ctx ∧ tree w.os = tree start.os) ?_
        (fun w hw => hw.1) fun _ _ hw => hw
      dsimp only
      split
      · rename_i hdir
        have h := hdel hdir (by rw [hresolved]; rfl)
        have hguards : Guards start p (· ∈ start.ctx.climb start.ctx.db.entryList.length p) :=
          ⟨fun _ hr => hr, fun _ hr => MtpCtx.handle_of_mem_climb h.grown.ordered
            (h.grown.rising h.count) h.listed hr⟩
        refine ensures_bind (ensures_weaken
          (always_deleteDbTree hdirs h MAX_TREE_DEPTH .top hguards) (fun w hw => ?_)
            fun _ _ hw => hw) fun cnt => ?_
        · obtain ⟨hctx, htree⟩ := hw
          refine ⟨⟨?_, ?_, fun r _ => by rw [hctx]⟩, fun r _ => by rw [hctx]⟩
          · rw [hctx]
            exact .refl h.session
          · rw [htree]
            exact .refl _ _
        · refine ensures_of_fact (fun w hw => hw.2.2) fun hempties => ?_
          refine ensures_weaken (P := Deleted tree start inside p) ?_
            (fun w hw => hw.1.deleted) fun _ _ hw => hw
          split
          · rename_i hcnt
            have hinside := hobject (fun _ => hempties hcnt) path hresolved
            rw [hdir] at hinside
            refine ensures_bind (hclears fun _ =>
              always_fsRemoveTree hdirs PATH_MAX hnamed hinside) fun failed => ?_
            refine ensures_of_fact (fun w hw => hw.2) fun hremoves => ?_
            refine ensures_weaken (hrest (!failed) fun hdone => ?_) (fun w hw => hw.1)
              fun _ _ hw => hw
            rw [Bool.not_eq_true'] at hdone
            refine ⟨⟨path, hresolved, ?_⟩, fun _ => hempties hcnt⟩
            rw [hdir]
            exact hremoves hdone
          · exact hrest false fun hno => absurd hno (by decide)
      · rename_i hfile
        have hno : ¬(start.ctx.entry p).isDir = true := hfile
        have hinside := hobject (fun hdir => absurd hdir hno) path hresolved
        rw [Bool.not_eq_true] at hfile
        rw [hfile] at hinside
        refine ensures_weaken (P := Deleted tree start inside p) ?_ hstart fun _ _ hw => hw
        refine ensures_bind (hclears fun _ => always_remove hdirs hnamed hinside)
          fun removed => ?_
        refine ensures_of_fact (fun w hw => hw.2) fun hends => ?_
        refine ensures_weaken (hrest removed fun hdone => ?_) (fun w hw => hw.1)
          fun _ _ hw => hw
        exact ⟨⟨path, hresolved, hends hdone, fun hdir => absurd hdir hno⟩,
          fun hdir => absurd hdir hno⟩

end Entry

-- mtp_op_DeleteObject

section Operation

variable {hdr : Buffer} {R : MtpCtx → FileTree → Prop}

theorem valid_of_always {P : World σ → Prop} {Q : α → World σ → Prop} {prog : M α}
    (h : Always os P prog Q) : Valid (World.handle os) (fun _ _ => True) P prog Q :=
  fun w hw => ⟨fun _ _ => trivial, h w hw fun _ _ => trivial⟩

-- What the deletion of the entry does is all that happens to the database and to the
-- tree.
theorem exec_mtpOpDeleteObject_tree (hdirs : os.HasDirectories tree)
    (hsame : R w.ctx (tree w.os))
    (hentry : w.ctx.fsDb.isSome = true → ¬w.ctx.RefusesDeletion (param hdr 0) →
      ∀ p, w.ctx.getEntryByHandle (param hdr 0) = some p →
      ∀ start : World σ, start.ctx = w.ctx → tree start.os = tree w.os →
        Always os (· = start) (deleteEntry p) fun _ w => R w.ctx (tree w.os)) :
    R (exec (World.handle os) (mtpOpDeleteObject hdr) w).2.ctx
      (tree (exec (World.handle os) (mtpOpDeleteObject hdr) w).2.os) := by
  cases hsession : w.ctx.fsDb.isSome with
  | false =>
      rw [mtpOpDeleteObject, inSession, exec_getCtx_bind, hsession]
      exact hsame
  | true =>
      have hquiet : ∀ {α : Type} {prog : M α}, Looks prog →
          Uses AnyAnswer Cmd.KeepsFiles prog → Always os (fun w => R w.ctx (tree w.os)) prog
            fun _ w => R w.ctx (tree w.os) := by
        intro α prog hlooks hkeeps w hw _
        rw [looks_exec hlooks w, hdirs.toHasLinks.kept hkeeps w]
        exact hw
      have hrestore := hquiet looks_restoreGiduid keepsFiles_identifies.restoreGiduid
      have hrest : ∀ code : Nat, Always os (fun w => R w.ctx (tree w.os)) (do
          restoreGiduid
          return ((code, []) : Response)) fun _ w => R w.ctx (tree w.os) := fun code =>
        ensures_bind hrestore fun _ => ensures_ret fun _ hw => hw
      have hbody : Always os (fun w' => w'.ctx = w.ctx ∧ tree w'.os = tree w.os)
          (deleteObject hdr) fun _ w => R w.ctx (tree w.os) := by
        refine always_getCtx_bind fun ctx => ?_
        have hsame' : ∀ w' : World σ, w'.ctx = w.ctx ∧ tree w'.os = tree w.os →
            R w'.ctx (tree w'.os) := by
          rintro w' ⟨hctx, htree⟩
          rw [hctx, htree]
          exact hsame
        refine ensures_of_fact (fun w' hw' => (hw'.2.symm.trans hw'.1.1 : ctx = w.ctx))
          fun hctx => ?_
        subst hctx
        split
        · exact ensures_ret fun w' hw' => hsame' w' hw'.1
        · rename_i hgranted
          have hgranted : ¬w.ctx.RefusesDeletion (param hdr 0) := by
            rw [MtpCtx.RefusesDeletion, hgranted]
            exact Bool.false_ne_true
          dsimp only
          split
          · rename_i p hp
            have hset : Always os (fun w' => w'.ctx = w.ctx ∧ tree w'.os = tree w.os)
                (setStorageGiduid (w.ctx.entry p).storageId)
                fun _ w' => w'.ctx = w.ctx ∧ tree w'.os = tree w.os := by
              intro w' hw' _
              rw [looks_exec (looks_setStorageGiduid _) w',
                hdirs.toHasLinks.kept (keepsFiles_identifies.setStorageGiduid _) w']
              exact hw'
            refine ensures_bind (ensures_weaken hset (fun _ hw => hw.1) fun _ _ hw => hw)
              fun taken => ?_
            split
            · have hdelete : Always os (fun w' => w'.ctx = w.ctx ∧ tree w'.os = tree w.os)
                  (deleteTree (param hdr 0)) fun _ w => R w.ctx (tree w.os) := by
                unfold deleteTree
                rintro w' ⟨hctx, htree⟩ hs
                rw [exec_getCtx_bind, hctx, hp]
                refine hentry hsession hgranted p hp w' hctx htree w' rfl ?_
                exact fun _ _ => trivial
              exact ensures_bind hdelete fun deleted => hrest _
            · exact ensures_weaken (hrest _) hsame' fun _ _ hw => hw
          · exact ensures_weaken (hrest _) (fun w' hw' => hsame' w' hw'.1) fun _ _ hw => hw
      have hrun := valid_underMutex (fun w' hw' => ⟨trivial, hw'.1, (hdirs.lock w'.os).trans hw'.2⟩)
        (fun w' hw' => by rw [hw'.1, hw'.2]; exact hsame) (valid_of_always hbody)
        (fun _ w' hw' => ⟨trivial, by
          change R w'.ctx (tree (os.act .unlockInotifyMutex w'.os).2)
          rw [hdirs.unlock]
          exact hw'⟩)
      have hend := (hrun w ⟨rfl, rfl⟩).2
      rw [mtpOpDeleteObject, inSession, exec_getCtx_bind, if_pos hsession]
      exact hend

-- Whatever is answered, what the deletion removes is inside when all that it can come to
-- remove is. A root of a storage is flagged only if it is the object and can vanish.
theorem deleteObject_inside (hdirs : os.HasDirectories tree) (hw : w.ctx.WellGrown)
    (hlen : w.ctx.db.entryList.length < UINT32_SIZE - 1) {p : EntryPtr} {root : CString}
    (hp : w.ctx.getEntryByHandle (param hdr 0) = some p)
    (hroot : w.ctx.mtpGetStorageRoot (w.ctx.entry p).storageId = some root)
    (habsolute : root.head? = some SLASH) {inside : List FileName → Prop}
    (hinside : w.ctx.RefusesDeletion (param hdr 0) ∨
      w.ctx.DeletesInside (tree w.os) inside p) :
    let w' := (exec (World.handle os) (mtpOpDeleteObject hdr) w).2
    (tree w.os).Cleared inside (tree w'.os) ∧
      ∀ q, (w.ctx.entry q).handle = 0 → w'.ctx.entry q = w.ctx.entry q ∨
        q = p ∧ ¬w.ctx.RefusesDeletion (param hdr 0) ∧ w.ctx.Vanishes (tree w.os) inside p := by
  refine @exec_mtpOpDeleteObject_tree _ os tree w hdr (fun ctx files =>
    (tree w.os).Cleared inside files ∧
      ∀ q, (w.ctx.entry q).handle = 0 → ctx.entry q = w.ctx.entry q ∨
        q = p ∧ ¬w.ctx.RefusesDeletion (param hdr 0) ∧ w.ctx.Vanishes (tree w.os) inside p) hdirs
    ⟨.refl _ _, fun _ _ => Or.inl rfl⟩ fun hsession hgranted q hq start hctx htree => ?_
  obtain rfl : p = q := Option.some.inj (hp.symm.trans hq)
  have hdeletes := hinside.resolve_left hgranted
  rw [← hctx, ← htree] at hdeletes
  have hstartRoot : ∃ root, start.ctx.mtpGetStorageRoot (start.ctx.entry p).storageId = some root ∧
      root.head? = some SLASH := ⟨root, by rw [hctx]; exact hroot, habsolute⟩
  refine ensures_weaken (always_deleteEntry hdirs hstartRoot hdeletes.object
    fun hdir hsome => ⟨hctx ▸ hsession, hctx ▸ hw, hctx ▸ hlen,
      hctx ▸ (hw.ordered.getEntryByHandle_live hp).1.1, hstartRoot,
      hdeletes.children hdir hsome⟩) (fun _ hw => hw) fun _ w' hw' => ⟨?_, fun q hzero => ?_⟩
  · rw [← htree]
    exact hw'.cleared
  · rw [← hctx] at hzero hgranted ⊢
    rw [← htree]
    exact (hw'.roots q hzero).imp_right fun h => ⟨h.1, hgranted, h.2⟩

end Operation

end Umtp
