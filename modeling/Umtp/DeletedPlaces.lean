import Umtp.Deletions

namespace Umtp

open Lib Lib.Prog Handles Text

-- A system with directories

-- The folder of a path and its last name.
def splitPath (path : CString) : CString × CString :=
  let name := (path.reverse.takeWhile (· ≠ SLASH)).reverse
  (path.take (path.length - (name.length + 1)), name)

theorem splitPath_append (front : CString) {name : CString} (hname : SLASH ∉ name) :
    splitPath (front ++ SLASH :: name) = (front, name) := by
  have hall : ∀ c ∈ name.reverse, decide (c ≠ SLASH) = true := by
    intro c hc
    have hne : c ≠ SLASH := fun h => hname (h ▸ List.mem_reverse.mp hc)
    simpa using hne
  have hlast : ((front ++ SLASH :: name).reverse.takeWhile (· ≠ SLASH)).reverse = name := by
    rw [List.reverse_append, List.reverse_cons, List.append_assoc,
      List.takeWhile_append_of_pos hall]
    simp
  rw [splitPath, hlast]
  simp

def nodeStat (node : Node FileName) : Stat := ⟨decide (node = .dir), 0, 0⟩

-- The directory that a path leads to.
def dirAt (files : FileTree) (path : CString) : Option (List FileName) :=
  match files.lookup path with
  | .ok (place, _) => if place = [] ∨ files place = some .dir then some place else none
  | .error _ => none

theorem dirAt_eq_some {files : FileTree} {path : CString} {dir : List FileName} :
    dirAt files path = some dir ↔ ∃ left, files.lookup path = .ok (dir, left) ∧ files.Dir dir := by
  rw [dirAt]
  constructor
  · intro h
    cases hlookup : files.lookup path with
    | error error =>
        rw [hlookup] at h
        cases h
    | ok found =>
        obtain ⟨place, left⟩ := found
        rw [hlookup] at h
        dsimp only at h
        split at h
        · rename_i hdir
          obtain rfl := Option.some.inj h
          refine ⟨left, rfl, ?_⟩
          rcases Tree.walk_ok Tree.Dir.top hlookup with hplace | hleaf
          · exact hplace
          · rcases hdir with rfl | hnode
            · exact Tree.Dir.top
            · rcases hleaf.node with hnone | hfile
              · rw [hnone] at hnode
                cases hnode
              · rw [hfile] at hnode
                cases hnode
        · cases h
  · rintro ⟨left, hlookup, hdir⟩
    rw [hlookup]
    dsimp only
    rw [if_pos]
    by_cases hnil : dir = []
    · exact Or.inl hnil
    · exact Or.inr (hdir dir (List.prefix_refl _) hnil)

-- The place of the name that a path ends with.
def entryAt (files : FileTree) (path : CString) : Option (List FileName) :=
  if h : IsFileName (splitPath path).2 then
    (dirAt files (splitPath path).1).map fun dir => dir ++ [⟨(splitPath path).2, h⟩]
  else
    none

theorem entryAt_append (files : FileTree) (path : CString) (name : FileName) :
    entryAt files (path ++ SLASH :: name.val) =
      (dirAt files path).map fun dir => dir ++ [name] := by
  have hsplit := splitPath_append path name.property.2.1
  rw [entryAt]
  simp only [hsplit]
  rw [dif_pos name.property]

theorem entryAt_of_ends {files : FileTree} {path : CString} {place : List FileName}
    (h : files.Ends path place) :
    entryAt files path = some place ∧ (files place).isSome = true := by
  obtain ⟨front, dir, left, name, rfl, hlookup, hdir, rfl, hsome⟩ := h
  refine ⟨?_, hsome⟩
  rw [entryAt_append, dirAt_eq_some.mpr ⟨left, hlookup, hdir⟩]
  rfl

-- The files of the system are those of the tree. A directory is listed with these
-- names, and only these places can be removed. No file is opened.
def directoryOs (listed : FileTree → List FileName → List FileName)
    (removable : FileTree → List FileName → Bool) : Os (MemSystem × FileTree) where
  query q s :=
    match q with
    | .opendir path => (dirAt s.2 path).map fun dir => (listed s.2 dir).map Subtype.val
    | .lstat64 path => (entryAt s.2 path).bind fun place => (s.2 place).map nodeStat
    | .stat64 path =>
      match s.2.lookup path with
      | .ok (place, _) => if place = [] then some ⟨true, 0, 0⟩ else (s.2 place).map nodeStat
      | .error _ => none
    | q => treeOs.query q s
  act a s :=
    match a with
    | .remove _ path =>
      match entryAt s.2 path with
      | some place =>
        if (s.2 place).isSome && removable s.2 place then (true, (s.1, Tree.erase s.2 place))
        else (false, s)
      | none => (false, s)
    | .open _ _ _ => (-1, s)
    | a => treeOs.act a s

section Directories

variable {listed : FileTree → List FileName → List FileName}
  {removable : FileTree → List FileName → Bool}

theorem directoryOs_hasDirectories : (directoryOs listed removable).HasDirectories Prod.snd where
  realpath := treeOs_hasLinks.realpath
  opened _ _ _ _ h := absurd rfl h
  malloc _ := rfl
  entryMemory _ := rfl
  close _ _ := rfl
  setfsuid _ _ := rfl
  setfsgid _ _ := rfl
  rmWatch _ _ := rfl
  lock _ := rfl
  unlock _ := rfl
  opendir path s names _ h := by
    obtain ⟨dir, hdir, rfl⟩ := Option.map_eq_some_iff.mp h
    obtain ⟨left, hlookup, hplace⟩ := dirAt_eq_some.mp hdir
    refine ⟨⟨dir, left, hlookup, hplace⟩, fun name hname => Or.inl ?_⟩
    obtain ⟨name, -, rfl⟩ := List.mem_map.mp hname
    exact name.property
  lstat64 path name s stat _ h := by
    obtain ⟨place, hplace, hstat⟩ := Option.bind_eq_some_iff.mp h
    rw [entryAt_append] at hplace
    obtain ⟨dir, hdir, rfl⟩ := Option.map_eq_some_iff.mp hplace
    obtain ⟨node, hnode, rfl⟩ := Option.map_eq_some_iff.mp hstat
    obtain ⟨left, hlookup, hplace⟩ := dirAt_eq_some.mp hdir
    refine ⟨dir, left, hlookup, hplace, ?_⟩
    rw [hnode, nodeStat, decide_eq_true_iff, Option.some_inj]
  dots path name s stat hname h := by
    have hslash : SLASH ∉ name := by
      rcases hname with rfl | rfl
      · decide
      · decide
    have hno : ¬IsFileName name := by
      rcases hname with rfl | rfl
      · decide
      · decide
    have hnone : entryAt s.2 (path ++ SLASH :: name) = none := by
      have hsplit := splitPath_append path hslash
      rw [entryAt]
      simp only [hsplit]
      rw [dif_neg hno]
    have hstat : (entryAt s.2 (path ++ SLASH :: name)).bind
        (fun place => (s.2 place).map nodeStat) = some stat := h
    rw [hnone] at hstat
    cases hstat
  remove storageId path s hnamed := by
    have hact : (directoryOs listed removable).act (.remove storageId path) s =
        (match entryAt s.2 path with
        | some place =>
          if (s.2 place).isSome && removable s.2 place then (true, (s.1, Tree.erase s.2 place))
          else (false, s)
        | none => (false, s)) := rfl
    rw [hact]
    cases hplace : entryAt s.2 path with
    | none => exact Or.inl ⟨rfl, rfl⟩
    | some place =>
        dsimp only
        split
        · rename_i hyes
          refine Or.inr ⟨rfl, place, ?_, rfl⟩
          rcases hnamed.2 with rfl | ⟨front, name, rfl⟩
          · have hnone : entryAt s.2 [SLASH] = none := by
              rw [entryAt, dif_neg (by decide)]
            rw [hnone] at hplace
            cases hplace
          · rw [entryAt_append] at hplace
            obtain ⟨dir, hdir, rfl⟩ := Option.map_eq_some_iff.mp hplace
            obtain ⟨left, hlookup, hdir⟩ := dirAt_eq_some.mp hdir
            rw [Bool.and_eq_true] at hyes
            exact ⟨front, dir, left, name, rfl, hlookup, hdir, rfl, hyes.1⟩
        · exact Or.inl ⟨rfl, rfl⟩

end Directories

-- A system in which one place can be removed

-- Each directory is listed with the next name on the way to the place.
def towardOs (target : List FileName) : Os (MemSystem × FileTree) :=
  directoryOs (fun _ dir => if dir <+: target then (target.drop dir.length).take 1 else [])
    fun _ place => decide (place = target)

theorem towardOs_hasDirectories (target : List FileName) :
    (towardOs target).HasDirectories Prod.snd := directoryOs_hasDirectories

-- The place is removed in the run.
def Hits {α : Type} (target : List FileName) (prog : M α) (w : World (MemSystem × FileTree)) :
    Prop :=
  (exec (World.handle (towardOs target)) prog w).2.os.2 target = none

-- The tree is as it was, or the place is removed already.
def Waits (files : FileTree) (target : List FileName) (w : World (MemSystem × FileTree)) : Prop :=
  w.os.2 = files ∨ w.os.2 target = none

section Toward

variable {α β : Type} {files : FileTree} {target : List FileName} {prog : M α} {f : α → M β}
  {w : World (MemSystem × FileTree)} {path : CString} {storageId fuel : Nat}

theorem towardOs_remove (target : List FileName) (storageId : Nat) (path : CString)
    (s : MemSystem × FileTree) :
    (towardOs target).act (.remove storageId path) s = (false, s) ∨
      ((towardOs target).act (.remove storageId path) s).2.2 target = none := by
  rw [towardOs, directoryOs]
  dsimp only
  split
  · split
    · rename_i hyes
      rw [Bool.and_eq_true, decide_eq_true_iff] at hyes
      refine Or.inr ?_
      rw [hyes.2]
      exact if_pos rfl
    · exact Or.inl rfl
  · exact Or.inl rfl

theorem handle_towardOs (target : List FileName) (c : Cmd) (w : World (MemSystem × FileTree)) :
    (World.handle (towardOs target) c w).2.os.2 = w.os.2 ∨
      (World.handle (towardOs target) c w).2.os.2 target = none := by
  cases c with
  | act a =>
      cases a with
      | remove storageId path =>
          refine (towardOs_remove target storageId path w.os).imp_left fun hsame => ?_
          exact congrArg (fun answer => answer.2.2) hsame
      | _ => exact Or.inl rfl
  | _ => exact Or.inl rfl

theorem hits_of_gone (h : w.os.2 target = none) : Hits target prog w := by
  refine exec_keeps (I := fun w : World (MemSystem × FileTree) => w.os.2 target = none)
    (fun w c hgone (_ : True) => ?_) prog w (fun _ _ => trivial) h
  rcases handle_towardOs target c w with hsame | hnone
  · rw [hsame]
    exact hgone
  · exact hnone

theorem waits_exec (h : Waits files target w) :
    Waits files target (exec (World.handle (towardOs target)) prog w).2 := by
  refine exec_keeps (I := Waits files target) (fun w c hwaits (_ : True) => ?_) prog w
    (fun _ _ => trivial) h
  rcases handle_towardOs target c w with hsame | hnone
  · rw [Waits, hsame]
    exact hwaits
  · exact Or.inr hnone

theorem hits_first (h : Hits target prog w) : Hits target (prog >>= f) w := by
  rw [Hits, bind_eq, exec_bind]
  exact hits_of_gone h

theorem hits_second (hw : Waits files target w)
    (hf : ∀ value w', Waits files target w' → Hits target (f value) w') :
    Hits target (prog >>= f) w := by
  rw [Hits, bind_eq, exec_bind]
  exact hf _ _ (waits_exec hw)

theorem hits_remove (hw : Waits files target w) (hends : files.Ends path target) :
    Hits target (M.act (.remove storageId path)) w := by
  rcases hw with hsame | hgone
  · obtain ⟨hplace, hsome⟩ := entryAt_of_ends hends
    change ((towardOs target).act (.remove storageId path) w.os).2.2 target = none
    rw [towardOs, directoryOs]
    dsimp only
    rw [hsame, hplace]
    dsimp only
    rw [hsome, decide_eq_true rfl, Bool.and_self, if_pos rfl]
    exact if_pos rfl
  · exact hits_of_gone hgone

-- What lies in a directory that is removed lies below it.
theorem prefix_of_inTree {fuel : Nat} {dir : List FileName} {left : Nat}
    (hlookup : files.lookup path = .ok (dir, left)) {name : FileName}
    (hnode : files (dir ++ [name]) = some .dir)
    (h : files.InTree fuel (path ++ SLASH :: name.val) target) : dir ++ [name] <+: target := by
  induction fuel generalizing path dir left name with
  | zero => exact h.elim
  | succ fuel ih =>
      have hends : ∀ {name' : FileName}, files.Ends (path ++ SLASH :: name'.val) target →
          target = dir ++ [name'] := by
        intro name' hends
        obtain ⟨dir', left', hlookup', -, hplace, -⟩ := hends.parts
        rw [hlookup] at hlookup'
        cases hlookup'
        exact hplace
      obtain ⟨dir', left', hlookup', hdir', hplace⟩ := h
      obtain rfl : dir' = dir ++ [name] := by
        obtain ⟨dir'', left'', hfront, -, hwalk⟩ := MtpCtx.lookup_through hlookup'
        rw [hlookup] at hfront
        cases hfront
        refine Tree.walk_name (fun absolute parts hlink => ?_) hwalk
        rw [hnode] at hlink
        cases hlink
      rcases hplace with h | ⟨name', ⟨hnode', hbelow⟩ | ⟨-, h⟩⟩
      · rw [hends h]
      · exact (List.prefix_append _ _).trans (ih hlookup' hnode' hbelow)
      · obtain ⟨dir'', left'', hlookup'', -, hplace, -⟩ := h.parts
        rw [hlookup'] at hlookup''
        cases hlookup''
        rw [hplace]
        exact List.prefix_append _ _

-- So does all else that is removed with a folder but the folder itself.
theorem below_of_inTree {fuel : Nat} {dir : List FileName} {left : Nat}
    (hlookup : files.lookup path = .ok (dir, left)) (h : files.InTree fuel path target) :
    files.Ends path target ∨ dir <+: target := by
  cases fuel with
  | zero => exact h.elim
  | succ fuel =>
      obtain ⟨dir', left', hlookup', -, hplace⟩ := h
      rw [hlookup] at hlookup'
      cases hlookup'
      refine hplace.imp_right fun hplace => ?_
      obtain ⟨name, ⟨hnode, hbelow⟩ | ⟨-, hends⟩⟩ := hplace
      · exact (List.prefix_append _ _).trans (prefix_of_inTree hlookup hnode hbelow)
      · obtain ⟨dir', left', hlookup', -, rfl, -⟩ := hends.parts
        rw [hlookup] at hlookup'
        cases hlookup'
        exact List.prefix_append _ _

theorem listed_towards {dir : List FileName} {name : FileName} (h : dir ++ [name] <+: target)
    (hdir : files.lookup path = .ok (dir, fuel)) (hplace : files.Dir dir)
    {s : MemSystem × FileTree} (hs : s.2 = files) :
    (towardOs target).query (.opendir path) s = some [name.val] := by
  change (dirAt s.2 path).map _ = _
  rw [hs, dirAt_eq_some.mpr ⟨fuel, hdir, hplace⟩]
  obtain ⟨rest, rfl⟩ := h
  simp

-- A turn of the loop over the names of a folder comes to the only name.
theorem hits_removeNames {removeTree : CString → M Bool} {dir : List FileName} {left : Nat}
    {name : FileName} (hw : Waits files target w)
    (hlookup : files.lookup path = .ok (dir, left)) (hdir : files.Dir dir)
    (hplace : files (dir ++ [name]) = some .dir ∧ (∀ w', Waits files target w' →
        Hits target (removeTree (path ++ SLASH :: name.val)) w') ∨
      files (dir ++ [name]) ≠ some .dir ∧ files.Ends (path ++ SLASH :: name.val) target) :
    Hits target (removeNames removeTree storageId path [name.val]) w := by
  rcases hw with hsame | hgone
  · unfold removeNames
    rw [Hits, exec_act_bind]
    dsimp only
    rw [if_pos (by rfl), exec_query_bind]
    have hstat : ∀ node, files (dir ++ [name]) = some node →
        (towardOs target).query (.lstat64 (path ++ SLASH :: name.val))
          ((towardOs target).act .malloc w.os).2 = some (nodeStat node) := by
      intro node hnode
      change (entryAt w.os.2 (path ++ SLASH :: name.val)).bind
        (fun place => (w.os.2 place).map nodeStat) = _
      rw [hsame, entryAt_append, dirAt_eq_some.mpr ⟨left, hlookup, hdir⟩, Option.map_some,
        Option.bind_some, hnode, Option.map_some]
    rcases hplace with ⟨hnode, htree⟩ | ⟨hnode, hends⟩
    · rw [hstat _ hnode]
      dsimp only
      rw [if_pos (by rfl), if_pos ⟨name.property.2.2.2, name.property.2.2.1⟩]
      exact hits_first (htree _ (Or.inl hsame))
    · obtain ⟨dir', left', hlookup', -, rfl, hsome⟩ := hends.parts
      rw [hlookup] at hlookup'
      cases hlookup'
      obtain ⟨node, hsome⟩ := Option.isSome_iff_exists.mp hsome
      rw [hstat _ hsome]
      dsimp only
      rw [if_neg]
      · exact hits_first (hits_remove (Or.inl hsame) hends)
      · rw [nodeStat, decide_eq_true_iff]
        rintro rfl
        exact hnode hsome
  · exact hits_of_gone hgone

-- What lies in a folder is removed with it.
theorem hits_fsRemoveTree (hw : Waits files target w) (h : files.InTree fuel path target) :
    Hits target (fsRemoveTree storageId fuel path) w := by
  induction fuel generalizing path w with
  | zero => exact h.elim
  | succ fuel ih =>
      rcases hw with hsame | hgone
      · obtain ⟨dir, left, hlookup, hdir, hplace⟩ := h
        rw [fsRemoveTree, Hits, exec_query_bind]
        rcases hplace with hends | ⟨name, hplace⟩
        · have hopens : ∃ names, (towardOs target).query (.opendir path) w.os = some names := by
            change ∃ names, (dirAt w.os.2 path).map _ = some names
            rw [hsame, dirAt_eq_some.mpr ⟨left, hlookup, hdir⟩]
            exact ⟨_, rfl⟩
          obtain ⟨names, hnames⟩ := hopens
          rw [hnames]
          exact hits_second (Or.inl hsame) fun _ _ hw => hits_first (hits_remove hw hends)
        · have hunder : dir ++ [name] <+: target := by
            rcases hplace with ⟨hnode, hbelow⟩ | ⟨-, hends⟩
            · exact prefix_of_inTree hlookup hnode hbelow
            · obtain ⟨dir', left', hlookup', -, rfl, -⟩ := hends.parts
              rw [hlookup] at hlookup'
              cases hlookup'
              exact List.prefix_refl _
          rw [listed_towards hunder hlookup hdir hsame]
          refine hits_first (hits_removeNames (Or.inl hsame) hlookup hdir ?_)
          exact hplace.imp_left fun hplace => ⟨hplace.1, fun w' hw' => ih hw' hplace.2⟩
      · exact hits_of_gone hgone

theorem exec_entryPath_towardOs {p : EntryPtr} {root : CString}
    (hroot : w.ctx.mtpGetStorageRoot (w.ctx.entry p).storageId = some root) :
    (exec (World.handle (towardOs target)) (entryPath p) w).1 =
      w.ctx.resolved (FileTree.realpath w.os.2) p := by
  rw [entryPath, exec_getCtx_bind, hroot, buildFullPath, exec_getCtx_bind, MtpCtx.resolved,
    hroot, Option.bind_some]
  have hbuilt := @exec_buildFullPathNamed _ (towardOs target) (FileTree.realpath w.os.2) root
    (w.ctx.entry p).name p w fun _ => rfl
  exact hbuilt.resolve_left fun h => absurd h.2.choose_spec Bool.true_eq_false.mp

end Toward

-- The search

-- The children of `d` are looked for in what is ahead.
def MtpCtx.searching (ctx : MtpCtx) (d : EntryPtr) (ahead : List EntryPtr) : MtpCtx :=
  { ctx with fsDb := some { ctx.db with
      searchEntry := ahead
      handleSearch := (ctx.entry d).handle
      storageSearch := (ctx.entry d).storageId } }

-- Nothing but a search was started.
def MtpCtx.Alike (ctx ctx' : MtpCtx) : Prop := ctx' = ctx ∨ ∃ d ahead, ctx' = ctx.searching d ahead

-- What the recursion of `delete_db_tree` does with a sub-folder.
def deleteSubTree : Nat → EntryPtr → M Nat
  | 0 => fun _ => pure 1
  | levels + 1 => deleteDbTree levels

section Search

variable {σ : Type} {os : Os σ} {ctx ctx' : MtpCtx} {d e q : EntryPtr} {ahead : List EntryPtr}
  {s : σ}

theorem MtpCtx.Alike.resolved (h : ctx.Alike ctx') {fs : CString → Except Errno CString} :
    ctx'.resolved fs q = ctx.resolved fs q := by
  rcases h with rfl | ⟨d, ahead, rfl⟩
  · rfl
  · exact @Kept.resolved ctx (ctx.searching d ahead)
      ⟨rfl, rfl, rfl, rfl, fun _ => Or.inl rfl⟩ _ (fun _ _ => rfl) fs

theorem MtpCtx.Alike.root (h : ctx.Alike ctx') :
    ctx'.mtpGetStorageRoot (ctx'.entry q).storageId =
      ctx.mtpGetStorageRoot (ctx.entry q).storageId := by
  rcases h with rfl | ⟨d, ahead, rfl⟩
  · rfl
  · rfl

theorem exec_deleteDbTree (hdb : ctx.fsDb.isSome = true) (h : ctx.Alike ctx') (levels : Nat) :
    exec (World.handle os) (deleteDbTree levels d) ⟨ctx', s⟩ =
      exec (World.handle os) (deleteChildren (deleteSubTree levels) (ctx.db.entryList.length + 1) 0)
        ⟨ctx.searching d ctx.db.entryList, s⟩ := by
  obtain ⟨db, hdb⟩ := Option.isSome_iff_exists.mp hdb
  have hstart : (World.handle os (.db (.initSearchHandle (ctx'.entry d).handle
      (ctx'.entry d).storageId)) ⟨ctx', s⟩).2 = ⟨ctx.searching d ctx.db.entryList, s⟩ := by
    rcases h with rfl | ⟨d', ahead, rfl⟩
    · have hctx : ctx'.db = db := by rw [MtpCtx.db, hdb, Option.getD_some]
      rw [MtpCtx.searching, hctx]
      change (⟨ctx'.applyDb _, s⟩ : World σ) = _
      rw [MtpCtx.applyDb, hdb]
      rfl
    · rfl
  rw [deleteDbTree, exec_getCtx_bind]
  cases levels with
  | zero =>
      change exec (World.handle os) _ (World.handle os _ _).2 = _
      rw [hstart]
      rfl
  | succ levels =>
      change exec (World.handle os) _ (World.handle os _ _).2 = _
      rw [hstart]
      rfl

-- A folder in which nothing is found.
theorem exec_deleteDbTree_childless (hdb : ctx.fsDb.isSome = true) (h : ctx.Alike ctx')
    (hnone : ctx.childrenOf (ctx.entry d).handle (ctx.entry d).storageId = []) (levels : Nat) :
    exec (World.handle os) (deleteDbTree levels d) ⟨ctx', s⟩ = (0, ⟨ctx.searching d [], s⟩) := by
  have hdrop : (ctx.searching d ctx.db.entryList).db.searchEntry.dropWhile
      (fun r => !(ctx.searching d ctx.db.entryList).db.isSearchedChild r) = [] := by
    rw [List.dropWhile_eq_nil_iff]
    intro r hr
    have hno : ¬(ctx.searching d ctx.db.entryList).db.isSearchedChild r = true := fun hwanted => by
      have hchild : r ∈ ctx.childrenOf (ctx.entry d).handle (ctx.entry d).storageId :=
        List.mem_filter.mpr ⟨hr, hwanted⟩
      rw [hnone] at hchild
      cases hchild
    rw [Bool.not_eq_true] at hno
    rw [hno]
    rfl
  have hnext : (ctx.searching d ctx.db.entryList).db.getNextChildHandle =
      (none, (ctx.searching d []).db) := by
    rw [FsHandlesDb.getNextChildHandle, hdrop]
    rfl
  have hstep : exec (World.handle os) (M.db .getNextChildHandle)
      ⟨ctx.searching d ctx.db.entryList, s⟩ = (none, ⟨ctx.searching d [], s⟩) := by
    change ((ctx.searching d ctx.db.entryList).db.getNextChildHandle.1,
      (⟨{ ctx.searching d ctx.db.entryList with
        fsDb := some (ctx.searching d ctx.db.entryList).db.getNextChildHandle.2 }, s⟩ :
          World σ)) = _
    rw [hnext]
    rfl
  rw [exec_deleteDbTree hdb h, deleteChildren, bind_eq, exec_bind, hstep]
  rfl

end Search

section Toward

variable {files : FileTree} {target : List FileName} {w : World (MemSystem × FileTree)}
  {ctx : MtpCtx} {p d e q : EntryPtr} {root path : CString} {hdr : Buffer} {levels fuel : Nat}
  {ahead : List EntryPtr} {s : MemSystem × FileTree}

theorem waits_entryPath (w : World (MemSystem × FileTree)) (p : EntryPtr) :
    (exec (World.handle (towardOs target)) (entryPath p) w).2.ctx = w.ctx ∧
      (exec (World.handle (towardOs target)) (entryPath p) w).2.os.2 = w.os.2 :=
  ⟨looks_exec (looks_entryPath p) w, (towardOs_hasDirectories target).toHasLinks.kept
    (keepsFiles_identifies.entryPath p) w⟩

theorem isSearchedChild_searching (he : e ∈ ctx.db.entryList) :
    (ctx.searching d ahead).db.isSearchedChild e = true ↔ ctx.IsChild d e := by
  rw [MtpCtx.IsChild, MtpCtx.childrenOf, List.mem_filter]
  exact ⟨fun h => ⟨he, h⟩, fun h => h.2⟩

-- The search finds a child at the latest where one is known to be.
theorem next_of_child (hahead : ∀ r ∈ ahead, r ∈ ctx.db.entryList) (he : e ∈ ahead)
    (hchild : ctx.IsChild d e) :
    ∃ q skipped rest, ahead = skipped ++ q :: rest ∧ (e = q ∨ e ∈ rest) ∧ ctx.IsChild d q ∧
      World.handle (towardOs target) (.db .getNextChildHandle) ⟨ctx.searching d ahead, s⟩ =
        (some q, ⟨ctx.searching d rest, s⟩) := by
  obtain ⟨db, hdb⟩ : ∃ db, db = (ctx.searching d ahead).db := ⟨_, rfl⟩
  have hwanted : ∀ r ∈ ctx.db.entryList, db.isSearchedChild r = true ↔ ctx.IsChild d r := by
    intro r hr
    rw [hdb]
    exact isSearchedChild_searching hr
  have hlist : db.searchEntry = ahead := by rw [hdb]; rfl
  cases hnext : db.getNextChildHandle.1 with
  | none =>
      rw [FsHandlesDb.getNextChildHandle] at hnext
      split at hnext
      · rename_i hdrop
        have hno := List.dropWhile_eq_nil_iff.mp hdrop e (hlist ▸ he)
        rw [(hwanted e (hahead e he)).mpr hchild] at hno
        cases hno
      · cases hnext
  | some q =>
      obtain ⟨hdrop, hq⟩ := FsHandlesDb.getNextChildHandle_eq_some hnext
      have hsplit := List.takeWhile_append_dropWhile
        (p := fun r => !db.isSearchedChild r) (l := db.searchEntry)
      rw [hdrop, hlist] at hsplit
      have hmem : q ∈ ahead := by
        rw [← hsplit]
        exact List.mem_append_right _ List.mem_cons_self
      refine ⟨q, _, _, hsplit.symm, ?_, (hwanted q (hahead q hmem)).mp hq, ?_⟩
      · rw [← hsplit] at he
        rcases List.mem_append.mp he with hskipped | hrest
        · have hno := List.mem_takeWhile_imp hskipped
          rw [(hwanted e (hahead e (hsplit ▸ he))).mpr hchild] at hno
          cases hno
        · exact List.mem_cons.mp hrest
      · have hstep : World.handle (towardOs target) (.db .getNextChildHandle)
            ⟨ctx.searching d ahead, s⟩ = (db.getNextChildHandle.1,
              ⟨{ ctx.searching d ahead with fsDb := some db.getNextChildHandle.2 }, s⟩) := by
          rw [hdb]
          rfl
        rw [hstep, hnext, FsHandlesDb.getNextChildHandle_snd, hdb]
        rfl

-- Only the place is removed, and as long as it is not, nothing is flagged.
theorem exec_removeChild_file (hsame : w.os.2 = files) :
    Hits target (removeChild q false) w ∨
      (exec (World.handle (towardOs target)) (removeChild q false) w).2.ctx = w.ctx ∧
        (exec (World.handle (towardOs target)) (removeChild q false) w).2.os.2 = files := by
  obtain ⟨hctx, hos⟩ := @waits_entryPath target w q
  rw [Hits, removeChild, exec_getCtx_bind]
  dsimp only
  rw [bind_eq, exec_bind]
  cases hvalue : (exec (World.handle (towardOs target)) (entryPath q) w).1 with
  | none => exact Or.inr ⟨hctx, hos.trans hsame⟩
  | some path =>
      generalize (exec (World.handle (towardOs target)) (entryPath q) w).2 = w' at hctx hos ⊢
      dsimp only
      rcases towardOs_remove target (w.ctx.entry q).storageId path w'.os with hkept | hgone
      · rw [if_neg Bool.false_ne_true, exec_act_bind, hkept]
        exact Or.inr ⟨hctx, hos.trans hsame⟩
      · exact Or.inl (hits_first (show Hits target (M.act (.remove _ path)) w' from hgone))

-- The loop comes to each child that is searched, as long as the place is not removed.
theorem hits_deleteChildren {deleteSubTree : EntryPtr → M Nat}
    (hnodup : ctx.db.entryList.Nodup) (hsearched : ctx.IsSearched levels d e)
    (hdeep : levels = 0 → ∀ q, deleteSubTree q = pure 1)
    (hfile : (ctx.entry e).isDir = false → ∀ rest s, s.2 = files →
      Hits target (removeChild e false) ⟨ctx.searching d rest, s⟩)
    (hfolder : (ctx.entry e).isDir = true → ∀ rest s, s.2 = files →
      Hits target (deleteSubTree e) ⟨ctx.searching d rest, s⟩ ∨
        (exec (World.handle (towardOs target)) (deleteSubTree e) ⟨ctx.searching d rest, s⟩).1 = 0 ∧
          Hits target (removeChild e true)
            (exec (World.handle (towardOs target)) (deleteSubTree e)
              ⟨ctx.searching d rest, s⟩).2)
    {passed : List EntryPtr} (hlist : ctx.db.entryList = passed ++ ahead) (he : e ∈ ahead)
    (hfuel : ahead.length < fuel) (fcnt : Nat) (hs : s.2 = files) :
    Hits target (deleteChildren deleteSubTree fuel fcnt) ⟨ctx.searching d ahead, s⟩ := by
  induction fuel generalizing passed ahead fcnt s with
  | zero => omega
  | succ fuel ih =>
      have hahead : ∀ r ∈ ahead, r ∈ ctx.db.entryList := fun r hr => by
        rw [hlist]
        exact List.mem_append_right _ hr
      obtain ⟨q, skipped, rest, rfl, hplace, hchild, hstep⟩ :=
        @next_of_child target ctx d e ahead s hahead he hsearched.1
      have hperform : exec (World.handle (towardOs target)) (M.db .getNextChildHandle)
          ⟨ctx.searching d (skipped ++ q :: rest), s⟩ = (some q, ⟨ctx.searching d rest, s⟩) := hstep
      have hlive : ¬((ctx.searching d rest).entry q).isDeleted = true := by
        have hwanted := (List.mem_filter.mp hchild).2
        simp only [Bool.and_eq_true, Bool.not_eq_true'] at hwanted
        rw [Bool.not_eq_true]
        exact hwanted.1.1.1
      rw [deleteChildren, Hits, bind_eq, exec_bind, hperform]
      dsimp only
      rw [exec_getCtx_bind]
      dsimp only
      rw [if_neg hlive]
      -- the next turn, when the place was not removed in this one
      have hrest : ∀ (fcnt : Nat) (w : World (MemSystem × FileTree)), e ∈ rest →
          w.ctx = ctx.searching d rest → w.os.2 = files →
            Hits target (deleteChildren deleteSubTree fuel fcnt) w := by
        rintro fcnt ⟨_, s'⟩ hmem rfl hs'
        have hlist' : ctx.db.entryList = (passed ++ skipped ++ [q]) ++ rest := by
          rw [hlist]
          simp
        refine ih hlist' hmem ?_ fcnt hs'
        rw [List.length_append, List.length_cons] at hfuel
        omega
      rcases hplace with rfl | hmem
      · split
        · rename_i hdir
          rcases hfolder hdir rest s hs with hhits | ⟨hzero, hhits⟩
          · exact hits_first hhits
          · rw [bind_eq, exec_bind, hzero, if_pos rfl]
            exact hits_first hhits
        · rename_i hno
          rw [Bool.not_eq_true] at hno
          exact hits_first (hfile hno rest s hs)
      · split
        · -- a folder before it lies too deep
          rename_i hdir
          have hzero : levels = 0 := by
            obtain ⟨-, before, behind, hlist', hno⟩ := hsearched
            refine hno.resolve_right fun hno => ?_
            rw [← List.append_assoc] at hlist
            have hdir : (ctx.entry q).isDir = true := hdir
            rw [hno q (mem_of_before hnodup hlist hmem hlist') hchild] at hdir
            cases hdir
          rw [hdeep hzero q]
          exact hrest _ _ hmem rfl hs
        · rcases @exec_removeChild_file files target ⟨ctx.searching d rest, s⟩ q hs with
            hgone | ⟨hctx, hos⟩
          · exact hits_first hgone
          · rw [bind_eq, exec_bind]
            exact hrest _ _ hmem hctx hos

theorem hits_removeChild {isDir : Bool} (h : ctx.Alike w.ctx) (hsame : w.os.2 = files)
    (hpath : ctx.resolved files.realpath q = some path)
    (htarget : files.Removable isDir path target) : Hits target (removeChild q isDir) w := by
  obtain ⟨-, hos⟩ := @waits_entryPath target w q
  obtain ⟨root, hroot, -⟩ := Option.bind_eq_some_iff.mp hpath
  have hvalue := @exec_entryPath_towardOs target w q root (h.root.trans hroot)
  rw [hsame, h.resolved, hpath] at hvalue
  rw [removeChild, Hits, exec_getCtx_bind]
  dsimp only
  rw [bind_eq, exec_bind, hvalue]
  dsimp only
  split
  · rename_i hdir
    rw [FileTree.Removable, if_pos hdir] at htarget
    exact hits_first (hits_fsRemoveTree (Or.inl (hos.trans hsame)) htarget)
  · rename_i hfile
    rw [FileTree.Removable, if_neg hfile] at htarget
    exact hits_first (hits_remove (Or.inl (hos.trans hsame)) htarget)

-- The place is removed with what is found in `d`.
def Strikes (files : FileTree) (target : List FileName) (ctx : MtpCtx) (levels : Nat)
    (d : EntryPtr) : Prop :=
  ∀ ctx' s, ctx.Alike ctx' → s.2 = files → Hits target (deleteDbTree levels d) ⟨ctx', s⟩

-- No child of the entry is found.
def MtpCtx.IsBare (ctx : MtpCtx) (q : EntryPtr) : Prop :=
  (ctx.entry q).isDir = true →
    ctx.childrenOf (ctx.entry q).handle (ctx.entry q).storageId = []

theorem strikes_of_searched (hdb : ctx.fsDb.isSome = true) (hnodup : ctx.db.entryList.Nodup)
    (hq : ctx.IsSearched levels d q) (hlevels : (ctx.entry q).isDir = true → levels ≠ 0)
    (hbare : ctx.IsBare q) (hpath : ctx.resolved files.realpath q = some path)
    (htarget : files.Removable (ctx.entry q).isDir path target) :
    Strikes files target ctx levels d := by
  intro ctx' s hctx' hs
  rw [Hits, exec_deleteDbTree hdb hctx']
  refine hits_deleteChildren hnodup hq (fun hzero q => by rw [hzero]; rfl)
    (fun hfile rest s hs => ?_) (fun hdir rest s hs => Or.inr ?_) (List.nil_append _).symm
    (List.mem_filter.mp hq.1).1 (Nat.lt_succ_self _) 0 hs
  · rw [hfile] at htarget
    exact hits_removeChild (Or.inr ⟨d, rest, rfl⟩) hs hpath htarget
  · obtain ⟨below, rfl⟩ := Nat.exists_eq_succ_of_ne_zero (hlevels hdir)
    rw [hdir] at htarget
    rw [deleteSubTree, exec_deleteDbTree_childless hdb (Or.inr ⟨d, rest, rfl⟩) (hbare hdir)]
    exact ⟨rfl, hits_removeChild (Or.inr ⟨q, [], rfl⟩) hs hpath htarget⟩

theorem strikes_of_below (hdb : ctx.fsDb.isSome = true) (hnodup : ctx.db.entryList.Nodup)
    (hd : ctx.DeletesIn p levels d) (hstrikes : Strikes files target ctx levels d) :
    Strikes files target ctx MAX_TREE_DEPTH p := by
  induction hd with
  | top => exact hstrikes
  | down above hq hdir ih =>
      refine ih fun ctx' s hctx' hs => ?_
      rw [Hits, exec_deleteDbTree hdb hctx']
      refine hits_deleteChildren hnodup hq (fun hzero => absurd hzero (Nat.succ_ne_zero _))
        (fun hfile => ?_) (fun _ rest s hs => Or.inl (hstrikes _ s (Or.inr ⟨_, rest, rfl⟩) hs))
        (List.nil_append _).symm (List.mem_filter.mp hq.1).1 (Nat.lt_succ_self _) 0 hs
      rw [hdir] at hfile
      cases hfile

-- The deletion of `p` comes to `q`, whatever could be removed before.
def MtpCtx.Attempts (ctx : MtpCtx) (files : FileTree) (p q : EntryPtr) : Prop :=
  ctx.IsBare q ∧ (q = p ∨ (ctx.entry p).isDir = true ∧
    (ctx.resolved files.realpath p).isSome = true ∧ ∃ levels d, ctx.DeletesIn p levels d ∧
      ctx.IsSearched levels d q ∧ ((ctx.entry q).isDir = true → levels ≠ 0))

theorem hits_deleteEntry (hdb : ctx.fsDb.isSome = true) (hnodup : ctx.db.entryList.Nodup)
    (hctx : w.ctx = ctx) (hsame : w.os.2 = files)
    (hroot : ctx.mtpGetStorageRoot (ctx.entry p).storageId = some root)
    (hattempts : ctx.Attempts files p q) (hpath : ctx.resolved files.realpath q = some path)
    (htarget : files.Removable (ctx.entry q).isDir path target) :
    Hits target (deleteEntry p) w := by
  obtain ⟨ctx, s⟩ := w
  obtain rfl : ctx = _ := hctx
  have hvalue := @exec_entryPath_towardOs target ⟨ctx, s⟩ p root hroot
  obtain ⟨hctx, hos⟩ := @waits_entryPath target ⟨ctx, s⟩ p
  rw [deleteEntry, Hits, exec_getCtx_bind]
  dsimp only
  rw [bind_eq, exec_bind, hvalue]
  generalize (exec (World.handle (towardOs target)) (entryPath p) ⟨ctx, s⟩).2 = w' at hctx hos ⊢
  obtain ⟨ctx', s'⟩ := w'
  obtain rfl : ctx' = ctx := hctx
  have hs' : s'.2 = files := hos.trans hsame
  have hsame : s.2 = files := hsame
  obtain ⟨hbare, rfl | ⟨hdir, hsome, levels, d, hd, hq, hlevels⟩⟩ := hattempts
  · rw [hsame, hpath]
    dsimp only
    split
    · rename_i hdir
      rw [FileTree.Removable, if_pos hdir] at htarget
      rw [bind_eq, exec_bind, exec_deleteDbTree_childless hdb (Or.inl rfl) (hbare hdir), if_pos rfl]
      exact hits_first (hits_fsRemoveTree (Or.inl hs') htarget)
    · rename_i hfile
      rw [FileTree.Removable, if_neg hfile] at htarget
      exact hits_first (hits_remove (Or.inl hs') htarget)
  · obtain ⟨found, hfound⟩ := Option.isSome_iff_exists.mp hsome
    rw [hsame, hfound]
    dsimp only
    rw [if_pos hdir]
    exact hits_first (strikes_of_below hdb hnodup hd
      (strikes_of_searched hdb hnodup hq hlevels hbare hpath htarget) _ s' (Or.inl rfl) hs')

theorem exec_setStorageGiduid_towardOs {storageId : Nat}
    (hroot : w.ctx.mtpGetStorageRoot storageId = some root) :
    exec (World.handle (towardOs target)) (setStorageGiduid storageId) w = (true, w) := by
  have hset : ∀ uid gid : Int,
      exec (World.handle (towardOs target)) (setGiduid uid gid) w = (true, w) := by
    intro uid gid
    unfold setGiduid
    split
    · split
      · rfl
      · rfl
    · split
      · rfl
      · rfl
  obtain ⟨i, hi, -⟩ := Option.bind_eq_some_iff.mp hroot
  rw [setStorageGiduid, exec_getCtx_bind, hi]
  exact hset _ _

-- What lies where the path of an entry leads that the deletion comes to is removed.
theorem hits_deleteObject (hdb : w.ctx.fsDb.isSome = true) (hnodup : w.ctx.db.entryList.Nodup)
    (hgranted : ¬w.ctx.RefusesDeletion (param hdr 0))
    (hp : w.ctx.getEntryByHandle (param hdr 0) = some p)
    (hroot : w.ctx.mtpGetStorageRoot (w.ctx.entry p).storageId = some root)
    (hsame : w.os.2 = files) (hattempts : w.ctx.Attempts files p q)
    (hpath : w.ctx.resolved files.realpath q = some path)
    (htarget : files.Removable (w.ctx.entry q).isDir path target) :
    Hits target (mtpOpDeleteObject hdr) w := by
  rw [MtpCtx.RefusesDeletion, Bool.not_eq_true, Option.isSome_eq_false_iff,
    Option.isNone_iff_eq_none] at hgranted
  rw [mtpOpDeleteObject, inSession, Hits, exec_getCtx_bind, if_pos hdb, underMutex, exec_act_bind,
    if_pos (show ((towardOs target).act .lockInotifyMutex w.os).1 = true from rfl)]
  refine hits_first ?_
  rw [deleteObject, Hits, exec_getCtx_bind]
  dsimp only
  rw [hgranted]
  dsimp only
  rw [hp]
  dsimp only
  have hset := @exec_setStorageGiduid_towardOs target
    ⟨w.ctx, ((towardOs target).act .lockInotifyMutex w.os).2⟩ root _ hroot
  rw [bind_eq, exec_bind, hset, if_pos rfl]
  refine hits_first ?_
  rw [deleteTree, Hits, exec_getCtx_bind, hp]
  exact hits_deleteEntry hdb hnodup rfl hsame hroot hattempts hpath htarget

end Toward

-- What may be removed

namespace MtpCtx

theorem session_of_found {ctx : MtpCtx} {handle : Nat} {p : EntryPtr}
    (h : ctx.getEntryByHandle handle = some p) : ctx.fsDb.isSome = true := by
  cases hdb : ctx.fsDb with
  | none =>
      rw [getEntryByHandle, db, hdb] at h
      cases h
  | some db => rfl

-- The place that an object has by its folder and its name: the names of the entries
-- above it, all of them live, lead to the folder.
def NamedPlace (ctx : MtpCtx) (files : FileTree) (p : EntryPtr) (place : List FileName) :
    Prop :=
  ∃ root above dir left, ∃ name : FileName,
    ctx.mtpGetStorageRoot (ctx.entry p).storageId = some root ∧ Lineage ctx p (p :: above) ∧
      files.lookup (root ++ above.reverse.flatMap (SLASH :: ctx.nameOf ·)) = .ok (dir, left) ∧
      files.Dir dir ∧ ctx.nameOf p = name.val ∧ place = dir ++ [name]

theorem NamedPlace.unique {ctx : MtpCtx} {files : FileTree} {p : EntryPtr}
    {place place' : List FileName} (h : ctx.NamedPlace files p place)
    (h' : ctx.NamedPlace files p place') : place = place' := by
  obtain ⟨root, above, dir, left, name, hroot, hlineage, hlookup, -, hname, rfl⟩ := h
  obtain ⟨root', above', dir', left', name', hroot', hlineage', hlookup', -, hname', rfl⟩ := h'
  obtain rfl := Option.some.inj (hroot.symm.trans hroot')
  obtain rfl := (List.cons.inj (hlineage.unique hlineage')).2
  rw [hlookup] at hlookup'
  cases hlookup'
  rw [Subtype.ext (hname.symm.trans hname')]

-- The place named by folder and name, or one below it when a directory is there.
def IsWithin (ctx : MtpCtx) (files : FileTree) (p : EntryPtr) (place : List FileName) : Prop :=
  ∃ top, ctx.NamedPlace files p top ∧ (place = top ∨ top <+: place ∧ files top = some .dir)

-- Whatever the system answers, nothing else is removed.
def DeletionConfined (ctx : MtpCtx) (hdr : Buffer) (files : FileTree) (p : EntryPtr) : Prop :=
  ∀ (σ : Type) (os : Os σ) (tree : σ → FileTree), os.HasDirectories tree → ∀ s, tree s = files →
    let w' := (exec (World.handle os) (mtpOpDeleteObject hdr) ⟨ctx, s⟩).2
    ∀ place, tree w'.os place ≠ files place → tree w'.os place = none ∧ ctx.IsWithin files p place

end MtpCtx

-- In every state that is reached, the deletion of an object stays within the object when
-- all that can be removed with it lies there. Where no child of an entry is found, this
-- is needed as well.
theorem deletion_confined {σ : Type} (os : Os σ) (start : World σ) (hstart : start.ctx.Initial)
    (events : List (Event σ)) (hdr buffer2 : Buffer) (files : FileTree) (p : EntryPtr)
    (root : CString) :
    let ctx := (run (World.step os) start events).ctx.withBuffers hdr buffer2
    ctx.db.entryList.length < UINT32_SIZE - 1 → ctx.getEntryByHandle (param hdr 0) = some p →
    ctx.mtpGetStorageRoot (ctx.entry p).storageId = some root → root.head? = some SLASH →
      (ctx.RefusesDeletion (param hdr 0) ∨ ctx.DeletesInside files (ctx.IsWithin files p) p →
        ctx.DeletionConfined hdr files p) ∧
      (ctx.DeletionConfined hdr files p → ctx.RefusesDeletion (param hdr 0) ∨
        ∀ q, ctx.Attempts files p q → ∀ path, ctx.resolved files.realpath q = some path →
          ∀ place, files.Removable (ctx.entry q).isDir path place →
            ctx.IsWithin files p place) := by
  intro ctx hlen hp hroot habsolute
  have hw : ctx.WellGrown := (wellGrown_run hstart.wellGrown events).withBuffers hdr buffer2
  constructor
  · intro hinside τ os' tree hdirs s hs w' place hplace
    subst hs
    obtain ⟨hthin, hchanged⟩ := (deleteObject_inside (w := ⟨ctx, s⟩) hdirs hw hlen hp hroot
      habsolute hinside).1
    exact ⟨(hthin place).resolve_left hplace, hchanged place hplace⟩
  · intro hconfined
    by_cases hrefuses : ctx.RefusesDeletion (param hdr 0)
    · exact Or.inl hrefuses
    · refine Or.inr fun q hattempts path hpath place hremovable => ?_
      have hgone := hits_deleteObject (w := ⟨ctx, sampleSystem, files⟩) (MtpCtx.session_of_found hp)
        hw.ordered.slots.nodup hrefuses hp hroot rfl hattempts hpath hremovable
      refine (hconfined _ (towardOs place) Prod.snd (towardOs_hasDirectories place)
        (sampleSystem, files) rfl place fun hsame => ?_).2
      have hsome := hremovable.isSome
      rw [← hsame, hgone] at hsome
      cases hsome

section Samples

def D_FILE : FileName := ⟨[0x64], by decide⟩

-- The names that the sample directories may have.
def SAMPLE_FILES : List FileName := [A_FILE, B_FILE, D_FILE, F_FILE, G_FILE]

def filesOs : Os (MemSystem × FileTree) :=
  directoryOs (fun files dir => SAMPLE_FILES.filter fun name => (files (dir ++ [name])).isSome)
    fun files place => SAMPLE_FILES.all fun name => (files (place ++ [name])).isNone

-- "/a/d" is a directory with the file "/a/d/f".
def nestedTree (place : List FileName) : Option (Node FileName) :=
  if place = [A_FILE] ∨ place = [A_FILE, D_FILE] then some .dir
  else if place = [A_FILE, D_FILE, F_FILE] then some .file
  else none

-- "/a/f" is a link to "/a/g".
def aliasTree (place : List FileName) : Option (Node FileName) :=
  if place = [A_FILE] then some .dir
  else if place = [A_FILE, F_FILE] then some (.link false [.into G_FILE])
  else if place = [A_FILE, G_FILE] then some .file
  else none

-- Where the path of an entry leads when something was removed: where it led, or to its
-- sanitized name in its folder.
theorem MtpCtx.resolved_thinned {ctx : MtpCtx} {files rest : FileTree} {q : EntryPtr}
    {path : CString} (hthin : files.Thinned rest) (h : ctx.resolved rest.realpath q = some path) :
    ctx.resolved files.realpath q = some path ∨ ∃ root parentPath sanitized,
      ctx.mtpGetStorageRoot (ctx.entry q).storageId = some root ∧
      files.realpath ((root ++ ctx.relativePath q (ctx.entry q).name).take
        ((root ++ ctx.relativePath q (ctx.entry q).name).length -
          (ctx.entry q).name.length)) = .ok parentPath ∧
      sanitizeName (ctx.entry q).name (ctx.entry q).name.length = some sanitized ∧
      path = parentPath ++ SLASH :: sanitized := by
  obtain ⟨root, hroot, h⟩ := Option.bind_eq_some_iff.mp h
  obtain ⟨found, hfound, hcheck⟩ := Option.bind_eq_some_iff.mp h
  obtain ⟨rfl, -⟩ := checkRoot_eq_some.mp hcheck
  rw [resolution] at hfound
  split at hfound
  · rename_i path hpath
    cases hfound
    refine Or.inl ?_
    rw [resolved, hroot, Option.bind_some, resolution, FileTree.realpath_thinned hthin hpath]
    exact hcheck
  · split at hfound
    · rename_i parentPath hparent
      obtain ⟨sanitized, hsanitized, rfl⟩ := Option.map_eq_some_iff.mp hfound
      exact Or.inr ⟨root, parentPath, sanitized, hroot, FileTree.realpath_thinned hthin hparent,
        hsanitized, rfl⟩
    · cases hfound
  · cases hfound

-- Only the folder itself is searched when no sub-folder is found in it.
theorem MtpCtx.DeletesIn.eq_top {ctx : MtpCtx} {p d : EntryPtr} {levels : Nat}
    (hfiles : ∀ q, ctx.IsChild p q → (ctx.entry q).isDir = false)
    (h : ctx.DeletesIn p levels d) : d = p := by
  induction h with
  | top => rfl
  | down above hq hdir ih =>
      rw [ih] at hq
      rw [hfiles _ hq.1] at hdir
      cases hdir

def deleteHdr (handle : Nat) : Buffer :=
  Buffer.write (fun _ => 0) 0 (commandPacket MTP_OPERATION_DELETE_OBJECT [handle])

-- The folders with these handles were listed, "/a" first.
def deleting (files : FileTree) (folders : List Nat) (handle : Nat) :
    World (MemSystem × FileTree) :=
  let start : World (MemSystem × FileTree) :=
    ⟨startCtx (storagesOf [(A_ROOT, A_STORAGE, 0)]), sampleSystem, files⟩
  let listed := run (World.step filesOs) start
    (.packet (commandPacket MTP_OPERATION_OPEN_SESSION [1]) :: folders.map fun folder =>
      .packet (commandPacket MTP_OPERATION_GET_OBJECT_HANDLES [0xFFFF0001, 0, folder]))
  ⟨listed.ctx.withBuffers (deleteHdr handle) (fun _ => 0), sampleSystem, files⟩

example : (deleting nestedTree [0, 1] 1).ctx.childrenOf 1 0xFFFF0001 = [⟨1, 1021⟩] := by
  decide +kernel

-- The directory of the storage is a directory of the tree.
theorem dir_root {files : FileTree} (h : files [A_FILE] = some .dir) :
    Tree.Dir files [A_FILE] := by
  intro front hfront hne
  rcases List.prefix_concat_iff.mp (show front <+: [] ++ [A_FILE] from hfront) with rfl | hnil
  · exact h
  · exact absurd (List.prefix_nil.mp hnil) hne

theorem namedPlace_nestedTree :
    (deleting nestedTree [0, 1] 1).ctx.NamedPlace nestedTree ⟨1, 1022⟩ [A_FILE, D_FILE] :=
  ⟨A_ROOT, [], [A_FILE], 40, D_FILE, by decide +kernel, .top (Or.inl (by decide +kernel)),
    by decide +kernel, dir_root (by simp [nestedTree]), by decide +kernel, rfl⟩

-- The directory and the file in it are all that is removed with the object.
theorem deletesInside_nestedTree :
    (deleting nestedTree [0, 1] 1).ctx.DeletesInside nestedTree
      ((deleting nestedTree [0, 1] 1).ctx.IsWithin nestedTree ⟨1, 1022⟩) ⟨1, 1022⟩ := by
  have hwithin : ∀ place, [A_FILE, D_FILE] <+: place →
      (deleting nestedTree [0, 1] 1).ctx.IsWithin nestedTree ⟨1, 1022⟩ place := fun place h =>
    ⟨_, namedPlace_nestedTree, Or.inr ⟨h, by simp [nestedTree]⟩⟩
  have hroot : FileTree.lookup nestedTree A_ROOT = .ok ([A_FILE], 40) := by decide +kernel
  have hfolder : FileTree.lookup nestedTree (A_ROOT ++ SLASH :: D_FILE.val) =
      .ok ([A_FILE, D_FILE], 40) := by decide +kernel
  refine ⟨fun _ path hpath place hplace => hwithin place ?_,
    fun _ _ levels d q hd hq _ rest hrest path hpath place hplace => hwithin place ?_⟩
  · have hresolved : (deleting nestedTree [0, 1] 1).ctx.resolved (FileTree.realpath nestedTree)
        ⟨1, 1022⟩ = some (A_ROOT ++ SLASH :: D_FILE.val) := by decide +kernel
    obtain rfl := Option.some.inj (hresolved.symm.trans hpath)
    have hdir : ((deleting nestedTree [0, 1] 1).ctx.entry ⟨1, 1022⟩).isDir = true := by
      decide +kernel
    rw [FileTree.Removable, if_pos hdir] at hplace
    rcases below_of_inTree hfolder hplace with hends | hbelow
    · obtain ⟨dir, left, hlookup, -, rfl, -⟩ := hends.parts
      rw [hroot] at hlookup
      cases hlookup
      exact List.prefix_refl _
    · exact hbelow
  · have hone : ∀ r, (deleting nestedTree [0, 1] 1).ctx.IsChild ⟨1, 1022⟩ r → r = ⟨1, 1021⟩ := by
      have hchildren : (deleting nestedTree [0, 1] 1).ctx.childrenOf 1 0xFFFF0001 =
          [⟨1, 1021⟩] := by decide +kernel
      intro r hr
      have hr : r ∈ (deleting nestedTree [0, 1] 1).ctx.childrenOf 1 0xFFFF0001 := hr
      rw [hchildren] at hr
      exact List.mem_singleton.mp hr
    have hfile : ((deleting nestedTree [0, 1] 1).ctx.entry ⟨1, 1021⟩).isDir = false := by
      decide +kernel
    obtain rfl : d = ⟨1, 1022⟩ := hd.eq_top fun r hr => by rw [hone r hr, hfile]
    obtain rfl := hone q hq.1
    have hleads : path = (A_ROOT ++ SLASH :: D_FILE.val) ++ SLASH :: F_FILE.val := by
      rcases MtpCtx.resolved_thinned hrest.thinned hpath with
        hpath | ⟨root, parentPath, sanitized, hstorage, hparent, hsanitized, rfl⟩
      · have hresolved : (deleting nestedTree [0, 1] 1).ctx.resolved (FileTree.realpath nestedTree)
            ⟨1, 1021⟩ = some ((A_ROOT ++ SLASH :: D_FILE.val) ++ SLASH :: F_FILE.val) := by
          decide +kernel
        exact (Option.some.inj (hresolved.symm.trans hpath)).symm
      · have hname : ((deleting nestedTree [0, 1] 1).ctx.entry ⟨1, 1021⟩).name = F_FILE.val := by
          decide +kernel
        have hkept : sanitizeName F_FILE.val F_FILE.val.length = some F_FILE.val := by
          decide +kernel
        have hstorage' : (deleting nestedTree [0, 1] 1).ctx.mtpGetStorageRoot
            ((deleting nestedTree [0, 1] 1).ctx.entry ⟨1, 1021⟩).storageId = some A_ROOT := by
          decide +kernel
        obtain rfl := Option.some.inj (hstorage'.symm.trans hstorage)
        have hfolder : FileTree.realpath nestedTree ((A_ROOT ++
            (deleting nestedTree [0, 1] 1).ctx.relativePath ⟨1, 1021⟩ F_FILE.val).take
              ((A_ROOT ++ (deleting nestedTree [0, 1] 1).ctx.relativePath ⟨1, 1021⟩
                F_FILE.val).length - F_FILE.val.length)) = .ok (A_ROOT ++ SLASH :: D_FILE.val) := by
          decide +kernel
        rw [hname] at hparent hsanitized
        rw [Except.ok.inj (hparent.symm.trans hfolder),
          ← Option.some.inj (hkept.symm.trans hsanitized)]
    rw [FileTree.Removable, hfile, if_neg Bool.false_ne_true, hleads] at hplace
    obtain ⟨dir, left, hlookup, hdir, rfl, -⟩ := hplace.parts
    have hlookup := FileTree.lookup_thinned hrest.thinned hdir hlookup
    rw [hfolder] at hlookup
    cases hlookup
    exact ⟨[F_FILE], rfl⟩

-- The folder "/a/d" is deleted with its file, and nothing else.
theorem deletion_confined_sample :
    (deleting nestedTree [0, 1] 1).ctx.DeletionConfined (deleteHdr 1) nestedTree ⟨1, 1022⟩ :=
  (deletion_confined filesOs
    ⟨startCtx (storagesOf [(A_ROOT, A_STORAGE, 0)]), sampleSystem, nestedTree⟩
    (initial_startCtx _) _ (deleteHdr 1) (fun _ => 0) nestedTree ⟨1, 1022⟩ A_ROOT
    (by decide +kernel) (by decide +kernel) (by decide +kernel) (by decide +kernel)).1
    (Or.inr deletesInside_nestedTree)

-- "/a/f" is a link. When it is deleted, the file that it leads to is removed, and the
-- link stays.
theorem deletion_follows_link :
    let w := deleting aliasTree [0] 1
    let w' := (exec (World.handle filesOs) (mtpOpDeleteObject (deleteHdr 1)) w).2
    w.ctx.getEntryByHandle 1 = some ⟨1, 1022⟩ ∧ w'.os.2 [A_FILE, G_FILE] = none ∧
      ¬w.ctx.DeletionConfined (deleteHdr 1) aliasTree ⟨1, 1022⟩ := by
  intro w w'
  have hremoved : w'.os.2 [A_FILE, G_FILE] = none := by decide +kernel
  have hnamed : w.ctx.NamedPlace aliasTree ⟨1, 1022⟩ [A_FILE, F_FILE] :=
    ⟨A_ROOT, [], [A_FILE], 40, F_FILE, by decide +kernel, .top (Or.inl (by decide +kernel)),
      by decide +kernel, dir_root (by simp [aliasTree]), by decide +kernel, rfl⟩
  refine ⟨by decide +kernel, hremoved, fun h => ?_⟩
  obtain ⟨-, top, htop, hplace⟩ := h _ filesOs Prod.snd directoryOs_hasDirectories
    (sampleSystem, aliasTree) rfl [A_FILE, G_FILE] fun hsame => by
      have hsome : aliasTree [A_FILE, G_FILE] = some .file := by decide +kernel
      have hgone := hremoved.symm.trans (hsame.trans hsome)
      cases hgone
  rw [htop.unique hnamed] at hplace
  revert hplace
  decide +kernel

end Samples

end Umtp
