import Umtp.Lib.Removals
import Umtp.Listings
import Umtp.OwnPaths

namespace Umtp

open Lib Lib.Prog Handles Text

variable {σ α : Type} {os : Os σ} {tree : σ → FileTree} {w : World σ}

-- A path from the top that ends with a name, or that of the top itself.
def IsNamed (path : CString) : Prop :=
  path.head? = some SLASH ∧
    (path = [SLASH] ∨ ∃ front, ∃ name : FileName, path = front ++ SLASH :: name.val)

theorem IsNamed.child {path : CString} (h : IsNamed path) (name : FileName) :
    IsNamed (path ++ SLASH :: name.val) :=
  ⟨head_of_front h.1 (List.prefix_append _ _), Or.inr ⟨path, name, rfl⟩⟩

namespace FileTree

-- The last name of a path is at the place, in the directory that the rest leads to,
-- and something is there.
def Ends (files : FileTree) (path : CString) (place : List FileName) : Prop :=
  ∃ front dir left, ∃ name : FileName, path = front ++ SLASH :: name.val ∧
    files.lookup front = .ok (dir, left) ∧ files.Dir dir ∧ place = dir ++ [name] ∧
      (files place).isSome = true

def Opens (files : FileTree) (path : CString) : Prop :=
  ∃ dir left, files.lookup path = .ok (dir, left) ∧ files.Dir dir

-- What `fs_remove_tree` can come to remove, in folders nested up to a depth.
def InTree (files : FileTree) : Nat → CString → List FileName → Prop
  | 0, _, _ => False
  | fuel + 1, path, place =>
    ∃ dir left, files.lookup path = .ok (dir, left) ∧ files.Dir dir ∧
      (files.Ends path place ∨ ∃ name : FileName,
        files (dir ++ [name]) = some .dir ∧
            InTree files fuel (path ++ SLASH :: name.val) place ∨
          files (dir ++ [name]) ≠ some .dir ∧ files.Ends (path ++ SLASH :: name.val) place)

-- What the removal of a file or of a folder can come to remove.
def Removable (files : FileTree) (isDir : Bool) (path : CString) (place : List FileName) : Prop :=
  if isDir then files.InTree PATH_MAX path place else files.Ends path place

-- The removal of a file or of a folder can succeed.
def Removes (files : FileTree) (isDir : Bool) (path : CString) : Prop :=
  (∃ place, files.Ends path place) ∧ (isDir = true → files.Opens path)

end FileTree

-- The calls that a folder is removed with see the tree. A directory is opened where
-- its path leads, while `lstat` and `remove` look at the name itself. The other
-- calls change nothing.
structure Os.HasDirectories (os : Os σ) (tree : σ → FileTree) : Prop
    extends os.HasLinks tree where
  opendir : ∀ path s names, path.head? = some SLASH → os.query (.opendir path) s = some names →
    (tree s).Opens path ∧
      ∀ name ∈ names, IsFileName name ∨ name = DOT_NAME ∨ name = DOTDOT_NAME
  lstat64 : ∀ path (name : FileName) s stat, path.head? = some SLASH →
    os.query (.lstat64 (path ++ SLASH :: name.val)) s = some stat →
      ∃ dir left, (tree s).lookup path = .ok (dir, left) ∧ (tree s).Dir dir ∧
        (stat.isDir = true ↔ tree s (dir ++ [name]) = some .dir)
  dots : ∀ path name s stat, name = DOT_NAME ∨ name = DOTDOT_NAME →
    os.query (.lstat64 (path ++ SLASH :: name)) s = some stat → stat.isDir = true
  remove : ∀ storageId path s, IsNamed path →
    (os.act (.remove storageId path) s).1 = false ∧
        tree (os.act (.remove storageId path) s).2 = tree s ∨
      (os.act (.remove storageId path) s).1 = true ∧ ∃ place, (tree s).Ends path place ∧
        tree (os.act (.remove storageId path) s).2 = (tree s).erase place
  rmWatch : ∀ wd s, tree (os.act (.inotifyRmWatch wd) s).2 = tree s
  lock : ∀ s, tree (os.act .lockInotifyMutex s).2 = tree s
  unlock : ∀ s, tree (os.act .unlockInotifyMutex s).2 = tree s

-- The last name of a path.
theorem name_of_append {front front' name name' : CString} (hname : SLASH ∉ name)
    (h : front ++ SLASH :: name = front' ++ SLASH :: name') (hname' : SLASH ∉ name') :
    front = front' ∧ name = name' := by
  rcases List.append_eq_append_iff.mp h with ⟨rest, hfront, hrest⟩ | ⟨rest, hfront, hrest⟩
  · cases rest with
    | nil => exact ⟨by simp [hfront], (List.cons.inj hrest).2⟩
    | cons c rest =>
        obtain ⟨-, hmem⟩ := List.cons.inj hrest
        exact absurd (hmem ▸ List.mem_append_right _ List.mem_cons_self) hname
  · cases rest with
    | nil => exact ⟨by simp [hfront], (List.cons.inj hrest).2.symm⟩
    | cons c rest =>
        obtain ⟨-, hmem⟩ := List.cons.inj hrest
        exact absurd (hmem ▸ List.mem_append_right _ List.mem_cons_self) hname'

namespace FileTree

variable {start files : FileTree} {dir place : List FileName} {path found : CString}
  {name : FileName} {left : Nat} {inside : List FileName → Prop}

theorem lookup_thinned (h : start.Thinned files) (hdir : files.Dir dir)
    (hlookup : files.lookup path = .ok (dir, left)) : start.lookup path = .ok (dir, left) :=
  h.walk hlookup (MtpCtx.exists_of_dir hdir)

theorem Ends.parts (h : files.Ends (path ++ SLASH :: name.val) place) :
    ∃ dir left, files.lookup path = .ok (dir, left) ∧ files.Dir dir ∧ place = dir ++ [name] ∧
      (files place).isSome = true := by
  obtain ⟨front, dir, left, name', hpath, hlookup, hdir, hplace, hsome⟩ := h
  obtain ⟨rfl, hname⟩ := name_of_append name.property.2.1 hpath name'.property.2.1
  obtain rfl := Subtype.ext hname
  exact ⟨dir, left, hlookup, hdir, hplace, hsome⟩

-- What can be removed from the rest of a tree could be removed before.
theorem Ends.thinned (h : start.Thinned files) (hends : files.Ends path place) :
    start.Ends path place := by
  obtain ⟨front, dir, left, name, hpath, hlookup, hdir, hplace, hsome⟩ := hends
  refine ⟨front, dir, left, name, hpath, lookup_thinned h hdir hlookup, h.isDir hdir, hplace, ?_⟩
  obtain ⟨node, hnode⟩ := Option.isSome_iff_exists.mp hsome
  rw [h.node hnode]
  rfl

theorem Opens.thinned (h : start.Thinned files) (hopens : files.Opens path) :
    start.Opens path := by
  obtain ⟨dir, left, hlookup, hdir⟩ := hopens
  exact ⟨dir, left, lookup_thinned h hdir hlookup, h.isDir hdir⟩

theorem realpath_thinned (h : start.Thinned files) (hpath : files.realpath path = .ok found) :
    start.realpath path = .ok found := by
  obtain ⟨place, left, hlookup, hexists, rfl⟩ := lookup_of_realpath hpath
  exact realpath_of_lookup (h.walk hlookup hexists) (h.exists? hexists)

-- A name that is removed for itself was no directory before.
theorem Ends.not_dir (h : start.Thinned files) (hlookup : files.lookup path = .ok (dir, left))
    (hnode : files (dir ++ [name]) ≠ some .dir)
    (hends : files.Ends (path ++ SLASH :: name.val) place) :
    start (dir ++ [name]) ≠ some .dir := by
  obtain ⟨dir', left', hlookup', -, rfl, hsome⟩ := hends.parts
  rw [hlookup] at hlookup'
  cases hlookup'
  obtain ⟨node, hsome⟩ := Option.isSome_iff_exists.mp hsome
  rw [h.node hsome, ← hsome]
  exact hnode

theorem InTree.thinned (h : start.Thinned files) {fuel : Nat}
    (htree : files.InTree fuel path place) : start.InTree fuel path place := by
  induction fuel generalizing path with
  | zero => exact htree
  | succ fuel ih =>
      obtain ⟨dir, left, hlookup, hdir, hplace⟩ := htree
      refine ⟨dir, left, lookup_thinned h hdir hlookup, h.isDir hdir, ?_⟩
      rcases hplace with hends | ⟨name, ⟨hnode, hbelow⟩ | ⟨hnode, hends⟩⟩
      · exact Or.inl (hends.thinned h)
      · exact Or.inr ⟨name, Or.inl ⟨h.node hnode, ih hbelow⟩⟩
      · exact Or.inr ⟨name, Or.inr ⟨hends.not_dir h hlookup hnode, hends.thinned h⟩⟩

theorem Removable.isSome {isDir : Bool} (h : files.Removable isDir path place) :
    (files place).isSome = true := by
  have hends : ∀ {path : CString}, files.Ends path place → (files place).isSome = true := by
    rintro path ⟨front, dir, left, name, -, -, -, -, hsome⟩
    exact hsome
  have htree : ∀ {fuel : Nat} {path : CString}, files.InTree fuel path place →
      (files place).isSome = true := by
    intro fuel
    induction fuel with
    | zero => exact fun h => h.elim
    | succ fuel ih =>
        rintro path ⟨dir, left, -, -, h | ⟨name, ⟨-, h⟩ | ⟨-, h⟩⟩⟩
        · exact hends h
        · exact ih h
        · exact hends h
  rw [Removable] at h
  split at h
  · exact htree h
  · exact hends h

-- Nothing was made, and what was removed is inside.
structure Cleared (start : FileTree) (inside : List FileName → Prop) (files : FileTree) :
    Prop where
  thinned : start.Thinned files
  changed : ∀ place, files place ≠ start place → inside place

theorem Cleared.refl (start : FileTree) (inside : List FileName → Prop) :
    start.Cleared inside start :=
  ⟨.refl start, fun _ h => absurd rfl h⟩

theorem Cleared.trans {rest : FileTree} (h : start.Cleared inside files)
    (h' : files.Cleared inside rest) : start.Cleared inside rest := by
  refine ⟨h.thinned.trans h'.thinned, fun place hplace => ?_⟩
  by_cases hsame : rest place = files place
  · exact h.changed place (hsame ▸ hplace)
  · exact h'.changed place hsame

theorem Cleared.erase (h : start.Cleared inside files) (hinside : inside place) :
    start.Cleared inside (files.erase place) := by
  refine ⟨h.thinned.trans (Tree.thinned_erase _ _), fun other hother => ?_⟩
  rw [Tree.erase] at hother
  by_cases hhere : other = place
  · rw [hhere]
    exact hinside
  · rw [if_neg hhere] at hother
    exact h.changed other hother

end FileTree

-- fs_remove_tree

section Removal

variable {start : FileTree} {inside : List FileName → Prop} {ctx : MtpCtx} {storageId fuel : Nat}
  {path : CString}

-- So far only what is inside was removed.
def Clears (tree : σ → FileTree) (start : FileTree) (inside : List FileName → Prop) (ctx : MtpCtx)
    (w : World σ) : Prop :=
  w.ctx = ctx ∧ start.Cleared inside (tree w.os)

theorem always_act {a : Action} (hkept : ∀ s, tree (os.act a s).2 = tree s) :
    Always os (Clears tree start inside ctx) (M.act a) fun _ => Clears tree start inside ctx :=
  ensures_perform fun w hw _ => ⟨hw.1, by
    change start.Cleared inside (tree (os.act a w.os).2)
    rw [hkept]
    exact hw.2⟩

-- A removal that succeeds is one of the last name of the path.
theorem Clears.remove (hdirs : os.HasDirectories tree) (hw : Clears tree start inside ctx w)
    (hnamed : IsNamed path) (hinside : ∀ place, (tree w.os).Ends path place → inside place) :
    Clears tree start inside ctx ⟨w.ctx, (os.act (.remove storageId path) w.os).2⟩ ∧
      ((os.act (.remove storageId path) w.os).1 = true → ∃ place, start.Ends path place) := by
  rcases hdirs.remove storageId path w.os hnamed with ⟨hno, hsame⟩ | ⟨-, place, hends, herase⟩
  · refine ⟨⟨hw.1, ?_⟩, fun hyes => ?_⟩
    · rw [hsame]
      exact hw.2
    · rw [hno] at hyes
      cases hyes
  · refine ⟨⟨hw.1, ?_⟩, fun _ => ⟨place, hends.thinned hw.2.thinned⟩⟩
    rw [herase]
    exact hw.2.erase (hinside place hends)

theorem always_remove (hdirs : os.HasDirectories tree) (hnamed : IsNamed path)
    (hinside : ∀ place, start.Ends path place → inside place) :
    Always os (Clears tree start inside ctx) (M.act (.remove storageId path))
      fun removed w => Clears tree start inside ctx w ∧
        (removed = true → ∃ place, start.Ends path place) :=
  ensures_perform fun _ hw _ =>
    hw.remove hdirs hnamed fun place hends => hinside place (hends.thinned hw.2.thinned)

theorem always_query_bind {P : World σ → Prop} {Q : α → World σ → Prop} {q : Query}
    {f : q.Ans → M α} (hf : ∀ answer, Always os (fun w => P w ∧ answer = os.query q w.os)
      (f answer) Q) : Always os P (M.query q >>= f) Q :=
  fun w hw hs => hf _ w ⟨hw, rfl⟩ ((safe_bind _ _ w).mp hs).2

theorem always_removeNames (hdirs : os.HasDirectories tree) (hnamed : IsNamed path)
    (hinside : ∀ place, start.InTree (fuel + 1) path place → inside place)
    {removeTree : CString → M Bool}
    (htree : ∀ name : FileName,
      (∀ place, start.InTree fuel (path ++ SLASH :: name.val) place → inside place) →
      Always os (Clears tree start inside ctx) (removeTree (path ++ SLASH :: name.val))
        fun _ => Clears tree start inside ctx)
    {names : List CString}
    (hnames : ∀ name ∈ names, IsFileName name ∨ name = DOT_NAME ∨ name = DOTDOT_NAME) :
    Always os (Clears tree start inside ctx) (removeNames removeTree storageId path names)
      fun _ => Clears tree start inside ctx := by
  induction names with
  | nil => exact ensures_ret fun _ hw => hw
  | cons name names ih =>
      have hrest : ∀ fail : Bool, Always os (Clears tree start inside ctx) (do
          let fail' ← removeNames removeTree storageId path names
          return fail || fail') fun _ => Clears tree start inside ctx := fun fail =>
        ensures_bind (ih fun n hn => hnames n (List.mem_cons_of_mem _ hn)) fun _ =>
          ensures_ret fun _ hw => hw
      unfold removeNames
      refine ensures_bind (always_act hdirs.malloc) fun memory => ?_
      dsimp only
      split
      · refine always_query_bind fun answer => ?_
        cases answer with
        | none => exact ensures_weaken (hrest false) (fun _ hw => hw.1) fun _ _ hw => hw
        | some stat =>
            dsimp only
            by_cases hname : IsFileName name
            · -- the name is at one place, that of a directory or not
              obtain ⟨name, rfl⟩ : ∃ n : FileName, n.val = name := ⟨⟨name, hname⟩, rfl⟩
              intro w hw
              have hthin := hw.1.2.thinned
              obtain ⟨dir, left, hlookup, hdir, hiff⟩ :=
                hdirs.lstat64 path name w.os stat hnamed.1 hw.2.symm
              have hplace := FileTree.lookup_thinned hthin hdir hlookup
              by_cases hisDir : stat.isDir = true
              · rw [if_pos hisDir, if_pos ⟨name.property.2.2.2, name.property.2.2.1⟩]
                refine ensures_bind (htree name fun place hbelow => ?_) hrest w hw.1
                exact hinside place ⟨dir, left, hplace, hthin.isDir hdir,
                  Or.inr ⟨name, Or.inl ⟨hthin.node (hiff.mp hisDir), hbelow⟩⟩⟩
              · rw [if_neg hisDir]
                have hremove : Always os (· = w)
                    (M.act (.remove storageId (path ++ SLASH :: name.val)))
                    fun _ => Clears tree start inside ctx := by
                  refine ensures_perform fun w' hw' _ => ?_
                  subst hw'
                  refine (hw.1.remove hdirs (hnamed.child name) fun place hends => ?_).1
                  exact hinside place ⟨dir, left, hplace, hthin.isDir hdir, Or.inr ⟨name,
                    Or.inr ⟨hends.not_dir hthin hlookup (mt hiff.mpr hisDir), hends.thinned hthin⟩⟩⟩
                exact ensures_bind hremove (fun removed => hrest !removed) w rfl
            · have hdots := (hnames name List.mem_cons_self).resolve_left hname
              intro w hw
              rw [if_pos (hdirs.dots path name w.os stat hdots hw.2.symm),
                if_neg (not_and_or.mpr (hdots.symm.imp not_not.mpr not_not.mpr))]
              exact hrest false w hw.1
      · exact hrest true

-- What is removed is inside when all that can be removed is. Where nothing failed, the
-- folder itself was removed.
theorem always_fsRemoveTree (hdirs : os.HasDirectories tree) (fuel : Nat) (hnamed : IsNamed path)
    (hinside : ∀ place, start.InTree fuel path place → inside place) :
    Always os (Clears tree start inside ctx) (fsRemoveTree storageId fuel path)
      fun failed w => Clears tree start inside ctx w ∧
        (failed = false → start.Removes true path) := by
  induction fuel generalizing path with
  | zero => exact ensures_ret fun _ hw => ⟨hw, fun h => absurd h (by decide)⟩
  | succ fuel ih =>
      unfold fsRemoveTree
      refine always_query_bind fun answer => ?_
      cases answer with
      | none => exact ensures_ret fun _ hw => ⟨hw.1, fun h => absurd h (by decide)⟩
      | some names =>
          intro w hw
          obtain ⟨hopens, hnames⟩ := hdirs.opendir _ w.os names hnamed.1 hw.2.symm
          have hopens := hopens.thinned hw.1.2.thinned
          have hend : ∀ place, start.Ends path place → inside place := by
            obtain ⟨dir, left, hlookup, hdir⟩ := hopens
            exact fun place hends => hinside place ⟨dir, left, hlookup, hdir, Or.inl hends⟩
          have hsub : ∀ name : FileName,
              (∀ place, start.InTree fuel (path ++ SLASH :: name.val) place → inside place) →
              Always os (Clears tree start inside ctx)
                (fsRemoveTree storageId fuel (path ++ SLASH :: name.val))
                fun _ => Clears tree start inside ctx := fun name hbelow =>
            ensures_weaken (ih (hnamed.child name) hbelow) (fun _ hw => hw) fun _ _ hw => hw.1
          have hrun : Always os (Clears tree start inside ctx) (do
              let fail ← removeNames (fsRemoveTree storageId fuel) storageId path names
              let removed ← M.act (.remove storageId path)
              return fail || !removed) fun failed w => Clears tree start inside ctx w ∧
                (failed = false → start.Removes true path) := by
            refine ensures_bind (always_removeNames hdirs hnamed hinside hsub hnames) fun fail => ?_
            refine ensures_bind (always_remove hdirs hnamed hend) fun removed => ?_
            refine ensures_ret fun w hw => ⟨hw.1, fun hdone => ⟨hw.2 ?_, fun _ => hopens⟩⟩
            rw [Bool.or_eq_false_iff, Bool.not_eq_false'] at hdone
            exact hdone.2
          exact hrun w hw.1

end Removal

end Umtp
