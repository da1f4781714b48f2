import Umtp.Lib.Links
import Umtp.Confinement

namespace Umtp

open Lib Handles Text

-- A name that an entry of a directory can have.
def IsFileName (name : CString) : Prop :=
  name ≠ [] ∧ SLASH ∉ name ∧ name ≠ DOT_NAME ∧ name ≠ DOTDOT_NAME

instance (name : CString) : Decidable (IsFileName name) :=
  inferInstanceAs (Decidable (_ ∧ _ ∧ _ ∧ _))

abbrev FileName := {name : CString // IsFileName name}

-- A file system with symbolic links.
abbrev FileTree := Lib.Tree FileName

-- Repeated slashes and "." lead nowhere.
def partOf (component : CString) : Lib.Part FileName :=
  if h : IsFileName component then .into ⟨component, h⟩
  else if component = DOTDOT_NAME then .up
  else .stay

def partsOf (path : CString) : List (Lib.Part FileName) := (path.splitOnP (· == SLASH)).map partOf

def render (place : List FileName) : CString :=
  if place = [] then [SLASH] else place.flatMap fun name => SLASH :: name.val

-- The links that a lookup follows at most, in the kernel and in `realpath`.
def MAXSYMLINKS : Nat := 40

namespace FileTree

variable (tree : FileTree)

-- Where an absolute path leads.
def lookup (path : CString) : Except WalkError (List FileName × Nat) :=
  tree.walk MAXSYMLINKS [] (partsOf path)

def realpath (path : CString) : Except Errno CString :=
  match tree.lookup path with
  | .ok (place, _) => if tree.exists? place then .ok (render place) else .error .ENOENT
  | .error .missing => .error .ENOENT
  | .error .notDir => .error .ENOTDIR
  | .error .loop => .error .ELOOP

end FileTree

variable {σ : Type}

-- The files of the system are a tree with links. `realpath` and open follow them,
-- and open makes or empties the file they lead to. The other calls that a file is
-- made with change nothing.
structure Os.HasLinks (os : Os σ) (tree : σ → FileTree) : Prop where
  realpath : ∀ path s, path.head? = some SLASH →
    os.query (.realpath path) s = (tree s).realpath path
  opened : ∀ storageId path s, path.head? = some SLASH →
    (os.act (.open storageId path .createTruncate) s).1 ≠ -1 →
      ∃ place left, (tree s).lookup path = .ok (place, left) ∧ (tree s).Leaf place ∧
        tree (os.act (.open storageId path .createTruncate) s).2 = (tree s).create place
  malloc : ∀ s, tree (os.act .malloc s).2 = tree s
  entryMemory : ∀ s, tree (os.act .entryMemory s).2 = tree s
  close : ∀ file s, tree (os.act (.close file) s).2 = tree s
  setfsuid : ∀ uid s, tree (os.act (.setfsuid uid) s).2 = tree s
  setfsgid : ∀ gid s, tree (os.act (.setfsgid gid) s).2 = tree s

theorem partsOf_append (path rest : CString) :
    partsOf (path ++ SLASH :: rest) = partsOf path ++ partsOf rest := by
  simp [partsOf, List.splitOnP_append_cons]

theorem partsOf_name (name : FileName) : partsOf name.val = [.into name] := by
  have hone : name.val.splitOnP (· == SLASH) = [name.val] := by
    refine List.splitOnP_eq_singleton fun c hc => ?_
    simp only [beq_eq_false_iff_ne]
    rintro rfl
    exact name.property.2.1 hc
  rw [partsOf, hone, List.map_singleton, partOf, dif_pos name.property]

theorem partsOf_flatMap (place : List FileName) :
    partsOf (place.flatMap fun name => SLASH :: name.val) = .stay :: place.map .into := by
  induction place using List.reverseRecOn with
  | nil => rfl
  | append_singleton place name ih =>
      rw [List.flatMap_append, List.flatMap_singleton, partsOf_append, ih, partsOf_name]
      simp

theorem components_render (place : List FileName) :
    components SLASH (render place) = place.map Subtype.val := by
  rw [render]
  split
  · rename_i hnil
    rw [hnil, components_sep, List.map_nil]
  · have hall : ∀ name ∈ place.map Subtype.val, name ≠ [] ∧ SLASH ∉ name := by
      intro name hname
      obtain ⟨name, -, rfl⟩ := List.mem_map.mp hname
      exact ⟨name.property.1, name.property.2.1⟩
    rw [← components_flatMap hall, List.flatMap_map]

theorem canonical_render (place : List FileName) : Canonical SLASH (render place) := by
  rw [render]
  split
  · exact Or.inl rfl
  · rename_i hne
    refine Or.inr ⟨place.map Subtype.val, mt List.map_eq_nil_iff.mp hne, ?_,
      by rw [List.flatMap_map]⟩
    intro name hname
    obtain ⟨name, -, rfl⟩ := List.mem_map.mp hname
    exact ⟨name.property.1, name.property.2.1⟩

theorem render_inj {place place' : List FileName} (h : render place = render place') :
    place = place' := by
  have hnames := congrArg (components SLASH) h
  rw [components_render, components_render] at hnames
  exact List.map_injective_iff.mpr Subtype.val_injective hnames

-- A name in a directory is at one place.
theorem eq_of_render_name {dir place : List FileName} {name : FileName}
    (h : render dir ++ SLASH :: name.val = render place) : place = dir ++ [name] := by
  have hnames := congrArg (components SLASH) h
  have hname := components_name name.property.1 name.property.2.1 [] (by simp)
  rw [List.append_nil] at hname
  rw [components_append_sep, components_render, components_render, hname] at hnames
  have hmap : (dir ++ [name]).map Subtype.val = place.map Subtype.val := by
    rw [List.map_append, ← hnames]
    rfl
  exact (List.map_injective_iff.mpr Subtype.val_injective hmap).symm

namespace FileTree

variable {tree : FileTree} {path found : CString} {dir place : List FileName} {left : Nat}

theorem realpath_of_lookup (h : tree.lookup path = .ok (place, left))
    (hexists : tree.exists? place = true) : tree.realpath path = .ok (render place) := by
  rw [realpath, h]
  exact if_pos hexists

theorem lookup_of_realpath (h : tree.realpath path = .ok found) :
    ∃ place left, tree.lookup path = .ok (place, left) ∧ tree.exists? place = true ∧
      found = render place := by
  rw [realpath] at h
  cases hlookup : tree.lookup path with
  | ok result =>
      obtain ⟨place, left⟩ := result
      rw [hlookup] at h
      dsimp only at h
      split at h
      · rename_i hexists
        exact ⟨place, left, rfl, hexists, (Except.ok.inj h).symm⟩
      · cases h
  | error error =>
      rw [hlookup] at h
      cases error with
      | missing => cases h
      | notDir => cases h
      | loop => cases h

-- A name in a directory that is known is found from there.
theorem lookup_name (hdir : tree.Dir dir) (name : FileName) :
    tree.lookup (render dir ++ SLASH :: name.val) = tree.walk MAXSYMLINKS dir [.into name] := by
  rw [lookup, partsOf_append, partsOf_name, render]
  split
  · rename_i hnil
    subst hnil
    rw [show partsOf [SLASH] = [.stay, .stay] from rfl]
    exact (Tree.walk_stay_cons _ _ _).trans (Tree.walk_stay_cons _ _ _)
  · rw [partsOf_flatMap, List.cons_append, Tree.walk_stay_cons, Tree.walk_names hdir]

end FileTree

end Umtp
