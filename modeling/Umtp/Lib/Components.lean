import Mathlib.Data.List.Infix
import Mathlib.Data.List.TakeWhile

namespace Umtp.Lib

variable {α : Type} [DecidableEq α] (sep : α)

-- The components of a path. Repeated and final separators add none.
def components (path : List α) : List (List α) :=
  (path.splitOnP (· == sep)).filter (· ≠ [])

-- The path is the root or lies in the tree under it.
def InSubtree (root path : List α) : Prop :=
  components sep root <+: components sep path

instance (root path : List α) : Decidable (InSubtree sep root path) :=
  inferInstanceAs (Decidable (_ <+: _))

-- An absolute path without empty components or a final separator.
def Canonical (path : List α) : Prop :=
  path = [sep] ∨ ∃ names : List (List α), names ≠ [] ∧ (∀ name ∈ names, name ≠ [] ∧ sep ∉ name) ∧
    path = names.flatMap (sep :: ·)

-- The path goes on with the characters of the root, but not with its last
-- component.
def Overruns (root path : List α) : Prop :=
  root ≠ [sep] ∧ root <+: path ∧ ∃ c ∈ (path.drop root.length).head?, c ≠ sep

instance (root path : List α) : Decidable (Overruns sep root path) :=
  inferInstanceAs (Decidable (_ ∧ _ ∧ _))

variable {sep}

@[simp] theorem components_append_sep (path rest : List α) :
    components sep (path ++ sep :: rest) = components sep path ++ components sep rest := by
  simp [components, List.splitOnP_append_cons]

theorem components_sep_cons (rest : List α) :
    components sep (sep :: rest) = components sep rest :=
  components_append_sep [] rest

theorem components_sep : components sep [sep] = [] := by
  rw [components_sep_cons]
  simp [components]

-- A path that does not start with a separator starts with a component.
theorem components_name {name : List α} (hne : name ≠ []) (hsep : sep ∉ name) (rest : List α)
    (hrest : ∀ c ∈ rest.head?, c = sep) :
    components sep (name ++ rest) = name :: components sep rest := by
  have hone : name.splitOnP (· == sep) = [name] := by
    refine List.splitOnP_eq_singleton fun c hc => ?_
    simp only [beq_eq_false_iff_ne]
    rintro rfl
    exact hsep hc
  have hname : components sep name = [name] := by simp [components, hone, hne]
  cases rest with
  | nil => simpa [components] using hname
  | cons c rest =>
      obtain rfl : c = sep := hrest c rfl
      rw [components_append_sep, hname, components_sep_cons]
      rfl

theorem components_flatMap {names : List (List α)} (hall : ∀ name ∈ names, name ≠ [] ∧ sep ∉ name) :
    components sep (names.flatMap (sep :: ·)) = names := by
  induction names with
  | nil => simp [components]
  | cons name names ih =>
      have hrest : ∀ c ∈ (names.flatMap (sep :: ·)).head?, c = sep := by
        cases names with
        | nil => simp
        | cons next names => simp
      have hname := hall name List.mem_cons_self
      rw [List.flatMap_cons, List.cons_append, components_sep_cons,
        components_name hname.1 hname.2 _ hrest,
        ih fun other h => hall other (List.mem_cons_of_mem _ h)]

omit [DecidableEq α] in
-- What follows the last component of a canonical root.
theorem Canonical.last_component {root : List α} (hroot : Canonical sep root)
    (hne : root ≠ [sep]) :
    ∃ before last, root = before ++ sep :: last ∧ last ≠ [] ∧ sep ∉ last := by
  rcases hroot with heq | ⟨names, hnames, hall, rfl⟩
  · exact absurd heq hne
  · have hlast := hall _ (List.getLast_mem hnames)
    refine ⟨names.dropLast.flatMap (sep :: ·), names.getLast hnames, ?_, hlast⟩
    conv_lhs => rw [← List.dropLast_append_getLast hnames]
    simp

-- Canonical paths are compared by their characters.
theorem Canonical.prefix_of_inSubtree {root path : List α} (hroot : Canonical sep root)
    (hpath : Canonical sep path) (hin : InSubtree sep root path) : root <+: path := by
  rcases hpath with rfl | ⟨names, hnames, hall, rfl⟩
  · rcases hroot with rfl | ⟨roots, hroots, hall, rfl⟩
    · exact List.prefix_refl _
    · rw [InSubtree, components_sep, components_flatMap hall] at hin
      exact absurd (List.prefix_nil.mp hin) hroots
  · rcases hroot with rfl | ⟨roots, -, hall', rfl⟩
    · obtain ⟨name, rest, rfl⟩ := List.exists_cons_of_ne_nil hnames
      rw [List.flatMap_cons, List.cons_append]
      exact ⟨_, rfl⟩
    · rw [InSubtree, components_flatMap hall, components_flatMap hall'] at hin
      obtain ⟨rest, rfl⟩ := hin
      rw [List.flatMap_append]
      exact List.prefix_append _ _

-- Among the paths that start with the characters of the root, those of its
-- subtree are the ones that do not overrun it.
theorem Canonical.inSubtree_iff {root path : List α} (hroot : Canonical sep root)
    (hunder : root <+: path) : InSubtree sep root path ↔ ¬ Overruns sep root path := by
  obtain ⟨rest, rfl⟩ := hunder
  by_cases htop : root = [sep]
  · subst htop
    simp [InSubtree, Overruns, components_sep]
  obtain ⟨before, last, rfl, hne, hsep⟩ := hroot.last_component htop
  have hlast : components sep last = [last] := by
    simpa [components] using components_name hne hsep [] (by simp)
  have hsplit : before ++ sep :: last ++ rest = before ++ sep :: (last ++ rest) := by simp
  rw [InSubtree, hsplit, components_append_sep, components_append_sep, hlast,
    List.prefix_append_right_inj]
  have hdrop : (before ++ sep :: (last ++ rest)).drop (before ++ sep :: last).length = rest := by
    rw [← hsplit, List.drop_left]
  have hover : Overruns sep (before ++ sep :: last) (before ++ sep :: (last ++ rest)) ↔
      ∃ c ∈ rest.head?, c ≠ sep := by
    rw [Overruns, hdrop, ← hsplit]
    simp only [List.prefix_append, true_and, and_iff_right_iff_imp]
    exact fun _ => htop
  rw [hover]
  constructor
  · rintro hin ⟨c, hc, hcsep⟩
    -- the component goes on, so that it is another one
    have hext : components sep (last ++ rest) =
        (last ++ rest.takeWhile (· ≠ sep)) :: components sep (rest.dropWhile (· ≠ sep)) := by
      have hsep' : sep ∉ last ++ rest.takeWhile (· ≠ sep) := by
        rw [List.mem_append, not_or]
        refine ⟨hsep, fun hmem => ?_⟩
        simpa using List.mem_takeWhile_imp hmem
      have hhead : ∀ d ∈ (rest.dropWhile (· ≠ sep)).head?, d = sep := by
        intro d hd
        have hd' := List.head?_dropWhile_not (· ≠ sep) rest
        rw [Option.mem_def.mp hd] at hd'
        simpa using hd'
      rw [← components_name (by simp [hne]) hsep' _ hhead, List.append_assoc,
        List.takeWhile_append_dropWhile]
    rw [hext] at hin
    have heq := (List.cons_prefix_cons.mp hin).1
    have hnil : rest.takeWhile (· ≠ sep) = [] := by simpa using heq
    cases rest with
    | nil => simp at hc
    | cons d rest =>
        obtain rfl : d = c := by simpa using hc
        simp [hcsep] at hnil
  · intro hno
    rw [components_name hne hsep rest fun c hc => by_contra fun h => hno ⟨c, hc, h⟩]
    exact ⟨_, rfl⟩

end Umtp.Lib
