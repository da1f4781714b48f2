import Mathlib.Data.List.Infix
import Mathlib.Data.List.TakeWhile

namespace Umtp.Lib

variable {α : Type}

-- A component of a path: the folder itself, the one above it, or a name in it.
inductive Part (α : Type) where
  | stay
  | up
  | into (name : α)
deriving DecidableEq, Repr

inductive Node (α : Type) where
  | file
  | dir
  | link (absolute : Bool) (target : List (Part α))
deriving DecidableEq, Repr

-- What stands at each place. The top is a directory and has no name.
abbrev Tree (α : Type) := List α → Option (Node α)

inductive WalkError where
  | missing
  | notDir
  | loop
deriving DecidableEq, Repr

-- A walk up to the first link: it ends at a place where something is or could be
-- made, fails, or goes on elsewhere.
inductive Leg (α : Type) where
  | done (place : List α)
  | stop (error : WalkError)
  | turn (dir : List α) (path : List (Part α))
deriving DecidableEq, Repr

namespace Tree

variable (tree : Tree α)

def leg (dir : List α) : List (Part α) → Leg α
  | [] => .done dir
  | .stay :: rest => leg dir rest
  | .up :: rest => leg dir.dropLast rest
  | .into name :: rest =>
    match tree (dir ++ [name]) with
    | some .dir => leg (dir ++ [name]) rest
    | some (.link absolute target) => .turn (if absolute then [] else dir) (target ++ rest)
    | some .file => if rest = [] then .done (dir ++ [name]) else .stop .notDir
    | none => if rest = [] then .done (dir ++ [name]) else .stop .missing

-- A walk follows at most `links` links. It gives the number of those that are
-- left.
def walk : Nat → List α → List (Part α) → Except WalkError (List α × Nat)
  | 0, dir, path =>
    match tree.leg dir path with
    | .done place => .ok (place, 0)
    | .stop error => .error error
    | .turn _ _ => .error .loop
  | links + 1, dir, path =>
    match tree.leg dir path with
    | .done place => .ok (place, links + 1)
    | .stop error => .error error
    | .turn dir' path' => walk links dir' path'

def exists? (place : List α) : Bool := place.isEmpty || (tree place).isSome

-- A directory, in directories up to the top.
def Dir (dir : List α) : Prop := ∀ front, front <+: dir → front ≠ [] → tree front = some .dir

-- Where something other than a directory is, or could be made.
def Leaf (place : List α) : Prop :=
  ∃ dir name, place = dir ++ [name] ∧ tree.Dir dir ∧ (tree place = none ∨ tree place = some .file)

-- The tree with a file at the place.
def create [DecidableEq α] (place : List α) : Tree α :=
  fun other => if other = place then some .file else tree other

variable {tree} {dir dir' place : List α} {path path' : List (Part α)} {links left : Nat}

theorem Dir.top : tree.Dir [] := fun _ hfront hne =>
  absurd (List.prefix_nil.mp hfront) hne

theorem Dir.dropLast (h : tree.Dir dir) : tree.Dir dir.dropLast := fun front hfront hne =>
  h front (hfront.trans (List.dropLast_prefix dir)) hne

theorem Dir.snoc {name : α} (h : tree.Dir dir) (hnode : tree (dir ++ [name]) = some .dir) :
    tree.Dir (dir ++ [name]) := by
  intro front hfront hne
  rcases List.prefix_concat_iff.mp hfront with rfl | hfront
  · exact hnode
  · exact h front hfront hne

theorem Dir.of_append {rest : List α} (h : tree.Dir (dir ++ rest)) : tree.Dir dir :=
  fun front hfront hne => h front (hfront.trans (List.prefix_append _ _)) hne

theorem Leaf.not_dir (h : tree.Leaf place) : ¬tree.Dir place := by
  obtain ⟨dir, name, rfl, -, hnode⟩ := h
  intro hdir
  have hplace := hdir _ (List.prefix_refl _) (by simp)
  rcases hnode with hnode | hnode
  · rw [hnode] at hplace
    cases hplace
  · rw [hnode] at hplace
    cases hplace

theorem Leaf.node (h : tree.Leaf place) : tree place = none ∨ tree place = some .file := by
  obtain ⟨dir, name, rfl, -, hnode⟩ := h
  exact hnode

theorem leg_done (hdir : tree.Dir dir) (h : tree.leg dir path = .done place) :
    tree.Dir place ∨ tree.Leaf place := by
  induction path generalizing dir with
  | nil =>
      cases h
      exact Or.inl hdir
  | cons part rest ih =>
      cases part with
      | stay => exact ih hdir h
      | up => exact ih hdir.dropLast h
      | into name =>
          rw [leg] at h
          cases hnode : tree (dir ++ [name]) with
          | none =>
              rw [hnode] at h
              dsimp only at h
              split at h
              · cases h
                exact Or.inr ⟨dir, name, rfl, hdir, Or.inl hnode⟩
              · cases h
          | some node =>
              rw [hnode] at h
              cases node with
              | dir => exact ih (hdir.snoc hnode) h
              | link absolute target => cases h
              | file =>
                  dsimp only at h
                  split at h
                  · cases h
                    exact Or.inr ⟨dir, name, rfl, hdir, Or.inr hnode⟩
                  · cases h

theorem leg_turn (hdir : tree.Dir dir) (h : tree.leg dir path = .turn dir' path') :
    tree.Dir dir' := by
  induction path generalizing dir with
  | nil => cases h
  | cons part rest ih =>
      cases part with
      | stay => exact ih hdir h
      | up => exact ih hdir.dropLast h
      | into name =>
          rw [leg] at h
          cases hnode : tree (dir ++ [name]) with
          | none =>
              rw [hnode] at h
              dsimp only at h
              split at h
              · cases h
              · cases h
          | some node =>
              rw [hnode] at h
              cases node with
              | dir => exact ih (hdir.snoc hnode) h
              | link absolute target =>
                  cases h
                  split
                  · exact Dir.top
                  · exact hdir
              | file =>
                  dsimp only at h
                  split at h
                  · cases h
                  · cases h

-- How a walk goes on: from a directory only.
def GoesOn (tree : Tree α) (more : List (Part α)) (whole : Leg α) : Leg α → Prop
  | .done place => tree.Dir place ∧ whole = tree.leg place more ∨
    ¬tree.Dir place ∧ ∃ error, whole = .stop error
  | .stop _ => ∃ error, whole = .stop error
  | .turn dir path => whole = .turn dir (path ++ more)

theorem leg_append {more : List (Part α)} (hmore : more ≠ []) (hdir : tree.Dir dir)
    (path : List (Part α)) :
    GoesOn tree more (tree.leg dir (path ++ more)) (tree.leg dir path) := by
  induction path generalizing dir with
  | nil => exact Or.inl ⟨hdir, rfl⟩
  | cons part rest ih =>
      cases part with
      | stay => exact ih hdir
      | up => exact ih hdir.dropLast
      | into name =>
          have hrest : rest ++ more ≠ [] := fun h => hmore (List.append_eq_nil_iff.mp h).2
          rw [List.cons_append, leg, leg]
          cases hnode : tree (dir ++ [name]) with
          | none =>
              dsimp only
              rw [if_neg hrest]
              split
              · exact Or.inr ⟨Leaf.not_dir ⟨dir, name, rfl, hdir, Or.inl hnode⟩, _, rfl⟩
              · exact ⟨_, rfl⟩
          | some node =>
              cases node with
              | dir => exact ih (hdir.snoc hnode)
              | link absolute target =>
                  dsimp only
                  rw [← List.append_assoc]
                  rfl
              | file =>
                  dsimp only
                  rw [if_neg hrest]
                  split
                  · exact Or.inr ⟨Leaf.not_dir ⟨dir, name, rfl, hdir, Or.inr hnode⟩, _, rfl⟩
                  · exact ⟨_, rfl⟩

theorem walk_eq (links : Nat) (dir : List α) (path : List (Part α)) :
    tree.walk links dir path = match tree.leg dir path with
      | .done place => .ok (place, links)
      | .stop error => .error error
      | .turn dir' path' => match links with
        | 0 => .error .loop
        | links + 1 => tree.walk links dir' path' := by
  cases links with
  | zero => rfl
  | succ links => rfl

-- A walk ends at a directory, or where there is or could be something else.
theorem walk_ok (hdir : tree.Dir dir) (h : tree.walk links dir path = .ok (place, left)) :
    tree.Dir place ∨ tree.Leaf place := by
  induction links using Nat.strong_induction_on generalizing dir path with
  | _ links ih =>
      rw [walk_eq] at h
      cases hleg : tree.leg dir path with
      | done place' =>
          rw [hleg] at h
          cases h
          exact leg_done hdir hleg
      | stop error =>
          rw [hleg] at h
          cases h
      | turn dir' path' =>
          rw [hleg] at h
          cases links with
          | zero => cases h
          | succ links => exact ih links (Nat.lt_succ_self _) (leg_turn hdir hleg) h

-- A walk that goes on passes a directory.
theorem walk_append {more : List (Part α)} (hmore : more ≠ []) (hdir : tree.Dir dir)
    {found : List α × Nat} (h : tree.walk links dir (path ++ more) = .ok found) :
    ∃ place left, tree.walk links dir path = .ok (place, left) ∧ tree.Dir place ∧
      tree.walk left place more = .ok found := by
  induction links using Nat.strong_induction_on generalizing dir path with
  | _ links ih =>
      have hgoes := leg_append hmore hdir path
      rw [walk_eq] at h ⊢
      cases hleg : tree.leg dir path with
      | done place =>
          rw [hleg] at hgoes
          rcases hgoes with ⟨hplace, hwhole⟩ | ⟨-, error, hwhole⟩
          · rw [hwhole] at h
            exact ⟨place, links, rfl, hplace, by rw [walk_eq]; exact h⟩
          · rw [hwhole] at h
            cases h
      | stop error =>
          rw [hleg] at hgoes
          obtain ⟨error, hwhole⟩ := hgoes
          rw [hwhole] at h
          cases h
      | turn dir' path' =>
          rw [hleg] at hgoes
          have hwhole : tree.leg dir (path ++ more) = .turn dir' (path' ++ more) := hgoes
          rw [hwhole] at h
          cases links with
          | zero => cases h
          | succ links => exact ih links (Nat.lt_succ_self _) (leg_turn hdir hleg) h

-- It goes on from there with the links that are left.
theorem walk_from {more : List (Part α)} (hmore : more ≠ []) (hdir : tree.Dir dir)
    (h : tree.walk links dir path = .ok (place, left)) (hplace : tree.Dir place) :
    tree.walk links dir (path ++ more) = tree.walk left place more := by
  induction links using Nat.strong_induction_on generalizing dir path with
  | _ links ih =>
      have hgoes := leg_append hmore hdir path
      rw [walk_eq] at h
      rw [walk_eq]
      cases hleg : tree.leg dir path with
      | done place' =>
          rw [hleg] at h hgoes
          cases h
          rcases hgoes with ⟨-, hwhole⟩ | ⟨hno, -⟩
          · rw [hwhole, walk_eq]
          · exact absurd hplace hno
      | stop error =>
          rw [hleg] at h
          cases h
      | turn dir' path' =>
          rw [hleg] at h hgoes
          have hwhole : tree.leg dir (path ++ more) = .turn dir' (path' ++ more) := hgoes
          rw [hwhole]
          cases links with
          | zero => cases h
          | succ links => exact ih links (Nat.lt_succ_self _) (leg_turn hdir hleg) h

-- More links than a walk needs change nothing.
theorem walk_mono (h : tree.walk links dir path = .ok (place, left)) (extra : Nat) :
    tree.walk (links + extra) dir path = .ok (place, left + extra) := by
  induction links using Nat.strong_induction_on generalizing dir path with
  | _ links ih =>
      rw [walk_eq] at h ⊢
      cases hleg : tree.leg dir path with
      | done place' =>
          rw [hleg] at h
          cases h
          rfl
      | stop error =>
          rw [hleg] at h
          cases h
      | turn dir' path' =>
          rw [hleg] at h
          cases links with
          | zero => cases h
          | succ links =>
              rw [Nat.succ_add]
              exact ih links (Nat.lt_succ_self _) h

theorem walk_le (h : tree.walk links dir path = .ok (place, left)) : left ≤ links := by
  induction links using Nat.strong_induction_on generalizing dir path with
  | _ links ih =>
      rw [walk_eq] at h
      cases hleg : tree.leg dir path with
      | done place' =>
          rw [hleg] at h
          cases h
          exact le_refl _
      | stop error =>
          rw [hleg] at h
          cases h
      | turn dir' path' =>
          rw [hleg] at h
          cases links with
          | zero => cases h
          | succ links => exact (ih links (Nat.lt_succ_self _) h).trans (Nat.le_succ _)

theorem walk_stay_cons (links : Nat) (dir : List α) (path : List (Part α)) :
    tree.walk links dir (.stay :: path) = tree.walk links dir path := by
  rw [walk_eq, walk_eq]
  rfl

-- A walk through directories by their own names follows no link.
theorem leg_names {names : List α} (hdir : tree.Dir (dir ++ names)) (more : List (Part α)) :
    tree.leg dir (names.map .into ++ more) = tree.leg (dir ++ names) more := by
  induction names generalizing dir with
  | nil => rw [List.append_nil]; rfl
  | cons name names ih =>
      have hassoc : dir ++ name :: names = dir ++ [name] ++ names := by simp
      rw [hassoc] at hdir ⊢
      have hnode : tree (dir ++ [name]) = some .dir :=
        hdir.of_append _ (List.prefix_refl _) (by simp)
      rw [List.map_cons, List.cons_append, leg, hnode]
      exact ih hdir

theorem walk_names (hdir : tree.Dir dir) (links : Nat) (more : List (Part α)) :
    tree.walk links [] (dir.map .into ++ more) = tree.walk links dir more := by
  rw [walk_eq, walk_eq, @leg_names _ _ ([]) _ hdir, List.nil_append]

variable [DecidableEq α]

-- With a file made where there was nothing, a walk goes as before. If it failed,
-- it still fails.
theorem leg_create (h : tree place = none ∨ tree place = some .file) (dir : List α)
    (path : List (Part α)) :
    (tree.create place).leg dir path = tree.leg dir path ∨
      ∃ error error', (tree.create place).leg dir path = .stop error ∧
        tree.leg dir path = .stop error' := by
  induction path generalizing dir with
  | nil => exact Or.inl rfl
  | cons part rest ih =>
      cases part with
      | stay => exact ih dir
      | up => exact ih dir.dropLast
      | into name =>
          rw [leg, leg, create]
          by_cases heq : dir ++ [name] = place
          · rw [if_pos heq, heq]
            rcases h with hnode | hnode
            · rw [hnode]
              dsimp only
              split
              · exact Or.inl rfl
              · exact Or.inr ⟨_, _, rfl, rfl⟩
            · rw [hnode]
              exact Or.inl rfl
          · rw [if_neg heq]
            split
            · exact ih _
            · exact Or.inl rfl
            · exact Or.inl rfl
            · exact Or.inl rfl

theorem walk_create (h : tree place = none ∨ tree place = some .file) {found : List α × Nat} :
    (tree.create place).walk links dir path = .ok found ↔ tree.walk links dir path = .ok found := by
  induction links using Nat.strong_induction_on generalizing dir path with
  | _ links ih =>
      rw [walk_eq, walk_eq]
      rcases leg_create h dir path with hleg | ⟨error, error', hleg, hleg'⟩
      · rw [hleg]
        cases tree.leg dir path with
        | done place' => exact Iff.rfl
        | stop error => exact Iff.rfl
        | turn dir' path' =>
            cases links with
            | zero => exact Iff.rfl
            | succ links => exact ih links (Nat.lt_succ_self _)
      · rw [hleg, hleg']
        exact ⟨nofun, nofun⟩

end Tree

end Umtp.Lib
