import Umtp.Lib.Links

namespace Umtp.Lib.Tree

variable {α : Type} {tree : Tree α} {dir place : List α} {path : List (Part α)}
  {links left : Nat}

-- A tree without links.
def Flat (tree : Tree α) : Prop :=
  ∀ place absolute target, tree place ≠ some (.link absolute target)

-- The names that a path goes into.
def intos (path : List (Part α)) : List α :=
  path.filterMap fun
    | .into name => some name
    | _ => none

-- Without links a walk down ends where its names say.
theorem leg_flat (hflat : tree.Flat) (hdown : .up ∉ path)
    (h : tree.leg dir path = .done place) : place = dir ++ intos path := by
  induction path generalizing dir with
  | nil =>
      cases h
      simp [intos]
  | cons part rest ih =>
      have hrest : .up ∉ rest := fun hmem => hdown (List.mem_cons_of_mem _ hmem)
      cases part with
      | stay => exact ih hrest h
      | up => exact absurd List.mem_cons_self hdown
      | into name =>
          have hnames : intos (.into name :: rest) = name :: intos rest := rfl
          rw [leg] at h
          cases hnode : tree (dir ++ [name]) with
          | none =>
              rw [hnode] at h
              dsimp only at h
              split at h
              · rename_i hnil
                cases h
                simp [hnil, intos]
              · cases h
          | some node =>
              rw [hnode] at h
              cases node with
              | dir =>
                  rw [ih hrest h, hnames, List.append_assoc]
                  rfl
              | link absolute target => exact absurd hnode (hflat _ _ _)
              | file =>
                  dsimp only at h
                  split at h
                  · rename_i hnil
                    cases h
                    simp [hnil, intos]
                  · cases h

theorem leg_flat_turn (hflat : tree.Flat) {dir' : List α} {path' : List (Part α)} :
    tree.leg dir path ≠ .turn dir' path' := by
  intro h
  induction path generalizing dir with
  | nil => cases h
  | cons part rest ih =>
      cases part with
      | stay => exact ih h
      | up => exact ih h
      | into name =>
          rw [leg] at h
          cases hnode : tree (dir ++ [name]) with
          | none =>
              rw [hnode] at h
              dsimp only at h
              split at h <;> cases h
          | some node =>
              rw [hnode] at h
              cases node with
              | dir => exact ih h
              | link absolute target => exact absurd hnode (hflat _ _ _)
              | file =>
                  dsimp only at h
                  split at h <;> cases h

theorem walk_flat (hflat : tree.Flat) (hdown : .up ∉ path)
    (h : tree.walk links dir path = .ok (place, left)) : place = dir ++ intos path := by
  rw [walk_eq] at h
  cases hleg : tree.leg dir path with
  | done found =>
      rw [hleg] at h
      cases h
      exact leg_flat hflat hdown hleg
  | stop error =>
      rw [hleg] at h
      cases h
  | turn dir' path' => exact absurd hleg (leg_flat_turn hflat)

end Umtp.Lib.Tree
