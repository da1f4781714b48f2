import Umtp.Lib.Links

namespace Umtp.Lib.Tree

variable {α : Type}

-- The tree with some of its places emptied.
def Thinned (tree tree' : Tree α) : Prop := ∀ place, tree' place = tree place ∨ tree' place = none

-- The tree without what is at a place.
def erase [DecidableEq α] (tree : Tree α) (place : List α) : Tree α :=
  fun other => if other = place then none else tree other

theorem thinned_erase [DecidableEq α] (tree : Tree α) (place : List α) :
    tree.Thinned (tree.erase place) := by
  intro other
  rw [erase]
  by_cases h : other = place
  · rw [if_pos h]
    exact Or.inr rfl
  · rw [if_neg h]
    exact Or.inl rfl

namespace Thinned

variable {tree tree' tree'' : Tree α} {dir place : List α} {path : List (Part α)}
  {links left : Nat}

theorem refl (tree : Tree α) : tree.Thinned tree := fun _ => Or.inl rfl

theorem trans (h : tree.Thinned tree') (h' : tree'.Thinned tree'') : tree.Thinned tree'' := by
  intro place
  rcases h' place with hsame | hnone
  · rw [hsame]
    exact h place
  · exact Or.inr hnone

-- What is still there is what was there.
theorem node (h : tree.Thinned tree') {node : Node α} (hnode : tree' place = some node) :
    tree place = some node := by
  rcases h place with hsame | hnone
  · rw [← hsame, hnode]
  · rw [hnode] at hnone
    cases hnone

theorem isDir (h : tree.Thinned tree') (hdir : tree'.Dir dir) : tree.Dir dir :=
  fun front hfront hne => h.node (hdir front hfront hne)

theorem exists? (h : tree.Thinned tree') (hexists : tree'.exists? place = true) :
    tree.exists? place = true := by
  rw [Tree.exists?, Bool.or_eq_true] at hexists ⊢
  refine hexists.imp_right fun hsome => ?_
  obtain ⟨node, hnode⟩ := Option.isSome_iff_exists.mp hsome
  rw [h.node hnode]
  rfl

-- A walk that ends at something went the same way before.
theorem leg_done (h : tree.Thinned tree') (hleg : tree'.leg dir path = .done place)
    (hexists : tree'.exists? place = true) : tree.leg dir path = .done place := by
  induction path generalizing dir with
  | nil => exact hleg
  | cons part rest ih =>
      cases part with
      | stay => exact ih hleg
      | up => exact ih hleg
      | into name =>
          rw [leg] at hleg ⊢
          cases hnode : tree' (dir ++ [name]) with
          | none =>
              rw [hnode] at hleg
              dsimp only at hleg
              split at hleg
              · cases hleg
                rw [Tree.exists?, hnode] at hexists
                simp at hexists
              · cases hleg
          | some node =>
              rw [hnode] at hleg
              rw [h.node hnode]
              cases node with
              | dir => exact ih hleg
              | link absolute target => exact hleg
              | file => exact hleg

theorem leg_turn (h : tree.Thinned tree') {dir' : List α} {path' : List (Part α)}
    (hleg : tree'.leg dir path = .turn dir' path') : tree.leg dir path = .turn dir' path' := by
  induction path generalizing dir with
  | nil => cases hleg
  | cons part rest ih =>
      cases part with
      | stay => exact ih hleg
      | up => exact ih hleg
      | into name =>
          rw [leg] at hleg ⊢
          cases hnode : tree' (dir ++ [name]) with
          | none =>
              rw [hnode] at hleg
              dsimp only at hleg
              split at hleg
              · cases hleg
              · cases hleg
          | some node =>
              rw [hnode] at hleg
              rw [h.node hnode]
              cases node with
              | dir => exact ih hleg
              | link absolute target => exact hleg
              | file => exact hleg

theorem walk (h : tree.Thinned tree') (hwalk : tree'.walk links dir path = .ok (place, left))
    (hexists : tree'.exists? place = true) : tree.walk links dir path = .ok (place, left) := by
  induction links using Nat.strong_induction_on generalizing dir path with
  | _ links ih =>
      rw [walk_eq] at hwalk ⊢
      cases hleg : tree'.leg dir path with
      | done place' =>
          rw [hleg] at hwalk
          cases hwalk
          rw [h.leg_done hleg hexists]
      | stop error =>
          rw [hleg] at hwalk
          cases hwalk
      | turn dir' path' =>
          rw [hleg] at hwalk
          rw [h.leg_turn hleg]
          cases links with
          | zero => cases hwalk
          | succ links => exact ih links (Nat.lt_succ_self _) hwalk

end Thinned

variable {tree : Tree α} {dir : List α}

-- Where a name leads that is no link.
theorem walk_name {name : α} {place : List α} {links left : Nat}
    (hnode : ∀ absolute target, tree (dir ++ [name]) ≠ some (.link absolute target))
    (h : tree.walk links dir [.into name] = .ok (place, left)) : place = dir ++ [name] := by
  rw [walk_eq, leg] at h
  cases hcases : tree (dir ++ [name]) with
  | none =>
      rw [hcases] at h
      cases h
      rfl
  | some node =>
      rw [hcases] at h
      cases node with
      | dir =>
          cases h
          rfl
      | file =>
          cases h
          rfl
      | link absolute target => exact absurd hcases (hnode absolute target)

end Umtp.Lib.Tree
