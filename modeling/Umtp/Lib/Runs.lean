import Mathlib.Logic.Basic

namespace Umtp.Lib

variable {ω E : Type} (step : ω → E → ω)

-- The state a list of events leads to.
def run (w : ω) (events : List E) : ω :=
  events.foldl step w

-- Each event of the list is permitted in the state it happens in.
def Allowed (permitted : ω → E → Prop) : ω → List E → Prop
  | _, [] => True
  | w, event :: rest => permitted w event ∧ Allowed permitted (step w event) rest

@[simp] theorem run_nil (w : ω) : run step w [] = w := rfl

@[simp] theorem run_cons (w : ω) (event : E) (rest : List E) :
    run step w (event :: rest) = run step (step w event) rest := rfl

theorem run_append (w : ω) (events rest : List E) :
    run step w (events ++ rest) = run step (run step w events) rest :=
  List.foldl_append

-- A field that some events give a value has the one that the last of them gives.
theorem run_last {β : Type} (field : ω → β) (value : E → Option β)
    (hset : ∀ w event, field (step w event) = (value event).getD (field w)) (w : ω)
    (events : List E) :
    field (run step w events) = (events.filterMap value).getLast?.getD (field w) := by
  induction events generalizing w with
  | nil => rfl
  | cons event rest ih =>
      rw [run_cons, ih, hset, List.filterMap_cons]
      cases value event with
      | none => rfl
      | some v =>
          dsimp only
          rw [List.getLast?_cons, Option.getD_some]
          rfl

variable {step} {permitted permitted' : ω → E → Prop}

instance decidableAllowed [∀ w event, Decidable (permitted w event)] :
    (w : ω) → (events : List E) → Decidable (Allowed step permitted w events)
  | _, [] => isTrue trivial
  | w, event :: rest =>
    have := decidableAllowed (step w event) rest
    inferInstanceAs (Decidable (permitted w event ∧ Allowed step permitted (step w event) rest))

theorem allowed_append (w : ω) (events rest : List E) :
    Allowed step permitted w (events ++ rest) ↔
      Allowed step permitted w events ∧ Allowed step permitted (run step w events) rest := by
  induction events generalizing w with
  | nil => simp [Allowed]
  | cons event events ih => simp only [List.cons_append, Allowed, ih, run_cons, and_assoc]

-- A property that every permitted step keeps holds along the run.
theorem run_keeps {I : ω → Prop}
    (hstep : ∀ w event, I w → permitted w event → I (step w event)) (w : ω) (events : List E)
    (ha : Allowed step permitted w events) (hi : I w) : I (run step w events) := by
  induction events generalizing w with
  | nil => exact hi
  | cons event rest ih => exact ih _ ha.2 (hstep w event hi ha.1)

end Umtp.Lib
