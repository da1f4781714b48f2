import Mathlib.Data.Set.Insert

namespace Umtp.Lib

inductive UpdateKind where
  | added
  | removed
  | changed
deriving DecidableEq, Repr

-- What a receiver is told about a key.
structure Update (κ : Type) where
  kind : UpdateKind
  key : κ
deriving DecidableEq, Repr

variable {κ : Type} {known known' known'' : Set κ} {updates updates' : List (Update κ)} {key : κ}

-- The keys that a receiver knows once it is told.
def Update.apply (known : Set κ) (update : Update κ) : Set κ :=
  match update.kind with
  | .added => insert update.key known
  | .removed => known \ {update.key}
  | .changed => known

-- The updates lead from one set of keys to another, and none of them is idle: a
-- key is added that was not there, and removed or changed that was.
inductive Follows : Set κ → List (Update κ) → Set κ → Prop
  | nil {known : Set κ} : Follows known [] known
  | added {known known' : Set κ} {updates : List (Update κ)} {key : κ} (hnew : key ∉ known)
      (hrest : Follows (insert key known) updates known') :
      Follows known (⟨.added, key⟩ :: updates) known'
  | removed {known known' : Set κ} {updates : List (Update κ)} {key : κ} (hold : key ∈ known)
      (hrest : Follows (known \ {key}) updates known') :
      Follows known (⟨.removed, key⟩ :: updates) known'
  | changed {known known' : Set κ} {updates : List (Update κ)} {key : κ} (hold : key ∈ known)
      (hrest : Follows known updates known') :
      Follows known (⟨.changed, key⟩ :: updates) known'

namespace Follows

theorem append (h : Follows known updates known') (h' : Follows known' updates' known'') :
    Follows known (updates ++ updates') known'' := by
  induction h with
  | nil => exact h'
  | added hnew _ ih => exact added hnew (ih h')
  | removed hold _ ih => exact removed hold (ih h')
  | changed hold _ ih => exact changed hold (ih h')

-- A receiver that applies them ends with the same keys.
theorem foldl_apply (h : Follows known updates known') :
    updates.foldl Update.apply known = known' := by
  induction h with
  | nil => rfl
  | added hnew _ ih => exact ih
  | removed hold _ ih => exact ih
  | changed hold _ ih => exact ih

end Follows

end Umtp.Lib
