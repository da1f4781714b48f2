import Mathlib.Data.List.FinRange
import Mathlib.Logic.Function.Basic

namespace Umtp.Lib.SlotTable

variable {n : Nat} {V K : Type} (used : V → Bool) (key : V → K)

-- A table with a fixed number of slots, some of which hold a value. A value is
-- found by its key in the first slot that holds one.
def lookup [BEq K] (table : Fin n → V) (k : K) : Option (Fin n) :=
  (List.finRange n).find? fun i => used (table i) && key (table i) == k

-- The values by their keys.
def contents [BEq K] (table : Fin n → V) (k : K) : Option V :=
  (lookup used key table k).map table

-- No key is held twice.
def Distinct (table : Fin n → V) : Prop :=
  ∀ i j, used (table i) = true → used (table j) = true → key (table i) = key (table j) → i = j

instance [DecidableEq K] (table : Fin n → V) : Decidable (Distinct used key table) :=
  inferInstanceAs (Decidable (∀ _ _, _ → _ → _ → _))

section Lookup

variable [BEq K] [LawfulBEq K] {used key} {table : Fin n → V} {k : K} {i : Fin n}

theorem lookup_held (h : lookup used key table k = some i) :
    used (table i) = true ∧ key (table i) = k := by
  have hfound := List.find?_some h
  rw [Bool.and_eq_true, beq_iff_eq] at hfound
  exact hfound

theorem lookup_eq_none_iff :
    lookup used key table k = none ↔ ∀ i, used (table i) = true → key (table i) ≠ k := by
  rw [lookup, List.find?_eq_none]
  simp [List.mem_finRange]

theorem lookup_eq_some_iff (hd : Distinct used key table) :
    lookup used key table k = some i ↔ used (table i) = true ∧ key (table i) = k := by
  constructor
  · exact lookup_held
  · rintro ⟨hused, hkey⟩
    cases hfind : lookup used key table k with
    | none => exact absurd hkey (lookup_eq_none_iff.mp hfind i hused)
    | some j =>
        obtain ⟨hused', hkey'⟩ := lookup_held hfind
        rw [hd i j hused hused' (hkey.trans hkey'.symm)]

theorem contents_eq_some_iff (hd : Distinct used key table) {v : V} :
    contents used key table k = some v ↔
      ∃ i, used (table i) = true ∧ key (table i) = k ∧ table i = v := by
  rw [contents, Option.map_eq_some_iff]
  constructor
  · rintro ⟨i, hfind, rfl⟩
    exact ⟨i, (lookup_held hfind).1, (lookup_held hfind).2, rfl⟩
  · rintro ⟨i, hused, hkey, rfl⟩
    exact ⟨i, (lookup_eq_some_iff hd).mpr ⟨hused, hkey⟩, rfl⟩

theorem contents_eq_none_iff :
    contents used key table k = none ↔ ∀ i, used (table i) = true → key (table i) ≠ k := by
  rw [contents, Option.map_eq_none_iff, lookup_eq_none_iff]

end Lookup

-- What the slots hold that are used is all that counts.
theorem distinct_congr {used : V → Bool} {key : V → K} {table table' : Fin n → V}
    (h : ∀ i, used (table' i) = true → table' i = table i) (hd : Distinct used key table) :
    Distinct used key table' := by
  intro i j hi hj hkey
  rw [h i hi, h j hj] at hkey
  exact hd i j (h i hi ▸ hi) (h j hj ▸ hj) hkey

theorem contents_congr [BEq K] [LawfulBEq K] {used : V → Bool} {key : V → K}
    {table table' : Fin n → V} (h : ∀ i, used (table' i) = true → table' i = table i)
    (h' : ∀ i, used (table i) = true → table' i = table i) (hd : Distinct used key table) :
    contents used key table' = contents used key table := by
  funext k
  refine Option.ext fun v => ?_
  rw [contents_eq_some_iff (distinct_congr h hd), contents_eq_some_iff hd]
  constructor
  · rintro ⟨i, hi, hkey, hv⟩
    have heq := h i hi
    rw [heq] at hi hkey hv
    exact ⟨i, hi, hkey, hv⟩
  · rintro ⟨i, hi, hkey, hv⟩
    have heq := h' i hi
    rw [← heq] at hi hkey hv
    exact ⟨i, hi, hkey, hv⟩

section Update

variable {used key} {table : Fin n → V} {i : Fin n}

-- A value is put in a slot where its key is not held elsewhere.
theorem distinct_put (hd : Distinct used key table) {v : V}
    (hnew : ∀ j, j ≠ i → used (table j) = true → key (table j) ≠ key v) :
    Distinct used key (Function.update table i v) := by
  intro j l hj hl hkey
  by_cases hji : j = i
  · by_cases hli : l = i
    · exact hji.trans hli.symm
    · rw [Function.update_of_ne hli] at hl hkey
      rw [hji, Function.update_self] at hkey
      exact absurd hkey.symm (hnew l hli hl)
  · rw [Function.update_of_ne hji] at hj hkey
    by_cases hli : l = i
    · rw [hli, Function.update_self] at hkey
      exact absurd hkey (hnew j hji hj)
    · rw [Function.update_of_ne hli] at hl hkey
      exact hd j l hj hl hkey

theorem contents_put [BEq K] [LawfulBEq K] [DecidableEq K] (hd : Distinct used key table) {v : V}
    (hused : used v = true)
    (hnew : ∀ j, j ≠ i → used (table j) = true → key (table j) ≠ key v)
    (hold : used (table i) = true → key (table i) = key v) :
    contents used key (Function.update table i v) =
      Function.update (contents used key table) (key v) (some v) := by
  have hd' := distinct_put hd hnew
  funext k
  by_cases hk : k = key v
  · rw [hk, Function.update_self, contents_eq_some_iff hd']
    exact ⟨i, by rw [Function.update_self]; exact ⟨hused, rfl, rfl⟩⟩
  · rw [Function.update_of_ne hk]
    refine Option.ext fun v' => ?_
    rw [contents_eq_some_iff hd', contents_eq_some_iff hd]
    constructor
    · rintro ⟨j, hj, hkey, hv⟩
      by_cases hji : j = i
      · rw [hji, Function.update_self] at hkey
        exact absurd hkey.symm hk
      · rw [Function.update_of_ne hji] at hj hkey hv
        exact ⟨j, hj, hkey, hv⟩
    · rintro ⟨j, hj, hkey, hv⟩
      have hji : j ≠ i := by
        rintro rfl
        exact hk (hkey.symm.trans (hold hj))
      exact ⟨j, by rw [Function.update_of_ne hji]; exact ⟨hj, hkey, hv⟩⟩

-- A slot is freed.
theorem distinct_free (hd : Distinct used key table) {v : V} (hfree : used v = false) :
    Distinct used key (Function.update table i v) := by
  have hheld : ∀ j, used (Function.update table i v j) = true →
      used (table j) = true ∧ Function.update table i v j = table j := by
    intro j hj
    by_cases hji : j = i
    · rw [hji, Function.update_self, hfree] at hj
      cases hj
    · rw [Function.update_of_ne hji] at hj ⊢
      exact ⟨hj, rfl⟩
  intro j l hj hl hkey
  obtain ⟨hj, heqj⟩ := hheld j hj
  obtain ⟨hl, heql⟩ := hheld l hl
  rw [heqj, heql] at hkey
  exact hd j l hj hl hkey

theorem contents_free [BEq K] [LawfulBEq K] [DecidableEq K] (hd : Distinct used key table) {v : V}
    (hfree : used v = false)
    (hused : used (table i) = true) :
    contents used key (Function.update table i v) =
      Function.update (contents used key table) (key (table i)) none := by
  funext k
  by_cases hk : k = key (table i)
  · rw [hk, Function.update_self, contents_eq_none_iff]
    intro j hj
    by_cases hji : j = i
    · rw [hji, Function.update_self, hfree] at hj
      cases hj
    · rw [Function.update_of_ne hji] at hj ⊢
      exact fun hkey => hji (hd j i hj hused hkey)
  · rw [Function.update_of_ne hk]
    refine Option.ext fun v' => ?_
    rw [contents_eq_some_iff (distinct_free hd hfree), contents_eq_some_iff hd]
    constructor
    · rintro ⟨j, hj, hkey, hv⟩
      by_cases hji : j = i
      · rw [hji, Function.update_self, hfree] at hj
        cases hj
      · rw [Function.update_of_ne hji] at hj hkey hv
        exact ⟨j, hj, hkey, hv⟩
    · rintro ⟨j, hj, hkey, hv⟩
      have hji : j ≠ i := by
        rintro rfl
        exact hk hkey.symm
      exact ⟨j, by rw [Function.update_of_ne hji]; exact ⟨hj, hkey, hv⟩⟩

-- Every value is replaced by one with its key.
theorem lookup_map [BEq K] {f : V → V} (hused : ∀ v, used (f v) = used v)
    (hkey : ∀ v, key (f v) = key v) (k : K) :
    lookup used key (fun i => f (table i)) k = lookup used key table k := by
  simp only [lookup, hused, hkey]

theorem distinct_map {f : V → V} (hused : ∀ v, used (f v) = used v)
    (hkey : ∀ v, key (f v) = key v) (hd : Distinct used key table) :
    Distinct used key fun i => f (table i) := by
  intro i j hi hj h
  rw [hused] at hi hj
  rw [hkey, hkey] at h
  exact hd i j hi hj h

theorem contents_map [BEq K] {f : V → V} (hused : ∀ v, used (f v) = used v)
    (hkey : ∀ v, key (f v) = key v) :
    contents used key (fun i => f (table i)) = fun k => (contents used key table k).map f := by
  funext k
  rw [contents, contents, lookup_map hused hkey, Option.map_map]
  rfl

end Update

-- The slots before the first that is free.
theorem mem_takeWhile_iff (held : Fin n → Bool) (i : Fin n) :
    i ∈ (List.finRange n).takeWhile held ↔ ∀ j, j ≤ i → held j = true := by
  have hsorted : ∀ l : List (Fin n), l.Pairwise (· < ·) →
      (i ∈ l.takeWhile held ↔
        i ∈ l ∧ ∀ j ∈ l, j ≤ i → held j = true) := by
    intro l hl
    induction l with
    | nil => simp
    | cons j l ih =>
        obtain ⟨hless, hl⟩ := List.pairwise_cons.mp hl
        by_cases hj : held j = true
        · rw [List.takeWhile_cons_of_pos hj, List.mem_cons, ih hl]
          constructor
          · rintro (rfl | ⟨hi, hall⟩)
            · refine ⟨List.mem_cons_self, fun l' hl' hle => ?_⟩
              rcases List.mem_cons.mp hl' with rfl | hl'
              · exact hj
              · exact absurd (hless l' hl') (not_lt.mpr hle)
            · refine ⟨List.mem_cons_of_mem _ hi, fun l' hl' hle => ?_⟩
              rcases List.mem_cons.mp hl' with rfl | hl'
              · exact hj
              · exact hall l' hl' hle
          · rintro ⟨hi, hall⟩
            rcases List.mem_cons.mp hi with rfl | hi
            · exact Or.inl rfl
            · exact Or.inr ⟨hi, fun l' hl' hle => hall l' (List.mem_cons_of_mem _ hl') hle⟩
        · rw [List.takeWhile_cons_of_neg hj]
          refine iff_of_false List.not_mem_nil fun ⟨hi, hall⟩ => ?_
          refine hj (hall j List.mem_cons_self ?_)
          rcases List.mem_cons.mp hi with rfl | hi
          · exact le_refl _
          · exact (hless i hi).le
  rw [hsorted _ (List.pairwise_lt_finRange n)]
  simp [List.mem_finRange]

end Umtp.Lib.SlotTable
