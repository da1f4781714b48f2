import Mathlib.Data.Set.Insert
import Mathlib.Order.BooleanAlgebra.Set
import Mathlib.Logic.Function.Basic
import Mathlib.Data.List.Nodup
import Mathlib.Data.List.Perm.Basic

namespace Umtp.Lib

variable {ι α : Type} {table : ι → List α} {key key' : α → ι} {members members' : Set α}

-- The buckets hold members only, each in the bucket of its key and no more than
-- once.
structure Stores (table : ι → List α) (key : α → ι) (members : Set α) : Prop where
  mem : ∀ i a, a ∈ table i → a ∈ members ∧ key a = i
  nodup : ∀ i, (table i).Nodup

-- They hold every member as well.
structure Indexes (table : ι → List α) (key : α → ι) (members : Set α) : Prop
    extends Stores table key members where
  complete : ∀ a ∈ members, a ∈ table (key a)

namespace Stores

theorem empty (key : α → ι) (members : Set α) : Stores (fun _ => []) key members :=
  ⟨by simp, by simp⟩

theorem mono (hs : Stores table key members) (hsub : members ⊆ members') :
    Stores table key members' :=
  ⟨fun i a ha => ⟨hsub (hs.mem i a ha).1, (hs.mem i a ha).2⟩, hs.nodup⟩

-- The keys of what is not a member do not matter.
theorem congr_key (hs : Stores table key members) (hkey : ∀ a ∈ members, key' a = key a) :
    Stores table key' members := by
  refine ⟨fun i a ha => ?_, hs.nodup⟩
  obtain ⟨hm, hk⟩ := hs.mem i a ha
  exact ⟨hm, (hkey a hm).trans hk⟩

variable [DecidableEq ι]

theorem append (hs : Stores table key members) {a : α} (ha : a ∉ members) :
    Stores (Function.update table (key a) (table (key a) ++ [a])) key (insert a members) := by
  constructor
  · intro i b hb
    by_cases hi : i = key a
    · subst hi
      rw [Function.update_self, List.mem_append, List.mem_singleton] at hb
      rcases hb with hb | rfl
      · exact ⟨Set.mem_insert_of_mem a (hs.mem _ b hb).1, (hs.mem _ b hb).2⟩
      · exact ⟨Set.mem_insert b members, rfl⟩
    · rw [Function.update_of_ne hi] at hb
      exact ⟨Set.mem_insert_of_mem a (hs.mem i b hb).1, (hs.mem i b hb).2⟩
  · intro i
    by_cases hi : i = key a
    · subst hi
      rw [Function.update_self]
      refine List.Nodup.append (hs.nodup _) (List.nodup_singleton a) ?_
      rw [List.disjoint_singleton]
      exact fun hm => ha (hs.mem _ a hm).1
    · rw [Function.update_of_ne hi]
      exact hs.nodup i

theorem erase [DecidableEq α] (hs : Stores table key members) (a : α) :
    Stores (Function.update table (key a) ((table (key a)).erase a)) key (members \ {a}) := by
  constructor
  · intro i b hb
    by_cases hi : i = key a
    · subst hi
      rw [Function.update_self, (hs.nodup _).mem_erase_iff] at hb
      exact ⟨⟨(hs.mem _ b hb.2).1, hb.1⟩, (hs.mem _ b hb.2).2⟩
    · rw [Function.update_of_ne hi] at hb
      obtain ⟨hm, hk⟩ := hs.mem i b hb
      refine ⟨⟨hm, ?_⟩, hk⟩
      rintro rfl
      exact hi hk.symm
  · intro i
    by_cases hi : i = key a
    · subst hi
      rw [Function.update_self]
      exact (hs.nodup _).erase a
    · rw [Function.update_of_ne hi]
      exact hs.nodup i

end Stores

namespace Indexes

theorem empty (key : α → ι) : Indexes (fun _ => []) key (∅ : Set α) :=
  ⟨Stores.empty key ∅, by simp⟩

theorem congr_key (h : Indexes table key members) (hkey : ∀ a ∈ members, key' a = key a) :
    Indexes table key' members :=
  ⟨h.toStores.congr_key hkey, fun a ha => by rw [hkey a ha]; exact h.complete a ha⟩

theorem mem_iff (h : Indexes table key members) (i : ι) (a : α) :
    a ∈ table i ↔ a ∈ members ∧ key a = i := by
  constructor
  · exact h.mem i a
  · rintro ⟨hm, rfl⟩
    exact h.complete a hm

-- A member stands once, in the bucket of its key. Nothing else stands anywhere.
theorem count_eq [DecidableEq α] (h : Indexes table key members) (i : ι) (a : α)
    [Decidable (a ∈ members ∧ key a = i)] :
    (table i).count a = if a ∈ members ∧ key a = i then 1 else 0 := by
  rw [(h.nodup i).count]
  exact if_congr (h.mem_iff i a) rfl rfl

-- A bucket is as long as the number of members that belong in it.
theorem length_eq [DecidableEq ι] {l : List α} (h : Indexes table key {a | a ∈ l}) (hl : l.Nodup)
    (i : ι) : (table i).length = l.countP fun a => key a = i := by
  rw [List.countP_eq_length_filter]
  refine List.Perm.length_eq ((List.perm_ext_iff_of_nodup (h.nodup i) (hl.filter _)).mpr ?_)
  intro a
  rw [h.mem_iff, List.mem_filter]
  simp

variable [DecidableEq ι]

theorem append (h : Indexes table key members) {a : α} (ha : a ∉ members) :
    Indexes (Function.update table (key a) (table (key a) ++ [a])) key (insert a members) := by
  refine ⟨h.toStores.append ha, ?_⟩
  rintro b (rfl | hb)
  · rw [Function.update_self]
    exact List.mem_append_right _ List.mem_cons_self
  · by_cases hi : key b = key a
    · rw [hi, Function.update_self, ← hi]
      exact List.mem_append_left _ (h.complete b hb)
    · rw [Function.update_of_ne hi]
      exact h.complete b hb

theorem erase [DecidableEq α] (h : Indexes table key members) (a : α) :
    Indexes (Function.update table (key a) ((table (key a)).erase a)) key (members \ {a}) := by
  refine ⟨h.toStores.erase a, ?_⟩
  rintro b ⟨hb, hne⟩
  by_cases hi : key b = key a
  · rw [hi, Function.update_self, ← hi]
    exact (List.mem_erase_of_ne hne).mpr (h.complete b hb)
  · rw [Function.update_of_ne hi]
    exact h.complete b hb

end Indexes

section Updates

variable [DecidableEq ι] {a : α} {table' : ι → List α}

-- The table after an attempt to append `a` to the bucket of its key.
def Appends (table table' : ι → List α) (i : ι) (a : α) : Prop :=
  table' = Function.update table i (table i ++ [a])

-- A new member is appended, or its insertion fails.
theorem Stores.push (hs : Stores table key members) (ha : a ∉ members)
    (hkey : ∀ b ∈ members, key' b = key b)
    (ht : table' = table ∨ Appends table table' (key' a) a) :
    Stores table' key' (insert a members) := by
  have hs' := hs.congr_key hkey
  rcases ht with rfl | rfl
  · exact hs'.mono (Set.subset_insert a members)
  · exact hs'.append ha

theorem Indexes.push (h : Indexes table key members) (ha : a ∉ members)
    (hkey : ∀ b ∈ members, key' b = key b) (ht : Appends table table' (key' a) a) :
    Indexes table' key' (insert a members) := by
  rw [Appends] at ht
  subst ht
  exact (h.congr_key hkey).append ha

variable [DecidableEq α]

-- The table without `a`.
def erased (table : ι → List α) (i : ι) (a : α) : ι → List α :=
  Function.update table i ((table i).erase a)

-- A member whose key changes is taken out and appended again.
theorem Stores.move (hs : Stores table key members) (ha : a ∈ members)
    (hkey : ∀ b ∈ members, b ≠ a → key' b = key b)
    (ht : table' = erased table (key a) a ∨
      Appends (erased table (key a) a) table' (key' a) a) :
    Stores table' key' members := by
  have hp := (hs.erase a).push (fun hm => hm.2 rfl) (fun b hb => hkey b hb.1 hb.2) ht
  rwa [Set.insert_sdiff_singleton, Set.insert_eq_of_mem ha] at hp

theorem Indexes.move (h : Indexes table key members) (ha : a ∈ members)
    (hkey : ∀ b ∈ members, b ≠ a → key' b = key b)
    (ht : Appends (erased table (key a) a) table' (key' a) a) :
    Indexes table' key' members := by
  have hp := (h.erase a).push (fun hm => hm.2 rfl) (fun b hb => hkey b hb.1 hb.2) ht
  rwa [Set.insert_sdiff_singleton, Set.insert_eq_of_mem ha] at hp

end Updates

-- Looking one bucket through finds nothing just when no member is wanted.
theorem Indexes.find?_eq_none_iff (h : Indexes table key members) (i : ι) (p : α → Bool) :
    (table i).find? p = none ↔ ∀ a ∈ members, key a = i → p a = false := by
  simp only [List.find?_eq_none, Bool.not_eq_true, h.mem_iff, and_imp]

theorem Stores.of_find?_eq_some (hs : Stores table key members) {i : ι} {p : α → Bool} {a : α}
    (hf : (table i).find? p = some a) : a ∈ members :=
  (hs.mem i a (List.mem_of_find?_eq_some hf)).1

end Umtp.Lib
