import Mathlib.Data.List.Basic

namespace Umtp.Lib

variable {α : Type} (fill : α) (content : List α) (position : Nat)

-- Data put over the content from a position on. What lies between the end of the
-- content and the position is filled up, but not for no data.
def patch : List α → List α
  | [] => content
  | x :: data =>
    content.take position ++ List.replicate (position - content.length) fill ++ (x :: data) ++
      content.drop (position + (x :: data).length)

@[simp] theorem patch_nil : patch fill content position [] = content := rfl

theorem patch_of_ne_nil {data : List α} (hdata : data ≠ []) :
    patch fill content position data =
      content.take position ++ List.replicate (position - content.length) fill ++ data ++
        content.drop (position + data.length) := by
  cases data with
  | nil => exact absurd rfl hdata
  | cons x data => rfl

-- The data is in its place, there is a filling before it where there was nothing,
-- and everything else stays.
theorem getElem?_patch {data : List α} (hdata : data ≠ []) (i : Nat) :
    (patch fill content position data)[i]? =
      if i < position then (if i < content.length then content[i]? else some fill)
      else if i < position + data.length then data[i - position]? else content[i]? := by
  have hfront : (content.take position ++
      List.replicate (position - content.length) fill).length = position := by
    rw [List.length_append, List.length_take, List.length_replicate]
    omega
  rw [patch_of_ne_nil fill content position hdata]
  by_cases hbefore : i < position
  · rw [if_pos hbefore, List.append_assoc, List.getElem?_append_left (by omega)]
    by_cases hin : i < content.length
    · rw [if_pos hin, List.getElem?_append_left (by rw [List.length_take]; omega),
        List.getElem?_take_of_lt hbefore]
    · rw [if_neg hin, List.getElem?_append_right (by rw [List.length_take]; omega),
        List.getElem?_replicate, if_pos (by rw [List.length_take]; omega)]
  · rw [if_neg hbefore]
    by_cases hdata' : i < position + data.length
    · rw [if_pos hdata', List.getElem?_append_left (by rw [List.length_append]; omega),
        List.getElem?_append_right (by omega), hfront]
    · rw [if_neg hdata', List.getElem?_append_right (by rw [List.length_append]; omega),
        List.getElem?_drop, List.length_append, hfront]
      congr 1
      omega

-- The same with no data at all.
theorem getElem?_patch' (data : List α) (i : Nat) :
    (patch fill content position data)[i]? =
      if position ≤ i ∧ i < position + data.length then data[i - position]?
      else if i < content.length then content[i]?
      else if i < position ∧ data ≠ [] then some fill else none := by
  cases data with
  | nil =>
      rw [patch_nil, if_neg (by rw [List.length_nil]; omega)]
      by_cases hin : i < content.length
      · rw [if_pos hin]
      · rw [if_neg hin, if_neg fun h => h.2 rfl, List.getElem?_eq_none (by omega)]
  | cons x data =>
      have hdata : x :: data ≠ [] := List.cons_ne_nil x data
      rw [getElem?_patch fill content position hdata]
      by_cases hbefore : i < position
      · have hno : ¬(position ≤ i ∧ i < position + (x :: data).length) := by omega
        have hfill : i < position ∧ x :: data ≠ [] := ⟨hbefore, hdata⟩
        rw [if_pos hbefore, if_neg hno, if_pos hfill]
      · rw [if_neg hbefore]
        by_cases hin : i < position + (x :: data).length
        · rw [if_pos hin, if_pos ⟨by omega, hin⟩]
        · rw [if_neg hin, if_neg fun h => hin h.2]
          by_cases hold : i < content.length
          · rw [if_pos hold]
          · rw [if_neg hold, if_neg fun h => hbefore h.1, List.getElem?_eq_none (by omega)]

theorem length_patch {data : List α} (hdata : data ≠ []) :
    (patch fill content position data).length = max content.length (position + data.length) := by
  rw [patch_of_ne_nil fill content position hdata]
  simp only [List.length_append, List.length_take, List.length_replicate, List.length_drop]
  omega

-- Data that is put behind data makes one piece with it.
theorem patch_patch (data more : List α) :
    patch fill (patch fill content position data) (position + data.length) more =
      patch fill content position (data ++ more) := by
  by_cases hdata : data = []
  · rw [hdata]
    rfl
  by_cases hmore : more = []
  · rw [hmore, List.append_nil]
    rfl
  have hboth : data ++ more ≠ [] := List.append_ne_nil_of_left_ne_nil hdata more
  have hlen : 0 < data.length := List.length_pos_of_ne_nil hdata
  refine List.ext_getElem? fun i => ?_
  rw [getElem?_patch _ _ _ hmore, getElem?_patch _ _ _ hdata, getElem?_patch _ _ _ hboth,
    length_patch _ _ _ hdata, List.length_append]
  by_cases hbefore : i < position
  · rw [if_pos (by omega), if_pos (by omega), if_pos hbefore, if_pos hbefore]
  by_cases hfirst : i < position + data.length
  · rw [if_pos hfirst, if_pos (by omega), if_neg hbefore, if_pos hfirst, if_neg hbefore,
      if_pos (by omega), List.getElem?_append_left (by omega)]
  · rw [if_neg hfirst, if_neg hbefore, if_neg hfirst, if_neg hbefore]
    by_cases hsecond : i < position + data.length + more.length
    · rw [if_pos hsecond, if_pos (by omega), List.getElem?_append_right (by omega)]
      congr 1
      omega
    · rw [if_neg hsecond, if_neg (by omega)]

-- Data put into nothing.
theorem patch_empty (data : List α) : patch fill [] 0 data = data := by
  cases data with
  | nil => rfl
  | cons x data => simp [patch]

end Umtp.Lib
