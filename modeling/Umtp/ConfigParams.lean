import Umtp.Storages

namespace Umtp

open Handles Text

-- A field of a line with the separators in front of it.
structure CfgField where
  separators : List UInt8
  quoted : Bool
  text : CString

namespace CfgField

-- The field between double quotes, or bare.
def spelling (field : CfgField) : CString :=
  if field.quoted then QUOTE :: field.text ++ [QUOTE] else field.text

-- The fields that can be written so.
structure IsWritten (field : CfgField) : Prop where
  separators : ∀ c ∈ field.separators, isSpace c = true
  short : field.text.length < MAX_CFG_STRING_SIZE - 1
  plain : ∀ c ∈ field.text, c ≠ QUOTE ∧ isEndLine c = false
  bare : field.quoted = false → field.text ≠ [] ∧ ∀ c ∈ field.text, isSpace c = false

end CfgField

-- A line of fields.
def writeLine (fields : List CfgField) : CString :=
  fields.flatMap fun field => field.separators ++ field.spelling

-- Any number of fields, each separated from the one before it.
structure AreWritten (fields : List CfgField) : Prop where
  ne_nil : fields ≠ []
  written : ∀ field ∈ fields, field.IsWritten
  separated : ∀ field ∈ fields.tail, field.separators ≠ []

theorem ne_space_of_isSpace {c : UInt8} (h : isSpace c = true) (htab : c ≠ TAB) : c = SPACE := by
  simpa [isSpace, htab] using h

-- Where a field can end.
def EndsField (rest : CString) : Prop := ∀ c ∈ rest.head?, isSpace c = true

theorem copyParam_end {rest : CString} (hrest : EndsField rest) (room : Nat) :
    copyParam false room rest = ([], rest) := by
  cases rest with
  | nil => rfl
  | cons c rest =>
      have hspace : isSpace c = true := hrest c rfl
      rw [copyParam, hspace]
      simp

-- A text is copied whole as long as there is room for it.
theorem copyParam_text {insideQuote : Bool} {text : CString}
    (hplain : ∀ c ∈ text, c ≠ QUOTE ∧ isEndLine c = false)
    (hspace : insideQuote = true ∨ ∀ c ∈ text, isSpace c = false) (rest : CString) {room : Nat}
    (hroom : text.length ≤ room) :
    copyParam insideQuote room (text ++ rest) =
      (text ++ (copyParam insideQuote (room - text.length) rest).1,
        (copyParam insideQuote (room - text.length) rest).2) := by
  induction text generalizing room with
  | nil => rfl
  | cons c text ih =>
      obtain ⟨hquote, hend⟩ := hplain c List.mem_cons_self
      rw [List.length_cons] at hroom ⊢
      have hgoes : (isEndLine c || (!insideQuote && isSpace c) || room == 0) = false := by
        have hsome : (room == 0) = false := beq_eq_false_iff_ne.mpr (by omega)
        rw [hend, hsome]
        rcases hspace with hinside | hspace
        · rw [hinside]
          rfl
        · rw [hspace c List.mem_cons_self, Bool.and_false]
          rfl
      have hnext := @ih (fun d hd => hplain d (List.mem_cons_of_mem _ hd))
        (hspace.imp_right fun h d hd => h d (List.mem_cons_of_mem _ hd)) (room - 1)
        (by omega)
      rw [List.cons_append, copyParam, hgoes, if_neg Bool.false_ne_true,
        if_neg (by simpa using hquote), hnext]
      have hleft : room - 1 - text.length = room - (text.length + 1) := by omega
      rw [hleft]
      rfl

theorem copyParam_quote {insideQuote : Bool} {room : Nat} (hroom : 0 < room) (rest : CString) :
    copyParam insideQuote room (QUOTE :: rest) = copyParam (!insideQuote) room rest := by
  have hsome : (room == 0) = false := beq_eq_false_iff_ne.mpr (by omega)
  have hspace : isSpace QUOTE = false := rfl
  have hend : isEndLine QUOTE = false := rfl
  rw [copyParam, hsome, hspace, hend, Bool.and_false]
  rfl

-- A field is copied without its quotes.
theorem copyParam_spelling {field : CfgField} (hfield : field.IsWritten) {rest : CString}
    (hrest : EndsField rest) :
    copyParam false (MAX_CFG_STRING_SIZE - 1) (field.spelling ++ rest) = (field.text, rest) := by
  have hshort := hfield.short
  rw [CfgField.spelling]
  cases hquoted : field.quoted with
  | false =>
      obtain ⟨-, hspace⟩ := hfield.bare hquoted
      rw [if_neg Bool.false_ne_true, copyParam_text hfield.plain (Or.inr hspace) rest (by omega),
        copyParam_end hrest, List.append_nil]
  | true =>
      have htext := @copyParam_text true _ hfield.plain (Or.inl rfl) (QUOTE :: rest)
        (MAX_CFG_STRING_SIZE - 1) (by omega)
      rw [copyParam_quote (by omega), Bool.not_true, copyParam_end hrest, List.append_nil] at htext
      rw [if_pos rfl, List.cons_append, List.cons_append, List.append_assoc,
        copyParam_quote (by decide), Bool.not_false, List.singleton_append]
      exact htext

-- A field starts with no separator, and with nothing that ends a line.
theorem CfgField.IsWritten.head {field : CfgField} (hfield : field.IsWritten) :
    ∃ c rest, field.spelling = c :: rest ∧ isSpace c = false ∧ isEndLine c = false := by
  rw [CfgField.spelling]
  cases hquoted : field.quoted with
  | true => exact ⟨QUOTE, field.text ++ [QUOTE], rfl, rfl, rfl⟩
  | false =>
      obtain ⟨hne, hspace⟩ := hfield.bare hquoted
      cases htext : field.text with
      | nil => exact absurd htext hne
      | cons c rest =>
          have hmem : c ∈ field.text := by
            rw [htext]
            exact List.mem_cons_self
          exact ⟨c, rest, rfl, hspace c hmem, (hfield.plain c hmem).2⟩

-- Spaces lead to the next field, but a tab stops there.
theorem getNextWord_spaces {separators : List UInt8} (hspaces : ∀ c ∈ separators, c = SPACE)
    {c : UInt8} (hc : c ≠ SPACE) (rest : CString) :
    getNextWord (separators ++ c :: rest) = c :: rest := by
  rw [getNextWord, List.dropWhile_append_of_pos (fun d hd => beq_iff_eq.mpr (hspaces d hd)),
    List.dropWhile_cons_of_neg (by simpa using hc)]

theorem getNextWord_tab {separators : List UInt8} (hspace : ∀ c ∈ separators, isSpace c = true)
    (htab : TAB ∈ separators) (rest : CString) :
    ∃ rest', getNextWord (separators ++ rest) = TAB :: rest' := by
  induction separators with
  | nil => cases htab
  | cons c separators ih =>
      by_cases hc : c = TAB
      · rw [hc]
        exact ⟨separators ++ rest, rfl⟩
      · have hspace' : c = SPACE := ne_space_of_isSpace (hspace c List.mem_cons_self) hc
        have htab' : TAB ∈ separators := (List.mem_cons.mp htab).resolve_left (Ne.symm hc)
        obtain ⟨rest', hrest⟩ := ih (fun d hd => hspace d (List.mem_cons_of_mem _ hd)) htab'
        refine ⟨rest', ?_⟩
        rw [hspace', List.cons_append, getNextWord, List.dropWhile_cons_of_pos (by simp)]
        exact hrest

-- A tab is a parameter of its own, again and again.
theorem skipParams_tab (n : Nat) (rest : CString) :
    skipParams n (TAB :: rest) = some (TAB :: rest) := by
  induction n with
  | zero => rfl
  | succ n ih =>
      rw [skipParams, copyParam_end (fun c hc => by cases hc; rfl)]
      exact ih

theorem writeLine_cons (field : CfgField) (fields : List CfgField) :
    writeLine (field :: fields) = field.separators ++ (field.spelling ++ writeLine fields) := by
  rw [writeLine, List.flatMap_cons, List.append_assoc]
  rfl

theorem endsField_writeLine {fields : List CfgField} (hwritten : ∀ field ∈ fields, field.IsWritten)
    (hseparated : ∀ field ∈ fields, field.separators ≠ []) : EndsField (writeLine fields) := by
  cases fields with
  | nil => exact nofun
  | cons field fields =>
      have hspaces := (hwritten field List.mem_cons_self).separators
      rw [writeLine_cons]
      cases hsep : field.separators with
      | nil => exact absurd hsep (hseparated field List.mem_cons_self)
      | cons c rest =>
          intro d hd
          cases hd
          exact hspaces c (by rw [hsep]; exact List.mem_cons_self)

-- From a field on, one is skipped after the other.
theorem skipParams_fields {field : CfgField} {fields : List CfgField} (hfield : field.IsWritten)
    (hwritten : ∀ field ∈ fields, field.IsWritten)
    (hseparated : ∀ field ∈ fields, field.separators ≠ []) (n : Nat) :
    skipParams (n + 1) (field.spelling ++ writeLine fields) =
      if (getNextWord (writeLine fields)).head?.all (· == HASH) then none
      else skipParams n (getNextWord (writeLine fields)) := by
  rw [skipParams, copyParam_spelling hfield (endsField_writeLine hwritten hseparated)]

-- What the next field starts with: itself, or the tab in front of it.
theorem getNextWord_field {field : CfgField} (hfield : field.IsWritten) (fields : List CfgField)
    (hspaces : TAB ∉ field.separators) :
    getNextWord (writeLine (field :: fields)) = field.spelling ++ writeLine fields := by
  obtain ⟨c, rest, hspelling, hspace, -⟩ := hfield.head
  have hc : c ≠ SPACE := by
    rintro rfl
    exact absurd hspace (by decide)
  have hall : ∀ d ∈ field.separators, d = SPACE := fun d hd =>
    ne_space_of_isSpace (hfield.separators d hd) fun htab => hspaces (htab ▸ hd)
  rw [writeLine_cons, hspelling, List.cons_append]
  exact getNextWord_spaces hall hc (rest ++ writeLine fields)

theorem head_getNextWord {field : CfgField} (hfield : field.IsWritten) (fields : List CfgField) :
    (getNextWord (writeLine (field :: fields))).head?.all (· == HASH) = false := by
  by_cases htab : TAB ∈ field.separators
  · obtain ⟨rest', hrest⟩ := getNextWord_tab hfield.separators htab
      (field.spelling ++ writeLine fields)
    rw [writeLine_cons, hrest]
    rfl
  · obtain ⟨c, rest, hspelling, -, hend⟩ := hfield.head
    have hc : (c == HASH) = false := by
      rw [beq_eq_false_iff_ne]
      rintro rfl
      exact absurd hend (by decide)
    rw [getNextWord_field hfield fields htab, hspelling, List.cons_append, List.head?_cons,
      Option.all_some, hc]

-- Fields that only spaces separate are found in order.
theorem skipParams_spaces {field : CfgField} {fields : List CfgField}
    (hwritten : ∀ f ∈ field :: fields, f.IsWritten)
    (hseparated : ∀ f ∈ fields, f.separators ≠ [])
    (hspaces : ∀ f ∈ field :: fields, TAB ∉ f.separators) (k : Nat) :
    (skipParams k (getNextWord (writeLine (field :: fields)))).map
        (fun found => (copyParam false (MAX_CFG_STRING_SIZE - 1) found).1) =
      ((field :: fields)[k]?).map CfgField.text := by
  induction fields generalizing field k with
  | nil =>
      have hfield := hwritten field List.mem_cons_self
      have hrest : ∀ f ∈ ([] : List CfgField), f.IsWritten :=
        fun f hf => absurd hf List.not_mem_nil
      rw [getNextWord_field hfield [] (hspaces field List.mem_cons_self)]
      cases k with
      | zero =>
          rw [skipParams, Option.map_some,
            copyParam_spelling hfield (endsField_writeLine hrest hseparated)]
          rfl
      | succ k =>
          rw [skipParams_fields hfield hrest hseparated]
          rfl
  | cons next fields ih =>
      have hfield := hwritten field List.mem_cons_self
      have hrest : ∀ f ∈ next :: fields, f.IsWritten := fun f hf =>
        hwritten f (List.mem_cons_of_mem _ hf)
      rw [getNextWord_field hfield _ (hspaces field List.mem_cons_self)]
      cases k with
      | zero =>
          rw [skipParams, Option.map_some,
            copyParam_spelling hfield (endsField_writeLine hrest hseparated)]
          rfl
      | succ k =>
          rw [skipParams_fields hfield hrest hseparated,
            head_getNextWord (hrest next List.mem_cons_self), if_neg Bool.false_ne_true,
            List.getElem?_cons_succ]
          exact ih hrest (fun f hf => hseparated f (List.mem_cons_of_mem _ hf))
            (fun f hf => hspaces f (List.mem_cons_of_mem _ hf)) k

-- Behind a tab there is always another parameter.
theorem skipParams_of_tab {field : CfgField} {fields : List CfgField}
    (hwritten : ∀ f ∈ field :: fields, f.IsWritten)
    (hseparated : ∀ f ∈ fields, f.separators ≠ [])
    (htab : ∃ f ∈ field :: fields, TAB ∈ f.separators) {k : Nat} (hk : fields.length ≤ k) :
    (skipParams k (getNextWord (writeLine (field :: fields)))).isSome = true := by
  induction fields generalizing field k with
  | nil =>
      have hfirst : TAB ∈ field.separators := by simpa using htab
      obtain ⟨rest', hrest⟩ := getNextWord_tab (hwritten field List.mem_cons_self).separators
        hfirst (field.spelling ++ writeLine [])
      rw [writeLine_cons, hrest, skipParams_tab]
      rfl
  | cons next fields ih =>
      have hfield := hwritten field List.mem_cons_self
      have hrest : ∀ f ∈ next :: fields, f.IsWritten := fun f hf =>
        hwritten f (List.mem_cons_of_mem _ hf)
      by_cases hfirst : TAB ∈ field.separators
      · obtain ⟨rest', hrest'⟩ := getNextWord_tab hfield.separators hfirst
          (field.spelling ++ writeLine (next :: fields))
        rw [writeLine_cons, hrest', skipParams_tab]
        rfl
      · obtain ⟨k, rfl⟩ := Nat.exists_eq_succ_of_ne_zero
          (by rw [List.length_cons] at hk; omega : k ≠ 0)
        have htab' : ∃ f ∈ next :: fields, TAB ∈ f.separators := by
          obtain ⟨f, hf, hmem⟩ := htab
          rcases List.mem_cons.mp hf with rfl | hf
          · exact absurd hmem hfirst
          · exact ⟨f, hf, hmem⟩
        rw [getNextWord_field hfield _ hfirst, skipParams_fields hfield hrest hseparated,
          head_getNextWord (hrest next List.mem_cons_self), if_neg Bool.false_ne_true]
        exact ih hrest (fun f hf => hseparated f (List.mem_cons_of_mem _ hf)) htab'
          (by rw [List.length_cons] at hk; omega)

-- Every field is found, and nothing behind the last.
def SplitsFields (fields : List CfgField) : Prop :=
  (∀ (k : Nat) (hk : k < fields.length),
    getParam (writeLine fields) k = some (fields.get ⟨k, hk⟩).text) ∧
  ∀ k, fields.length ≤ k → getParam (writeLine fields) k = none

-- The fields are split correctly if and only if no tab separates them.
theorem splitsFields_iff (fields : List CfgField) (hfields : AreWritten fields) :
    SplitsFields fields ↔ ∀ field ∈ fields, TAB ∉ field.separators := by
  obtain ⟨hne, hwritten, hseparated⟩ := hfields
  cases fields with
  | nil => exact absurd rfl hne
  | cons field fields =>
      rw [List.tail_cons] at hseparated
      constructor
      · rintro ⟨-, hnone⟩ f hf hmem
        have hfound := skipParams_of_tab hwritten hseparated ⟨f, hf, hmem⟩
          (k := fields.length + 1) (by omega)
        have hnothing := hnone (fields.length + 1) (Nat.le_refl _)
        rw [getParam, Option.map_eq_none_iff] at hnothing
        rw [hnothing] at hfound
        cases hfound
      · intro hspaces
        have hget : ∀ k, getParam (writeLine (field :: fields)) k =
            ((field :: fields)[k]?).map CfgField.text :=
          skipParams_spaces hwritten hseparated hspaces
        refine ⟨fun k hk => ?_, fun k hk => ?_⟩
        · rw [hget, List.getElem?_eq_getElem hk]
          rfl
        · rw [hget, List.getElem?_eq_none hk]
          rfl

-- `a "b c" ""` with spaces.
theorem splitsFields_iff_sample :
    SplitsFields [⟨[], false, [0x61]⟩, ⟨[SPACE], true, [0x62, SPACE, 0x63]⟩,
      ⟨[SPACE, SPACE], true, []⟩] := by
  refine (splitsFields_iff _ ⟨by decide +kernel, ?_, by decide +kernel⟩).mpr (by decide +kernel)
  intro field hfield
  rcases List.mem_cons.mp hfield with rfl | hfield
  · exact ⟨by decide +kernel, by decide +kernel, by decide +kernel, by decide +kernel⟩
  rcases List.mem_cons.mp hfield with rfl | hfield
  · exact ⟨by decide +kernel, by decide +kernel, by decide +kernel, by decide +kernel⟩
  · rw [List.mem_singleton.mp hfield]
    exact ⟨by decide +kernel, by decide +kernel, by decide +kernel, by decide +kernel⟩

-- Two fields with a tab between them. The second is not found, and there is no end
-- of parameters.
theorem tab_stops_params :
    AreWritten [⟨[], false, [0x61]⟩, ⟨[TAB], false, [0x62]⟩] ∧
      getParam (writeLine [⟨[], false, [0x61]⟩, ⟨[TAB], false, [0x62]⟩]) 1 = some [] ∧
      getParam (writeLine [⟨[], false, [0x61]⟩, ⟨[TAB], false, [0x62]⟩]) 2 = some [] ∧
      ¬SplitsFields [⟨[], false, [0x61]⟩, ⟨[TAB], false, [0x62]⟩] := by
  have hstuck : getParam (writeLine [⟨[], false, [0x61]⟩, ⟨[TAB], false, [0x62]⟩]) 2 = some [] := by
    decide +kernel
  refine ⟨⟨by decide +kernel, ?_, by decide +kernel⟩, by decide +kernel, hstuck, fun h => ?_⟩
  · intro field hfield
    rcases List.mem_cons.mp hfield with rfl | hfield
    · exact ⟨by decide +kernel, by decide +kernel, by decide +kernel, by decide +kernel⟩
    · rw [List.mem_singleton.mp hfield]
      exact ⟨by decide +kernel, by decide +kernel, by decide +kernel, by decide +kernel⟩
  · have hnone := h.2 2 (by decide +kernel)
    rw [hstuck] at hnone
    cases hnone

end Umtp
