import Mathlib.Data.List.TakeDrop
import Mathlib.Data.List.TakeWhile
import Umtp.Storages

namespace Umtp

open Lib Handles Text

-- The fields of an option string.
def optionFields (options : CString) : List CString := options.splitOnP (· == COMMA)

-- The field is the flag, or gives it a value.
def IsOption (flag field : CString) : Prop := field = flag ∨ flag ++ [EQUALS] <+: field

instance (flag : CString) : DecidablePred (IsOption flag) :=
  fun _ => inferInstanceAs (Decidable (_ ∨ _))

-- The text after the '=', up to a space.
def optionValue (flag field : CString) : CString :=
  (field.drop (flag.length + 1)).takeWhile (· != SPACE)

variable {flag str : CString}

theorem takeWhile_comma {front : CString} (hcomma : COMMA ∉ front) (back : CString) :
    (front ++ back).takeWhile (· != COMMA) = front ++ back.takeWhile (· != COMMA) := by
  refine List.takeWhile_append_of_pos fun c hc => ?_
  rw [bne_iff_ne]
  rintro rfl
  exact hcomma hc

-- The first field goes up to the first comma.
theorem optionFields_eq (str : CString) : ∃ others, optionFields str =
    str.takeWhile (· != COMMA) :: others ∧
      (optionFields str).tail = others := by
  induction str with
  | nil => exact ⟨[], rfl, rfl⟩
  | cons c rest ih =>
      obtain ⟨others, hrest, -⟩ := ih
      rw [optionFields, List.splitOnP_cons_eq_if_modifyHead]
      by_cases hc : c = COMMA
      · rw [if_pos (beq_iff_eq.mpr hc), hc]
        exact ⟨_, rfl, rfl⟩
      · rw [if_neg (by simpa using hc)]
        rw [optionFields] at hrest
        rw [hrest, List.takeWhile_cons_of_pos (by simpa using hc)]
        exact ⟨others, rfl, rfl⟩

-- A flag at the start of a field that ends there, or goes on with '='.
theorem isOption_iff (hcomma : COMMA ∉ flag) (str : CString) :
    IsOption flag (str.takeWhile (· != COMMA)) ↔ flag <+: str ∧
      ∀ c ∈ (str.drop flag.length).head?, c = COMMA ∨ c = EQUALS := by
  by_cases hfront : flag <+: str
  · obtain ⟨after, rfl⟩ := hfront
    rw [takeWhile_comma hcomma, List.drop_left, IsOption, List.prefix_append_right_inj,
      List.append_right_eq_self]
    cases after with
    | nil => simp
    | cons c after =>
        by_cases hc : c = COMMA
        · rw [hc, List.takeWhile_cons_of_neg (by simp)]
          simp
        · rw [List.takeWhile_cons_of_pos (by simpa using hc), List.cons_prefix_cons]
          constructor
          · rintro (hnil | ⟨heq, -⟩)
            · cases hnil
            · refine ⟨List.prefix_append _ _, fun d hd => Or.inr ?_⟩
              rw [← Option.some.inj hd, heq]
          · rintro ⟨-, hends⟩
            exact Or.inr ⟨((hends c rfl).resolve_left hc).symm, List.nil_prefix⟩
  · refine iff_of_false (fun hoption => ?_) fun h => hfront h.1
    have hunder : flag <+: str.takeWhile (· != COMMA) := by
      rcases hoption with heq | hvalue
      · exact heq.symm ▸ List.prefix_refl flag
      · exact (List.prefix_append _ _).trans hvalue
    exact hfront (hunder.trans (List.takeWhile_prefix _))

-- The value is read up to the end of the field at most.
theorem optionValue_eq (hcomma : COMMA ∉ flag) (after : CString) :
    optionValue flag ((flag ++ EQUALS :: after).takeWhile (· != COMMA)) =
      after.takeWhile fun d => d != COMMA && d != SPACE := by
  have hequals : ∀ back : CString, (EQUALS :: back).takeWhile (· != COMMA) =
      EQUALS :: back.takeWhile (· != COMMA) := fun back => List.takeWhile_cons_of_pos (by decide)
  have hdrop : (flag ++ EQUALS :: after.takeWhile (· != COMMA)).drop (flag.length + 1) =
      after.takeWhile (· != COMMA) := by
    rw [← List.drop_drop, List.drop_left]
    rfl
  rw [takeWhile_comma hcomma, hequals, optionValue, hdrop,
    List.takeWhile_takeWhile]
  congr 1
  funext d
  rw [Bool.and_comm, Bool.decide_and, Bool.decide_coe, Bool.decide_coe, Bool.and_comm]

-- What the search gives for the field it finds.
def optionFound (flag field : CString) : Option CString :=
  if field = flag then none else some ((optionValue flag field).take (MAX_CFG_STRING_SIZE - 1))

-- A field that starts here is taken if it is an option.
theorem testFlag_cons (hcomma : COMMA ∉ flag) (previousChar c : UInt8) (rest : CString) :
    testFlag flag previousChar (c :: rest) =
      if (previousChar = 0 ∨ previousChar = COMMA) ∧
          IsOption flag ((c :: rest).takeWhile (· != COMMA)) then
        some (optionFound flag ((c :: rest).takeWhile (· != COMMA)))
      else testFlag flag c rest := by
  have hoption := isOption_iff hcomma (c :: rest)
  have hcond : (flag.isPrefixOf (c :: rest) && (previousChar == 0 || previousChar == COMMA) &&
      ((c :: rest).drop flag.length).head?.all fun d => d == COMMA || d == EQUALS) = true ↔
        (previousChar = 0 ∨ previousChar = COMMA) ∧
          IsOption flag ((c :: rest).takeWhile (· != COMMA)) := by
    rw [hoption, Bool.and_eq_true, Bool.and_eq_true, List.isPrefixOf_iff_prefix,
      Option.all_eq_true, Bool.or_eq_true, beq_iff_eq, beq_iff_eq]
    simp only [Bool.or_eq_true, beq_iff_eq, Option.mem_def]
    tauto
  rw [testFlag]
  by_cases hfound : (previousChar = 0 ∨ previousChar = COMMA) ∧
      IsOption flag ((c :: rest).takeWhile (· != COMMA))
  · rw [if_pos (hcond.mpr hfound), if_pos hfound]
    obtain ⟨⟨after, hafter⟩, hends⟩ := hoption.mp hfound.2
    rw [← hafter, List.drop_left] at hends ⊢
    cases after with
    | nil =>
        rw [takeWhile_comma hcomma, List.takeWhile_nil, optionFound, List.append_nil, if_pos rfl]
        rfl
    | cons d after =>
        rcases hends d rfl with rfl | rfl
        · rw [takeWhile_comma hcomma, List.takeWhile_cons_of_neg (by simp), optionFound,
            List.append_nil, if_pos rfl]
          rfl
        · have hne : (flag ++ EQUALS :: after).takeWhile (· != COMMA) ≠ flag := by
            rw [takeWhile_comma hcomma, Ne, List.append_right_eq_self]
            simp [EQUALS, COMMA]
          rw [optionFound, if_neg hne, optionValue_eq hcomma]
          rfl
  · rw [if_neg fun h => hfound (hcond.mp h), if_neg hfound]

-- The search finds the first field that is an option, where `previousChar` tells
-- whether a field starts here.
theorem testFlag_eq (hflag : flag ≠ []) (hcomma : COMMA ∉ flag) (hzero : 0 ∉ str)
    (previousChar : UInt8) :
    testFlag flag previousChar str =
      ((if previousChar = 0 ∨ previousChar = COMMA then optionFields str
        else (optionFields str).tail).find? (IsOption flag ·)).map (optionFound flag) := by
  induction str generalizing previousChar with
  | nil =>
      have hempty : ¬IsOption flag [] := by
        rintro (h | h)
        · exact hflag h.symm
        · have hlen := h.length_le
          simp at hlen
      have hfields : optionFields [] = [[]] := rfl
      rw [testFlag, hfields]
      by_cases hstart : previousChar = 0 ∨ previousChar = COMMA
      · rw [if_pos hstart]
        simp [hempty]
      · rw [if_neg hstart]
        rfl
  | cons c rest ih =>
      have hc : c ≠ 0 := fun h => hzero (h ▸ List.mem_cons_self)
      have hrest := ih (fun h => hzero (List.mem_cons_of_mem _ h)) c
      obtain ⟨others, hfields, htail⟩ := optionFields_eq (c :: rest)
      -- the fields after the first one, from the next character on
      have hnext : (if c = 0 ∨ c = COMMA then optionFields rest else (optionFields rest).tail) =
          others := by
        rw [← htail, optionFields, optionFields, List.splitOnP_cons_eq_if_modifyHead]
        by_cases hsep : c = COMMA
        · rw [if_pos (Or.inr hsep), if_pos (beq_iff_eq.mpr hsep)]
          rfl
        · rw [if_neg (not_or.mpr ⟨hc, hsep⟩), if_neg (by simpa using hsep)]
          cases rest.splitOnP (· == COMMA) with
          | nil => rfl
          | cons first others => rfl
      rw [hnext] at hrest
      rw [testFlag_cons hcomma, hrest, hfields, List.tail_cons]
      by_cases hstart : previousChar = 0 ∨ previousChar = COMMA
      · rw [if_pos hstart, List.find?_cons]
        by_cases hfound : IsOption flag ((c :: rest).takeWhile (· != COMMA))
        · rw [if_pos ⟨hstart, hfound⟩, decide_eq_true hfound]
          rfl
        · rw [if_neg fun h => hfound h.2, decide_eq_false hfound]
      · rw [if_neg hstart, if_neg fun h => hstart h.1]

-- The first field that is an option.
def optionIn (flag options : CString) : Option CString :=
  (optionFields options).find? (IsOption flag ·)

theorem testFlag_start (hflag : flag ≠ []) (hcomma : COMMA ∉ flag) (hzero : 0 ∉ str) :
    testFlag flag 0 str = (optionIn flag str).map (optionFound flag) :=
  testFlag_eq hflag hcomma hzero 0

-- The buffer is read where it was not set: an id has no value, and no value was read
-- before it.
def ReadsBuffer (options : CString) : Prop :=
  optionIn UID_OPTION options = some UID_OPTION ∨
    optionIn UID_OPTION options = none ∧ optionIn GID_OPTION options = some GID_OPTION

theorem paramAfter_optionFound (flag field param : CString) :
    paramAfter param (some (optionFound flag field)) =
      if field = flag then param else (optionValue flag field).take (MAX_CFG_STRING_SIZE - 1) := by
  rw [optionFound]
  split
  · rfl
  · rfl

theorem storageIdsFrom_congr_iff (hzero : 0 ∉ str) :
    (∀ tmpstr tmpstr', storageIdsFrom tmpstr str = storageIdsFrom tmpstr' str) ↔
      ¬ReadsBuffer str := by
  have huid : testFlag UID_OPTION 0 str = _ := testFlag_start (by decide) (by decide) hzero
  have hgid : testFlag GID_OPTION 0 str = _ := testFlag_start (by decide) (by decide) hzero
  -- the buffers "" and "5" tell the ids apart
  have hatoi : atoi [] ≠ atoi [0x35] := by decide
  simp only [storageIdsFrom, huid, hgid, ReadsBuffer]
  cases hu : optionIn UID_OPTION str with
  | some field =>
      by_cases hbare : field = UID_OPTION
      · refine iff_of_false (fun h => ?_) fun h => h (Or.inl (congrArg some hbare))
        have hids := congrArg Prod.fst (h [] [0x35])
        simp only [Option.map_some, Option.isSome_some, if_true, paramAfter_optionFound,
          if_pos hbare] at hids
        exact hatoi hids
      · refine iff_of_true (fun tmpstr tmpstr' => ?_) ?_
        · simp only [Option.map_some, paramAfter_optionFound, if_neg hbare]
        · rintro (h | h)
          · exact hbare (Option.some.inj h)
          · cases h.1
  | none =>
      simp only [Option.map_none, paramAfter, Option.getD_none]
      cases hg : optionIn GID_OPTION str with
      | some field =>
          by_cases hbare : field = GID_OPTION
          · refine iff_of_false (fun h => ?_) fun h => h (Or.inr ⟨trivial, congrArg some hbare⟩)
            have hids := congrArg Prod.snd (h [] [0x35])
            have hafter := fun param => paramAfter_optionFound GID_OPTION field param
            simp only [paramAfter, if_pos hbare] at hafter
            simp only [Option.map_some, Option.isSome_some, if_true, hafter] at hids
            exact hatoi hids
          · have hafter := fun param => paramAfter_optionFound GID_OPTION field param
            simp only [paramAfter, if_neg hbare] at hafter
            refine iff_of_true (fun tmpstr tmpstr' => ?_) ?_
            · simp only [Option.map_some, hafter]
              rfl
            · rintro (h | h)
              · cases h
              · exact hbare (Option.some.inj h.2)
      | none =>
          refine iff_of_true (fun _ _ => rfl) ?_
          rintro (h | h)
          · cases h
          · cases h.2

-- A flag is found as a whole field. What the buffer holds then is its value if there is
-- one that fits, and the ids depend on the options alone if one is given to each.
theorem option_fields_iff (flag str param : CString) (hflag : flag ≠ []) (hcomma : COMMA ∉ flag)
    (hzero : 0 ∉ str) :
    ((testFlag flag 0 str).isSome = true ↔ ∃ field ∈ optionFields str, IsOption flag field) ∧
    (∀ field, optionIn flag str = some field →
      (paramAfter param (testFlag flag 0 str) = optionValue flag field ↔
        (field = flag → param = []) ∧
          (optionValue flag field).length < MAX_CFG_STRING_SIZE)) ∧
    ((∀ tmpstr tmpstr', storageIdsFrom tmpstr str = storageIdsFrom tmpstr' str) ↔
      ¬ReadsBuffer str) := by
  refine ⟨?_, fun field hfield => ?_, storageIdsFrom_congr_iff hzero⟩
  · rw [testFlag_start hflag hcomma hzero, Option.isSome_map, optionIn, List.find?_isSome]
    simp only [decide_eq_true_eq]
  · rw [testFlag_start hflag hcomma hzero, hfield, Option.map_some, paramAfter_optionFound]
    have hsize : MAX_CFG_STRING_SIZE = 512 := rfl
    by_cases hbare : field = flag
    · have hvalue : optionValue flag field = [] := by
        rw [optionValue, hbare, List.drop_eq_nil_of_le (by omega), List.takeWhile_nil]
      rw [if_pos hbare, hvalue]
      refine ⟨fun h => ⟨fun _ => h, ?_⟩, fun h => h.1 hbare⟩
      rw [List.length_nil]
      omega
    · rw [if_neg hbare, List.take_eq_self_iff]
      refine ⟨fun h => ⟨fun heq => absurd heq hbare, by omega⟩, fun h => ?_⟩
      have hlen := h.2
      omega

-- The user id of "rw,uid=5".
theorem option_fields_iff_sample :
    (testFlag UID_OPTION 0 [0x72, 0x77, COMMA, 0x75, 0x69, 0x64, EQUALS, 0x35]).isSome = true ∧
      paramAfter [] (testFlag UID_OPTION 0
        [0x72, 0x77, COMMA, 0x75, 0x69, 0x64, EQUALS, 0x35]) = [0x35] := by
  obtain ⟨hfound, hvalue, -⟩ := option_fields_iff UID_OPTION
    [0x72, 0x77, COMMA, 0x75, 0x69, 0x64, EQUALS, 0x35] [] (by decide) (by decide) (by decide)
  have hfield : optionIn UID_OPTION [0x72, 0x77, COMMA, 0x75, 0x69, 0x64, EQUALS, 0x35] =
      some (UID_OPTION ++ [EQUALS, 0x35]) := by decide +kernel
  refine ⟨hfound.mpr ⟨UID_OPTION ++ [EQUALS, 0x35], by decide +kernel, by decide +kernel⟩, ?_⟩
  exact (hvalue _ hfield).mpr ⟨by decide +kernel, by decide +kernel⟩

-- The option "uid" gives no value, and the buffer keeps what happens to be in it.
theorem option_keeps_buffer :
    (testFlag UID_OPTION 0 UID_OPTION).isSome = true ∧
      optionIn UID_OPTION UID_OPTION = some UID_OPTION ∧
      paramAfter [0x35] (testFlag UID_OPTION 0 UID_OPTION) ≠ optionValue UID_OPTION UID_OPTION ∧
      storageIdsFrom [0x35] UID_OPTION ≠ storageIdsFrom [] UID_OPTION := by
  decide +kernel

end Umtp
