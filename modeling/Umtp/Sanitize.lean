import Umtp.Uploads

namespace Umtp.Text

open Handles

-- mtp_sanitize.c, on the memory that the string is in

-- The continuation bytes from `s[i]` on. The first `none` is a read outside the
-- memory, the second a byte that continues nothing.
def readContinuations (mem : List UInt8) (i : Nat) : (left : Nat) → (cp : Nat) → Option (Option Nat)
  | 0, cp => some (some cp)
  | left + 1, cp =>
    match mem[i]? with
    | none => none
    | some c =>
      if c &&& 0xC0 != 0x80 then some none
      else readContinuations mem (i + 1) left (continuation cp c)

-- The length of a character and the bits of its lead byte.
def leadByte (c : UInt8) : Option (Nat × Nat) :=
  if c &&& 0xE0 == 0xC0 then some (2, (c &&& 0x1F).toNat)
  else if c &&& 0xF0 == 0xE0 then some (3, (c &&& 0x0F).toNat)
  else if c &&& 0xF8 == 0xF0 then some (4, (c &&& 0x07).toNat)
  else none

-- The checks of a character of `bytes` bytes, behind which the loop goes on.
def checkCharacter (bytes : Nat) (next : Option Bool) : Option (Option Nat) → Option Bool
  | none => none
  | some none => some false
  | some (some cp) => if codePointOk bytes cp then next else some false

-- The loop of utf8_validate at `s`, `none` for a read outside the memory.
def validateFrom (mem : List UInt8) : (fuel s : Nat) → Option Bool
  | 0, _ => none
  | fuel + 1, s =>
    match mem[s]? with
    | none => none
    | some c =>
      if c = 0 then
        some true
      else if c < 0x80 then
        validateFrom mem fuel (s + 1)
      else
        match leadByte c with
        | none => some false
        | some (bytes, cp) =>
          checkCharacter bytes (validateFrom mem fuel (s + bytes))
            (readContinuations mem (s + 1) (bytes - 1) cp)

def validateMemory (mem : List UInt8) : Option Bool := validateFrom mem mem.length 0

theorem getElem?_behind (front rest : List UInt8) :
    (front ++ rest)[front.length]? = rest.head? := by
  rw [List.getElem?_append_right (Nat.le_refl _), Nat.sub_self, List.head?_eq_getElem?]

-- The continuation bytes that there are.
theorem readContinuations_eq (front rest more : List UInt8) (cp : Nat) :
    readContinuations (front ++ (more ++ rest)) front.length more.length cp =
      some (if more.all isContinuation then some (more.foldl continuation cp) else none) := by
  induction more generalizing front cp with
  | nil => rfl
  | cons c more ih =>
      rw [List.length_cons, List.cons_append, readContinuations, getElem?_behind]
      dsimp only [List.head?_cons]
      cases hc : isContinuation c with
      | false =>
          have hbit : (c &&& 0xC0 != 0x80) = true := by rw [bne, ← isContinuation, hc]; rfl
          rw [if_pos hbit, List.all_cons, hc]
          rfl
      | true =>
          have hbit : (c &&& 0xC0 != 0x80) = false := by rw [bne, ← isContinuation, hc]; rfl
          have hnext := ih (front ++ [c]) (continuation cp c)
          rw [List.append_assoc, List.length_append] at hnext
          rw [hbit, if_neg Bool.false_ne_true, List.all_cons, hc, List.foldl_cons, Bool.true_and]
          exact hnext

-- A sequence that the end of the string cuts.
theorem readContinuations_cut (front beyond more : List UInt8) (left cp : Nat) :
    readContinuations (front ++ (more ++ 0 :: beyond)) front.length (more.length + (left + 1)) cp =
      some none := by
  induction more generalizing front cp with
  | nil =>
      rw [List.length_nil, Nat.zero_add, readContinuations, List.nil_append, getElem?_behind]
      rfl
  | cons c more ih =>
      have hnext := ih (front ++ [c]) (continuation cp c)
      rw [List.append_assoc, List.length_append] at hnext
      rw [List.length_cons, Nat.add_right_comm, List.cons_append, readContinuations,
        getElem?_behind]
      dsimp only [List.head?_cons]
      split
      · rfl
      · exact hnext

-- One character of the loop.
theorem validateFrom_step (front rest : List UInt8) {c : UInt8} (hc : c ≠ 0) (fuel : Nat) :
    validateFrom (front ++ c :: rest) (fuel + 1) front.length =
      if c < 0x80 then
        validateFrom (front ++ c :: rest) fuel (front.length + 1)
      else
        match leadByte c with
        | none => some false
        | some (bytes, cp) =>
          checkCharacter bytes (validateFrom (front ++ c :: rest) fuel (front.length + bytes))
            (readContinuations (front ++ c :: rest) (front.length + 1) (bytes - 1) cp) := by
  rw [validateFrom, getElem?_behind]
  simp only [List.head?_cons, if_neg hc]

-- A character that is there as a whole, and one that the end of the string cuts.
theorem validateFrom_character (front rest : List UInt8) {c : UInt8} (more : List UInt8) {cp : Nat}
    (hc : c ≠ 0) (hbig : ¬c < 0x80) (hlead : leadByte c = some (more.length + 1, cp)) {fuel : Nat}
    {next : Bool} (hnext : validateFrom ((front ++ c :: more) ++ rest) fuel
      (front ++ c :: more).length = some next) :
    validateFrom (front ++ c :: (more ++ rest)) (fuel + 1) front.length =
      some (more.all isContinuation && codePointOk (more.length + 1) (more.foldl continuation cp) &&
        next) := by
  have hread := readContinuations_eq (front ++ [c]) rest more cp
  rw [List.append_assoc, List.length_append, List.length_singleton] at hread
  rw [List.append_assoc, List.length_append, List.length_cons] at hnext
  rw [validateFrom_step front _ hc, if_neg hbig, hlead]
  dsimp only
  rw [Nat.add_sub_cancel]
  change checkCharacter _ (validateFrom (front ++ (c :: more ++ rest)) fuel _)
    (readContinuations (front ++ ([c] ++ (more ++ rest))) _ _ _) = _
  rw [hread, hnext]
  cases more.all isContinuation with
  | false => rfl
  | true =>
      rw [if_pos rfl, checkCharacter, Bool.true_and]
      cases codePointOk (more.length + 1) (more.foldl continuation cp) <;> rfl

theorem validateFrom_cut (front beyond : List UInt8) {c : UInt8} (more : List UInt8) (left : Nat)
    {cp : Nat} (hc : c ≠ 0) (hbig : ¬c < 0x80)
    (hlead : leadByte c = some (more.length + left + 2, cp)) (fuel : Nat) :
    validateFrom (front ++ c :: (more ++ 0 :: beyond)) (fuel + 1) front.length = some false := by
  have hread := readContinuations_cut (front ++ [c]) beyond more left cp
  rw [List.append_assoc, List.length_append, List.length_singleton] at hread
  rw [validateFrom_step front _ hc, if_neg hbig, hlead]
  dsimp only
  change checkCharacter _ _ (readContinuations (front ++ ([c] ++ (more ++ 0 :: beyond))) _
    (more.length + (left + 1)) _) = _
  rw [hread]
  rfl

-- The scanner stays before the NUL and its answer is that of the string.
theorem validateFrom_eq {str : CString} (hzero : 0 ∉ str) (front beyond : List UInt8) {fuel : Nat}
    (hfuel : str.length < fuel) :
    validateFrom (front ++ (str ++ 0 :: beyond)) fuel front.length = some (utf8Validate str) := by
  obtain ⟨fuel, rfl⟩ := Nat.exists_eq_succ_of_ne_zero (by omega : fuel ≠ 0)
  fun_induction utf8Validate str generalizing front fuel with
  | case1 =>
      rw [validateFrom, List.nil_append, getElem?_behind]
      rfl
  | case2 c rest hc ih =>
      simp only [List.mem_cons, not_or] at hzero
      rw [List.length_cons] at hfuel
      obtain ⟨fuel, rfl⟩ := Nat.exists_eq_succ_of_ne_zero (by omega : fuel ≠ 0)
      have hnext := ih hzero.2 (front ++ [c]) fuel (by omega)
      rw [List.append_assoc, List.length_append] at hnext
      rw [List.cons_append, validateFrom_step front _ (Ne.symm hzero.1), if_pos hc]
      exact hnext
  | case3 c hc hlead c1 rest ih =>
      simp only [List.mem_cons, not_or] at hzero
      simp only [List.length_cons] at hfuel
      obtain ⟨fuel, rfl⟩ := Nat.exists_eq_succ_of_ne_zero (by omega : fuel ≠ 0)
      refine (validateFrom_character front (rest ++ 0 :: beyond) [c1] (Ne.symm hzero.1) hc
        (by rw [leadByte, if_pos hlead]; rfl)
        (ih hzero.2.2 (front ++ [c, c1]) fuel (by omega))).trans ?_
      simp
  | case4 c hc hlead =>
      simp only [List.mem_cons, not_or] at hzero
      exact validateFrom_cut front beyond [] 0 (Ne.symm hzero.1) hc
        (by rw [leadByte, if_pos hlead]; rfl) fuel
  | case5 c hc htwo hlead c1 c2 rest ih =>
      simp only [List.mem_cons, not_or] at hzero
      simp only [List.length_cons] at hfuel
      obtain ⟨fuel, rfl⟩ := Nat.exists_eq_succ_of_ne_zero (by omega : fuel ≠ 0)
      refine (validateFrom_character front (rest ++ 0 :: beyond) [c1, c2] (Ne.symm hzero.1) hc
        (by rw [leadByte, if_neg htwo, if_pos hlead]; rfl)
        (ih hzero.2.2.2 (front ++ [c, c1, c2]) fuel (by omega))).trans ?_
      simp
  | case6 c rest hc htwo hlead hcut =>
      simp only [List.mem_cons, not_or] at hzero
      have hthree : leadByte c = some (3, (c &&& 0x0F).toNat) := by
        rw [leadByte, if_neg htwo, if_pos hlead]
      cases rest with
      | nil => exact validateFrom_cut front beyond [] 1 (Ne.symm hzero.1) hc hthree fuel
      | cons c1 rest =>
          cases rest with
          | nil => exact validateFrom_cut front beyond [c1] 0 (Ne.symm hzero.1) hc hthree fuel
          | cons c2 rest => exact (hcut c1 c2 rest rfl).elim
  | case7 c hc htwo hthree hlead c1 c2 c3 rest ih =>
      simp only [List.mem_cons, not_or] at hzero
      simp only [List.length_cons] at hfuel
      obtain ⟨fuel, rfl⟩ := Nat.exists_eq_succ_of_ne_zero (by omega : fuel ≠ 0)
      refine (validateFrom_character front (rest ++ 0 :: beyond) [c1, c2, c3] (Ne.symm hzero.1) hc
        (by rw [leadByte, if_neg htwo, if_neg hthree, if_pos hlead]; rfl)
        (ih hzero.2.2.2.2 (front ++ [c, c1, c2, c3]) fuel (by omega))).trans ?_
      simp [Bool.and_assoc]
  | case8 c rest hc htwo hthree hlead hcut =>
      simp only [List.mem_cons, not_or] at hzero
      have hfour : leadByte c = some (4, (c &&& 0x07).toNat) := by
        rw [leadByte, if_neg htwo, if_neg hthree, if_pos hlead]
      cases rest with
      | nil => exact validateFrom_cut front beyond [] 2 (Ne.symm hzero.1) hc hfour fuel
      | cons c1 rest =>
          cases rest with
          | nil => exact validateFrom_cut front beyond [c1] 1 (Ne.symm hzero.1) hc hfour fuel
          | cons c2 rest =>
              cases rest with
              | nil =>
                  exact validateFrom_cut front beyond [c1, c2] 0 (Ne.symm hzero.1) hc hfour fuel
              | cons c3 rest => exact (hcut c1 c2 c3 rest rfl).elim
  | case9 c rest hc htwo hthree hfour =>
      simp only [List.mem_cons, not_or] at hzero
      rw [List.cons_append, validateFrom_step front _ (Ne.symm hzero.1), if_neg hc, leadByte,
        if_neg htwo, if_neg hthree, if_neg hfour]

-- What UTF-8 spells

-- The strings that are made of the encodings of characters.
def IsUtf8 (str : CString) : Prop :=
  ∃ chars : List Char, str = chars.flatMap String.utf8EncodeChar

theorem lead_two : ∀ x < 32, ¬UInt8.ofNat (x + 0xC0) < 0x80 ∧
    UInt8.ofNat (x + 0xC0) &&& 0xE0 = 0xC0 ∧ (UInt8.ofNat (x + 0xC0) &&& 0x1F).toNat = x := by
  decide

theorem lead_three : ∀ x < 16, ¬UInt8.ofNat (x + 0xE0) < 0x80 ∧
    UInt8.ofNat (x + 0xE0) &&& 0xE0 ≠ 0xC0 ∧ UInt8.ofNat (x + 0xE0) &&& 0xF0 = 0xE0 ∧
    (UInt8.ofNat (x + 0xE0) &&& 0x0F).toNat = x := by
  decide

theorem lead_four : ∀ x < 8, ¬UInt8.ofNat (x + 0xF0) < 0x80 ∧
    UInt8.ofNat (x + 0xF0) &&& 0xE0 ≠ 0xC0 ∧ UInt8.ofNat (x + 0xF0) &&& 0xF0 ≠ 0xE0 ∧
    UInt8.ofNat (x + 0xF0) &&& 0xF8 = 0xF0 ∧ (UInt8.ofNat (x + 0xF0) &&& 0x07).toNat = x := by
  decide

theorem next_byte : ∀ x < 64, isContinuation (UInt8.ofNat (x + 0x80)) = true ∧
    (UInt8.ofNat (x + 0x80) &&& 0x3F).toNat = x := by
  decide

theorem byte_lead_four : ∀ c : UInt8, c &&& 0xF8 = 0xF0 →
    c.toNat = (c &&& 0x07).toNat + 0xF0 ∧ (c &&& 0x07).toNat < 2 ^ 3 := by
  refine forall_byte ?_
  set_option maxRecDepth 4000 in decide

theorem codePointOk_iff {bytes cp : Nat} :
    codePointOk bytes cp = true ↔ (bytes = 2 → 0x80 ≤ cp) ∧ (bytes = 3 → 0x800 ≤ cp) ∧
      (bytes = 4 → 0x10000 ≤ cp) ∧ cp.isValidChar := by
  simp only [codePointOk, Bool.and_eq_true, Bool.not_eq_true', Bool.and_eq_false_iff,
    beq_eq_false_iff_ne, decide_eq_false_iff_not, Nat.isValidChar]
  omega

theorem char_valid (c : Char) : c.val.toNat.isValidChar := c.valid

-- A character is accepted and the rest is looked at.
theorem utf8Validate_char (c : Char) (rest : CString) :
    utf8Validate (String.utf8EncodeChar c ++ rest) = utf8Validate rest := by
  have hvalid := char_valid c
  rw [String.utf8EncodeChar]
  generalize c.val.toNat = v at hvalid ⊢
  have hbound : v < 0x110000 := by
    rw [Nat.isValidChar] at hvalid
    omega
  by_cases hone : v ≤ 0x7F
  · have hsmall : UInt8.ofNat v < 0x80 := by
      rw [UInt8.lt_iff_toNat_lt, UInt8.toNat_ofNat']
      change v % 2 ^ 8 < 128
      omega
    rw [if_pos hone, List.cons_append, utf8Validate.eq_def]
    exact if_pos hsmall
  rw [if_neg hone]
  have hlast := next_byte (v % 64) (by omega)
  by_cases htwo : v ≤ 0x7FF
  · obtain ⟨hbig, hlead, hbits⟩ := lead_two (v / 64 % 32) (by omega)
    have hok : codePointOk 2 (v / 64 % 32 * 2 ^ 6 + v % 64) = true := by
      rw [codePointOk_iff]
      have hsame : v / 64 % 32 * 2 ^ 6 + v % 64 = v := by omega
      rw [hsame]
      exact ⟨by omega, by omega, by omega, hvalid⟩
    rw [if_pos htwo, List.cons_append, List.cons_append, utf8Validate, if_neg hbig,
      if_pos (beq_iff_eq.mpr hlead), continuation, hbits, hlast.1, hlast.2, hok]
    rfl
  rw [if_neg htwo]
  have hmiddle := next_byte (v / 64 % 64) (by omega)
  by_cases hthree : v ≤ 0xFFFF
  · obtain ⟨hbig, hno, hlead, hbits⟩ := lead_three (v / 4096 % 16) (by omega)
    have hok : codePointOk 3 ((v / 4096 % 16 * 2 ^ 6 + v / 64 % 64) * 2 ^ 6 + v % 64) = true := by
      rw [codePointOk_iff]
      have hsame : (v / 4096 % 16 * 2 ^ 6 + v / 64 % 64) * 2 ^ 6 + v % 64 = v := by omega
      rw [hsame]
      exact ⟨by omega, by omega, by omega, hvalid⟩
    rw [if_pos hthree, List.cons_append, List.cons_append, List.cons_append, utf8Validate,
      if_neg hbig, if_neg (by simpa using hno), if_pos (beq_iff_eq.mpr hlead)]
    dsimp only [List.nil_append]
    rw [continuation, continuation, hbits, hmiddle.1, hmiddle.2, hlast.1, hlast.2, hok]
    rfl
  · rw [if_neg hthree]
    have hupper := next_byte (v / 4096 % 64) (by omega)
    obtain ⟨hbig, hno, hno', hlead, hbits⟩ := lead_four (v / 262144 % 8) (by omega)
    have hok : codePointOk 4 (((v / 262144 % 8 * 2 ^ 6 + v / 4096 % 64) * 2 ^ 6 + v / 64 % 64) *
        2 ^ 6 + v % 64) = true := by
      rw [codePointOk_iff]
      have hsame : ((v / 262144 % 8 * 2 ^ 6 + v / 4096 % 64) * 2 ^ 6 + v / 64 % 64) * 2 ^ 6 +
          v % 64 = v := by omega
      rw [hsame]
      exact ⟨by omega, by omega, by omega, hvalid⟩
    rw [List.cons_append, List.cons_append, List.cons_append, List.cons_append, utf8Validate,
      if_neg hbig, if_neg (by simpa using hno), if_neg (by simpa using hno'),
      if_pos (beq_iff_eq.mpr hlead)]
    dsimp only [List.nil_append]
    rw [continuation, continuation, continuation, hbits, hupper.1, hupper.2, hmiddle.1, hmiddle.2,
      hlast.1, hlast.2, hok]
    rfl

theorem exists_char {v : Nat} (hv : v.isValidChar) : ∃ c : Char, c.val.toNat = v :=
  ⟨Char.ofNatAux v hv, rfl⟩

theorem IsUtf8.cons {rest : CString} (hrest : IsUtf8 rest) (c : Char) :
    IsUtf8 (String.utf8EncodeChar c ++ rest) := by
  obtain ⟨chars, rfl⟩ := hrest
  exact ⟨c :: chars, List.flatMap_cons.symm⟩

theorem ofNat_toNat {n : Nat} {c : UInt8} (h : c.toNat = n) : UInt8.ofNat n = c :=
  byteOf_toNat h

-- What is accepted is the encoding of a character and accepted strings.
theorem isUtf8_of_valid {str : CString} (hvalid : utf8Validate str = true) : IsUtf8 str := by
  fun_induction utf8Validate str with
  | case1 => exact ⟨[], rfl⟩
  | case2 c rest hc ih =>
      obtain ⟨-, hle⟩ := byte_one c hc
      obtain ⟨char, hchar⟩ := exists_char (v := c.toNat) (Or.inl (by omega))
      have hspelled : String.utf8EncodeChar char = [c] := by
        rw [String.utf8EncodeChar, hchar, if_pos hle, ofNat_toNat rfl]
      have hcons := (ih hvalid).cons char
      rwa [hspelled] at hcons
  | case3 c hc hlead c1 rest ih =>
      simp only [Bool.and_eq_true, codePointOk_iff] at hvalid
      obtain ⟨⟨hc1, hlong, -, -, hchar⟩, hrest⟩ := hvalid
      have hfirst := byte_two c (by simpa using hlead)
      have hnext := byte_continuation c1 (by simpa [isContinuation] using hc1)
      have hlong := hlong trivial
      obtain ⟨char, hchar⟩ := exists_char hchar
      have hspelled : String.utf8EncodeChar char = [c, c1] := by
        rw [continuation] at hchar hlong
        rw [String.utf8EncodeChar, hchar, if_neg (by omega), if_pos (by omega),
          @ofNat_toNat _ c (by omega), @ofNat_toNat _ c1 (by omega)]
      have hcons := (ih hrest).cons char
      rwa [hspelled] at hcons
  | case5 c hc htwo hlead c1 c2 rest ih =>
      simp only [Bool.and_eq_true, codePointOk_iff] at hvalid
      obtain ⟨⟨⟨hc1, hc2⟩, -, hlong, -, hchar⟩, hrest⟩ := hvalid
      have hfirst := byte_three c (by simpa using hlead)
      have hnext := byte_continuation c1 (by simpa [isContinuation] using hc1)
      have hlast := byte_continuation c2 (by simpa [isContinuation] using hc2)
      have hlong := hlong trivial
      obtain ⟨char, hchar⟩ := exists_char hchar
      have hspelled : String.utf8EncodeChar char = [c, c1, c2] := by
        rw [continuation, continuation] at hchar hlong
        rw [String.utf8EncodeChar, hchar, if_neg (by omega), if_neg (by omega), if_pos (by omega),
          @ofNat_toNat _ c (by omega), @ofNat_toNat _ c1 (by omega),
          @ofNat_toNat _ c2 (by omega)]
      have hcons := (ih hrest).cons char
      rwa [hspelled] at hcons
  | case7 c hc htwo hthree hlead c1 c2 c3 rest ih =>
      simp only [Bool.and_eq_true, codePointOk_iff] at hvalid
      obtain ⟨⟨⟨⟨hc1, hc2⟩, hc3⟩, -, -, hlong, hchar⟩, hrest⟩ := hvalid
      have hfirst := byte_lead_four c (by simpa using hlead)
      have hnext := byte_continuation c1 (by simpa [isContinuation] using hc1)
      have hmiddle := byte_continuation c2 (by simpa [isContinuation] using hc2)
      have hlast := byte_continuation c3 (by simpa [isContinuation] using hc3)
      have hlong := hlong trivial
      obtain ⟨char, hchar⟩ := exists_char hchar
      have hspelled : String.utf8EncodeChar char = [c, c1, c2, c3] := by
        rw [continuation, continuation, continuation] at hchar hlong
        rw [String.utf8EncodeChar, hchar, if_neg (by omega), if_neg (by omega), if_neg (by omega),
          @ofNat_toNat _ c (by omega), @ofNat_toNat _ c1 (by omega),
          @ofNat_toNat _ c2 (by omega), @ofNat_toNat _ c3 (by omega)]
      have hcons := (ih hrest).cons char
      rwa [hspelled] at hcons
  | case4 | case6 | case8 | case9 => cases hvalid

theorem utf8Validate_iff {str : CString} : utf8Validate str = true ↔ IsUtf8 str := by
  refine ⟨isUtf8_of_valid, ?_⟩
  rintro ⟨chars, rfl⟩
  induction chars with
  | nil => rfl
  | cons c chars ih => rw [List.flatMap_cons, utf8Validate_char, ih]

-- In memory that ends with the NUL the scanner gives an answer, so that it reads
-- nothing behind it. It accepts what is made of the encodings of characters other
-- than NUL.
theorem utf8_validated (str : CString) (hzero : 0 ∉ str) :
    ∃ accepted, validateMemory (str ++ [0]) = some accepted ∧
      (accepted = true ↔ ∃ chars : List Char, (∀ c ∈ chars, c.val ≠ 0) ∧
        str = chars.flatMap String.utf8EncodeChar) := by
  have hscan := @validateFrom_eq str hzero [] [] (str ++ [0]).length (by simp)
  refine ⟨utf8Validate str, hscan, ?_⟩
  rw [utf8Validate_iff, IsUtf8]
  constructor
  · rintro ⟨chars, hchars⟩
    refine ⟨chars, fun c hc hnull => hzero ?_, hchars⟩
    have hbyte : String.utf8EncodeChar c = [0] := by
      rw [String.utf8EncodeChar, hnull]
      rfl
    rw [hchars, List.mem_flatMap]
    exact ⟨c, hc, by rw [hbyte]; exact List.mem_singleton_self 0⟩
  · rintro ⟨chars, -, hchars⟩
    exact ⟨chars, hchars⟩

theorem utf8_validated_sample :
    ∃ accepted, validateMemory ([0x61, 0xC3, 0xA9] ++ [0]) = some accepted ∧
      (accepted = true ↔ ∃ chars : List Char, (∀ c ∈ chars, c.val ≠ 0) ∧
        [0x61, 0xC3, 0xA9] = chars.flatMap String.utf8EncodeChar) :=
  utf8_validated [0x61, 0xC3, 0xA9] (by decide)

-- The passes of sanitize_name over its buffer

-- The forbidden characters are replaced. None is a name that is too long.
def replacePass (maxLen : Nat) :
    (fuel : Nat) → List UInt8 → (ri wi : Nat) → List UInt8 × Option Nat
  | 0, str, _, wi => (str, some wi)
  | fuel + 1, str, ri, wi =>
    let c := str.getD ri 0
    if c = 0 then
      (str.set wi 0, some wi)
    else if 0 < maxLen ∧ maxLen ≤ wi then
      (str.set (wi - 1) 0, none)
    else
      let c' := if 0x80 ≤ c then c else if isForbiddenAscii c then UNDERSCORE else c
      replacePass maxLen fuel (str.set wi c') (ri + 1) (wi + 1)

-- The first character that is no leading space, and the move of what starts there.
def leadingSpaces (str : List UInt8) : (fuel start : Nat) → Nat
  | 0, start => start
  | fuel + 1, start =>
    if str.getD start 0 = SPACE ∨ str.getD start 0 = SLASH then
      leadingSpaces str fuel (start + 1)
    else start

def moveDown : (fuel : Nat) → List UInt8 → (i wi : Nat) → List UInt8 × Nat
  | 0, str, _, wi => (str, wi)
  | fuel + 1, str, i, wi =>
    let c := str.getD i 0
    if c = 0 then (str.set wi 0, wi) else moveDown fuel (str.set wi c) (i + 1) (wi + 1)

-- The write index in front of the trailing dots and spaces.
def trailingIndex (str : List UInt8) : (wi : Nat) → Nat
  | 0 => 0
  | wi + 1 =>
    if str.getD wi 0 = DOT ∨ str.getD wi 0 = SPACE then trailingIndex str wi else wi + 1

def cString (mem : List UInt8) : CString := mem.takeWhile (· ≠ 0)

-- What the function returns and leaves in the buffer.
def sanitizeBuffer (maxLen : Nat) (str : List UInt8) : Int × List UInt8 :=
  if containsDotDot (cString str) then
    (-1, str)
  else if validateMemory str ≠ some true then
    (-1, str)
  else
    match replacePass maxLen str.length str 0 0 with
    | (str, none) => (-1, str)
    | (str, some wi) =>
      let start := leadingSpaces str str.length 0
      let (str, wi) := if 0 < start then moveDown str.length str start 0 else (str, wi)
      let wi := trailingIndex str wi
      let str := str.set wi 0
      if wi = 0 then (-1, str) else (1, str)

theorem cString_eq {str : CString} (hzero : 0 ∉ str) (beyond : List UInt8) :
    cString (str ++ 0 :: beyond) = str := by
  rw [cString, List.takeWhile_append_of_pos]
  · rw [List.takeWhile_cons_of_neg (by simp), List.append_nil]
  · intro c hc
    exact decide_eq_true fun h => hzero (h ▸ hc)

theorem getD_behind (front rest : List UInt8) (c : UInt8) :
    (front ++ c :: rest).getD front.length 0 = c := by
  rw [List.getD_eq_getElem?_getD, getElem?_behind]
  rfl

theorem set_behind (front rest : List UInt8) (c d : UInt8) :
    (front ++ c :: rest).set front.length d = (front ++ [d]) ++ rest := by
  rw [List.set_append_right _ _ (Nat.le_refl _), Nat.sub_self, List.set_cons_zero,
    List.append_assoc]
  rfl

theorem replaceForbidden_cons (c : UInt8) (str : CString) :
    replaceForbidden (c :: str) =
      (if 0x80 ≤ c then c else if isForbiddenAscii c then UNDERSCORE else c) ::
        replaceForbidden str := by
  rw [replaceForbidden, List.map_cons, replaceForbidden]
  congr 1
  by_cases hc : 0x80 ≤ c
  · have hnot : ¬c < 0x80 := UInt8.not_lt.mpr hc
    simp [hc, hnot]
  · have hlt : c < 0x80 := UInt8.not_le.mp hc
    simp [hc, hlt]

theorem zero_notMem_replaceForbidden {str : CString} (hzero : 0 ∉ str) :
    0 ∉ replaceForbidden str := by
  induction str with
  | nil => exact hzero
  | cons c str ih =>
      simp only [List.mem_cons, not_or] at hzero
      rw [replaceForbidden_cons, List.mem_cons, not_or]
      refine ⟨?_, ih hzero.2⟩
      split
      · exact hzero.1
      · split
        · decide
        · exact hzero.1

-- The pass over the rest of the name.
theorem replacePass_eq {maxLen : Nat} {str : CString} (hzero : 0 ∉ str)
    (front beyond : List UInt8) {fuel : Nat} (hfuel : str.length < fuel)
    (hlen : maxLen = 0 ∨ front.length + str.length ≤ maxLen) :
    replacePass maxLen fuel (front ++ (str ++ 0 :: beyond)) front.length front.length =
      (front ++ (replaceForbidden str ++ 0 :: beyond), some (front.length + str.length)) := by
  induction str generalizing front fuel with
  | nil =>
      obtain ⟨fuel, rfl⟩ := Nat.exists_eq_succ_of_ne_zero (by omega : fuel ≠ 0)
      rw [List.nil_append, replacePass, getD_behind, if_pos rfl, set_behind, List.append_assoc]
      rfl
  | cons c str ih =>
      obtain ⟨fuel, rfl⟩ := Nat.exists_eq_succ_of_ne_zero (by omega : fuel ≠ 0)
      simp only [List.mem_cons, not_or] at hzero
      rw [List.length_cons] at hfuel hlen
      rw [List.cons_append, replacePass, getD_behind, if_neg (Ne.symm hzero.1),
        if_neg (by omega)]
      dsimp only
      rw [set_behind]
      have hnext := @ih hzero.2 (front ++ [if 0x80 ≤ c then c
        else if isForbiddenAscii c then UNDERSCORE else c]) fuel (by omega)
        (by rw [List.length_append, List.length_singleton]; omega)
      rw [List.length_append, List.length_singleton] at hnext
      rw [hnext, replaceForbidden_cons, List.append_assoc, List.length_cons]
      congr 2
      omega

theorem replacePass_long {maxLen : Nat} {str : CString} (hzero : 0 ∉ str)
    (front beyond : List UInt8) {fuel : Nat} (hfuel : str.length < fuel) (hmax : 0 < maxLen)
    (hlen : maxLen < front.length + str.length) :
    (replacePass maxLen fuel (front ++ (str ++ 0 :: beyond)) front.length front.length).2 = none ∨
      maxLen < front.length := by
  induction str generalizing front fuel with
  | nil => exact Or.inr (by simpa using hlen)
  | cons c str ih =>
      obtain ⟨fuel, rfl⟩ := Nat.exists_eq_succ_of_ne_zero (by omega : fuel ≠ 0)
      simp only [List.mem_cons, not_or] at hzero
      rw [List.length_cons] at hfuel hlen
      rw [List.cons_append, replacePass, getD_behind, if_neg (Ne.symm hzero.1)]
      by_cases hfull : 0 < maxLen ∧ maxLen ≤ front.length
      · rw [if_pos hfull]
        exact Or.inl rfl
      · rw [if_neg hfull]
        dsimp only
        rw [set_behind]
        have hnext := @ih hzero.2 (front ++ [if 0x80 ≤ c then c
          else if isForbiddenAscii c then UNDERSCORE else c]) fuel (by omega)
          (by rw [List.length_append, List.length_singleton]; omega)
        rw [List.length_append, List.length_singleton] at hnext
        rcases hnext with hnone | hover
        · exact Or.inl hnone
        · omega

-- The leading spaces are counted.
theorem leadingSpaces_eq {str : CString} (front beyond : List UInt8) {fuel : Nat}
    (hfuel : str.length < fuel) :
    leadingSpaces (front ++ (str ++ 0 :: beyond)) fuel front.length =
      front.length + (str.takeWhile fun c => c == SPACE || c == SLASH).length := by
  induction str generalizing front fuel with
  | nil =>
      obtain ⟨fuel, rfl⟩ := Nat.exists_eq_succ_of_ne_zero (by omega : fuel ≠ 0)
      rw [List.nil_append, leadingSpaces, getD_behind, if_neg (by decide)]
      rfl
  | cons c str ih =>
      obtain ⟨fuel, rfl⟩ := Nat.exists_eq_succ_of_ne_zero (by omega : fuel ≠ 0)
      rw [List.length_cons] at hfuel
      rw [List.cons_append, leadingSpaces, getD_behind]
      have hnext := @ih (front ++ [c]) fuel (by omega)
      rw [List.append_assoc, List.length_append, List.length_singleton] at hnext
      by_cases hc : c = SPACE ∨ c = SLASH
      · rw [if_pos hc, List.takeWhile_cons_of_pos (by simpa using hc), List.length_cons]
        exact hnext.trans (by omega)
      · rw [if_neg hc, List.takeWhile_cons_of_neg (by simpa using hc)]
        rfl

-- What is moved down leaves a gap behind it that ends with what was there.
theorem moveDown_eq {str : CString} (hzero : 0 ∉ str) (front gap beyond : List UInt8) {fuel : Nat}
    (hgap : gap ≠ []) (hfuel : str.length < fuel) :
    ∃ after, moveDown fuel (front ++ (gap ++ (str ++ 0 :: beyond))) (front.length + gap.length)
      front.length = (front ++ (str ++ 0 :: after), front.length + str.length) := by
  induction str generalizing front gap fuel with
  | nil =>
      obtain ⟨fuel, rfl⟩ := Nat.exists_eq_succ_of_ne_zero (by omega : fuel ≠ 0)
      obtain ⟨g, gap, rfl⟩ := List.exists_cons_of_ne_nil hgap
      have hend := getD_behind (front ++ (g :: gap)) beyond 0
      rw [List.append_assoc, List.length_append] at hend
      rw [List.nil_append, moveDown, hend, if_pos rfl, List.cons_append, set_behind,
        List.append_assoc]
      exact ⟨gap ++ 0 :: beyond, rfl⟩
  | cons c str ih =>
      obtain ⟨fuel, rfl⟩ := Nat.exists_eq_succ_of_ne_zero (by omega : fuel ≠ 0)
      obtain ⟨g, gap, rfl⟩ := List.exists_cons_of_ne_nil hgap
      simp only [List.mem_cons, not_or] at hzero
      rw [List.length_cons] at hfuel
      have hread := getD_behind (front ++ (g :: gap)) (str ++ 0 :: beyond) c
      rw [List.append_assoc, List.length_append, List.cons_append] at hread
      obtain ⟨after, hnext⟩ := @ih hzero.2 (front ++ [c]) (gap ++ [c]) fuel
        (by simp) (by omega)
      refine ⟨after, ?_⟩
      rw [List.cons_append, List.cons_append, moveDown, hread, if_neg (Ne.symm hzero.1),
        set_behind]
      simp only [List.append_assoc, List.length_append, List.length_cons, List.length_nil,
        List.cons_append, List.nil_append] at hnext ⊢
      rw [show front.length + (gap.length + 1) + 1 = front.length + (0 + 1) + (gap.length + (0 + 1))
        by omega, show front.length + 1 = front.length + (0 + 1) by omega, hnext]
      congr 1
      omega

theorem trailingIndex_eq (str rest : List UInt8) :
    trailingIndex (str ++ rest) str.length = (stripTrailing str).length := by
  induction str using List.reverseRecOn generalizing rest with
  | nil => rfl
  | append_singleton str c ih =>
      rw [List.length_append, List.length_singleton, trailingIndex, List.append_assoc,
        List.cons_append, List.nil_append, getD_behind]
      by_cases hc : c = DOT ∨ c = SPACE
      · have hstrip : stripTrailing (str ++ [c]) = stripTrailing str := by
          rw [stripTrailing, List.reverse_append, List.reverse_singleton, List.singleton_append,
            List.dropWhile_cons_of_pos (by simpa using hc), stripTrailing]
        rw [if_pos hc, hstrip]
        exact ih _
      · have hstrip : stripTrailing (str ++ [c]) = str ++ [c] := by
          rw [stripTrailing, List.reverse_append, List.reverse_singleton, List.singleton_append,
            List.dropWhile_cons_of_neg (by simpa using hc), List.reverse_cons, List.reverse_reverse]
        rw [if_neg hc, hstrip, List.length_append, List.length_singleton]

-- The string is moved down over its leading spaces.
theorem stripLeading_moved {str : CString} (hzero : 0 ∉ str) (beyond : List UInt8) {fuel : Nat}
    (hfuel : str.length < fuel) :
    ∃ after, (if 0 < leadingSpaces (str ++ 0 :: beyond) fuel 0 then
        moveDown fuel (str ++ 0 :: beyond) (leadingSpaces (str ++ 0 :: beyond) fuel 0) 0
      else (str ++ 0 :: beyond, str.length)) =
        (stripLeading str ++ 0 :: after, (stripLeading str).length) := by
  obtain ⟨spaces, hspaces⟩ : ∃ spaces,
      spaces = str.takeWhile fun c => c == SPACE || c == SLASH := ⟨_, rfl⟩
  have hstart := @leadingSpaces_eq str [] beyond _ hfuel
  rw [← hspaces, List.length_nil, Nat.zero_add] at hstart
  have hsplit : spaces ++ stripLeading str = str := by
    rw [hspaces, stripLeading, List.takeWhile_append_dropWhile]
  change leadingSpaces (str ++ 0 :: beyond) fuel 0 = spaces.length at hstart
  rw [hstart]
  by_cases hnone : spaces = []
  · rw [hnone, List.nil_append] at hsplit
    rw [hnone, if_neg (by simp), hsplit]
    exact ⟨beyond, rfl⟩
  · have hpos : 0 < spaces.length := List.length_pos_of_ne_nil hnone
    have hzero' : 0 ∉ stripLeading str := fun h => hzero (hsplit ▸ List.mem_append_right _ h)
    have hlen := congrArg List.length hsplit
    rw [List.length_append] at hlen
    obtain ⟨after, hmoved⟩ := @moveDown_eq _ hzero' [] spaces beyond fuel hnone (by omega)
    simp only [List.nil_append, List.length_nil, Nat.zero_add] at hmoved
    rw [← List.append_assoc, hsplit] at hmoved
    rw [if_pos hpos]
    exact ⟨after, hmoved⟩

-- The passes on a string that is not refused before them.
theorem sanitizeBuffer_passes {maxLen : Nat} {str : CString} (hzero : 0 ∉ str)
    (beyond : List UInt8) (hdots : containsDotDot str = false) (hutf : utf8Validate str = true)
    (hlen : maxLen = 0 ∨ str.length ≤ maxLen) :
    ∃ after, sanitizeBuffer maxLen (str ++ 0 :: beyond) =
      (if stripTrailing (stripLeading (replaceForbidden str)) = [] then -1 else 1,
        stripTrailing (stripLeading (replaceForbidden str)) ++ 0 :: after) := by
  have hlength : str.length < (str ++ 0 :: beyond).length := by simp
  have hvalid : validateMemory (str ++ 0 :: beyond) = some (utf8Validate str) :=
    validateFrom_eq hzero [] beyond hlength
  have hreplaced := @replacePass_eq maxLen _ hzero [] beyond _ hlength (by simpa using hlen)
  obtain ⟨replaced, hsame⟩ : ∃ replaced, replaced = replaceForbidden str := ⟨_, rfl⟩
  have hcount : replaced.length = str.length := by rw [hsame, replaceForbidden, List.length_map]
  have hzero' : 0 ∉ replaced := by
    rw [hsame]
    exact zero_notMem_replaceForbidden hzero
  simp only [List.nil_append, List.length_nil, Nat.zero_add, ← hsame, ← hcount] at hreplaced
  rw [← hsame]
  obtain ⟨moved, hmoved⟩ := @stripLeading_moved _ hzero' beyond (replaced ++ 0 :: beyond).length
    (by simp)
  obtain ⟨name, hname⟩ : ∃ name, name = stripTrailing (stripLeading replaced) := ⟨_, rfl⟩
  obtain ⟨back, hback⟩ := stripTrailing_front (stripLeading replaced)
  have hindex := trailingIndex_eq (stripLeading replaced) (0 :: moved)
  rw [← hname] at hback hindex ⊢
  rw [sanitizeBuffer, cString_eq hzero, hdots, hvalid, hutf, if_neg Bool.false_ne_true,
    if_neg (by simp), hreplaced]
  dsimp only
  rw [hmoved]
  dsimp only
  rw [hindex]
  have hcut : ∃ after, (stripLeading replaced ++ 0 :: moved).set name.length 0 =
      name ++ 0 :: after := by
    rw [← hback, List.append_assoc]
    cases hrest : back ++ 0 :: moved with
    | nil => simp at hrest
    | cons c rest => exact ⟨rest, by rw [set_behind, List.append_assoc]; rfl⟩
  obtain ⟨after, hafter⟩ := hcut
  refine ⟨after, ?_⟩
  rw [hafter]
  by_cases hempty : name = []
  · rw [if_pos hempty, if_pos (by rw [hempty]; rfl)]
  · rw [if_neg hempty, if_neg (by simpa using hempty)]

-- The buffer holds the string that is the name, or the function fails.
theorem sanitizeBuffer_eq {maxLen : Nat} {str : CString} (hzero : 0 ∉ str)
    (beyond : List UInt8) :
    (∀ name, sanitizeName str maxLen = some name →
      ∃ after, sanitizeBuffer maxLen (str ++ 0 :: beyond) = (1, name ++ 0 :: after)) ∧
    (sanitizeName str maxLen = none → (sanitizeBuffer maxLen (str ++ 0 :: beyond)).1 = -1) := by
  have hlength : str.length < (str ++ 0 :: beyond).length := by simp
  have hvalid : validateMemory (str ++ 0 :: beyond) = some (utf8Validate str) :=
    validateFrom_eq hzero [] beyond hlength
  cases hdots : containsDotDot str with
  | true =>
      refine ⟨fun name h => ?_, fun _ => ?_⟩
      · rw [sanitizeName, if_pos hdots] at h
        cases h
      · rw [sanitizeBuffer, cString_eq hzero, if_pos hdots]
  | false =>
      cases hutf : utf8Validate str with
      | false =>
          refine ⟨fun name h => ?_, fun _ => ?_⟩
          · rw [sanitizeName, hdots, hutf] at h
            cases h
          · rw [sanitizeBuffer, cString_eq hzero, hdots, hvalid, hutf, if_neg Bool.false_ne_true,
              if_pos (by simp)]
      | true =>
          by_cases hlong : 0 < maxLen ∧ maxLen < str.length
          · have hrefused : sanitizeName str maxLen = none := by
              rw [sanitizeName, hdots, hutf, if_neg Bool.false_ne_true, if_neg (by simp),
                if_pos (by simpa using hlong)]
            refine ⟨fun name h => ?_, fun _ => ?_⟩
            · rw [hrefused] at h
              cases h
            · have hpass := @replacePass_long maxLen _ hzero [] beyond _ hlength hlong.1
                (by simpa using hlong.2)
              simp only [List.nil_append, List.length_nil, Nat.not_lt_zero, or_false] at hpass
              rw [sanitizeBuffer, cString_eq hzero, hdots, hvalid, hutf,
                if_neg Bool.false_ne_true, if_neg (by simp)]
              generalize replacePass maxLen (str ++ 0 :: beyond).length (str ++ 0 :: beyond) 0 0 =
                pass at hpass
              obtain ⟨buffer, wi⟩ := pass
              cases hpass
              rfl
          · obtain ⟨after, hafter⟩ := @sanitizeBuffer_passes maxLen _ hzero beyond hdots hutf
              (by omega)
            have hname : sanitizeName str maxLen =
                if stripTrailing (stripLeading (replaceForbidden str)) = [] then none
                else some (stripTrailing (stripLeading (replaceForbidden str))) := by
              rw [sanitizeName, hdots, hutf, if_neg Bool.false_ne_true, if_neg (by simp),
                if_neg (by simpa using hlong)]
            rw [hafter, hname]
            by_cases hempty : stripTrailing (stripLeading (replaceForbidden str)) = []
            · simp only [if_pos hempty]
              refine ⟨fun name h => ?_, fun _ => trivial⟩
              cases h
            · simp only [if_neg hempty]
              refine ⟨fun name h => ?_, fun h => ?_⟩
              · cases h
                exact ⟨after, rfl⟩
              · cases h

-- What a name keeps through the passes

theorem containsDotDot_iff {str : CString} : containsDotDot str = true ↔ [DOT, DOT] <:+: str := by
  induction str with
  | nil => simp [containsDotDot]
  | cons c str ih =>
      rw [containsDotDot, Bool.or_eq_true, ih, List.infix_cons_iff, Bool.and_eq_true, beq_iff_eq,
        beq_iff_eq]
      refine or_congr_left ?_
      cases str with
      | nil => simp
      | cons d str =>
          rw [List.cons_prefix_cons, List.cons_prefix_cons, List.head?_cons, Option.some.injEq]
          exact ⟨fun h => ⟨h.1.symm, h.2.symm, List.nil_prefix⟩, fun h => ⟨h.1.symm, h.2.1.symm⟩⟩

theorem isContinuation_big : ∀ c : UInt8, isContinuation c = true → ¬c < 0x80 := by
  refine forall_byte ?_
  set_option maxRecDepth 4000 in decide

theorem replaced_small : ∀ c : UInt8, c < 0x80 →
    (if 0x80 ≤ c then c else if isForbiddenAscii c then UNDERSCORE else c) < 0x80 := by
  refine forall_byte ?_
  set_option maxRecDepth 4000 in decide

theorem replaceForbidden_big {c : UInt8} (hc : ¬c < 0x80) (str : CString) :
    replaceForbidden (c :: str) = c :: replaceForbidden str := by
  rw [replaceForbidden_cons, if_pos (UInt8.not_lt.mp hc)]

theorem utf8Validate_small {c : UInt8} (hc : c < 0x80) (str : CString) :
    utf8Validate (c :: str) = utf8Validate str := by
  rw [utf8Validate.eq_def]
  exact if_pos hc

-- The bytes of the long forms stay.
theorem utf8Validate_replaceForbidden {str : CString} (h : utf8Validate str = true) :
    utf8Validate (replaceForbidden str) = true := by
  fun_induction utf8Validate str with
  | case1 => rfl
  | case2 c rest hc ih =>
      rw [replaceForbidden_cons, utf8Validate_small (replaced_small c hc)]
      exact ih h
  | case3 c hc hlead c1 rest ih =>
      simp only [Bool.and_eq_true] at h
      rw [replaceForbidden_big hc, replaceForbidden_big (isContinuation_big c1 h.1.1), utf8Validate,
        if_neg hc, if_pos hlead]
      simp only [Bool.and_eq_true]
      exact ⟨h.1, ih h.2⟩
  | case5 c hc htwo hlead c1 c2 rest ih =>
      simp only [Bool.and_eq_true] at h
      rw [replaceForbidden_big hc, replaceForbidden_big (isContinuation_big c1 h.1.1.1),
        replaceForbidden_big (isContinuation_big c2 h.1.1.2), utf8Validate, if_neg hc, if_neg htwo,
        if_pos hlead]
      simp only [Bool.and_eq_true]
      exact ⟨h.1, ih h.2⟩
  | case7 c hc htwo hthree hlead c1 c2 c3 rest ih =>
      simp only [Bool.and_eq_true] at h
      rw [replaceForbidden_big hc, replaceForbidden_big (isContinuation_big c1 h.1.1.1.1),
        replaceForbidden_big (isContinuation_big c2 h.1.1.1.2),
        replaceForbidden_big (isContinuation_big c3 h.1.1.2), utf8Validate, if_neg hc, if_neg htwo,
        if_neg hthree, if_pos hlead]
      simp only [Bool.and_eq_true]
      exact ⟨h.1, ih h.2⟩
  | case4 | case6 | case8 | case9 => cases h

-- A character of one byte can be taken off at the end.
theorem utf8Validate_of_append {str : CString} {c : UInt8} (hc : c < 0x80)
    (h : utf8Validate (str ++ [c]) = true) : utf8Validate str = true := by
  have hcut : isContinuation c = false :=
    Bool.eq_false_iff.mpr fun hcont => isContinuation_big c hcont hc
  fun_induction utf8Validate str with
  | case1 => rfl
  | case2 d rest hd ih =>
      rw [List.cons_append, utf8Validate_small hd] at h
      exact ih h
  | case3 d hd hlead c1 rest ih =>
      rw [List.cons_append, List.cons_append, utf8Validate, if_neg hd, if_pos hlead] at h
      simp only [Bool.and_eq_true] at h ⊢
      exact ⟨h.1, ih h.2⟩
  | case4 d hd hlead => simp [utf8Validate, hd, hlead, hcut] at h
  | case5 d hd htwo hlead c1 c2 rest ih =>
      rw [List.cons_append, List.cons_append, List.cons_append, utf8Validate, if_neg hd,
        if_neg htwo, if_pos hlead] at h
      simp only [Bool.and_eq_true] at h ⊢
      exact ⟨h.1, ih h.2⟩
  | case6 d rest hd htwo hlead hshort =>
      cases rest with
      | nil => simp [utf8Validate, hd, htwo, hlead] at h
      | cons c1 rest =>
          cases rest with
          | nil => simp [utf8Validate, hd, htwo, hlead, hcut] at h
          | cons c2 rest => exact (hshort c1 c2 rest rfl).elim
  | case7 d hd htwo hthree hlead c1 c2 c3 rest ih =>
      rw [List.cons_append, List.cons_append, List.cons_append, List.cons_append, utf8Validate,
        if_neg hd, if_neg htwo, if_neg hthree, if_pos hlead] at h
      simp only [Bool.and_eq_true] at h ⊢
      exact ⟨h.1, ih h.2⟩
  | case8 d rest hd htwo hthree hlead hshort =>
      cases rest with
      | nil => simp [utf8Validate, hd, htwo, hthree, hlead] at h
      | cons c1 rest =>
          cases rest with
          | nil => simp [utf8Validate, hd, htwo, hthree, hlead] at h
          | cons c2 rest =>
              cases rest with
              | nil => simp [utf8Validate, hd, htwo, hthree, hlead, hcut] at h
              | cons c3 rest => exact (hshort c1 c2 c3 rest rfl).elim
  | case9 d rest hd htwo hthree hfour =>
      rw [List.cons_append, utf8Validate.eq_def] at h
      simp [hd, htwo, hthree, hfour] at h

-- What a name is like that the function leaves.
structure IsCleanName (name : CString) : Prop where
  ne_nil : name ≠ []
  utf8 : IsUtf8 name
  allowed : ∀ c ∈ name, isForbiddenAscii c = false
  noDots : ¬[DOT, DOT] <:+: name
  head : name.head? ≠ some SPACE
  last : name.getLast? ≠ some DOT ∧ name.getLast? ≠ some SPACE

-- Spaces in front, and dots and spaces at the end, are all that is left out.
def KeepsOthers (str name : CString) : Prop :=
  ∃ front back, replaceForbidden str = front ++ name ++ back ∧ (∀ c ∈ front, c = SPACE) ∧
    ∀ c ∈ back, c = DOT ∨ c = SPACE

theorem replaced_byte : ∀ c : UInt8,
    isForbiddenAscii (if 0x80 ≤ c then c
      else if isForbiddenAscii c then UNDERSCORE else c) = false ∧
    ((if 0x80 ≤ c then c else if isForbiddenAscii c then UNDERSCORE else c) = DOT ↔ c = DOT) ∧
    ((if 0x80 ≤ c then c else if isForbiddenAscii c then UNDERSCORE else c) = SPACE ↔
      c = SPACE) := by
  refine forall_byte ?_
  set_option maxRecDepth 4000 in decide

theorem replaceForbidden_eq_map (str : CString) : replaceForbidden str =
    str.map fun c => if 0x80 ≤ c then c else if isForbiddenAscii c then UNDERSCORE else c := by
  induction str with
  | nil => rfl
  | cons c str ih => rw [replaceForbidden_cons, ih, List.map_cons]

theorem allowed_of_mem_replaceForbidden {str : CString} {c : UInt8}
    (hc : c ∈ replaceForbidden str) : isForbiddenAscii c = false := by
  rw [replaceForbidden_eq_map] at hc
  obtain ⟨d, -, rfl⟩ := List.mem_map.mp hc
  exact (replaced_byte d).1

-- No dots come together that were apart.
theorem noDots_replaceForbidden {str : CString} (h : ¬[DOT, DOT] <:+: str) :
    ¬[DOT, DOT] <:+: replaceForbidden str := by
  rintro ⟨front, back, hsplit⟩
  rw [replaceForbidden_eq_map] at hsplit
  obtain ⟨upper, back', hstr, hupper, -⟩ := List.map_eq_append_iff.mp hsplit.symm
  obtain ⟨front', dots, hupper', -, hdots⟩ := List.map_eq_append_iff.mp hupper
  obtain ⟨c, rest, rfl, hc, hrest⟩ := List.map_eq_cons_iff.mp hdots
  obtain ⟨d, rest', rfl, hd, hrest'⟩ := List.map_eq_cons_iff.mp hrest
  have hnone : rest' = [] := List.map_eq_nil_iff.mp hrest'
  refine h ⟨front', back', ?_⟩
  rw [hstr, hupper', ← (replaced_byte c).2.1.mp hc, (replaced_byte d).2.1.mp hd, hnone,
    (replaced_byte c).2.1.mp hc]

-- The parts that are left out.
theorem stripped_parts (str : CString) :
    ∃ front back, replaceForbidden str =
      front ++ stripTrailing (stripLeading (replaceForbidden str)) ++ back ∧
      (∀ c ∈ front, c = SPACE) ∧ ∀ c ∈ back, c = DOT ∨ c = SPACE := by
  obtain ⟨front, hfront⟩ : ∃ front,
      front = (replaceForbidden str).takeWhile fun c => c == SPACE || c == SLASH := ⟨_, rfl⟩
  obtain ⟨middle, hmiddle⟩ : ∃ middle, middle = stripLeading (replaceForbidden str) := ⟨_, rfl⟩
  have hsplit : front ++ middle = replaceForbidden str := by
    rw [hfront, hmiddle, stripLeading, List.takeWhile_append_dropWhile]
  obtain ⟨back, hback⟩ : ∃ back,
      back = (middle.reverse.takeWhile fun c => c == DOT || c == SPACE).reverse := ⟨_, rfl⟩
  have hsplit' : stripTrailing middle ++ back = middle := by
    rw [stripTrailing, hback, ← List.reverse_append, List.takeWhile_append_dropWhile,
      List.reverse_reverse]
  refine ⟨front, back, ?_, fun c hc => ?_, fun c hc => ?_⟩
  · rw [← hmiddle, List.append_assoc, hsplit', hsplit]
  · have hmem : c ∈ replaceForbidden str := hsplit ▸ List.mem_append_left _ hc
    have hallowed := allowed_of_mem_replaceForbidden hmem
    rw [hfront] at hc
    have hspace := List.mem_takeWhile_imp hc
    rcases Bool.or_eq_true _ _ ▸ hspace with h | h
    · exact beq_iff_eq.mp h
    · rw [beq_iff_eq.mp h] at hallowed
      exact absurd hallowed (by decide)
  · rw [hback, List.mem_reverse] at hc
    have hdot := List.mem_takeWhile_imp hc
    simpa using hdot

theorem stripped_eq_nil_iff (str : CString) :
    stripTrailing (stripLeading (replaceForbidden str)) = [] ↔ ∀ c ∈ str, c = DOT ∨ c = SPACE := by
  obtain ⟨front, back, hsplit, hfront, hback⟩ := stripped_parts str
  have hsame : (∀ c ∈ replaceForbidden str, c = DOT ∨ c = SPACE) ↔
      ∀ c ∈ str, c = DOT ∨ c = SPACE := by
    rw [replaceForbidden_eq_map, List.forall_mem_map]
    exact forall₂_congr fun c _ => or_congr (replaced_byte c).2.1 (replaced_byte c).2.2
  rw [← hsame]
  constructor
  · intro hempty c hc
    rw [hsplit, hempty, List.append_nil] at hc
    rcases List.mem_append.mp hc with hc | hc
    · exact Or.inr (hfront c hc)
    · exact hback c hc
  · intro hall
    rw [stripTrailing, List.reverse_eq_nil_iff, List.dropWhile_eq_nil_iff]
    intro c hc
    have hmem : c ∈ replaceForbidden str :=
      (List.dropWhile_suffix _).subset (List.mem_reverse.mp hc)
    simpa using hall c hmem

theorem utf8Validate_of_parts {front name back : CString} (hfront : ∀ c ∈ front, c = SPACE)
    (hback : ∀ c ∈ back, c = DOT ∨ c = SPACE) (h : utf8Validate (front ++ name ++ back) = true) :
    utf8Validate name = true := by
  have hlast : utf8Validate (front ++ name) = true := by
    induction back using List.reverseRecOn with
    | nil => simpa using h
    | append_singleton back c ih =>
        have hc : c < 0x80 := by
          rcases hback c (by simp) with rfl | rfl <;> decide
        rw [← List.append_assoc] at h
        exact ih (fun d hd => hback d (List.mem_append_left _ hd)) (utf8Validate_of_append hc h)
  clear h
  induction front with
  | nil => exact hlast
  | cons c front ih =>
      have hc : c < 0x80 := by
        rw [hfront c List.mem_cons_self]
        decide
      rw [List.cons_append, utf8Validate_small hc] at hlast
      exact ih (fun d hd => hfront d (List.mem_cons_of_mem _ hd)) hlast

theorem isCleanName_of_sanitizeName {str name : CString} {maxLen : Nat}
    (hdots : ¬[DOT, DOT] <:+: str) (h : sanitizeName str maxLen = some name)
    (hname : name = stripTrailing (stripLeading (replaceForbidden str))) : IsCleanName name := by
  have hclean := isSanitized_of_sanitizeName h
  obtain ⟨front, back, hsplit, hfront, hback⟩ := stripped_parts str
  rw [← hname] at hsplit
  have hkept : name <:+: replaceForbidden str := ⟨front, back, hsplit.symm⟩
  refine ⟨hclean.ne_nil, ?_, ?_, ?_, ?_, ?_, ?_⟩
  · rw [← utf8Validate_iff]
    refine utf8Validate_of_parts hfront hback ?_
    rw [← hsplit]
    exact utf8Validate_replaceForbidden (utf8Validate_of_sanitizeName h)
  · exact fun c hc => allowed_of_mem_replaceForbidden (hkept.subset hc)
  · exact fun hmore => noDots_replaceForbidden hdots (hmore.trans hkept)
  · exact fun hc => absurd (hclean.head SPACE hc) (by decide)
  · exact fun hc => absurd (hclean.last DOT hc) (by decide)
  · exact fun hc => absurd (hclean.last SPACE hc) (by decide)

-- The passes leave a name like that as it is.
theorem sanitizeBuffer_clean {maxLen : Nat} {name : CString} (hname : IsCleanName name)
    (hzero : 0 ∉ name) (hlen : name.length ≤ maxLen) (beyond : List UInt8) :
    sanitizeBuffer maxLen (name ++ 0 :: beyond) = (1, name ++ 0 :: beyond) := by
  have hlength : name.length < (name ++ 0 :: beyond).length := by simp
  have hdots : containsDotDot name = false :=
    Bool.eq_false_iff.mpr fun h => hname.noDots (containsDotDot_iff.mp h)
  have hvalid : validateMemory (name ++ 0 :: beyond) = some true := by
    rw [← utf8Validate_iff.mpr hname.utf8]
    exact validateFrom_eq hzero [] beyond hlength
  have hsame : replaceForbidden name = name := by
    rw [replaceForbidden_eq_map]
    refine (List.map_congr_left fun c hc => ?_).trans (List.map_id _)
    rw [hname.allowed c hc, if_neg Bool.false_ne_true]
    exact ite_self c
  have hreplaced := @replacePass_eq maxLen _ hzero [] beyond _ hlength
    (Or.inr (by simpa using hlen))
  simp only [List.nil_append, List.length_nil, Nat.zero_add, hsame] at hreplaced
  have hnoSpace : (name.takeWhile fun c => c == SPACE || c == SLASH) = [] := by
    cases hcases : name with
    | nil => rfl
    | cons c rest =>
        have hspace : c ≠ SPACE := fun h => hname.head (by rw [hcases, h]; rfl)
        have hslash : c ≠ SLASH := by
          rintro rfl
          exact absurd (hname.allowed SLASH (by rw [hcases]; exact List.mem_cons_self)) (by decide)
        rw [List.takeWhile_cons_of_neg (by simp [hspace, hslash])]
  have hstart := @leadingSpaces_eq name [] beyond _ hlength
  simp only [List.nil_append, List.length_nil, Nat.zero_add, hnoSpace] at hstart
  have hkept : stripTrailing name = name := by
    rw [stripTrailing, dropWhile_eq_self, List.reverse_reverse]
    intro c hc
    rw [List.head?_reverse] at hc
    have hdot : c ≠ DOT := fun h => hname.last.1 (h ▸ hc)
    have hspace : c ≠ SPACE := fun h => hname.last.2 (h ▸ hc)
    simp [hdot, hspace]
  have hindex := trailingIndex_eq name (0 :: beyond)
  rw [hkept] at hindex
  rw [sanitizeBuffer, cString_eq hzero, hdots, hvalid, if_neg Bool.false_ne_true, if_neg (by simp),
    hreplaced]
  dsimp only
  rw [hstart, if_neg (Nat.lt_irrefl 0)]
  dsimp only
  rw [hindex, if_neg (by simpa using hname.ne_nil), set_behind, List.append_assoc]
  rfl

theorem sanitizeName_eq_some_iff {maxLen : Nat} {str name : CString} (hlen : str.length ≤ maxLen) :
    sanitizeName str maxLen = some name ↔
      (¬[DOT, DOT] <:+: str ∧ IsUtf8 str ∧ ∃ c ∈ str, c ≠ DOT ∧ c ≠ SPACE) ∧
        name = stripTrailing (stripLeading (replaceForbidden str)) := by
  have hmore : (∃ c ∈ str, c ≠ DOT ∧ c ≠ SPACE) ↔
      stripTrailing (stripLeading (replaceForbidden str)) ≠ [] := by
    rw [ne_eq, stripped_eq_nil_iff]
    simp only [not_forall, not_or, exists_prop]
  rw [hmore, ← utf8Validate_iff, ← containsDotDot_iff, sanitizeName]
  by_cases hdots : containsDotDot str = true
  · simp [hdots]
  · rw [if_neg hdots]
    by_cases hutf : utf8Validate str = true
    · have hfits : ¬(decide (0 < maxLen) && decide (maxLen < List.length str)) = true := by
        rw [Bool.and_eq_true, decide_eq_true_iff, decide_eq_true_iff]
        omega
      rw [if_neg (by simp [hutf]), if_neg hfits]
      by_cases hempty : stripTrailing (stripLeading (replaceForbidden str)) = []
      · simp [hempty]
      · rw [if_neg hempty, Option.some.injEq]
        exact ⟨fun h => ⟨⟨hdots, hutf, hempty⟩, h.symm⟩, fun h => h.2.symm⟩
    · simp [hutf]

-- A string is accepted if there are no two dots together in it, it is UTF-8 and it
-- has more than dots and spaces. The name that is left is accepted again, and stays.
theorem sanitize_contract (maxLen : Nat) (str beyond : List UInt8) (hzero : 0 ∉ str)
    (hlen : str.length ≤ maxLen) :
    ((sanitizeBuffer maxLen (str ++ 0 :: beyond)).1 = 1 ↔
      ¬[DOT, DOT] <:+: str ∧ IsUtf8 str ∧ ∃ c ∈ str, c ≠ DOT ∧ c ≠ SPACE) ∧
    ((sanitizeBuffer maxLen (str ++ 0 :: beyond)).1 = 1 →
      IsCleanName (cString (sanitizeBuffer maxLen (str ++ 0 :: beyond)).2) ∧
      KeepsOthers str (cString (sanitizeBuffer maxLen (str ++ 0 :: beyond)).2) ∧
      (cString (sanitizeBuffer maxLen (str ++ 0 :: beyond)).2).length ≤ str.length ∧
      sanitizeBuffer maxLen (sanitizeBuffer maxLen (str ++ 0 :: beyond)).2 =
        (1, (sanitizeBuffer maxLen (str ++ 0 :: beyond)).2)) := by
  obtain ⟨hsome, hnone⟩ := @sanitizeBuffer_eq maxLen _ hzero beyond
  cases hname : sanitizeName str maxLen with
  | none =>
      have hrefused : ¬(¬[DOT, DOT] <:+: str ∧ IsUtf8 str ∧ ∃ c ∈ str, c ≠ DOT ∧ c ≠ SPACE) := by
        intro haccepted
        have hsanitized := (sanitizeName_eq_some_iff hlen).mpr ⟨haccepted, rfl⟩
        rw [hname] at hsanitized
        cases hsanitized
      rw [hnone hname]
      exact ⟨iff_of_false (by decide) hrefused, fun h => absurd h (by decide)⟩
  | some name =>
      obtain ⟨haccepted, heq⟩ := (sanitizeName_eq_some_iff hlen).mp hname
      obtain ⟨after, hafter⟩ := hsome name hname
      obtain ⟨front, back, hsplit, hfront, hback⟩ := stripped_parts str
      rw [← heq] at hsplit
      have hclean := isCleanName_of_sanitizeName haccepted.1 hname heq
      have hnonzero : 0 ∉ name := fun h => ne_zero_of_sanitizeName hname 0 h rfl
      have hcount : (replaceForbidden str).length = str.length := by
        rw [replaceForbidden, List.length_map]
      have hshort : name.length ≤ str.length := by
        rw [← hcount, hsplit, List.length_append, List.length_append]
        omega
      rw [hafter]
      dsimp only
      rw [cString_eq hnonzero]
      exact ⟨iff_of_true rfl haccepted, fun _ => ⟨hclean, ⟨front, back, hsplit, hfront, hback⟩,
        hshort, sanitizeBuffer_clean hclean hnonzero (by omega) after⟩⟩

-- A space, a slash and a dot at the end.
theorem sanitize_contract_sample :
    ((sanitizeBuffer 256 ([0x20, 0x61, 0x2F, 0x62, 0x2E] ++ 0 :: [])).1 = 1 ↔
      ¬[DOT, DOT] <:+: [0x20, 0x61, 0x2F, 0x62, 0x2E] ∧ IsUtf8 [0x20, 0x61, 0x2F, 0x62, 0x2E] ∧
        ∃ c ∈ [0x20, 0x61, 0x2F, 0x62, 0x2E], c ≠ DOT ∧ c ≠ SPACE) ∧
    sanitizeBuffer 256 ([0x20, 0x61, 0x2F, 0x62, 0x2E] ++ 0 :: []) =
      (1, [0x61, 0x5F, 0x62, 0, 0, 0]) :=
  ⟨(sanitize_contract 256 [0x20, 0x61, 0x2F, 0x62, 0x2E] [] (by decide)
    (by decide)).1, by decide +kernel⟩

end Umtp.Text
