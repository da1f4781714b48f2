import Umtp.Text

namespace Umtp.Text

open Handles

-- Every byte is checked.
theorem forall_byte {P : UInt8 → Prop} (h : ∀ n < 256, P (UInt8.ofNat n)) (c : UInt8) : P c := by
  have hc := h c.toNat c.toNat_lt
  rwa [UInt8.ofNat_toNat] at hc

theorem byte_one : ∀ c : UInt8, c < 0x80 → utf8Size c = 1 ∧ c.toNat ≤ 0x7F := by
  refine forall_byte ?_
  set_option maxRecDepth 4000 in decide

theorem byte_two : ∀ c : UInt8, c &&& 0xE0 = 0xC0 →
    utf8Size c = 2 ∧ c.toNat = (c &&& 0x1F).toNat + 0xC0 ∧ (c &&& 0x1F).toNat < 2 ^ 5 := by
  refine forall_byte ?_
  set_option maxRecDepth 4000 in decide

theorem byte_three : ∀ c : UInt8, c &&& 0xF0 = 0xE0 →
    utf8Size c = 3 ∧ c.toNat = (c &&& 0x0F).toNat + 0xE0 ∧ (c &&& 0x0F).toNat < 2 ^ 4 := by
  refine forall_byte ?_
  set_option maxRecDepth 4000 in decide

theorem byte_four : ∀ c : UInt8, c &&& 0xF8 = 0xF0 → ¬c < 0xF0 := by
  refine forall_byte ?_
  set_option maxRecDepth 4000 in decide

theorem byte_continuation : ∀ c : UInt8, c &&& 0xC0 = 0x80 →
    c.toNat = (c &&& 0x3F).toNat + 0x80 ∧ (c &&& 0x3F).toNat < 2 ^ 6 := by
  refine forall_byte ?_
  set_option maxRecDepth 4000 in decide

theorem not_continuation_lead : ∀ c : UInt8, (c < 0x80 ∨ c &&& 0xE0 = 0xC0 ∨ c &&& 0xF0 = 0xE0) →
    isContinuation c = false := by
  refine forall_byte ?_
  set_option maxRecDepth 4000 in decide

-- The bytes of a character up to U+FFFF, other than NUL.
inductive Spells : List UInt8 → Nat → Prop where
  | one {c : UInt8} (hc : c < 0x80) (hzero : c ≠ 0) : Spells [c] c.toNat
  | two {c c1 : UInt8} (hc : c &&& 0xE0 = 0xC0) (hc1 : c1 &&& 0xC0 = 0x80)
      (hok : 0x80 ≤ continuation (c &&& 0x1F).toNat c1) :
      Spells [c, c1] (continuation (c &&& 0x1F).toNat c1)
  | three {c c1 c2 : UInt8} (hc : c &&& 0xF0 = 0xE0) (hc1 : c1 &&& 0xC0 = 0x80)
      (hc2 : c2 &&& 0xC0 = 0x80)
      (hok : 0x800 ≤ continuation (continuation (c &&& 0x0F).toNat c1) c2) :
      Spells [c, c1, c2] (continuation (continuation (c &&& 0x0F).toNat c1) c2)

variable {chunk : List UInt8} {unit : Nat}

theorem Spells.unit_lt (h : Spells chunk unit) : 0 < unit ∧ unit < 0x10000 := by
  cases h with
  | @one c hc hzero =>
      obtain ⟨-, hle⟩ := byte_one c hc
      have hpos : c.toNat ≠ 0 := fun h => hzero (UInt8.toNat_inj.mp h)
      omega
  | @two c c1 hc hc1 hok =>
      have hlead := byte_two c hc
      have hnext := byte_continuation c1 hc1
      rw [continuation] at hok ⊢
      omega
  | @three c c1 c2 hc hc1 hc2 hok =>
      have hlead := byte_three c hc
      have hnext := byte_continuation c1 hc1
      have hlast := byte_continuation c2 hc2
      rw [continuation, continuation] at hok ⊢
      omega

theorem byteOf_toNat {n : Nat} {c : UInt8} (h : c.toNat = n) : byteOf n = c := by
  rw [byteOf, ← h, UInt8.ofNat_toNat]

-- A character is encoded as it was spelled.
theorem Spells.encode (h : Spells chunk unit) : utf8Encode unit = chunk := by
  cases h with
  | @one c hc hzero =>
      obtain ⟨-, hle⟩ := byte_one c hc
      rw [utf8Encode, if_pos hle, byteOf_toNat rfl]
  | @two c c1 hc hc1 hok =>
      have hlead := byte_two c hc
      have hnext := byte_continuation c1 hc1
      rw [continuation] at hok ⊢
      rw [utf8Encode, if_neg (by omega), if_pos (by omega), @byteOf_toNat _ c (by omega),
        @byteOf_toNat _ c1 (by omega)]
  | @three c c1 c2 hc hc1 hc2 hok =>
      have hlead := byte_three c hc
      have hnext := byte_continuation c1 hc1
      have hlast := byte_continuation c2 hc2
      rw [continuation, continuation] at hok ⊢
      rw [utf8Encode, if_neg (by omega), if_neg (by omega), if_pos (by omega),
        @byteOf_toNat _ c (by omega), @byteOf_toNat _ c1 (by omega),
        @byteOf_toNat _ c2 (by omega)]

-- It is read as the unit it spells.
theorem Spells.read (h : Spells chunk unit) (rest : CString) :
    utf2unicode (chunk ++ rest) = (unit, chunk.length) := by
  cases h with
  | @one c hc hzero =>
      obtain ⟨hsize, -⟩ := byte_one c hc
      simp only [utf2unicode, List.cons_append, List.getD_cons_zero, hsize]
      rfl
  | @two c c1 hc hc1 hok =>
      have hlead := byte_two c hc
      have hnext := byte_continuation c1 hc1
      simp only [utf2unicode, List.cons_append, List.getD_cons_zero, List.getD_cons_succ,
        hlead.1, hc1, continuation]
      simp only [bne_self_eq_false, Bool.false_eq_true, if_false, List.length_cons, List.length_nil]
      congr 1
      omega
  | @three c c1 c2 hc hc1 hc2 hok =>
      have hlead := byte_three c hc
      have hnext := byte_continuation c1 hc1
      have hlast := byte_continuation c2 hc2
      simp only [utf2unicode, List.cons_append, List.getD_cons_zero, List.getD_cons_succ,
        hlead.1, hc1, hc2, continuation]
      simp only [bne_self_eq_false, Bool.or_self, Bool.false_eq_true, if_false, List.length_cons,
        List.length_nil]
      congr 1
      omega

-- A string and the units it spells.
inductive Spelled : CString → List Nat → Prop where
  | nil : Spelled [] []
  | cons {chunk : List UInt8} {unit : Nat} {rest : CString} {units : List Nat}
      (hchunk : Spells chunk unit) (hrest : Spelled rest units) :
      Spelled (chunk ++ rest) (unit :: units)

theorem Spelled.unit_lt {str : CString} {units : List Nat} (h : Spelled str units) :
    ∀ unit ∈ units, unit < 2 ^ 16 := by
  induction h with
  | nil => exact nofun
  | cons hchunk hrest ih =>
      intro unit hunit
      rcases List.mem_cons.mp hunit with rfl | hunit
      · exact hchunk.unit_lt.2
      · exact ih unit hunit

-- The number of characters: the bytes that continue no character.
def characters (str : CString) : Nat := str.countP fun c => !isContinuation c

theorem Spells.characters (h : Spells chunk unit) (rest : CString) :
    characters (chunk ++ rest) = characters rest + 1 := by
  have hcount : chunk.countP (fun c => !isContinuation c) = 1 := by
    cases h with
    | @one c hc hzero =>
        have hlead := not_continuation_lead c (Or.inl hc)
        simp [hlead]
    | @two c c1 hc hc1 hok =>
        have hlead := not_continuation_lead c (Or.inr (Or.inl hc))
        have hnext : isContinuation c1 = true := by simp [isContinuation, hc1]
        simp [hlead, hnext]
    | @three c c1 c2 hc hc1 hc2 hok =>
        have hlead := not_continuation_lead c (Or.inr (Or.inr hc))
        have hnext : isContinuation c1 = true := by simp [isContinuation, hc1]
        have hlast : isContinuation c2 = true := by simp [isContinuation, hc2]
        simp [hlead, hnext, hlast]
  rw [Text.characters, List.countP_append, hcount, Text.characters, Nat.add_comm]

theorem le_of_codePointOk_two {cp : Nat} (h : codePointOk 2 cp = true) : 0x80 ≤ cp := by
  simp [codePointOk] at h
  omega

theorem le_of_codePointOk_three {cp : Nat} (h : codePointOk 3 cp = true) : 0x800 ≤ cp := by
  simp [codePointOk] at h
  omega

-- Valid strings without characters above U+FFFF are spelled.
theorem spelled_of_valid {str : CString} (hvalid : utf8Validate str = true)
    (hsmall : ∀ c ∈ str, c < 0xF0) (hzero : ∀ c ∈ str, c ≠ 0) :
    ∃ units, Spelled str units ∧ units.length = characters str := by
  have hcons : ∀ {chunk unit rest}, Spells chunk unit →
      (∃ units, Spelled rest units ∧ units.length = characters rest) →
      ∃ units, Spelled (chunk ++ rest) units ∧ units.length = characters (chunk ++ rest) := by
    rintro chunk unit rest hchunk ⟨units, hspelled, hlen⟩
    refine ⟨unit :: units, .cons hchunk hspelled, ?_⟩
    rw [hchunk.characters, List.length_cons, hlen]
  fun_induction utf8Validate str with
  | case1 => exact ⟨[], .nil, rfl⟩
  | case2 c rest hc ih =>
      exact hcons (.one hc (hzero c List.mem_cons_self)) (ih hvalid
        (fun c hc => hsmall c (List.mem_cons_of_mem _ hc))
        fun c hc => hzero c (List.mem_cons_of_mem _ hc))
  | case3 c hc hlead c1 rest ih =>
      simp only [Bool.and_eq_true] at hvalid
      obtain ⟨⟨hc1, hok⟩, hrest⟩ := hvalid
      have hspells : Spells [c, c1] (continuation (c &&& 0x1F).toNat c1) :=
        .two (by simpa using hlead) (by simpa [isContinuation] using hc1)
          (le_of_codePointOk_two hok)
      exact hcons hspells (ih hrest (fun c hc => hsmall c (by simp [hc]))
        fun c hc => hzero c (by simp [hc]))
  | case5 c hc htwo hlead c1 c2 rest ih =>
      simp only [Bool.and_eq_true] at hvalid
      obtain ⟨⟨⟨hc1, hc2⟩, hok⟩, hrest⟩ := hvalid
      have hspells : Spells [c, c1, c2]
          (continuation (continuation (c &&& 0x0F).toNat c1) c2) :=
        .three (by simpa using hlead) (by simpa [isContinuation] using hc1)
          (by simpa [isContinuation] using hc2) (le_of_codePointOk_three hok)
      exact hcons hspells (ih hrest (fun c hc => hsmall c (by simp [hc]))
        fun c hc => hzero c (by simp [hc]))
  | case7 c hc htwo hthree hlead =>
      exact absurd (hsmall c List.mem_cons_self) (byte_four c (by simpa using hlead))
  | case4 | case6 | case8 | case9 => cases hvalid

theorem spelled_ascii {str : CString} (hascii : ∀ c ∈ str, c < 0x80 ∧ c ≠ 0) :
    ∃ units, Spelled str units ∧ units.length = str.length := by
  induction str with
  | nil => exact ⟨[], .nil, rfl⟩
  | cons c rest ih =>
      obtain ⟨units, hspelled, hlen⟩ := ih fun d hd => hascii d (List.mem_cons_of_mem _ hd)
      obtain ⟨hc, hzero⟩ := hascii c List.mem_cons_self
      exact ⟨_, .cons (.one hc hzero) hspelled, by rw [List.length_cons, List.length_cons, hlen]⟩

-- The units that a string is written as: those it spells, and a zero if there is
-- room for one.
theorem Spelled.units {str : CString} {units : List Nat} (h : Spelled str units) {count : Nat}
    (hcount : units.length < count) : unicodeUnits count str = units ++ [0] := by
  induction h generalizing count with
  | nil =>
      obtain ⟨count, rfl⟩ := Nat.exists_eq_succ_of_ne_zero (by omega : count ≠ 0)
      rw [unicodeUnits]
      rfl
  | @cons chunk unit rest units hchunk hrest ih =>
      obtain ⟨count, rfl⟩ := Nat.exists_eq_succ_of_ne_zero (by omega : count ≠ 0)
      rw [List.length_cons] at hcount
      have hpos := hchunk.unit_lt
      have hlen : chunk.length ≠ 0 := by cases hchunk <;> simp
      have hgoes : ¬(decide (unit = 0) || decide (chunk.length = 0)) = true := by
        rw [Bool.or_eq_true, decide_eq_true_iff, decide_eq_true_iff]
        omega
      rw [unicodeUnits, hchunk.read]
      dsimp only
      rw [if_neg hgoes, List.drop_left, ih (by omega), List.cons_append]

-- Units are read back up to the first zero, in as much room as they need, and nothing
-- is cut then.
theorem Spelled.convertUnits {str : CString} {units : List Nat} (h : Spelled str units)
    {maxstrsize : Nat} (front : CString) (rest : List Nat)
    (hroom : front.length + str.length < maxstrsize) :
    convertUnits maxstrsize (units ++ 0 :: rest) front = (front ++ str, some 0) := by
  induction h generalizing front with
  | nil => rw [List.nil_append, Text.convertUnits, if_pos rfl, List.append_nil]
  | @cons chunk unit tail units hchunk hrest ih =>
      have hpos := hchunk.unit_lt
      have hsome : chunk ≠ [] := by cases hchunk <;> simp
      rw [List.length_append] at hroom
      rw [List.cons_append, Text.convertUnits, if_neg (by omega), hchunk.encode]
      dsimp only
      rw [if_neg hsome, if_pos (by omega), ih (front ++ chunk) (by rw [List.length_append]; omega),
        List.append_assoc]

theorem Spelled.charstring {str : CString} {units : List Nat} (h : Spelled str units)
    {maxstrsize : Nat} (front : CString) (rest : List Nat)
    (hroom : front.length + str.length < maxstrsize) :
    unicode2charstring maxstrsize (units ++ 0 :: rest) front = front ++ str :=
  congrArg Prod.fst (h.convertUnits front rest hroom)

theorem Spelled.charstringReturn {str : CString} {units : List Nat} (h : Spelled str units)
    {maxstrsize : Nat} (front : CString) (rest : List Nat)
    (hroom : front.length + str.length < maxstrsize) :
    unicode2charstringReturn maxstrsize (units ++ 0 :: rest) front = 0 :=
  congrArg (fun result => result.2.getD 0) (h.convertUnits front rest hroom)

end Umtp.Text
