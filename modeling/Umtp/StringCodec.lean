import Umtp.Incoming
import Umtp.Sanitize

namespace Umtp

open Lib Handles Text

namespace Text

theorem bits_of_isContinuation {c : UInt8} (h : isContinuation c = true) : c &&& 0xC0 = 0x80 :=
  beq_iff_eq.mp h

-- Every unit other than zero is spelled by its encoding.
theorem spells_utf8Encode {unit : Nat} (hpos : 0 < unit) (hlt : unit < 2 ^ 16) :
    Spells (utf8Encode unit) unit := by
  rw [utf8Encode]
  by_cases hone : unit ≤ 0x7F
  · have hbyte : (byteOf unit).toNat = unit := by
      rw [byteOf, UInt8.toNat_ofNat']
      omega
    have hsmall : byteOf unit < 0x80 := by
      rw [UInt8.lt_iff_toNat_lt, hbyte]
      change unit < 128
      omega
    have hzero : byteOf unit ≠ 0 := by
      intro h
      rw [h] at hbyte
      change 0 = unit at hbyte
      omega
    have hspells := Spells.one hsmall hzero
    rw [if_pos hone]
    rwa [hbyte] at hspells
  rw [if_neg hone]
  have hlast := next_byte (unit % 2 ^ 6) (by omega)
  by_cases htwo : unit ≤ 0x07FF
  · obtain ⟨-, hlead, hbits⟩ := lead_two (unit / 2 ^ 6 % 2 ^ 5) (by omega)
    have hsame : continuation (byteOf (unit / 2 ^ 6 % 2 ^ 5 + 0xC0) &&& 0x1F).toNat
        (byteOf (unit % 2 ^ 6 + 0x80)) = unit := by
      rw [continuation, byteOf, byteOf, hbits, hlast.2]
      omega
    have hspells := Spells.two hlead (bits_of_isContinuation hlast.1)
      (by rw [byteOf, byteOf] at hsame; rw [hsame]; omega)
    rw [if_pos htwo]
    rw [byteOf, byteOf] at hsame ⊢
    rwa [hsame] at hspells
  · rw [if_neg htwo, if_pos (by omega)]
    have hmiddle := next_byte (unit / 2 ^ 6 % 2 ^ 6) (by omega)
    obtain ⟨-, -, hlead, hbits⟩ := lead_three (unit / 2 ^ 12 % 2 ^ 4) (by omega)
    have hsame : continuation (continuation (byteOf (unit / 2 ^ 12 % 2 ^ 4 + 0xE0) &&& 0x0F).toNat
        (byteOf (unit / 2 ^ 6 % 2 ^ 6 + 0x80))) (byteOf (unit % 2 ^ 6 + 0x80)) = unit := by
      rw [continuation, continuation, byteOf, byteOf, byteOf, hbits, hmiddle.2, hlast.2]
      omega
    have hspells := Spells.three hlead (bits_of_isContinuation hmiddle.1)
      (bits_of_isContinuation hlast.1)
      (by rw [byteOf, byteOf, byteOf] at hsame; rw [hsame]; omega)
    rw [byteOf, byteOf, byteOf] at hsame ⊢
    rwa [hsame] at hspells

theorem spelled_utf8Encode {units : List Nat} (hunits : ∀ unit ∈ units, 0 < unit ∧ unit < 2 ^ 16) :
    Spelled (units.flatMap utf8Encode) units := by
  induction units with
  | nil => exact .nil
  | cons unit units ih =>
      obtain ⟨hpos, hlt⟩ := hunits unit List.mem_cons_self
      rw [List.flatMap_cons]
      exact .cons (spells_utf8Encode hpos hlt) (ih fun v hv => hunits v (List.mem_cons_of_mem _ hv))

theorem Spelled.ne_nil {str : CString} {units : List Nat} (h : Spelled str units)
    (hunits : units ≠ []) : str ≠ [] := by
  cases h with
  | nil => exact absurd rfl hunits
  | @cons chunk unit rest units hchunk hrest =>
      have hsome : chunk ≠ [] := by cases hchunk <;> simp
      exact List.append_ne_nil_of_left_ne_nil hsome rest

-- Both encoders give the same bytes for a character.
theorem utf8Encode_char {c : Char} (hc : c.val.toNat < 2 ^ 16) :
    utf8Encode c.val.toNat = String.utf8EncodeChar c := by
  rw [utf8Encode, String.utf8EncodeChar]
  by_cases hone : c.val.toNat ≤ 0x7F
  · rw [if_pos hone, if_pos hone]
    rfl
  by_cases htwo : c.val.toNat ≤ 0x07FF
  · rw [if_neg hone, if_neg hone, if_pos htwo, if_pos htwo]
    rfl
  · rw [if_neg hone, if_neg hone, if_neg htwo, if_neg htwo, if_pos (by omega), if_pos (by omega)]
    rfl

theorem flatMap_utf8Encode {chars : List Char} (hchars : ∀ c ∈ chars, c.val.toNat < 2 ^ 16) :
    (chars.map fun c => c.val.toNat).flatMap utf8Encode = chars.flatMap String.utf8EncodeChar := by
  rw [List.flatMap_map]
  exact List.flatMap_congr fun c hc => utf8Encode_char (hchars c hc)

-- The units of a string with the zero behind them.
theorem Spelled.stringUnits {str : CString} {units : List Nat} (h : Spelled str units)
    (hcount : units.length ≤ 254) : stringUnits str = units ++ [0] := by
  have hsize : UNICODE_STR_SIZE = 255 := rfl
  have hunits : unicodeUnits UNICODE_STR_SIZE str = units ++ [0] := h.units (by omega)
  unfold Umtp.stringUnits
  rw [hunits]
  dsimp only
  split
  · rw [List.dropLast_concat]
  · rfl

end Text

-- What poke_string puts into a buffer that is large enough.
theorem pokeString_spelled {str : CString} {units : List Nat} (hspelled : Spelled str units)
    (hsome : str ≠ []) (hcount : units.length ≤ 254) {maxsize : Int} (buffer : Buffer) {ofs : Nat}
    (hroom : (ofs + (2 * units.length + 3) : Int) < maxsize) :
    pokeString maxsize str (buffer, ofs) =
      (buffer.write ofs (UInt8.ofNat (units.length + 1) ::
        (units ++ [0]).flatMap (littleEndian 2)),
        ((ofs + (2 * units.length + 3) : Nat) : Int)) := by
  have hbytes : stringBytes str = UInt8.ofNat (units.length + 1) ::
      (units ++ [0]).flatMap (littleEndian 2) := by
    rw [stringBytes, if_neg hsome, hspelled.stringUnits hcount, List.length_append,
      List.length_singleton]
  have hlen : (stringBytes str).length = 2 * units.length + 3 := by
    rw [hbytes, List.length_cons, length_units, List.length_append, List.length_singleton]
    omega
  have hfits := (@encodes_pokeString maxsize str).fits buffer ofs
    (by rw [hlen]; exact_mod_cast hroom)
  rw [hfits, hlen, hbytes]

-- A buffer with nothing behind the bytes.
def Buffer.ofBytes (bytes : List UInt8) : Buffer := fun i => bytes.getD i 0

-- The units from an index on.
def unitsFrom (b : Buffer) (index count : Nat) : List Nat :=
  (List.range count).map fun i => peek b (index + i * 2) 2

theorem unitsFrom_add (b : Buffer) (index count more : Nat) :
    ∃ rest, unitsFrom b index (count + more) = unitsFrom b index count ++ rest := by
  rw [unitsFrom, List.range_add, List.map_append]
  exact ⟨_, rfl⟩

-- The units are read again behind the count.
theorem unitsFrom_write {units : List Nat} (hunits : ∀ unit ∈ units, unit < 2 ^ 16)
    (buffer : Buffer) (ofs : Nat) (count : UInt8) :
    unitsFrom (buffer.write ofs (count :: units.flatMap (littleEndian 2))) (ofs + 1)
      units.length = units := by
  have hwhole := Buffer.read_write_self buffer ofs
    (count :: units.flatMap (littleEndian 2))
  have hback := @Buffer.read_middle (buffer.write ofs (count :: units.flatMap (littleEndian 2)))
    [count] (units.flatMap (littleEndian 2)) [] ofs _ (by rw [hwhole, List.append_nil]; rfl)
  exact peek_units hback hunits

theorem peek_count {units : List Nat} (hcount : units.length ≤ 254) (buffer : Buffer) (ofs : Nat)
    (rest : List UInt8) :
    peek (buffer.write ofs (UInt8.ofNat (units.length + 1) :: rest)) ofs 1 = units.length + 1 := by
  have hwhole := Buffer.read_write_self buffer ofs
    (UInt8.ofNat (units.length + 1) :: rest)
  have hfront := @Buffer.read_middle (buffer.write ofs (UInt8.ofNat (units.length + 1) :: rest))
    [] [UInt8.ofNat (units.length + 1)] rest ofs _ (by rw [hwhole]; rfl)
  rw [← littleEndian_one, length_littleEndian] at hfront
  change (buffer.write ofs _).read ofs 1 = _ at hfront
  rw [peek, peekBytes_of_read hfront]
  exact Nat.mod_eq_of_lt (by omega)

-- Units are turned into the string that they spell, and that string into the units.
-- A string comes back from what it is sent as, however many units are read.
theorem string_codec :
    (∀ units : List Nat, units ≠ [] → units.length ≤ 254 →
      (∀ unit ∈ units, 0 < unit ∧ unit < 2 ^ 16) → (units.flatMap utf8Encode).length ≤ 256 →
      unicode2charstringReturn 257 (units ++ [0]) [] = 0 ∧
      unicode2charstring 257 (units ++ [0]) [] = units.flatMap utf8Encode ∧
      ∀ (maxsize : Int) (buffer : Buffer) (ofs : Nat),
        (ofs + (2 * units.length + 3) : Int) < maxsize →
        pokeString maxsize (units.flatMap utf8Encode) (buffer, ofs) =
          (buffer.write ofs (UInt8.ofNat (units.length + 1) ::
            (units ++ [0]).flatMap (littleEndian 2)),
            ((ofs + (2 * units.length + 3) : Nat) : Int))) ∧
    ∀ chars : List Char, chars ≠ [] → chars.length ≤ 254 →
      (∀ c ∈ chars, c.val ≠ 0 ∧ c.val.toNat < 0x10000) →
      (chars.flatMap String.utf8EncodeChar).length ≤ 256 →
      ∀ (maxsize : Int) (buffer : Buffer) (ofs : Nat),
        (ofs + (2 * chars.length + 3) : Int) < maxsize →
        peek (pokeString maxsize (chars.flatMap String.utf8EncodeChar) (buffer, ofs)).1 ofs 1 =
          chars.length + 1 ∧
        ∀ count, chars.length + 1 ≤ count →
          unicode2charstringReturn 257 (unitsFrom (pokeString maxsize
            (chars.flatMap String.utf8EncodeChar) (buffer, ofs)).1 (ofs + 1) count) [] = 0 ∧
          unicode2charstring 257 (unitsFrom (pokeString maxsize
            (chars.flatMap String.utf8EncodeChar) (buffer, ofs)).1 (ofs + 1) count) [] =
            chars.flatMap String.utf8EncodeChar := by
  constructor
  · intro units hsome hcount hunits hlen
    have hspelled := spelled_utf8Encode hunits
    have hroom : ([] : CString).length + (units.flatMap utf8Encode).length < 257 := by
      rw [List.length_nil]
      omega
    have hstr := hspelled.ne_nil hsome
    exact ⟨hspelled.charstringReturn [] [] hroom, hspelled.charstring [] [] hroom,
      fun maxsize buffer ofs => pokeString_spelled hspelled hstr hcount buffer⟩
  · intro chars hsome hcount hchars hlen maxsize buffer ofs hroom
    have hlt : ∀ c ∈ chars, c.val.toNat < 2 ^ 16 := fun c hc => (hchars c hc).2
    obtain ⟨units, hunits⟩ : ∃ units, units = chars.map fun c => c.val.toNat := ⟨_, rfl⟩
    have hnumber : units.length = chars.length := by rw [hunits, List.length_map]
    have hpos : ∀ unit ∈ units, 0 < unit ∧ unit < 2 ^ 16 := by
      intro unit hunit
      rw [hunits] at hunit
      obtain ⟨c, hc, rfl⟩ := List.mem_map.mp hunit
      have hzero : c.val.toNat ≠ 0 := fun h => (hchars c hc).1 (UInt32.toNat_inj.mp h)
      exact ⟨by omega, hlt c hc⟩
    have hspelled := spelled_utf8Encode hpos
    rw [hunits, flatMap_utf8Encode hlt, ← hunits] at hspelled
    have hzeros : ∀ unit ∈ units ++ [0], unit < 2 ^ 16 := by
      intro unit hunit
      rcases List.mem_append.mp hunit with hunit | hunit
      · exact (hpos unit hunit).2
      · rw [List.mem_singleton.mp hunit]
        decide
    have hstr := hspelled.ne_nil (by simpa [hunits] using hsome)
    have hfits : ([] : CString).length + (chars.flatMap String.utf8EncodeChar).length < 257 := by
      rw [List.length_nil]
      omega
    rw [← hnumber] at hcount hroom ⊢
    rw [pokeString_spelled hspelled hstr hcount buffer hroom]
    refine ⟨peek_count hcount buffer ofs _, fun count hlarge => ?_⟩
    have hread := unitsFrom_write hzeros buffer ofs (UInt8.ofNat (units.length + 1))
    rw [List.length_append, List.length_singleton] at hread
    obtain ⟨more, rfl⟩ := Nat.exists_eq_add_of_le hlarge
    obtain ⟨rest, hrest⟩ := unitsFrom_add (buffer.write ofs (UInt8.ofNat (units.length + 1) ::
      (units ++ [0]).flatMap (littleEndian 2))) (ofs + 1) (units.length + 1) more
    rw [hread, List.append_assoc] at hrest
    rw [hrest]
    exact ⟨hspelled.charstringReturn [] rest hfits, hspelled.charstring [] rest hfits⟩

-- A character of two bytes and one of three, as units and as a string that is sent.
theorem string_codec_sample :
    unicode2charstring 257 ([0xE9, 0x20AC] ++ [0]) [] = [0xC3, 0xA9, 0xE2, 0x82, 0xAC] ∧
      unicode2charstring 257 (unitsFrom (pokeString 64
        (['é', '€'].flatMap String.utf8EncodeChar) (Buffer.ofBytes [], 0)).1 1 3) [] =
          [0xC3, 0xA9, 0xE2, 0x82, 0xAC] := by
  constructor
  · rw [(string_codec.1 [0xE9, 0x20AC] (by decide) (by decide) (by decide)
      (by decide +kernel)).2.1]
    decide +kernel
  · have hsent := string_codec.2 ['é', '€'] (by decide) (by decide) (by simp)
      (by decide +kernel) 64 (Buffer.ofBytes []) 0 (by simp)
    exact (hsent.2 3 (by decide)).2.trans (by decide +kernel)

end Umtp
