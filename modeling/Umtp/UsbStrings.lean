import Umtp.WholeNames

namespace Umtp

open Lib Handles Text

-- usbstring.c

-- The units that are put into the descriptor. The bytes that follow the lead of a
-- sequence are checked for 11xxxxxx, and the end of the string fails the check.
def utf8ToUtf16le : (len : Nat) → CString → Option (List Nat)
  | 0, _ => some []
  | _ + 1, [] => some []
  | len + 1, c :: rest =>
    if c &&& 0x80 = 0 then
      (utf8ToUtf16le len rest).map (c.toNat :: ·)
    else if c &&& 0xE0 = 0xC0 then
      match rest with
      | c1 :: rest =>
        if c1 &&& 0xC0 ≠ 0xC0 then none
        else (utf8ToUtf16le len rest).map (continuation (c &&& 0x1F).toNat c1 :: ·)
      | [] => none
    else if c &&& 0xF0 = 0xE0 then
      match rest with
      | c1 :: c2 :: rest =>
        if c1 &&& 0xC0 ≠ 0xC0 ∨ c2 &&& 0xC0 ≠ 0xC0 then none
        else
          let uchar := continuation (continuation (c &&& 0x0F).toNat c1) c2
          if 0xD800 ≤ uchar ∧ uchar ≤ 0xDFFF then none
          else (utf8ToUtf16le len rest).map (uchar :: ·)
      | _ => none
    else
      none

structure UsbString where
  id : Nat
  str : Option CString
deriving DecidableEq, Repr

def MAX_USB_STRING : Nat := 16
def USB_DT_STRING : Nat := 3
def USB_LANGUAGE : Nat := 0x0409
def MAX_DESCRIPTOR_UNITS : Nat := 126

-- A string descriptor has its length, its tag and UTF16-LE text.
def stringDescriptor (str : CString) : Option (List UInt8) :=
  (utf8ToUtf16le (min str.length MAX_DESCRIPTOR_UNITS) str).map fun units =>
    littleEndian 1 ((units.length + 1) * 2) ++ littleEndian 1 USB_DT_STRING ++
      units.flatMap (littleEndian 2)

-- The search ends at the first entry without a string.
def usbGadgetGetString (table : List UsbString) (id : Nat) : Option (List UInt8) :=
  if id = 0 then
    some (littleEndian 1 4 ++ littleEndian 1 USB_DT_STRING ++ littleEndian 2 USB_LANGUAGE)
  else
    ((table.takeWhile fun s => s.str.isSome).find? fun s => s.id == id).bind fun s =>
      s.str.bind stringDescriptor

-- usb_gadget.c

-- A string takes the first entry without an id. `memory` is the outcome of the malloc.
def addUsbString (table : List UsbString) (id : Nat) (string : Option CString) (memory : Bool) :
    Int × List UsbString :=
  match table.findIdx? fun s => s.id == 0 with
  | some i =>
    match string with
    | some str =>
      if memory then (i, table.set i ⟨id, some str⟩) else (-2, table.set i ⟨0, none⟩)
    | none => (i, table.set i { table.getD i ⟨0, none⟩ with id := id })
  | none => (-1, table)

def STRINGID_MANUFACTURER : Nat := 1
def STRINGID_PRODUCT : Nat := 2
def STRINGID_SERIAL : Nat := 3
def STRINGID_CONFIG_HS : Nat := 4
def STRINGID_CONFIG_LS : Nat := 5
def STRINGID_INTERFACE : Nat := 6
def STRINGID_MAX : Nat := 7

-- The strings of the configuration.
structure UsbStringsCfg where
  manufacturer : CString
  product : CString
  serial : CString
  interface : CString

-- "High speed configuration" and "Low speed configuration"
def HIGH_SPEED : CString := [0x48, 0x69, 0x67, 0x68, 0x20, 0x73, 0x70, 0x65, 0x65, 0x64, 0x20,
  0x63, 0x6F, 0x6E, 0x66, 0x69, 0x67, 0x75, 0x72, 0x61, 0x74, 0x69, 0x6F, 0x6E]
def LOW_SPEED : CString := [0x4C, 0x6F, 0x77, 0x20, 0x73, 0x70, 0x65, 0x65, 0x64, 0x20, 0x63,
  0x6F, 0x6E, 0x66, 0x69, 0x67, 0x75, 0x72, 0x61, 0x74, 0x69, 0x6F, 0x6E]

namespace UsbStringsCfg

variable (cfg : UsbStringsCfg)

def strings : List (Nat × CString) :=
  [(STRINGID_MANUFACTURER, cfg.manufacturer), (STRINGID_PRODUCT, cfg.product),
    (STRINGID_SERIAL, cfg.serial), (STRINGID_CONFIG_HS, HIGH_SPEED),
    (STRINGID_CONFIG_LS, LOW_SPEED), (STRINGID_INTERFACE, cfg.interface)]

-- The table that `init_usb_mtp_gadget` fills. `memory` has the outcomes of the mallocs
-- by string id.
def stringtab (memory : Nat → Bool) : List UsbString :=
  let table := cfg.strings.foldl (fun table string =>
    (addUsbString table string.1 (some string.2) (memory string.1)).2)
    (List.replicate MAX_USB_STRING ⟨0, none⟩)
  (addUsbString table STRINGID_MAX none true).2

end UsbStringsCfg

section Table

variable {front : List UsbString} {free : Nat}

-- Entries with an id, then free ones.
theorem findIdx?_free (hfront : ∀ s ∈ front, s.id ≠ 0) :
    (front ++ List.replicate (free + 1) (⟨0, none⟩ : UsbString)).findIdx? (fun s => s.id == 0) =
      some front.length := by
  rw [List.findIdx?_append, List.findIdx?_eq_none_iff.mpr fun s hs => by simp [hfront s hs],
    List.replicate_succ, List.findIdx?_cons]
  simp

theorem addUsbString_some (hfront : ∀ s ∈ front, s.id ≠ 0) (id : Nat) (str : CString)
    (memory : Bool) :
    (addUsbString (front ++ List.replicate (free + 1) ⟨0, none⟩) id (some str) memory).2 =
      if memory = true then front ++ [⟨id, some str⟩] ++ List.replicate free ⟨0, none⟩
      else front ++ List.replicate (free + 1) ⟨0, none⟩ := by
  rw [addUsbString, findIdx?_free hfront]
  cases memory with
  | true => simp [List.replicate_succ]
  | false => simp [List.replicate_succ]

theorem addUsbString_none (hfront : ∀ s ∈ front, s.id ≠ 0) (id : Nat) (memory : Bool) :
    (addUsbString (front ++ List.replicate (free + 1) ⟨0, none⟩) id none memory).2 =
      front ++ [⟨id, none⟩] ++ List.replicate free ⟨0, none⟩ := by
  rw [addUsbString, findIdx?_free hfront]
  simp [List.replicate_succ]

-- The strings that found memory, in order.
def keptStrings (memory : Nat → Bool) (strings : List (Nat × CString)) : List UsbString :=
  (strings.filter fun string => memory string.1).map fun string => ⟨string.1, some string.2⟩

theorem foldl_addUsbString (memory : Nat → Bool) (strings : List (Nat × CString))
    (hids : ∀ string ∈ strings, string.1 ≠ 0) (hfront : ∀ s ∈ front, s.id ≠ 0) (free : Nat)
    (hfree : strings.length ≤ free) :
    ∃ left, free ≤ left + strings.length ∧
      strings.foldl (fun table string =>
          (addUsbString table string.1 (some string.2) (memory string.1)).2)
        (front ++ List.replicate free ⟨0, none⟩) =
      front ++ keptStrings memory strings ++ List.replicate left ⟨0, none⟩ := by
  induction strings generalizing front free with
  | nil => exact ⟨free, Nat.le_add_right _ _, by simp [keptStrings]⟩
  | cons string strings ih =>
      rw [List.length_cons] at hfree
      obtain ⟨free, rfl⟩ := Nat.exists_eq_succ_of_ne_zero (by omega : free ≠ 0)
      have hrest : ∀ s ∈ strings, s.1 ≠ 0 := fun s hs => hids s (List.mem_cons_of_mem _ hs)
      rw [List.foldl_cons, Nat.succ_eq_add_one, addUsbString_some hfront]
      cases hmem : memory string.1 with
      | true =>
          have hmore : ∀ s ∈ front ++ [⟨string.1, some string.2⟩], s.id ≠ 0 := by
            intro s hs
            rcases List.mem_append.mp hs with hs | hs
            · exact hfront s hs
            · rw [List.mem_singleton.mp hs]
              exact hids string List.mem_cons_self
          obtain ⟨left, hleft, heq⟩ := ih hrest hmore free (by omega)
          refine ⟨left, by rw [List.length_cons]; omega, ?_⟩
          rw [if_pos rfl, heq]
          simp [keptStrings, hmem]
      | false =>
          obtain ⟨left, hleft, heq⟩ := ih hrest hfront (free + 1) (by omega)
          refine ⟨left, by rw [List.length_cons]; omega, ?_⟩
          rw [if_neg Bool.false_ne_true, heq]
          simp [keptStrings, hmem]

end Table

-- The entry for STRINGID_MAX ends the strings of the table.
theorem takeWhile_stringtab (cfg : UsbStringsCfg) (memory : Nat → Bool) :
    (cfg.stringtab memory).takeWhile (fun s => s.str.isSome) = keptStrings memory cfg.strings := by
  have hids : ∀ string ∈ cfg.strings, string.1 ≠ 0 := by
    simp [UsbStringsCfg.strings, STRINGID_MANUFACTURER, STRINGID_PRODUCT, STRINGID_SERIAL,
      STRINGID_CONFIG_HS, STRINGID_CONFIG_LS, STRINGID_INTERFACE]
  have hlength : cfg.strings.length = 6 := rfl
  obtain ⟨left, hleft, hfold⟩ := @foldl_addUsbString [] memory cfg.strings hids (by simp)
    MAX_USB_STRING (by rw [hlength]; decide)
  have hmax : MAX_USB_STRING = 16 := rfl
  obtain ⟨left, rfl⟩ := Nat.exists_eq_succ_of_ne_zero (by omega : left ≠ 0)
  have hkept : ∀ s ∈ keptStrings memory cfg.strings, s.id ≠ 0 := by
    intro s hs
    obtain ⟨string, hstring, rfl⟩ := List.mem_map.mp hs
    exact hids string (List.mem_filter.mp hstring).1
  rw [List.nil_append, List.nil_append] at hfold
  have htable : cfg.stringtab memory = keptStrings memory cfg.strings ++
      [⟨STRINGID_MAX, none⟩] ++ List.replicate left ⟨0, none⟩ := by
    rw [UsbStringsCfg.stringtab, hfold, addUsbString_none hkept]
  rw [htable, List.append_assoc, List.takeWhile_append_of_pos]
  · simp
  · intro s hs
    obtain ⟨string, -, rfl⟩ := List.mem_map.mp hs
    rfl

-- What is found in the table: the string, if it found memory.
theorem usbGadgetGetString_stringtab (cfg : UsbStringsCfg) (memory : Nat → Bool) (id : Nat) :
    usbGadgetGetString (cfg.stringtab memory) id =
      if id = 0 then
        some (littleEndian 1 4 ++ littleEndian 1 USB_DT_STRING ++ littleEndian 2 USB_LANGUAGE)
      else
        (cfg.strings.find? fun string => memory string.1 && string.1 == id).bind fun string =>
          stringDescriptor string.2 := by
  rw [usbGadgetGetString, takeWhile_stringtab]
  by_cases hzero : id = 0
  · rw [if_pos hzero, if_pos hzero]
  · rw [if_neg hzero, if_neg hzero, keptStrings, List.find?_map, List.find?_filter]
    rw [Option.bind_map]
    refine congrArg (Option.bind · _) (List.find?_congr fun string _ => ?_)
    rw [Bool.eq_iff_iff]
    simp

-- The text of a descriptor

theorem high_bit : ∀ c : UInt8, c &&& 0x80 = 0 ↔ c < 0x80 := by
  refine forall_byte ?_
  set_option maxRecDepth 4000 in decide

theorem continuation_refused {c : UInt8} (h : isContinuation c = true) : c &&& 0xC0 ≠ 0xC0 := by
  rw [bits_of_isContinuation h]
  decide

-- No sequence of several bytes passes the check.
theorem utf8ToUtf16le_wide {c : Char} (hwide : ¬c.val.toNat ≤ 0x7F) (len : Nat) (rest : CString) :
    utf8ToUtf16le (len + 1) (String.utf8EncodeChar c ++ rest) = none := by
  rw [String.utf8EncodeChar]
  generalize c.val.toNat = v at hwide ⊢
  rw [if_neg hwide]
  have hlast := continuation_refused (next_byte (v % 64) (by omega)).1
  have hmiddle := continuation_refused (next_byte (v / 64 % 64) (by omega)).1
  by_cases htwo : v ≤ 0x7FF
  · obtain ⟨hbig, hlead, -⟩ := lead_two (v / 64 % 32) (by omega)
    rw [if_pos htwo, List.cons_append, List.cons_append, utf8ToUtf16le,
      if_neg (mt (high_bit _).mp hbig), if_pos hlead]
    exact if_pos hlast
  rw [if_neg htwo]
  by_cases hthree : v ≤ 0xFFFF
  · obtain ⟨hbig, hno, hlead, -⟩ := lead_three (v / 4096 % 16) (by omega)
    rw [if_pos hthree, List.cons_append, List.cons_append, List.cons_append, utf8ToUtf16le,
      if_neg (mt (high_bit _).mp hbig), if_neg hno, if_pos hlead]
    exact if_pos (Or.inl hmiddle)
  · obtain ⟨hbig, hno, hno', -, -⟩ := lead_four (v / 262144 % 8) (by omega)
    rw [if_neg hthree, List.cons_append, utf8ToUtf16le.eq_def]
    dsimp only
    rw [if_neg (mt (high_bit _).mp hbig), if_neg hno, if_neg hno']

theorem utf8ToUtf16le_ascii {c : Char} (hascii : c.val.toNat ≤ 0x7F) (len : Nat) (rest : CString) :
    utf8ToUtf16le (len + 1) (String.utf8EncodeChar c ++ rest) =
      (utf8ToUtf16le len rest).map (c.val.toNat :: ·) := by
  rw [String.utf8EncodeChar]
  generalize c.val.toNat = v at hascii ⊢
  have hbyte : (UInt8.ofNat v).toNat = v := by
    rw [UInt8.toNat_ofNat']
    omega
  have hsmall : UInt8.ofNat v < 0x80 := by
    rw [UInt8.lt_iff_toNat_lt, hbyte]
    change v < 128
    omega
  rw [if_pos hascii, List.cons_append, List.nil_append, utf8ToUtf16le.eq_def]
  dsimp only
  rw [if_pos ((high_bit _).mpr hsmall), hbyte]

def IsAscii (c : Char) : Prop := c.val.toNat ≤ 0x7F

instance (c : Char) : Decidable (IsAscii c) := inferInstanceAs (Decidable (_ ≤ _))

def AllAscii (chars : List Char) : Prop := ∀ c ∈ chars, IsAscii c

instance (chars : List Char) : Decidable (AllAscii chars) := List.decidableBAll IsAscii chars

theorem allAscii_cons {c : Char} {chars : List Char} :
    AllAscii (c :: chars) ↔ IsAscii c ∧ AllAscii chars :=
  List.forall_mem_cons

-- A text is converted up to its length or the room, if that is all ASCII.
theorem utf8ToUtf16le_text (chars : List Char) (len : Nat) :
    utf8ToUtf16le len (utf8 chars) =
      if AllAscii (chars.take len) then some ((chars.take len).map fun c => c.val.toNat)
      else none := by
  induction chars generalizing len with
  | nil => cases len <;> simp [utf8, utf8ToUtf16le, AllAscii]
  | cons c chars ih =>
      cases len with
      | zero => simp [utf8ToUtf16le, AllAscii]
      | succ len =>
          rw [utf8, List.flatMap_cons, ← utf8, List.take_succ_cons]
          by_cases hascii : IsAscii c
          · rw [utf8ToUtf16le_ascii hascii, ih]
            by_cases hrest : AllAscii (chars.take len)
            · rw [if_pos hrest, if_pos (allAscii_cons.mpr ⟨hascii, hrest⟩)]
              rfl
            · rw [if_neg hrest, if_neg fun h => hrest (allAscii_cons.mp h).2]
              rfl
          · rw [utf8ToUtf16le_wide hascii, if_neg fun h => hascii (allAscii_cons.mp h).1]

-- Up to 126 characters of a text, in the descriptor of a string.
theorem stringDescriptor_text (chars : List Char) :
    stringDescriptor (utf8 chars) =
      if AllAscii (chars.take MAX_DESCRIPTOR_UNITS) then
        some (littleEndian 1 (((chars.take MAX_DESCRIPTOR_UNITS).length + 1) * 2) ++
          littleEndian 1 USB_DT_STRING ++
          (chars.take MAX_DESCRIPTOR_UNITS).flatMap fun c => littleEndian 2 c.val.toNat)
      else none := by
  have hlength : chars.length ≤ (utf8 chars).length := by
    induction chars with
    | nil => exact Nat.zero_le _
    | cons c chars ih =>
        have hpos : 1 ≤ (String.utf8EncodeChar c).length := by
          rw [String.length_utf8EncodeChar]
          exact c.utf8Size_pos
        rw [utf8, List.flatMap_cons, List.length_append, ← utf8, List.length_cons]
        omega
  have htake : chars.take (min (utf8 chars).length MAX_DESCRIPTOR_UNITS) =
      chars.take MAX_DESCRIPTOR_UNITS := by
    rcases Nat.le_total (utf8 chars).length MAX_DESCRIPTOR_UNITS with hle | hle
    · rw [Nat.min_eq_left hle, List.take_of_length_le hlength,
        List.take_of_length_le (hlength.trans hle)]
    · rw [Nat.min_eq_right hle]
  rw [stringDescriptor, utf8ToUtf16le_text, htake]
  by_cases hascii : AllAscii (chars.take MAX_DESCRIPTOR_UNITS)
  · rw [if_pos hascii, if_pos hascii, Option.map_some, List.length_map, List.flatMap_map]
  · rw [if_neg hascii, if_neg hascii]
    rfl

-- A unit, and the conversion of what is left.
theorem utf8ToUtf16le_cons {len : Nat} {c : UInt8} {rest : CString} {units : List Nat}
    (h : utf8ToUtf16le (len + 1) (c :: rest) = some units) :
    ∃ unit left more, utf8ToUtf16le len left = some more ∧ units = unit :: more := by
  have hmore : ∀ {unit : Nat} {left : CString},
      (utf8ToUtf16le len left).map (unit :: ·) = some units →
      ∃ unit left more, utf8ToUtf16le len left = some more ∧ units = unit :: more := by
    intro unit left hmap
    obtain ⟨more, hleft, rfl⟩ := Option.map_eq_some_iff.mp hmap
    exact ⟨unit, left, more, hleft, rfl⟩
  rw [utf8ToUtf16le.eq_def] at h
  dsimp only at h
  split at h
  · exact hmore h
  · split at h
    · cases rest with
      | nil => cases h
      | cons c1 rest =>
          dsimp only at h
          split at h
          · cases h
          · exact hmore h
    · split at h
      · cases rest with
        | nil => cases h
        | cons c1 rest =>
            cases rest with
            | nil => cases h
            | cons c2 rest =>
                dsimp only at h
                split at h
                · cases h
                · split at h
                  · cases h
                  · exact hmore h
      · cases h

-- No more units are put out than there is room for.
theorem length_utf8ToUtf16le {len : Nat} {str : CString} {units : List Nat}
    (h : utf8ToUtf16le len str = some units) : units.length ≤ len := by
  induction len generalizing str units with
  | zero =>
      rw [utf8ToUtf16le] at h
      rw [← Option.some.inj h]
      exact le_refl _
  | succ len ih =>
      cases str with
      | nil =>
          rw [utf8ToUtf16le] at h
          rw [← Option.some.inj h]
          exact Nat.zero_le _
      | cons c rest =>
          obtain ⟨unit, left, more, hleft, rfl⟩ := utf8ToUtf16le_cons h
          exact Nat.succ_le_succ (ih hleft)

-- Every descriptor tells its own length, and fits in a packet.
theorem length_of_descriptor {table : List UsbString} {id : Nat} {bytes : List UInt8}
    (h : usbGadgetGetString table id = some bytes) :
    bytes.length ≤ 254 ∧ bytes.head? = some (UInt8.ofNat bytes.length) := by
  rw [usbGadgetGetString] at h
  split at h
  · rw [← Option.some.inj h]
    exact ⟨by decide, by decide⟩
  · obtain ⟨s, -, hs⟩ := Option.bind_eq_some_iff.mp h
    obtain ⟨str, -, hstr⟩ := Option.bind_eq_some_iff.mp hs
    rw [stringDescriptor] at hstr
    obtain ⟨units, hunits, rfl⟩ := Option.map_eq_some_iff.mp hstr
    have hroom := length_utf8ToUtf16le hunits
    have hmax : MAX_DESCRIPTOR_UNITS = 126 := rfl
    have hmin := Nat.min_le_right str.length MAX_DESCRIPTOR_UNITS
    have hlength : (littleEndian 1 ((units.length + 1) * 2) ++ littleEndian 1 USB_DT_STRING ++
        units.flatMap (littleEndian 2)).length = (units.length + 1) * 2 := by
      rw [List.length_append, List.length_append, length_littleEndian, length_littleEndian,
        length_flatMap_littleEndian]
      omega
    refine ⟨by omega, ?_⟩
    rw [hlength, littleEndian_one]
    rfl

-- The texts that the string ids stand for.
structure UsbTexts where
  manufacturer : List Char
  product : List Char
  serial : List Char
  interface : List Char

namespace UsbTexts

variable (texts : UsbTexts)

def cfg : UsbStringsCfg where
  manufacturer := utf8 texts.manufacturer
  product := utf8 texts.product
  serial := utf8 texts.serial
  interface := utf8 texts.interface

def text : Nat → Option (List Char)
  | 1 => some texts.manufacturer
  | 2 => some texts.product
  | 3 => some texts.serial
  | 4 => some "High speed configuration".toList
  | 5 => some "Low speed configuration".toList
  | 6 => some texts.interface
  | _ => none

-- A text is sent if it found memory and its first 126 characters are ASCII.
def SentAs (memory : Nat → Bool) (id : Nat) (units : List Nat) : Prop :=
  ∃ chars, texts.text id = some chars ∧ memory id = true ∧
    AllAscii (chars.take MAX_DESCRIPTOR_UNITS) ∧
    units = (chars.take MAX_DESCRIPTOR_UNITS).map fun c => c.val.toNat

end UsbTexts

theorem high_speed_text : HIGH_SPEED = utf8 "High speed configuration".toList := by
  decide

theorem low_speed_text : LOW_SPEED = utf8 "Low speed configuration".toList := by
  decide

theorem find_text (texts : UsbTexts) (memory : Nat → Bool) (id : Nat) :
    (texts.cfg.strings.find? fun string => memory string.1 && string.1 == id) =
      if memory id = true then (texts.text id).map fun chars => (id, utf8 chars) else none := by
  have hone : (fun string : Nat × CString => memory string.1 && string.1 == id) =
      fun string => memory id && string.1 == id := by
    funext string
    by_cases hid : string.1 = id
    · rw [hid]
    · rw [beq_false_of_ne hid, Bool.and_false, Bool.and_false]
  rw [hone]
  by_cases hmem : memory id = true
  · rw [if_pos hmem]
    simp only [hmem, Bool.true_and, UsbStringsCfg.strings, UsbTexts.cfg, high_speed_text,
      low_speed_text]
    rcases id with _ | _ | _ | _ | _ | _ | _ | id
    · rfl
    · rfl
    · rfl
    · rfl
    · rfl
    · rfl
    · rfl
    · simp [STRINGID_MANUFACTURER, STRINGID_PRODUCT, STRINGID_SERIAL, STRINGID_CONFIG_HS,
        STRINGID_CONFIG_LS, STRINGID_INTERFACE, UsbTexts.text]
  · rw [if_neg hmem]
    simp [hmem]

-- For every configuration, whatever allocations fail: descriptor 0 has the language,
-- the other ids have up to 126 characters of their text if these are ASCII and the text
-- found memory, and any other id is stalled. No descriptor is longer than it says.
theorem string_descriptors (texts : UsbTexts) (memory : Nat → Bool) (id : Nat) :
    (usbGadgetGetString (texts.cfg.stringtab memory) 0 =
      some [4, UInt8.ofNat USB_DT_STRING, 0x09, 0x04]) ∧
    (id ≠ 0 → ∀ bytes, usbGadgetGetString (texts.cfg.stringtab memory) id = some bytes ↔
      ∃ units, texts.SentAs memory id units ∧
        bytes = UInt8.ofNat ((units.length + 1) * 2) :: UInt8.ofNat USB_DT_STRING ::
          units.flatMap (littleEndian 2)) ∧
    ∀ bytes, usbGadgetGetString (texts.cfg.stringtab memory) id = some bytes →
      bytes.length ≤ 254 ∧ bytes.head? = some (UInt8.ofNat bytes.length) := by
  refine ⟨?_, fun hid bytes => ?_, fun bytes => length_of_descriptor⟩
  · rw [usbGadgetGetString_stringtab, if_pos rfl]
    decide
  · rw [usbGadgetGetString_stringtab, if_neg hid, find_text]
    constructor
    · intro h
      obtain ⟨string, hfind, hbytes⟩ := Option.bind_eq_some_iff.mp h
      by_cases hmem : memory id = true
      · rw [if_pos hmem] at hfind
        obtain ⟨chars, hchars, rfl⟩ := Option.map_eq_some_iff.mp hfind
        rw [stringDescriptor_text] at hbytes
        by_cases hascii : AllAscii (chars.take MAX_DESCRIPTOR_UNITS)
        · rw [if_pos hascii] at hbytes
          refine ⟨_, ⟨chars, hchars, hmem, hascii, rfl⟩, ?_⟩
          rw [← Option.some.inj hbytes, List.length_map, List.flatMap_map, littleEndian_one,
            littleEndian_one]
          rfl
        · rw [if_neg hascii] at hbytes
          cases hbytes
      · rw [if_neg hmem] at hfind
        cases hfind
    · rintro ⟨units, ⟨chars, hchars, hmem, hascii, rfl⟩, rfl⟩
      rw [if_pos hmem, hchars, Option.map_some, Option.bind_some, stringDescriptor_text,
        if_pos hascii, List.length_map, List.flatMap_map, littleEndian_one, littleEndian_one]
      rfl

-- The product name has a character that is not ASCII.
def sampleTexts : UsbTexts := ⟨['A', 'B'], ['é'], ['1'], ['M', 'T', 'P']⟩

theorem string_descriptors_sample :
    usbGadgetGetString (sampleTexts.cfg.stringtab fun _ => true) 1 =
        some [6, 3, 0x41, 0, 0x42, 0] ∧
      usbGadgetGetString (sampleTexts.cfg.stringtab fun _ => true) 2 = none := by
  obtain ⟨-, hone, -⟩ := string_descriptors sampleTexts (fun _ => true) 1
  obtain ⟨-, htwo, -⟩ := string_descriptors sampleTexts (fun _ => true) 2
  refine ⟨(hone (by decide) _).mpr ⟨[0x41, 0x42], ⟨['A', 'B'], rfl, rfl, by decide +kernel, rfl⟩,
    by decide⟩, Option.eq_none_iff_forall_ne_some.mpr fun bytes hbytes => ?_⟩
  obtain ⟨units, ⟨chars, hchars, -, hascii, -⟩, -⟩ := (htwo (by decide) bytes).mp hbytes
  cases hchars
  exact absurd hascii (by decide +kernel)

end Umtp
