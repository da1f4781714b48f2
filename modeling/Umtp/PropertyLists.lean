import Umtp.PropertyValues

namespace Umtp

open Lib Lib.Prog Handles Text

-- The grammar of property lists

-- An element as it is read: its value is left as bytes.
structure ListElement where
  handle : Nat
  propCode : Nat
  dataType : Nat
  value : List UInt8
deriving DecidableEq, Repr

-- The bytes of an integer: 1, 2, 4, 8 or 16.
def integerSize (dataType : Nat) : Option Nat :=
  if 0 < dataType ∧ dataType ≤ MTP_TYPE_UINT128 then some (2 ^ ((dataType - 1) / 2)) else none

-- The length of the value at an offset. A string starts with the number of its
-- units, an array with the number of its elements.
def valueLength (buffer : Buffer) (ofs dataType : Nat) : Option Nat :=
  if dataType = MTP_TYPE_STR then
    some (1 + 2 * peek buffer ofs 1)
  else if dataType < 0x4000 then
    integerSize dataType
  else
    (integerSize (dataType - 0x4000)).map fun size => 4 + size * peek buffer ofs 4

def parseElement (buffer : Buffer) (ofs : Nat) : Option (ListElement × Nat) :=
  let dataType := peek buffer (ofs + 6) 2
  match valueLength buffer (ofs + 8) dataType with
  | some len =>
    some (⟨peek buffer ofs 4, peek buffer (ofs + 4) 2, dataType, buffer.read (ofs + 8) len⟩,
      ofs + 8 + len)
  | none => none

def parseElements (buffer : Buffer) : (count ofs : Nat) → Option (List ListElement × Nat)
  | 0, ofs => some ([], ofs)
  | count + 1, ofs => do
    let (element, next) ← parseElement buffer ofs
    let (elements, last) ← parseElements buffer count next
    return (element :: elements, last)

-- The elements of a list and the offset behind them.
def parsePropList (buffer : Buffer) : Option (List ListElement × Nat) :=
  parseElements buffer (peek buffer 0 4) 4

-- Elements that are read back

def ListElement.bytes (element : ListElement) : List UInt8 :=
  littleEndian 4 element.handle ++ littleEndian 2 element.propCode ++
    littleEndian 2 element.dataType ++ element.value

-- The fields have their sizes, and the value the length of its type.
structure ListElement.WellTyped (element : ListElement) : Prop where
  handle : element.handle < 2 ^ 32
  propCode : element.propCode < 2 ^ 16
  dataType : element.dataType < 2 ^ 16
  value : ∀ buffer ofs, Buffer.read buffer ofs element.value.length = element.value →
    valueLength buffer ofs element.dataType = some element.value.length

variable {buffer : Buffer} {ofs : Nat}

theorem ListElement.length_bytes (element : ListElement) :
    element.bytes.length = 8 + element.value.length := by
  simp only [bytes, List.length_append, length_littleEndian]

-- Two parts of what is read.
theorem read_append {front back : List UInt8}
    (h : buffer.read ofs (front ++ back).length = front ++ back) :
    buffer.read ofs front.length = front ∧
      buffer.read (ofs + front.length) back.length = back := by
  rw [List.length_append, Buffer.read_add] at h
  exact List.append_inj h (by rw [Buffer.length_read])

theorem peek_littleEndian {len n : Nat} (hn : n < 2 ^ (8 * len))
    (h : buffer.read ofs (littleEndian len n).length = littleEndian len n) :
    peek buffer ofs len = n := by
  rw [length_littleEndian] at h
  rw [peek, peekBytes_of_read h, Nat.mod_eq_of_lt hn]

theorem parseElement_bytes {element : ListElement} (htyped : element.WellTyped)
    (h : buffer.read ofs element.bytes.length = element.bytes) :
    parseElement buffer ofs = some (element, ofs + element.bytes.length) := by
  have hlen := element.length_bytes
  rw [ListElement.bytes] at h
  obtain ⟨hfields, hvalue⟩ := read_append h
  obtain ⟨hcodes, htype⟩ := read_append hfields
  obtain ⟨hhandle, hcode⟩ := read_append hcodes
  have hback : ∀ len n : Nat, (littleEndian len n).length = len := length_littleEndian
  rw [List.length_append, hback 4, hback 2 element.propCode] at htype
  rw [hback 4] at hcode
  rw [List.length_append, List.length_append, hback, hback, hback] at hvalue
  have hcode' : peek buffer (ofs + 4) 2 = element.propCode :=
    peek_littleEndian htyped.propCode hcode
  have htype' : peek buffer (ofs + 6) 2 = element.dataType :=
    peek_littleEndian htyped.dataType htype
  simp only [parseElement, peek_littleEndian htyped.handle hhandle, hcode', htype',
    htyped.value _ _ hvalue, hvalue, hlen, Nat.add_assoc]

theorem parseElements_bytes {elements : List ListElement}
    (htyped : ∀ element ∈ elements, element.WellTyped)
    (h : buffer.read ofs (elements.flatMap ListElement.bytes).length =
      elements.flatMap ListElement.bytes) :
    parseElements buffer elements.length ofs =
      some (elements, ofs + (elements.flatMap ListElement.bytes).length) := by
  induction elements generalizing ofs with
  | nil => rfl
  | cons element elements ih =>
      rw [List.flatMap_cons] at h ⊢
      obtain ⟨hfirst, hrest⟩ := read_append h
      have hhead := parseElement_bytes (htyped element List.mem_cons_self) hfirst
      have htail := ih (fun e he => htyped e (List.mem_cons_of_mem _ he)) hrest
      rw [List.length_cons, parseElements, hhead]
      dsimp only [Bind.bind, Option.bind]
      rw [htail, List.length_append, Nat.add_assoc]
      rfl

-- The lists that are sent

-- The element of a property in a list about `propCode`.
def listElement (handle propCode : Nat) (property : Nat × ElementData) : Option ListElement :=
  if property.1 ≠ propCode ∧ propCode ≠ 0xFFFFFFFF then none
  else (properties.find? fun row => row.propCode == property.1).map fun row =>
    ⟨handle, row.propCode, row.dataType, elementValue row.dataType property.2⟩

theorem elementBytes_eq (handle propCode : Nat) (property : Nat × ElementData) :
    elementBytes handle propCode property =
      (listElement handle propCode property).map ListElement.bytes := by
  rw [elementBytes, listElement]
  by_cases hskip : property.1 ≠ propCode ∧ propCode ≠ 0xFFFFFFFF
  · rw [if_pos hskip, if_pos hskip]
    rfl
  · rw [if_neg hskip, if_neg hskip, Option.map_map]
    rfl

theorem listElements_eq (entry : FsEntry) (handle : Nat) (created modified : CString)
    (propCode : Nat) :
    listElements entry handle created modified propCode =
      ((listedProperties entry created modified).filterMap (listElement handle propCode)).map
        ListElement.bytes := by
  rw [listElements, List.map_filterMap]
  congr 1
  funext property
  exact elementBytes_eq handle propCode property

-- The types of the table are those that a value is written for.
theorem dataType_of_mem {row : ProfileProperty} (hrow : row ∈ properties) :
    row.propCode < 2 ^ 16 ∧ row.dataType ∈ [MTP_TYPE_STR, MTP_TYPE_UINT8, MTP_TYPE_UINT16,
      MTP_TYPE_UINT32, MTP_TYPE_UINT64, MTP_TYPE_UINT128] := by
  have hall : ∀ row ∈ properties, row.propCode < 2 ^ 16 ∧ row.dataType ∈ [MTP_TYPE_STR,
      MTP_TYPE_UINT8, MTP_TYPE_UINT16, MTP_TYPE_UINT32, MTP_TYPE_UINT64, MTP_TYPE_UINT128] := by
    decide
  exact hall row hrow

theorem length_unicodeUnits_le (count : Nat) (str : CString) :
    (unicodeUnits count str).length ≤ count := by
  induction count generalizing str with
  | zero => rfl
  | succ count ih =>
      rw [unicodeUnits]
      split
      split
      · simp
      · rw [List.length_cons]
        exact Nat.succ_le_succ (ih _)

-- The count of a string tells how many units follow.
theorem valueLength_string (str : CString)
    (h : buffer.read ofs (stringBytes str).length = stringBytes str) :
    valueLength buffer ofs MTP_TYPE_STR = some (stringBytes str).length := by
  rw [valueLength, if_pos rfl]
  by_cases hstr : str = []
  · rw [stringBytes, if_pos hstr] at h ⊢
    have hcount := @peek_littleEndian _ _ 1 0 (by decide) h
    rw [hcount]
    rfl
  · rw [stringBytes, if_neg hstr, ← List.singleton_append] at h ⊢
    have hle : (stringUnits str).length < 2 ^ (8 * 1) := by
      have hunits := length_unicodeUnits_le UNICODE_STR_SIZE str
      rw [length_stringUnits]
      have : UNICODE_STR_SIZE = 255 := rfl
      omega
    obtain ⟨hfront, -⟩ := read_append h
    rw [← littleEndian_one] at hfront
    rw [peek_littleEndian hle hfront, List.length_append, length_units, List.length_singleton]

theorem valueLength_elementValue {dataType : Nat} (hknown : dataType ∈ [MTP_TYPE_STR,
    MTP_TYPE_UINT8, MTP_TYPE_UINT16, MTP_TYPE_UINT32, MTP_TYPE_UINT64, MTP_TYPE_UINT128])
    (data : ElementData)
    (h : buffer.read ofs (elementValue dataType data).length = elementValue dataType data) :
    valueLength buffer ofs dataType = some (elementValue dataType data).length := by
  by_cases hstr : dataType = MTP_TYPE_STR
  · subst hstr
    exact valueLength_string _ h
  · simp only [List.mem_cons, List.not_mem_nil, or_false, hstr, false_or] at hknown
    rcases hknown with rfl | rfl | rfl | rfl | rfl <;>
      simp [valueLength, integerSize, elementValue, length_littleEndian, MTP_TYPE_STR,
        MTP_TYPE_UINT8, MTP_TYPE_UINT16, MTP_TYPE_UINT32, MTP_TYPE_UINT64, MTP_TYPE_UINT128,
        List.range, List.range.loop]

theorem listElement_eq_some {handle propCode : Nat} {property : Nat × ElementData}
    {element : ListElement} (h : listElement handle propCode property = some element) :
    (property.1 = propCode ∨ propCode = 0xFFFFFFFF) ∧ element.handle = handle ∧
      element.propCode = property.1 ∧ (handle < 2 ^ 32 → element.WellTyped) := by
  rw [listElement] at h
  by_cases hskip : property.1 ≠ propCode ∧ propCode ≠ 0xFFFFFFFF
  · rw [if_pos hskip] at h
    cases h
  · rw [if_neg hskip, Option.map_eq_some_iff] at h
    obtain ⟨row, hrow, rfl⟩ := h
    have hcode : row.propCode = property.1 := by simpa using List.find?_some hrow
    obtain ⟨hlt, hknown⟩ := dataType_of_mem (List.mem_of_find?_eq_some hrow)
    have htype : ∀ dataType ∈ [MTP_TYPE_STR, MTP_TYPE_UINT8, MTP_TYPE_UINT16, MTP_TYPE_UINT32,
        MTP_TYPE_UINT64, MTP_TYPE_UINT128], dataType < 2 ^ 16 := by decide
    refine ⟨by omega, rfl, hcode, fun hhandle => ⟨hhandle, hlt, htype _ hknown, ?_⟩⟩
    exact fun buffer ofs hread => valueLength_elementValue hknown property.2 hread

-- The codes of the properties that a list about `propCode` has.
def listedCodes (propCode : Nat) : List Nat :=
  [MTP_PROPERTY_STORAGE_ID, MTP_PROPERTY_OBJECT_FORMAT, MTP_PROPERTY_PARENT_OBJECT,
    MTP_PROPERTY_OBJECT_SIZE, MTP_PROPERTY_PROTECTION_STATUS, MTP_PROPERTY_OBJECT_FILE_NAME,
    MTP_PROPERTY_NAME, MTP_PROPERTY_DISPLAY_NAME, MTP_PROPERTY_DATE_CREATED,
    MTP_PROPERTY_DATE_MODIFIED, MTP_PROPERTY_PERSISTENT_UID].filter fun code =>
      code = propCode ∨ propCode = 0xFFFFFFFF

theorem nodup_listedCodes (propCode : Nat) : (listedCodes propCode).Nodup := by
  refine List.Nodup.filter _ ?_
  decide

theorem map_propCode_filterMap (handle propCode : Nat) (listed : List (Nat × ElementData)) :
    (listed.filterMap (listElement handle propCode)).map ListElement.propCode =
      (listed.map Prod.fst).filter fun code =>
        decide (code = propCode ∨ propCode = 0xFFFFFFFF) &&
          (properties.find? fun row => row.propCode == code).isSome := by
  induction listed with
  | nil => rfl
  | cons property listed ih =>
      rw [List.map_cons, List.filter_cons]
      by_cases hskip : property.1 ≠ propCode ∧ propCode ≠ 0xFFFFFFFF
      · have hnone : listElement handle propCode property = none := if_pos hskip
        have hcode : ¬(property.1 = propCode ∨ propCode = 0xFFFFFFFF) := by omega
        rw [List.filterMap_cons_none hnone, ih]
        simp [hcode]
      · have hcode : property.1 = propCode ∨ propCode = 0xFFFFFFFF := by omega
        cases hrow : properties.find? fun row => row.propCode == property.1 with
        | none =>
            have hnone : listElement handle propCode property = none := by
              rw [listElement, if_neg hskip, hrow]
              rfl
            rw [List.filterMap_cons_none hnone, ih]
            simp
        | some row =>
            have hsome : listElement handle propCode property = some ⟨handle, row.propCode,
                row.dataType, elementValue row.dataType property.2⟩ := by
              rw [listElement, if_neg hskip, hrow]
              rfl
            obtain ⟨-, -, hsame, -⟩ := listElement_eq_some hsome
            rw [List.filterMap_cons_some hsome, List.map_cons, ih, hsame]
            simp [hcode]

-- The association type is skipped: the table has no row for it.
theorem map_propCode_listed (entry : FsEntry) (handle : Nat) (created modified : CString)
    (propCode : Nat) :
    ((listedProperties entry created modified).filterMap (listElement handle propCode)).map
      ListElement.propCode = listedCodes propCode := by
  rw [map_propCode_filterMap, ← List.filter_filter, listedCodes]
  rfl

variable {σ : Type} {os : Os σ} {w : World σ}

-- The bytes of a whole list are read back as its elements.
theorem parsePropList_objectproplist (entry : FsEntry) {handle : Nat} (hhandle : handle < 2 ^ 32)
    (created modified : CString) (propCode : Nat) (buffer : Buffer) :
    let bytes := objectproplistBytes entry handle created modified propCode
    let elements := (listedProperties entry created modified).filterMap
      (listElement handle propCode)
    elements.length < 2 ^ 32 ∧ peek (buffer.write 0 bytes) 0 4 = elements.length ∧
      parsePropList (buffer.write 0 bytes) = some (elements, bytes.length) := by
  intro bytes elements
  have hcount : elements.length < 2 ^ 32 := by
    have hle : elements.length ≤ 12 := List.length_filterMap_le _ _
    omega
  have hbytes : bytes = littleEndian 4 elements.length ++ elements.flatMap ListElement.bytes := by
    change littleEndian 4 (listElements entry handle created modified propCode).length ++
      (listElements entry handle created modified propCode).flatten = _
    rw [listElements_eq, List.length_map, List.flatMap]
  have hread := Buffer.read_write_self buffer 0 bytes
  have hlen : bytes.length = 4 + (elements.flatMap ListElement.bytes).length := by
    rw [hbytes, List.length_append, length_littleEndian]
  have htyped : ∀ element ∈ elements, element.WellTyped := by
    intro element helement
    obtain ⟨property, -, hproperty⟩ := List.mem_filterMap.mp helement
    exact (listElement_eq_some hproperty).2.2.2 hhandle
  rw [hlen]
  rw [hbytes] at hread ⊢
  obtain ⟨hfront, hback⟩ := read_append hread
  rw [length_littleEndian, Nat.zero_add] at hback
  have hpeek := @peek_littleEndian _ _ 4 _ hcount hfront
  exact ⟨hcount, hpeek, by rw [parsePropList, hpeek, parseElements_bytes htyped hback]⟩

theorem objectproplist_well_formed (hsession : w.ctx.fsDb.isSome = true) (buffer : Buffer)
    (maxsize : Int) (p : EntryPtr) (handle propCode : UInt32) :
    let out := (exec (World.handle os)
      (buildObjectproplistDataset buffer maxsize p handle.toNat propCode.toNat) w).1
    (0 < out.2 → ∃ elements : List ListElement,
      parsePropList out.1 = some (elements, out.2.toNat) ∧
      peek out.1 0 4 = elements.length ∧
      (∀ element ∈ elements, element.handle = handle.toNat ∧
        (element.propCode = propCode.toNat ∨ propCode = 0xFFFFFFFF)) ∧
      (elements.map ListElement.propCode).Nodup ∧
      elements.map ListElement.propCode = listedCodes propCode.toNat) ∧
    (∀ found, statted os w p = some found →
      let bytes := objectproplistBytes found.1 handle.toNat found.2 found.2 propCode.toNat
      (bytes.length < maxsize → out = (buffer.write 0 bytes, (bytes.length : Int))) ∧
      (maxsize ≤ bytes.length → out.2 < 0)) := by
  intro out
  have hout : out = (statted os w p).elim (buffer, 0) fun found => objectproplist maxsize found.1
      handle.toNat found.2 found.2 propCode.toNat (buffer, 0) :=
    exec_statted hsession p (buffer, 0) fun entry created modified => objectproplist maxsize
      entry handle.toNat created modified propCode.toNat (buffer, 0)
  cases hfound : statted os w p with
  | none =>
      rw [hfound] at hout
      refine ⟨fun hpos => ?_, fun found h => by cases h⟩
      rw [hout] at hpos
      exact absurd hpos (Int.lt_irrefl 0)
  | some found =>
      rw [hfound] at hout
      have hyields := @yields_objectproplist maxsize buffer found.1 handle.toNat found.2 found.2
        propCode.toNat
      change out = objectproplist _ _ _ _ _ _ _ at hout
      rw [← hout] at hyields
      refine ⟨fun hpos => ?_, fun found' h => by cases h; exact hyields⟩
      obtain ⟨hfits, hover⟩ := hyields
      by_cases hroom : ((objectproplistBytes found.1 handle.toNat found.2 found.2
          propCode.toNat).length : Int) < maxsize
      · obtain ⟨-, hcount, hparse⟩ := parsePropList_objectproplist found.1 handle.toNat_lt found.2
          found.2 propCode.toNat buffer
        have hcodes := map_propCode_listed found.1 handle.toNat found.2 found.2 propCode.toNat
        rw [hfits hroom]
        refine ⟨_, hparse, hcount, fun element helement => ?_, ?_, hcodes⟩
        · obtain ⟨property, -, hproperty⟩ := List.mem_filterMap.mp helement
          obtain ⟨hcode, hhandle, hsame, -⟩ := listElement_eq_some hproperty
          refine ⟨hhandle, hcode.imp (fun h => hsame.trans h) fun h => ?_⟩
          exact UInt32.toNat_inj.mp h
        · rw [hcodes]
          exact nodup_listedCodes _
      · have := hover (by omega)
        omega

-- All properties of a file on disk.
theorem objectproplist_well_formed_sample :
    let out := (exec (World.handle memOs) (buildObjectproplistDataset (fun _ => 0) 512 fileEntry
      1 0xFFFFFFFF) listedFile).1
    ∃ elements : List ListElement, parsePropList out.1 = some (elements, out.2.toNat) ∧
      (∀ element ∈ elements, element.handle = 1) ∧
      elements.map ListElement.propCode = listedCodes 0xFFFFFFFF := by
  obtain ⟨elements, hparse, -, hall, -, hcodes⟩ := (@objectproplist_well_formed _ memOs listedFile
    (by decide) (fun _ => 0) 512 fileEntry 1 0xFFFFFFFF).1 (by decide +kernel)
  exact ⟨elements, hparse, fun element h => (hall element h).1, hcodes⟩

end Umtp
