import Umtp.Bytes
import Umtp.Datasets

namespace Umtp

open Lib Handles Text

namespace Buffer

variable (buffer : Buffer)

@[simp] theorem write_nil (start : Nat) : buffer.write start [] = buffer := by
  funext i
  rw [write, if_neg (by simp)]

-- Bytes written one after the other.
theorem write_append (start : Nat) (bytes more : List UInt8) :
    (buffer.write start bytes).write (start + bytes.length) more =
      buffer.write start (bytes ++ more) := by
  funext i
  simp only [write, List.length_append, List.getD_eq_getElem?_getD]
  by_cases hmore : start + bytes.length ≤ i ∧ i < start + bytes.length + more.length
  · rw [if_pos hmore, if_pos (by omega), List.getElem?_append_right (by omega)]
    congr 2
    omega
  · rw [if_neg hmore]
    by_cases hbytes : start ≤ i ∧ i < start + bytes.length
    · rw [if_pos hbytes, if_pos (by omega), List.getElem?_append_left (by omega)]
    · rw [if_neg hbytes, if_neg (by omega)]

-- Bytes written over as many others.
theorem write_write {start : Nat} {bytes bytes' : List UInt8} (h : bytes'.length = bytes.length) :
    (buffer.write start bytes).write start bytes' = buffer.write start bytes' := by
  funext i
  simp only [write, h]
  split
  · rfl
  · rfl

theorem write_front {start : Nat} {front front' bytes : List UInt8}
    (h : front'.length = front.length) :
    (buffer.write start (front ++ bytes)).write start front' =
      buffer.write start (front' ++ bytes) := by
  funext i
  simp only [write, List.length_append, List.getD_eq_getElem?_getD]
  by_cases hfront : start ≤ i ∧ i < start + front'.length
  · rw [if_pos hfront, if_pos (by omega), List.getElem?_append_left (by omega)]
  · rw [if_neg hfront]
    by_cases hbytes : start ≤ i ∧ i < start + (front.length + bytes.length)
    · rw [if_pos hbytes, if_pos (by omega), List.getElem?_append_right (by omega),
        List.getElem?_append_right (by omega), h]
    · rw [if_neg hbytes, if_neg (by omega)]

theorem write_back {start : Nat} {front bytes bytes' : List UInt8}
    (h : bytes'.length = bytes.length) :
    (buffer.write start (front ++ bytes)).write (start + front.length) bytes' =
      buffer.write start (front ++ bytes') := by
  rw [← write_append, write_write _ h, write_append]

end Buffer

theorem length_packetHeader (length type status txId : Nat) :
    (packetHeader length type status txId).length = MTP_HEADER_SIZE := by
  simp only [packetHeader, List.length_append, length_littleEndian]
  rfl

-- What is put behind a header leaves it, whether it fits or not.
theorem read_buildResponse {maxsize : Nat} (hroom : MTP_HEADER_SIZE < maxsize)
    (txId type status : Nat) (buffer : Buffer) (datain : List UInt8) :
    (buildResponse txId type status buffer maxsize datain).1.read 0 MTP_HEADER_SIZE =
      packetHeader (MTP_HEADER_SIZE + datain.length) type status txId := by
  have hlen := length_packetHeader (MTP_HEADER_SIZE + datain.length) type status txId
  have hheader := buffer.read_write_self 0
    (packetHeader (MTP_HEADER_SIZE + datain.length) type status txId)
  rw [hlen] at hheader
  have hfits : pokeArray maxsize 1 (packetHeader (MTP_HEADER_SIZE + datain.length) type status txId)
      false (buffer, 0) = (buffer.write 0 (packetHeader (MTP_HEADER_SIZE + datain.length) type
        status txId), (MTP_HEADER_SIZE : Int)) := by
    rw [pokeArray, if_neg (by decide), List.nil_append, pokeBytes, if_neg (by simp), hlen,
      if_neg (by omega)]
    rfl
  rw [buildResponse, hfits]
  split
  · exact hheader
  · rw [pokeArray, if_neg (by decide), List.nil_append, pokeBytes, if_neg (by omega)]
    split
    · exact hheader
    · exact (Buffer.read_write_of_le _ _ (by simp)).trans hheader

-- A writer puts its bytes at the offset, or overruns the buffer.
structure Encodes (maxsize : Int) (f : Poked → Poked) (bytes : List UInt8) : Prop where
  fits : ∀ (buffer : Buffer) (ofs : Nat), (ofs + bytes.length : Int) < maxsize →
    f (buffer, ofs) = (buffer.write ofs bytes, ((ofs + bytes.length : Nat) : Int))
  overruns : ∀ (buffer : Buffer) (ofs : Nat), bytes ≠ [] → maxsize ≤ ofs + bytes.length →
    (f (buffer, ofs)).2 < 0
  stays : ∀ dst : Poked, dst.2 < 0 → (f dst).2 < 0
  nothing : bytes = [] → ∀ dst, f dst = dst

variable {maxsize : Int} {f g : Poked → Poked} {bytes more : List UInt8}

theorem encodes_pokeBytes (hbytes : bytes ≠ []) : Encodes maxsize (pokeBytes maxsize bytes)
    bytes where
  fits buffer ofs hroom := by
    rw [pokeBytes, if_neg (by simp), if_neg (by simpa using hroom)]
    simp
  overruns buffer ofs _ hroom := by
    rw [pokeBytes, if_neg (by simp), if_pos (by simpa using hroom)]
    simp
  stays dst hdst := by rwa [pokeBytes, if_pos hdst]
  nothing h := absurd h hbytes

theorem encodes_id : Encodes maxsize (fun dst => dst) [] where
  fits buffer ofs _ := by simp
  overruns _ _ h := absurd rfl h
  stays _ h := h
  nothing _ _ := rfl

-- What is written behind something else.
theorem Encodes.comp (hg : Encodes maxsize g more) (hf : Encodes maxsize f bytes) :
    Encodes maxsize (fun dst => g (f dst)) (bytes ++ more) where
  fits buffer ofs hroom := by
    rw [List.length_append] at hroom
    have hback := hg.fits (buffer.write ofs bytes) (ofs + bytes.length) (by omega)
    rw [hf.fits buffer ofs (by omega), hback, Buffer.write_append, List.length_append,
      Nat.add_assoc]
  overruns buffer ofs hsome hroom := by
    rw [List.length_append] at hroom
    by_cases hnone : bytes = []
    · subst hnone
      rw [hf.nothing rfl]
      exact hg.overruns buffer ofs (by simpa using hsome) (by simpa using hroom)
    by_cases hfront : maxsize ≤ ofs + bytes.length
    · exact hg.stays _ (hf.overruns buffer ofs hnone hfront)
    · rw [hf.fits buffer ofs (by omega)]
      refine hg.overruns _ _ (fun h => ?_) (by omega)
      rw [h, List.length_nil] at hroom
      omega
  stays dst hdst := hg.stays _ (hf.stays dst hdst)
  nothing h dst := by
    obtain ⟨hbytes, hmore⟩ := List.append_eq_nil_iff.mp h
    rw [hf.nothing hbytes, hg.nothing hmore]

theorem littleEndian_ne_nil {len : Nat} (hlen : 0 < len) (data : Nat) :
    littleEndian len data ≠ [] := by
  intro h
  have hnone := length_littleEndian len data
  rw [h, List.length_nil] at hnone
  omega

theorem encodes_poke32 (data : Nat) : Encodes maxsize (poke32 maxsize data) (littleEndian 4 data) :=
  encodes_pokeBytes (littleEndian_ne_nil (by decide) _)

theorem encodes_poke16 (data : Nat) : Encodes maxsize (poke16 maxsize data) (littleEndian 2 data) :=
  encodes_pokeBytes (littleEndian_ne_nil (by decide) _)

theorem encodes_poke08 (data : Nat) : Encodes maxsize (poke08 maxsize data) (littleEndian 1 data) :=
  encodes_pokeBytes (littleEndian_ne_nil (by decide) _)

theorem encodes_pokeUnits (units : List Nat) :
    Encodes maxsize (pokeUnits maxsize units) (units.flatMap (littleEndian 2)) := by
  induction units with
  | nil => exact encodes_id
  | cons unit units ih => exact ih.comp (encodes_poke16 unit)

theorem encodes_foldl {α : Type} {write : α → Poked → Poked} {encode : α → List UInt8}
    (h : ∀ x, Encodes maxsize (write x) (encode x)) (xs : List α) :
    Encodes maxsize (fun dst => xs.foldl (fun dst x => write x dst) dst) (xs.flatMap encode) := by
  induction xs with
  | nil => exact encodes_id
  | cons x xs ih => exact ih.comp (h x)

theorem encodes_ite {c : Prop} [Decidable c] (hf : Encodes maxsize f bytes)
    (hg : Encodes maxsize g more) :
    Encodes maxsize (fun dst => if c then f dst else g dst) (if c then bytes else more) := by
  split
  · exact hf
  · exact hg

-- Strings

-- The last of 255 units is zeroed.
def stringUnits (str : CString) : List Nat :=
  let units := unicodeUnits UNICODE_STR_SIZE str
  if units.length = UNICODE_STR_SIZE then units.dropLast ++ [0] else units

-- A string with the number of its units in front. The empty string is its number
-- alone.
def stringBytes (str : CString) : List UInt8 :=
  if str = [] then [0]
  else UInt8.ofNat (stringUnits str).length :: (stringUnits str).flatMap (littleEndian 2)

theorem length_units (units : List Nat) :
    (units.flatMap (littleEndian 2)).length = 2 * units.length := by
  induction units with
  | nil => rfl
  | cons unit units ih =>
      rw [List.flatMap_cons, List.length_append, ih, length_littleEndian, List.length_cons]
      omega

theorem unicodeUnits_ne_nil (count : Nat) (str : CString) : unicodeUnits (count + 1) str ≠ [] := by
  rw [unicodeUnits]
  split
  split
  · exact List.cons_ne_nil _ _
  · exact List.cons_ne_nil _ _

theorem length_stringUnits (str : CString) :
    (stringUnits str).length = (unicodeUnits UNICODE_STR_SIZE str).length := by
  rw [stringUnits]
  split
  · rename_i hfull
    rw [List.length_append, List.length_dropLast, hfull]
    rfl
  · rfl

theorem stringUnits_ne_nil (str : CString) : stringUnits str ≠ [] := by
  intro h
  have hlen := length_stringUnits str
  rw [h, List.length_nil, eq_comm, List.length_eq_zero_iff] at hlen
  exact unicodeUnits_ne_nil _ _ hlen

-- The units are written, and then the zero over the last of 255.
theorem encodes_char2unicodestring (str : CString) : Encodes maxsize
    (char2unicodestring maxsize str) ((stringUnits str).flatMap (littleEndian 2)) := by
  have hunits := @encodes_pokeUnits maxsize (unicodeUnits UNICODE_STR_SIZE str)
  have hsame : ((stringUnits str).flatMap (littleEndian 2)).length =
      ((unicodeUnits UNICODE_STR_SIZE str).flatMap (littleEndian 2)).length := by
    rw [length_units, length_units, length_stringUnits]
  have hstays : ∀ dst : Poked, (pokeUnits maxsize (unicodeUnits UNICODE_STR_SIZE str) dst).2 < 0 →
      (char2unicodestring maxsize str dst).2 < 0 := by
    intro dst h
    rwa [char2unicodestring, if_pos h]
  refine ⟨fun buffer ofs hroom => ?_, fun buffer ofs hsome hroom => ?_, fun dst hdst => ?_,
    fun hnil => ?_⟩
  · rw [hsame] at hroom ⊢
    rw [char2unicodestring, hunits.fits buffer ofs hroom]
    dsimp only
    rw [if_neg (by omega), length_units, stringUnits]
    split
    · obtain ⟨last, hlast⟩ : ∃ last, (unicodeUnits UNICODE_STR_SIZE str).dropLast ++ [last] =
          unicodeUnits UNICODE_STR_SIZE str :=
        ⟨_, List.dropLast_concat_getLast (unicodeUnits_ne_nil _ _)⟩
      have hfront := congrArg List.length hlast
      generalize unicodeUnits UNICODE_STR_SIZE str = units at *
      rw [List.length_append, List.length_singleton] at hfront
      have hindex : ((ofs + 2 * units.length : Nat) : Int).toNat - 2 =
          ofs + (units.dropLast.flatMap (littleEndian 2)).length := by
        rw [length_units]
        omega
      have hzero : ([0].flatMap (littleEndian 2)).length =
          ([last].flatMap (littleEndian 2)).length := by
        rw [length_units, length_units]
        rfl
      have hback := @Buffer.write_back buffer ofs
        (units.dropLast.flatMap (littleEndian 2)) _ _ hzero
      rw [← List.flatMap_append, ← List.flatMap_append, hlast, ← hindex] at hback
      exact congrArg (fun b => (b, ((ofs + 2 * units.length : Nat) : Int))) hback
    · rfl
  · have hsome' : (unicodeUnits UNICODE_STR_SIZE str).flatMap (littleEndian 2) ≠ [] := fun h => by
      rw [h, List.length_nil] at hsame
      exact hsome (List.length_eq_zero_iff.mp hsame)
    exact hstays _ (hunits.overruns buffer ofs hsome' (by omega))
  · exact hstays _ (hunits.stays dst hdst)
  · have hlen := length_units (stringUnits str)
    rw [hnil, List.length_nil] at hlen
    exact absurd (List.length_eq_zero_iff.mp (by omega)) (stringUnits_ne_nil str)

theorem encodes_pokeString (str : CString) :
    Encodes maxsize (pokeString maxsize str) (stringBytes str) := by
  have hunits := @encodes_char2unicodestring maxsize str
  by_cases hstr : str = []
  · subst hstr
    refine ⟨fun buffer ofs hroom => ?_, fun buffer ofs _ hroom => ?_, fun dst hdst => ?_,
      fun h => by cases h⟩
    · have hone : (ofs : Int) + 1 < maxsize := hroom
      rw [pokeString, if_neg (by simp), if_neg (by simpa using hone), if_pos rfl]
      rfl
    · have hone : maxsize ≤ (ofs : Int) + 1 := hroom
      rw [pokeString, if_neg (by simp), if_pos (by simpa using hone)]
      simp
    · rwa [pokeString, if_pos hdst]
  · have hbytes : stringBytes str = [UInt8.ofNat (stringUnits str).length] ++
        (stringUnits str).flatMap (littleEndian 2) := by
      rw [stringBytes, if_neg hstr, List.singleton_append]
    have hlen : (stringBytes str).length = 1 + 2 * (stringUnits str).length := by
      rw [hbytes, List.length_append, length_units, List.length_singleton]
    refine ⟨fun buffer ofs hroom => ?_, fun buffer ofs _ hroom => ?_, fun dst hdst => ?_,
      fun h => ?_⟩
    · have hfits := hunits.fits (buffer.write ofs [0]) (ofs + 1) (by rw [length_units]; omega)
      rw [pokeString, if_neg (by simp), if_neg (by simp; omega), if_neg hstr]
      dsimp only
      rw [Int.toNat_natCast, ← Int.natCast_succ, hfits]
      dsimp only
      rw [if_neg (by omega), length_units]
      have hcount : ((((ofs + 1 + 2 * (stringUnits str).length : Nat) : Int) -
          ((ofs + 1 : Nat) : Int)).toNat / 2) = (stringUnits str).length := by omega
      have hwhole : (buffer.write ofs [0]).write (ofs + 1)
          ((stringUnits str).flatMap (littleEndian 2)) =
            buffer.write ofs ([0] ++ (stringUnits str).flatMap (littleEndian 2)) :=
        buffer.write_append ofs [0] _
      have hnumber := @Buffer.write_front buffer ofs [0] [UInt8.ofNat (stringUnits str).length]
        ((stringUnits str).flatMap (littleEndian 2)) rfl
      rw [hcount, hwhole, hnumber, ← hbytes, hlen, Nat.add_assoc]
    · rw [pokeString, if_neg (by simp)]
      split
      · simp
      · rename_i hone
        have hone : ¬maxsize ≤ (ofs : Int) + 1 := hone
        have hover := hunits.overruns (buffer.write ofs [0]) (ofs + 1) (fun h => by
          have hnone := congrArg List.length h
          rw [length_units, List.length_nil] at hnone
          exact stringUnits_ne_nil str (List.length_eq_zero_iff.mp (by omega)))
          (by rw [length_units]; omega)
        dsimp only
        rw [← Int.natCast_succ, Int.toNat_natCast, if_pos hover]
        simp
    · rwa [pokeString, if_pos hdst]
    · rw [hbytes] at h
      cases h

theorem encodes_pokeArray (elementsize : Nat) (bytes : List UInt8) :
    Encodes maxsize (pokeArray maxsize elementsize bytes true)
      (littleEndian 4 (bytes.length / elementsize) ++ bytes) :=
  encodes_pokeBytes fun h => littleEndian_ne_nil (by decide) _ (List.append_eq_nil_iff.mp h).1

-- Numbers of 64 bits, low half first
theorem encodes_poke64 (n : Nat) :
    Encodes maxsize (fun dst => poke32 maxsize (n / 2 ^ 32) (poke32 maxsize (n % 2 ^ 32) dst))
      (littleEndian 8 n) := by
  have hbytes : littleEndian 8 n =
      littleEndian 4 (n % 2 ^ 32) ++ littleEndian 4 (n / 2 ^ 32) := by
    rw [littleEndian_add 4 4, ← littleEndian_mod 4 n]
  rw [hbytes]
  exact (encodes_poke32 _).comp (encodes_poke32 _)

-- The datasets, field by field

def storageinfoBytes (storageId : Nat) (flags : BitVec 32) (description : CString)
    (totalspace freespace : Nat) : List UInt8 :=
  littleEndian 2 (if hasFlag flags UMTP_STORAGE_REMOVABLE then MTP_STORAGE_REMOVABLE_RAM
      else MTP_STORAGE_FIXED_RAM) ++
    littleEndian 2 MTP_STORAGE_FILESYSTEM_HIERARCHICAL ++
    littleEndian 2 (if hasFlag flags UMTP_STORAGE_READONLY
      then MTP_STORAGE_READ_ONLY_WITHOUT_DELETE else MTP_STORAGE_READ_WRITE) ++
    littleEndian 8 totalspace ++ littleEndian 8 freespace ++ littleEndian 4 0x40000000 ++
    stringBytes description ++ stringBytes (volumeIdent storageId)

-- What comes before the name of an object.
def objectinfoFields (entry : FsEntry) : List UInt8 :=
  littleEndian 4 entry.storageId ++ littleEndian 2 (objectFormat entry) ++ littleEndian 2 0 ++
    littleEndian 4 (compressedSize entry.size) ++ littleEndian 2 0 ++ littleEndian 4 0 ++
    littleEndian 4 0 ++ littleEndian 4 0 ++ littleEndian 4 0 ++ littleEndian 4 0 ++
    littleEndian 4 0 ++ littleEndian 4 entry.parent ++ littleEndian 2 (associationType entry) ++
    littleEndian 4 0 ++ littleEndian 4 0

def objectinfoBytes (entry : FsEntry) (created modified : CString) : List UInt8 :=
  objectinfoFields entry ++ stringBytes entry.name ++ stringBytes created ++
    stringBytes modified ++ littleEndian 1 0

theorem encodes_objectinfo (entry : FsEntry) (created modified : CString) :
    Encodes maxsize (objectinfo maxsize entry created modified)
      (objectinfoBytes entry created modified) := by
  have hfields : Encodes maxsize (fun dst => dst
      |> poke32 maxsize entry.storageId
      |> poke16 maxsize (objectFormat entry)
      |> poke16 maxsize 0x0000
      |> poke32 maxsize (compressedSize entry.size)
      |> poke16 maxsize 0x0000
      |> poke32 maxsize 0x00000000
      |> poke32 maxsize 0x00000000
      |> poke32 maxsize 0x00000000
      |> poke32 maxsize 0x00000000
      |> poke32 maxsize 0x00000000
      |> poke32 maxsize 0x00000000
      |> poke32 maxsize entry.parent
      |> poke16 maxsize (associationType entry)
      |> poke32 maxsize 0x00000000
      |> poke32 maxsize 0x00000000) (objectinfoFields entry) :=
    (encodes_poke32 _).comp <| (encodes_poke32 _).comp <| (encodes_poke16 _).comp <|
      (encodes_poke32 _).comp <| (encodes_poke32 _).comp <| (encodes_poke32 _).comp <|
      (encodes_poke32 _).comp <| (encodes_poke32 _).comp <| (encodes_poke32 _).comp <|
      (encodes_poke32 _).comp <| (encodes_poke16 _).comp <| (encodes_poke32 _).comp <|
      (encodes_poke16 _).comp <| (encodes_poke16 _).comp (encodes_poke32 _)
  exact (encodes_poke08 _).comp <| (encodes_pokeString _).comp <| (encodes_pokeString _).comp <|
    (encodes_pokeString _).comp hfields

-- A value of a data type, strings apart: their default is empty.
def valueBytes (dataType n : Nat) : List UInt8 :=
  if dataType = MTP_TYPE_STR ∨ dataType = MTP_TYPE_UINT8 then littleEndian 1 n
  else if dataType = MTP_TYPE_UINT16 then littleEndian 2 n
  else if dataType = MTP_TYPE_UINT32 then littleEndian 4 n
  else if dataType = MTP_TYPE_UINT64 then littleEndian 8 n
  else if dataType = MTP_TYPE_UINT128 then
    littleEndian 4 n ++ littleEndian 4 n ++ littleEndian 4 n ++ littleEndian 4 n
  else []

def pokeValue (maxsize : Int) (dataType n : Nat) (dst : Poked) : Poked :=
  if dataType = MTP_TYPE_STR ∨ dataType = MTP_TYPE_UINT8 then poke08 maxsize n dst
  else if dataType = MTP_TYPE_UINT16 then poke16 maxsize n dst
  else if dataType = MTP_TYPE_UINT32 then poke32 maxsize n dst
  else if dataType = MTP_TYPE_UINT64 then
    dst |> poke32 maxsize (n % 2 ^ 32) |> poke32 maxsize (n / 2 ^ 32)
  else if dataType = MTP_TYPE_UINT128 then
    dst |> poke32 maxsize n |> poke32 maxsize n |> poke32 maxsize n |> poke32 maxsize n
  else dst

theorem encodes_pokeValue (dataType n : Nat) :
    Encodes maxsize (pokeValue maxsize dataType n) (valueBytes dataType n) := by
  have h128 := (@encodes_poke32 maxsize n).comp <|
    (@encodes_poke32 maxsize n).comp <|
      (@encodes_poke32 maxsize n).comp (encodes_poke32 n)
  exact encodes_ite (encodes_poke08 n) <| encodes_ite (encodes_poke16 n) <|
    encodes_ite (encodes_poke32 n) <| encodes_ite (encodes_poke64 n) <|
      encodes_ite h128 encodes_id

-- The description of an object property.
def propertyBytes (row : ProfileProperty) : List UInt8 :=
  littleEndian 2 row.propCode ++ littleEndian 2 row.dataType ++ littleEndian 1 row.getset ++
    valueBytes row.dataType row.defaultValue ++ littleEndian 4 row.groupCode ++
    littleEndian 1 row.formFlag

-- The row of a property, for a format if it has one.
def propertyRow (propertyId formatId : Nat) : Option ProfileProperty :=
  (properties.find? fun row => row.propCode == propertyId && row.formatId == formatId).orElse
    fun _ => properties.find? fun row => row.propCode == propertyId && row.formatId == 0xFFFF

theorem propertyBytes_ne_nil (row : ProfileProperty) : propertyBytes row ≠ [] := by
  intro h
  have hlen := congrArg List.length h
  simp only [propertyBytes, List.length_append, length_littleEndian, List.length_nil] at hlen
  omega

theorem encodes_property (row : ProfileProperty) :
    Encodes maxsize (fun dst => dst
      |> poke16 maxsize row.propCode
      |> poke16 maxsize row.dataType
      |> poke08 maxsize row.getset
      |> pokeValue maxsize row.dataType row.defaultValue
      |> poke32 maxsize row.groupCode
      |> poke08 maxsize row.formFlag) (propertyBytes row) :=
  (encodes_poke08 _).comp <| (encodes_poke32 _).comp <| (encodes_pokeValue _ _).comp <|
    (encodes_poke08 _).comp <| (encodes_poke16 _).comp (encodes_poke16 _)

-- What a builder leaves: the dataset at the start of the buffer, an overrun, or
-- nothing where there is no dataset.
def Yields (maxsize : Int) (buffer : Buffer) (out : Poked) : Option (List UInt8) → Prop
  | some bytes => (bytes.length < maxsize → out = (buffer.write 0 bytes, (bytes.length : Int))) ∧
    (maxsize ≤ bytes.length → out.2 < 0)
  | none => out = (buffer, 0)

variable {buffer : Buffer}

theorem Encodes.yields (h : Encodes maxsize f bytes) (hbytes : bytes ≠ []) :
    Yields maxsize buffer (f (buffer, 0)) (some bytes) := by
  refine ⟨fun hroom => ?_, fun hover => h.overruns buffer 0 hbytes (by simpa using hover)⟩
  have hfits := h.fits buffer 0 (by simpa using hroom)
  rwa [Nat.zero_add] at hfits

theorem propCode_of_propertyRow {propertyId formatId : Nat} {row : ProfileProperty}
    (h : propertyRow propertyId formatId = some row) : row.propCode = propertyId := by
  rw [propertyRow] at h
  cases hexact : properties.find? fun row =>
      row.propCode == propertyId && row.formatId == formatId with
  | some exact =>
      rw [hexact] at h
      cases h
      have hrow := List.find?_some hexact
      simp only [Bool.and_eq_true, beq_iff_eq] at hrow
      exact hrow.1
  | none =>
      rw [hexact] at h
      have hrow := List.find?_some h
      simp only [Bool.and_eq_true, beq_iff_eq] at hrow
      exact hrow.1

-- A property without a row is compared with the row that ends the table.
theorem yields_properties (propertyId formatId : Nat) :
    Yields maxsize buffer (buildPropertiesDataset buffer maxsize propertyId formatId)
      (((propertyRow propertyId formatId).or
        (if propertyId = 0xFFFF then some lastProperty else none)).map propertyBytes) := by
  have hbuild : buildPropertiesDataset buffer maxsize propertyId formatId =
      if ((propertyRow propertyId formatId).getD lastProperty).propCode = propertyId then
        (fun row => (buffer, (0 : Int))
          |> poke16 maxsize row.propCode
          |> poke16 maxsize row.dataType
          |> poke08 maxsize row.getset
          |> pokeValue maxsize row.dataType row.defaultValue
          |> poke32 maxsize row.groupCode
          |> poke08 maxsize row.formFlag) ((propertyRow propertyId formatId).getD lastProperty)
      else (buffer, 0) := rfl
  rw [hbuild]
  cases hrow : propertyRow propertyId formatId with
  | some row =>
      rw [Option.getD_some, if_pos (propCode_of_propertyRow hrow), Option.some_or]
      exact (encodes_property row).yields (propertyBytes_ne_nil row)
  | none =>
      rw [Option.getD_none, Option.none_or]
      by_cases hlast : propertyId = 0xFFFF
      · have hcode : lastProperty.propCode = propertyId := hlast.symm
        rw [if_pos hcode, if_pos hlast]
        exact (encodes_property lastProperty).yields (propertyBytes_ne_nil _)
      · have hcode : ¬lastProperty.propCode = propertyId := fun h => hlast h.symm
        rw [if_neg hcode, if_neg hlast]
        rfl

theorem yields_ite {c : Prop} [Decidable c] {out out' : Poked} {x y : Option (List UInt8)}
    (h : Yields maxsize buffer out x) (h' : Yields maxsize buffer out' y) :
    Yields maxsize buffer (if c then out else out') (if c then x else y) := by
  split
  · exact h
  · exact h'

-- The properties of a format.
def formatBytes (formatId : Nat) : Option (List UInt8) :=
  (fmtProperties.find? fun row => row.formatCode == formatId).map fun row =>
    littleEndian 4 row.properties.length ++ row.properties.flatMap (littleEndian 2)

theorem append_ne_nil {len data : Nat} (hlen : 0 < len) (rest : List UInt8) :
    littleEndian len data ++ rest ≠ [] := fun h =>
  littleEndian_ne_nil hlen data (List.append_eq_nil_iff.mp h).1

theorem objectinfoBytes_ne_nil (entry : FsEntry) (created modified : CString) :
    objectinfoBytes entry created modified ≠ [] := by
  simp only [objectinfoBytes, objectinfoFields, List.append_assoc]
  exact append_ne_nil (by decide) _

theorem yields_propertiesSupported (formatId : Nat) :
    Yields maxsize buffer (buildPropertiesSupportedDataset buffer maxsize formatId)
      (formatBytes formatId) := by
  rw [buildPropertiesSupportedDataset, formatBytes]
  split
  · rename_i row hrow
    rw [hrow]
    exact ((encodes_foldl encodes_poke16 row.properties).comp (encodes_poke32 _)).yields
      (append_ne_nil (by decide) _)
  · rename_i hrow
    rw [hrow]
    rfl

-- The value of an object property.
def objectPropBytes (entry : FsEntry) (propCode : Nat) : Option (List UInt8) :=
  if propCode = MTP_PROPERTY_OBJECT_FORMAT then
    some (littleEndian 2 (objectFormat entry))
  else if propCode = MTP_PROPERTY_OBJECT_SIZE then
    some (littleEndian 8 (entry.size % 2 ^ 64).toNat)
  else if propCode = MTP_PROPERTY_DISPLAY_NAME then
    some [0]
  else if propCode = MTP_PROPERTY_NAME ∨ propCode = MTP_PROPERTY_OBJECT_FILE_NAME then
    some (stringBytes entry.name)
  else if propCode = MTP_PROPERTY_STORAGE_ID then
    some (littleEndian 4 entry.storageId)
  else if propCode = MTP_PROPERTY_PARENT_OBJECT then
    some (littleEndian 4 entry.parent)
  else if propCode = MTP_PROPERTY_HIDDEN ∨ propCode = MTP_PROPERTY_SYSTEM_OBJECT ∨
      propCode = MTP_PROPERTY_PROTECTION_STATUS then
    some (littleEndian 2 0)
  else if propCode = MTP_PROPERTY_ASSOCIATION_TYPE then
    some (littleEndian 2 (if entry.isDir then 1 else 0))
  else if propCode = MTP_PROPERTY_ASSOCIATION_DESC then
    some (littleEndian 4 0)
  else if propCode = MTP_PROPERTY_DATE_CREATED ∨ propCode = MTP_PROPERTY_DATE_MODIFIED then
    some (stringBytes (formatDate fixedDate))
  else if propCode = MTP_PROPERTY_PERSISTENT_UID then
    some (littleEndian 4 entry.handle ++ littleEndian 4 entry.parent ++
      littleEndian 4 entry.storageId ++ littleEndian 4 0)
  else
    none

theorem stringBytes_ne_nil (str : CString) : stringBytes str ≠ [] := by
  rw [stringBytes]
  split
  · exact List.cons_ne_nil _ _
  · exact List.cons_ne_nil _ _

theorem objectPropBytes_ne_nil (entry : FsEntry) (propCode : Nat) :
    objectPropBytes entry propCode ≠ some [] := by
  have hsome : ∀ {len data : Nat}, 0 < len → some (littleEndian len data) ≠ some [] :=
    fun hlen h => littleEndian_ne_nil hlen _ (Option.some_inj.mp h)
  have hstring : ∀ str, some (stringBytes str) ≠ some [] := fun str h =>
    stringBytes_ne_nil str (Option.some_inj.mp h)
  have hite : ∀ {c : Prop} [Decidable c] {x y : Option (List UInt8)}, x ≠ some [] →
      y ≠ some [] → (if c then x else y) ≠ some [] := by
    intro c _ x y hx hy
    split
    · exact hx
    · exact hy
  unfold objectPropBytes
  refine hite (hsome (by decide)) <| hite (hsome (by decide)) <| hite nofun <|
    hite (hstring _) <| hite (hsome (by decide)) <| hite (hsome (by decide)) <|
    hite (hsome (by decide)) <| hite (hsome (by decide)) <| hite (hsome (by decide)) <|
    hite (hstring _) <| hite (fun h => ?_) nofun
  rw [List.append_assoc, List.append_assoc] at h
  exact append_ne_nil (by decide) _ (Option.some_inj.mp h)

-- The halves of a number of 64 bits.
theorem encodes_size (size : Int) :
    Encodes maxsize (fun dst => poke32 maxsize (u32 (size / 2 ^ 32))
    (poke32 maxsize (u32 size) dst))
      (littleEndian 8 (size % 2 ^ 64).toNat) := by
  have hlow : u32 size = (size % 2 ^ 64).toNat % 2 ^ 32 := by
    rw [u32]
    omega
  have hhigh : u32 (size / 2 ^ 32) = (size % 2 ^ 64).toNat / 2 ^ 32 := by
    rw [u32]
    omega
  rw [hlow, hhigh]
  exact encodes_poke64 _

theorem yields_objectPropValue (ctx : MtpCtx) {handle : Nat} {p : EntryPtr}
    (hentry : ctx.getEntryByHandle handle = some p) (propCode : Nat) :
    Yields maxsize buffer (buildObjectPropValueDataset ctx buffer maxsize handle propCode)
      (objectPropBytes (ctx.entry p) propCode) := by
  have hsome : ∀ {len data : Nat}, 0 < len → littleEndian len data ≠ [] := fun h =>
    littleEndian_ne_nil h _
  rw [buildObjectPropValueDataset, hentry, objectPropBytes]
  refine yields_ite ((encodes_poke16 _).yields (hsome (by decide))) <|
    yields_ite ((encodes_size _).yields (hsome (by decide))) <|
    yields_ite ((encodes_poke08 _).yields (hsome (by decide))) <|
    yields_ite ((encodes_pokeString _).yields (stringBytes_ne_nil _)) <|
    yields_ite ((encodes_poke32 _).yields (hsome (by decide))) <|
    yields_ite ((encodes_poke32 _).yields (hsome (by decide))) <|
    yields_ite ((encodes_poke16 _).yields (hsome (by decide))) <|
    yields_ite ((encodes_poke16 _).yields (hsome (by decide))) <|
    yields_ite ((encodes_poke32 _).yields (hsome (by decide))) <|
    yields_ite ((encodes_pokeString _).yields (stringBytes_ne_nil _)) <|
    yields_ite ?_ rfl
  refine ((encodes_poke32 _).comp <| (encodes_poke32 _).comp <| (encodes_poke32 _).comp
    (encodes_poke32 _)).yields ?_
  rw [List.append_assoc, List.append_assoc]
  exact append_ne_nil (by decide) _

-- Property lists

-- The value of an element, by its data type.
def elementValue (dataType : Nat) (data : ElementData) : List UInt8 :=
  if dataType = MTP_TYPE_STR then stringBytes data.toString
  else if dataType = MTP_TYPE_UINT8 then littleEndian 1 data.toNat
  else if dataType = MTP_TYPE_UINT16 then littleEndian 2 data.toNat
  else if dataType = MTP_TYPE_UINT32 then littleEndian 4 data.toNat
  else if dataType = MTP_TYPE_UINT64 then littleEndian 8 data.toNat
  else if dataType = MTP_TYPE_UINT128 then
    (List.range 4).flatMap fun i => littleEndian 4 ((data.toNat + i) % 2 ^ 32)
  else []

-- The element of a property in a list about `propCode`; 0xFFFFFFFF asks for all.
-- A property without a row has none.
def elementBytes (handle propCode : Nat) (property : Nat × ElementData) : Option (List UInt8) :=
  if property.1 ≠ propCode ∧ propCode ≠ 0xFFFFFFFF then none
  else (properties.find? fun row => row.propCode == property.1).map fun row =>
    littleEndian 4 handle ++ littleEndian 2 row.propCode ++ littleEndian 2 row.dataType ++
      elementValue row.dataType property.2

def listedProperties (entry : FsEntry) (created modified : CString) :
    List (Nat × ElementData) :=
  [(MTP_PROPERTY_STORAGE_ID, .number entry.storageId),
    (MTP_PROPERTY_OBJECT_FORMAT, .number (objectFormat entry)),
    (MTP_PROPERTY_ASSOCIATION_TYPE, .number (associationType entry)),
    (MTP_PROPERTY_PARENT_OBJECT, .number entry.parent),
    (MTP_PROPERTY_OBJECT_SIZE, .number (entry.size % 2 ^ 64).toNat),
    (MTP_PROPERTY_PROTECTION_STATUS, .number 0x0000),
    (MTP_PROPERTY_OBJECT_FILE_NAME, .string entry.name),
    (MTP_PROPERTY_NAME, .string entry.name),
    (MTP_PROPERTY_DISPLAY_NAME, .number 0),
    (MTP_PROPERTY_DATE_CREATED, .string created),
    (MTP_PROPERTY_DATE_MODIFIED, .string modified),
    (MTP_PROPERTY_PERSISTENT_UID, .number entry.handle)]

def listElements (entry : FsEntry) (handle : Nat) (created modified : CString) (propCode : Nat) :
    List (List UInt8) :=
  (listedProperties entry created modified).filterMap (elementBytes handle propCode)

def objectproplistBytes (entry : FsEntry) (handle : Nat) (created modified : CString)
    (propCode : Nat) : List UInt8 :=
  let elements := listElements entry handle created modified propCode
  littleEndian 4 elements.length ++ elements.flatten

theorem encodes_elementValue (dataType : Nat) (data : ElementData) :
    Encodes maxsize (fun out =>
        if dataType = MTP_TYPE_STR then
          pokeString maxsize data.toString out
        else if dataType = MTP_TYPE_UINT8 then
          poke08 maxsize data.toNat out
        else if dataType = MTP_TYPE_UINT16 then
          poke16 maxsize data.toNat out
        else if dataType = MTP_TYPE_UINT32 then
          poke32 maxsize data.toNat out
        else if dataType = MTP_TYPE_UINT64 then
          out |> poke32 maxsize (data.toNat % 2 ^ 32) |> poke32 maxsize (data.toNat / 2 ^ 32)
        else if dataType = MTP_TYPE_UINT128 then
          (List.range 4).foldl (fun out i => poke32 maxsize ((data.toNat + i) % 2 ^ 32) out) out
        else
          out) (elementValue dataType data) :=
  encodes_ite (encodes_pokeString _) <| encodes_ite (encodes_poke08 _) <|
    encodes_ite (encodes_poke16 _) <| encodes_ite (encodes_poke32 _) <|
    encodes_ite (encodes_poke64 _) <|
    encodes_ite (encodes_foldl (fun i => encodes_poke32 ((data.toNat + i) % 2 ^ 32)) _) encodes_id

-- An element is written and counted, or nothing changes.
theorem encodes_element (handle propCode : Nat) (property : Nat × ElementData) :
    ∃ f, Encodes maxsize f ((elementBytes handle propCode property).getD []) ∧
      ∀ dst n, objectproplistElement maxsize property.1 handle property.2 propCode (dst, n) =
        (f dst, n + (elementBytes handle propCode property).toList.length) := by
  unfold objectproplistElement elementBytes
  split
  · exact ⟨_, encodes_id, fun _ _ => rfl⟩
  · cases hrow : properties.find? fun row => row.propCode == property.1 with
    | some row =>
        exact ⟨_, (encodes_elementValue row.dataType property.2).comp <|
          (encodes_poke16 _).comp <| (encodes_poke16 _).comp (encodes_poke32 _), fun _ _ => rfl⟩
    | none => exact ⟨_, encodes_id, fun _ _ => rfl⟩

theorem encodes_elements (handle propCode : Nat) (listed : List (Nat × ElementData)) :
    ∃ f, Encodes maxsize f (listed.filterMap (elementBytes handle propCode)).flatten ∧
      ∀ dst n, listed.foldl (fun out property =>
          objectproplistElement maxsize property.1 handle property.2 propCode out) (dst, n) =
        (f dst, n + (listed.filterMap (elementBytes handle propCode)).length) := by
  induction listed with
  | nil => exact ⟨_, encodes_id, fun _ _ => rfl⟩
  | cons property listed ih =>
      obtain ⟨g, hg, hrest⟩ := ih
      obtain ⟨f, hf, hfirst⟩ := @encodes_element maxsize handle propCode property
      refine ⟨fun dst => g (f dst), ?_, fun dst n => ?_⟩
      · cases hbytes : elementBytes handle propCode property with
        | none =>
            rw [hbytes] at hf
            rw [List.filterMap_cons_none hbytes]
            exact hg.comp hf
        | some bytes =>
            rw [hbytes] at hf
            rw [List.filterMap_cons_some hbytes, List.flatten_cons]
            exact hg.comp hf
      · rw [List.foldl_cons, hfirst, hrest]
        cases hbytes : elementBytes handle propCode property with
        | none =>
            rw [List.filterMap_cons_none hbytes]
            rfl
        | some bytes =>
            rw [List.filterMap_cons_some hbytes, List.length_cons, Option.toList_some,
              List.length_singleton]
            congr 1
            omega

theorem yields_objectproplist (entry : FsEntry) (handle : Nat) (created modified : CString)
    (propCode : Nat) :
    Yields maxsize buffer (objectproplist maxsize entry handle created modified propCode
    (buffer, 0))
      (some (objectproplistBytes entry handle created modified propCode)) := by
  obtain ⟨f, hf, hfold⟩ := @encodes_elements maxsize handle propCode
    (listedProperties entry created modified)
  have hlist : objectproplist maxsize entry handle created modified propCode (buffer, 0) =
      let out := (listedProperties entry created modified).foldl (fun out property =>
        objectproplistElement maxsize property.1 handle property.2 propCode out)
          (poke32 maxsize 0 (buffer, 0), 0)
      ((poke32 maxsize out.2 (out.1.1, 0)).1, out.1.2) := rfl
  have hwhole : Encodes maxsize (fun dst => f (poke32 maxsize 0 dst)) (littleEndian 4 0 ++
      (listElements entry handle created modified propCode).flatten) :=
    hf.comp (encodes_poke32 0)
  obtain ⟨elements, helements⟩ : ∃ elements, elements =
    listElements entry handle created modified propCode := ⟨_, rfl⟩
  have hbytes : objectproplistBytes entry handle created modified propCode =
      littleEndian 4 elements.length ++ elements.flatten := by rw [helements]; rfl
  have hlen : (littleEndian 4 elements.length ++ elements.flatten).length =
      (littleEndian 4 0 ++ elements.flatten).length := by
    simp only [List.length_append, length_littleEndian]
  rw [← helements] at hwhole
  obtain ⟨hfits, hover⟩ := @Encodes.yields _ _ _ buffer hwhole (append_ne_nil (by decide) _)
  have hcounted : ((listedProperties entry created modified).filterMap
      (elementBytes handle propCode)).length = elements.length := by rw [helements]; rfl
  rw [hlist, hfold, hbytes, Nat.zero_add, hcounted]
  refine ⟨fun hroom => ?_, fun hsmall => hover (by rwa [← hlen])⟩
  rw [hlen] at hroom ⊢
  have hcount : (0 : Int) + (littleEndian 4 elements.length).length < maxsize := by
    rw [length_littleEndian]
    rw [List.length_append, length_littleEndian] at hroom
    omega
  have hpoke := (@encodes_poke32 maxsize elements.length).fits
    (buffer.write 0 (littleEndian 4 0 ++ elements.flatten)) 0 hcount
  have hfront := @Buffer.write_front buffer 0 (littleEndian 4 0) (littleEndian 4 elements.length)
    elements.flatten (by rw [length_littleEndian, length_littleEndian])
  rw [hfront] at hpoke
  change ((poke32 maxsize elements.length ((f (poke32 maxsize 0 (buffer, 0))).1, 0)).1,
    (f (poke32 maxsize 0 (buffer, 0))).2) = _
  rw [hfits hroom]
  exact congrArg (fun out : Poked => (out.1,
    ((littleEndian 4 0 ++ elements.flatten).length : Int))) hpoke

end Umtp
