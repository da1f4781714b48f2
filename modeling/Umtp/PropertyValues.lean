import Umtp.ObjectInfo

namespace Umtp

open Lib Lib.Prog Handles Text

section Dates

theorem mem_decimalDigits {n : Nat} {c : UInt8} (h : c ∈ decimalDigits n) : c < 0x80 ∧ c ≠ 0 := by
  obtain ⟨d, hd, rfl⟩ := List.mem_map.mp h
  have hdigit := Nat.isDigit_of_mem_toDigits (by decide) (by decide) hd
  have hrange : 48 ≤ d.toNat ∧ d.toNat ≤ 57 := by
    simpa [Char.isDigit, Char.le_def, UInt32.le_iff_toNat_le] using hdigit
  have hbyte : ∀ n < 128, n ≠ 0 → UInt8.ofNat n < 0x80 ∧ UInt8.ofNat n ≠ 0 := by
    set_option maxRecDepth 4000 in decide
  exact hbyte _ (by omega) (by omega)

theorem mem_formatDecimal {width : Nat} {n : Int} {c : UInt8} (h : c ∈ formatDecimal width n) :
    c < 0x80 ∧ c ≠ 0 := by
  unfold formatDecimal at h
  rcases List.mem_append.mp h with h | hdigit
  · rcases List.mem_append.mp h with hsign | hzeros
    · split at hsign
      · rw [List.mem_singleton.mp hsign]
        decide
      · cases hsign
    · rw [List.eq_of_mem_replicate hzeros]
      decide
  · exact mem_decimalDigits hdigit

-- A date is printed in ASCII.
theorem mem_formatDate {date : Tm} {c : UInt8} (h : c ∈ formatDate date) : c < 0x80 ∧ c ≠ 0 := by
  have hparts := List.mem_of_mem_take h
  simp only [List.mem_append, List.mem_singleton] at hparts
  rcases hparts with (((((h | h) | h) | rfl) | h) | h) | h
  · exact mem_formatDecimal h
  · exact mem_formatDecimal h
  · exact mem_formatDecimal h
  · decide
  · exact mem_formatDecimal h
  · exact mem_formatDecimal h
  · exact mem_formatDecimal h

theorem stringBytes_formatDate {date date' : Tm} :
    stringBytes (formatDate date) = stringBytes (formatDate date') ↔
      formatDate date = formatDate date' := by
  refine ⟨fun h => ?_, congrArg _⟩
  have hlen : ∀ date, (formatDate date).length ≤ 31 := fun date => by
    rw [formatDate, List.length_take]
    exact Nat.min_le_left _ _
  obtain ⟨units, hspelled, hunits⟩ := spelled_ascii fun c hc => @mem_formatDate date c hc
  obtain ⟨units', hspelled', hunits'⟩ :=
    spelled_ascii fun c hc => @mem_formatDate date' c hc
  have hone := hlen date
  have htwo := hlen date'
  exact stringBytes_inj hspelled hspelled' ⟨by omega, by omega⟩ ⟨by omega, by omega⟩ h

end Dates

-- The properties that both requests know.
def sharedProperties : List Nat :=
  [MTP_PROPERTY_STORAGE_ID, MTP_PROPERTY_OBJECT_FORMAT, MTP_PROPERTY_PARENT_OBJECT,
    MTP_PROPERTY_OBJECT_SIZE, MTP_PROPERTY_PROTECTION_STATUS, MTP_PROPERTY_OBJECT_FILE_NAME,
    MTP_PROPERTY_NAME, MTP_PROPERTY_DISPLAY_NAME, MTP_PROPERTY_DATE_CREATED,
    MTP_PROPERTY_DATE_MODIFIED, MTP_PROPERTY_PERSISTENT_UID]

-- The element of a list, in front of its value.
def elementHeader (handle propCode dataType : Nat) : List UInt8 :=
  littleEndian 4 handle ++ littleEndian 2 propCode ++ littleEndian 2 dataType

-- The date of the file is the one date that is always sent for a single property,
-- and the words of the identifier are the handle and the numbers after it.
structure ReadsAlike (entry : FsEntry) (date : CString) (propCode : Nat) : Prop where
  dated : propCode = MTP_PROPERTY_DATE_CREATED ∨ propCode = MTP_PROPERTY_DATE_MODIFIED →
    date = formatDate fixedDate
  identified : propCode = MTP_PROPERTY_PERSISTENT_UID →
    entry.parent % 2 ^ 32 = (entry.handle + 1) % 2 ^ 32 ∧
      entry.storageId % 2 ^ 32 = (entry.handle + 2) % 2 ^ 32 ∧ (entry.handle + 3) % 2 ^ 32 = 0

variable {entry : FsEntry} {propCode handle : Nat}

theorem append_word_iff {front front' : List UInt8} {n m : Nat} :
    front ++ littleEndian 4 n = front' ++ littleEndian 4 m ↔
      front = front' ∧ n % 2 ^ 32 = m % 2 ^ 32 := by
  refine ⟨fun h => ?_, fun ⟨hfront, hword⟩ => ?_⟩
  · obtain ⟨hfront, hword⟩ := List.append_inj' h (by rw [length_littleEndian, length_littleEndian])
    exact ⟨hfront, littleEndian_inj_mod.mp hword⟩
  · rw [hfront, littleEndian_inj_mod.mpr hword]

-- The four words of the identifier.
theorem identifier_iff (entry : FsEntry) :
    littleEndian 4 entry.handle ++ littleEndian 4 entry.parent ++ littleEndian 4 entry.storageId ++
        littleEndian 4 0 = elementValue MTP_TYPE_UINT128 (.number entry.handle) ↔
      entry.parent % 2 ^ 32 = (entry.handle + 1) % 2 ^ 32 ∧
        entry.storageId % 2 ^ 32 = (entry.handle + 2) % 2 ^ 32 ∧
          (entry.handle + 3) % 2 ^ 32 = 0 := by
  have hwords : elementValue MTP_TYPE_UINT128 (.number entry.handle) =
      littleEndian 4 ((entry.handle + 0) % 2 ^ 32) ++ littleEndian 4
      ((entry.handle + 1) % 2 ^ 32) ++
        littleEndian 4 ((entry.handle + 2) % 2 ^ 32) ++
        littleEndian 4 ((entry.handle + 3) % 2 ^ 32) := by
    simp only [List.append_assoc]
    rfl
  rw [hwords, append_word_iff, append_word_iff, append_word_iff, littleEndian_inj_mod]
  omega

-- What both replies hold for a shared property.
theorem shared_values (hshared : propCode ∈ sharedProperties) (handle : Nat) (date : Tm) :
    ∃ dataType value value', objectPropBytes entry propCode = some value ∧
      listElements entry handle (formatDate date) (formatDate date) propCode =
        [elementHeader handle propCode dataType ++ value'] ∧
      (value = value' ↔ ReadsAlike entry (formatDate date) propCode) := by
  have hneither : ∀ {code value value'}, value = value' →
      ¬(code = MTP_PROPERTY_DATE_CREATED ∨ code = MTP_PROPERTY_DATE_MODIFIED) →
      code ≠ MTP_PROPERTY_PERSISTENT_UID →
      ((value : List UInt8) = value' ↔ ReadsAlike entry (formatDate date) code) :=
    fun hvalue hdate huid => iff_of_true hvalue ⟨fun h => absurd h hdate, fun h => absurd h huid⟩
  have hdated : ∀ {code}, code ≠ MTP_PROPERTY_PERSISTENT_UID →
      (code = MTP_PROPERTY_DATE_CREATED ∨ code = MTP_PROPERTY_DATE_MODIFIED) →
      (stringBytes (formatDate fixedDate) = stringBytes (formatDate date) ↔
        ReadsAlike entry (formatDate date) code) := fun huid hdate => by
    rw [stringBytes_formatDate]
    exact ⟨fun h => ⟨fun _ => h.symm, fun h => absurd h huid⟩, fun h => (h.dated hdate).symm⟩
  simp only [sharedProperties, List.mem_cons, List.not_mem_nil, or_false] at hshared
  rcases hshared with rfl | rfl | rfl | rfl | rfl | rfl | rfl | rfl | rfl | rfl | rfl
  · exact ⟨MTP_TYPE_UINT32, _, _, rfl, rfl, hneither rfl (by decide) (by decide)⟩
  · exact ⟨MTP_TYPE_UINT16, _, _, rfl, rfl, hneither rfl (by decide) (by decide)⟩
  · exact ⟨MTP_TYPE_UINT32, _, _, rfl, rfl, hneither rfl (by decide) (by decide)⟩
  · exact ⟨MTP_TYPE_UINT64, _, _, rfl, rfl, hneither rfl (by decide) (by decide)⟩
  · exact ⟨MTP_TYPE_UINT16, _, _, rfl, rfl, hneither rfl (by decide) (by decide)⟩
  · exact ⟨MTP_TYPE_STR, _, _, rfl, rfl, hneither rfl (by decide) (by decide)⟩
  · exact ⟨MTP_TYPE_STR, _, _, rfl, rfl, hneither rfl (by decide) (by decide)⟩
  · exact ⟨MTP_TYPE_STR, _, _, rfl, rfl, hneither rfl (by decide) (by decide)⟩
  · exact ⟨MTP_TYPE_STR, _, _, rfl, rfl, hdated (by decide) (by decide)⟩
  · exact ⟨MTP_TYPE_STR, _, _, rfl, rfl, hdated (by decide) (by decide)⟩
  · refine ⟨MTP_TYPE_UINT128, _, _, rfl, rfl, (identifier_iff entry).trans ?_⟩
    exact ⟨fun h => ⟨fun hdate => absurd hdate (by decide), fun _ => h⟩, fun h => h.identified rfl⟩

-- Both replies hold the same value of the property, alone in the one and in the
-- only element of the list in the other.
def SameValue (valueHdr listHdr : Buffer) (handle propCode : Nat)
    (sent sent' : List UInt8) : Prop :=
  ∃ dataType value, sent = dataContainer valueHdr value ∧
    sent' = dataContainer listHdr
      (littleEndian 4 1 ++ (elementHeader handle propCode dataType ++ value))

theorem dataContainer_inj {hdr : Buffer} {payload payload' : List UInt8}
    (h : dataContainer hdr payload = dataContainer hdr payload') : payload = payload' :=
  List.append_inj_right h (by rw [length_packetHeader, length_packetHeader])

section Replies

variable {σ : Type} {os : Os σ} {w : World σ} {kind : DatasetKind} {hdr : Buffer}

-- The header in the write buffer changes no entry.
theorem start_getEntryByHandle (handle : Nat) :
    (kind.start os hdr w).ctx.getEntryByHandle handle = w.ctx.getEntryByHandle handle := rfl

theorem start_entry (p : EntryPtr) : (kind.start os hdr w).ctx.entry p = w.ctx.entry p := rfl

-- What is sent with OK is the container of the dataset.
theorem sent_of_ok {bytes : List UInt8} (hmax : w.ctx.usbWrBufferMaxSize < 2 ^ 31)
    (hdataset : kind.dataset os hdr (kind.start os hdr w) = some bytes)
    (hok : (exec (stream os) (kind.op hdr) (w, noStream)).1.1 = MTP_RESPONSE_OK)
    (hsent : (exec (stream os) (kind.op hdr) (w, noStream)).2.2.sent ≠ []) :
    (exec (stream os) (kind.op hdr) (w, noStream)).2.2.sent = dataContainer hdr bytes := by
  have hreplies : DatasetKind.Replies os hdr w kind _ _ := DatasetKind.replies_op kind hmax
  generalize exec (stream os) (kind.op hdr) (w, noStream) = run at hok hsent hreplies ⊢
  rcases hreplies with ⟨p, -, hreply⟩ | ⟨-, -, hnothing⟩
  · rw [hdataset, Option.some_or, DatasetReply] at hreply
    split at hreply
    · obtain ⟨-, hbytes⟩ := hreply
      rw [hbytes] at hsent ⊢
      split
      · rename_i hcancelled
        rw [if_pos hcancelled] at hsent
        exact absurd rfl hsent
      · rfl
    · exact absurd hok hreply.1.1
  · exact absurd hnothing hsent

end Replies

-- The property is read alike exactly under this condition.
theorem property_values_agree_iff {σ : Type} (os : Os σ) (w : World σ) (valueHdr listHdr : Buffer)
    {p : EntryPtr} {date : CString} (hint : w.ctx.usbWrBufferMaxSize < 2 ^ 31)
    (hhandle : param listHdr 0 = param valueHdr 0) (hprop : param listHdr 2 = param valueHdr 1)
    (hshared : param valueHdr 1 ∈ sharedProperties)
    (hentry : w.ctx.getEntryByHandle (param valueHdr 0) = some p)
    (hdisk : statted os (DatasetKind.objectPropList.start os listHdr w) p =
      some (w.ctx.entry p, date))
    (hvalue : (exec (stream os) (mtpOpGetObjectPropValue valueHdr) (w, noStream)).1.1 =
        MTP_RESPONSE_OK ∧
      (exec (stream os) (mtpOpGetObjectPropValue valueHdr) (w, noStream)).2.2.sent ≠ [])
    (hlist : (exec (stream os) (mtpOpGetObjectPropList listHdr) (w, noStream)).1.1 =
        MTP_RESPONSE_OK ∧
      (exec (stream os) (mtpOpGetObjectPropList listHdr) (w, noStream)).2.2.sent ≠ []) :
    SameValue valueHdr listHdr (param valueHdr 0) (param valueHdr 1)
        (exec (stream os) (mtpOpGetObjectPropValue valueHdr) (w, noStream)).2.2.sent
        (exec (stream os) (mtpOpGetObjectPropList listHdr) (w, noStream)).2.2.sent ↔
      ReadsAlike (w.ctx.entry p) date (param valueHdr 1) := by
  obtain ⟨tm, rfl⟩ : ∃ tm, date = formatDate tm := by
    obtain ⟨stat, -, hstat⟩ := Option.map_eq_some_iff.mp hdisk
    exact ⟨_, (congrArg Prod.snd hstat).symm⟩
  obtain ⟨dataType, value, value', hbytes, helements, hsame⟩ :=
    @shared_values (w.ctx.entry p) _ hshared (param valueHdr 0) tm
  have hone : DatasetKind.objectPropValue.dataset os valueHdr
      (DatasetKind.objectPropValue.start os valueHdr w) = some value := by
    rw [DatasetKind.dataset, start_getEntryByHandle, hentry, Option.bind_some, start_entry, hbytes]
  have htwo : DatasetKind.objectPropList.dataset os listHdr
      (DatasetKind.objectPropList.start os listHdr w) = some (littleEndian 4 1 ++
        (elementHeader (param valueHdr 0) (param valueHdr 1) dataType ++ value')) := by
    rw [DatasetKind.dataset, start_getEntryByHandle, hhandle, hentry, Option.bind_some, hdisk,
      Option.bind_some, hprop, helements, if_neg (List.cons_ne_nil _ _), objectproplistBytes,
      helements,
      List.flatten_singleton, List.length_singleton]
  have hsent := @sent_of_ok _ _ _ .objectPropValue _ _ hint hone hvalue.1 hvalue.2
  have hsent' := @sent_of_ok _ _ _ .objectPropList _ _ hint htwo hlist.1 hlist.2
  rw [← hsame]
  constructor
  · rintro ⟨otherType, other, hother, hother'⟩
    have hfirst := dataContainer_inj (hsent.symm.trans hother)
    have hsecond := dataContainer_inj (hsent'.symm.trans hother')
    have hrest := List.append_inj_right (List.append_inj_right hsecond rfl) (by
      simp only [elementHeader, List.length_append, length_littleEndian])
    rw [hfirst, hrest]
  · intro h
    exact ⟨dataType, value, hsent, by rw [h]; exact hsent'⟩

theorem SameValue.drop {valueHdr listHdr : Buffer} {sent sent' : List UInt8}
    (h : SameValue valueHdr listHdr handle propCode sent sent') :
    sent.drop 12 = sent'.drop 24 := by
  obtain ⟨dataType, value, rfl, rfl⟩ := h
  have hheader : ∀ (length type status txId : Nat) (rest : List UInt8),
      (packetHeader length type status txId ++ rest).drop 12 = rest := fun _ _ _ _ _ =>
    List.drop_left' (length_packetHeader _ _ _ _)
  have hvalue : (littleEndian 4 1 ++ (elementHeader handle propCode dataType ++ value)).drop 12 =
      value := by
    rw [← List.append_assoc]
    refine List.drop_left' ?_
    simp only [elementHeader, List.length_append, length_littleEndian]
  rw [dataContainer, dataContainer, hheader, ← List.drop_drop (i := 12) (j := 12), hheader, hvalue]

section Samples

-- Both requests about a property of the first object.
def valueRequest (propCode : Nat) : Buffer :=
  Buffer.write (fun _ => 0) 0 (commandPacket MTP_OPERATION_GET_OBJECT_PROP_VALUE [1, propCode])

def listRequest (propCode : Nat) : Buffer :=
  Buffer.write (fun _ => 0) 0
    (commandPacket MTP_OPERATION_GET_OBJECT_PROP_LIST [1, 0, propCode, 0, 0])

def valueReply (propCode : Nat) : Response × World MemSystem × Stream :=
  exec (stream memOs) (mtpOpGetObjectPropValue (valueRequest propCode)) (listedFile, noStream)

def listReply (propCode : Nat) : Response × World MemSystem × Stream :=
  exec (stream memOs) (mtpOpGetObjectPropList (listRequest propCode)) (listedFile, noStream)

theorem property_values_agree_iff_sample :
    SameValue (valueRequest MTP_PROPERTY_NAME) (listRequest MTP_PROPERTY_NAME)
        (param (valueRequest MTP_PROPERTY_NAME) 0) (param (valueRequest MTP_PROPERTY_NAME) 1)
        (valueReply MTP_PROPERTY_NAME).2.2.sent (listReply MTP_PROPERTY_NAME).2.2.sent ↔
      ReadsAlike (listedFile.ctx.entry fileEntry) epoch
      (param (valueRequest MTP_PROPERTY_NAME) 1) :=
  property_values_agree_iff memOs listedFile (valueRequest MTP_PROPERTY_NAME)
    (listRequest MTP_PROPERTY_NAME) (by decide +kernel) (by decide +kernel) (by decide +kernel)
    (by decide +kernel) (by decide +kernel) (by decide +kernel) (by decide +kernel)
    (by decide +kernel)

-- The identifier and the date of a file on disk whose size is known.
theorem property_values_disagree :
    statted memOs listedFile fileEntry = some (listedFile.ctx.entry fileEntry, epoch) ∧
      ∀ propCode ∈ [MTP_PROPERTY_PERSISTENT_UID, MTP_PROPERTY_DATE_MODIFIED],
        (valueReply propCode).1.1 = MTP_RESPONSE_OK ∧ (listReply propCode).1.1 = MTP_RESPONSE_OK ∧
          ¬SameValue (valueRequest propCode) (listRequest propCode) 1 propCode
            (valueReply propCode).2.2.sent (listReply propCode).2.2.sent := by
  have hruns : ∀ propCode ∈ [MTP_PROPERTY_PERSISTENT_UID, MTP_PROPERTY_DATE_MODIFIED],
      (valueReply propCode).1.1 = MTP_RESPONSE_OK ∧ (listReply propCode).1.1 = MTP_RESPONSE_OK ∧
        (valueReply propCode).2.2.sent.drop 12 ≠ (listReply propCode).2.2.sent.drop 24 := by
    decide +kernel
  refine ⟨by decide +kernel, fun propCode hmem => ?_⟩
  obtain ⟨hvalue, hlist, hdrop⟩ := hruns propCode hmem
  exact ⟨hvalue, hlist, fun h => hdrop h.drop⟩

end Samples

end Umtp
