import Umtp.Alike
import Umtp.Encoding

namespace Umtp

open Lib Lib.Prog Handles Text

variable {σ : Type} {os : Os σ} {w : World σ} {ctx : MtpCtx} {hdr hdr' : Buffer}

-- What a request is about

-- The properties that are listed for a format.
def supportedProperties (formatId : Nat) : Option (List Nat) :=
  (fmtProperties.find? fun row => row.formatCode == formatId).map FormatsProperty.properties

-- The row that describes a property of a format. Which format it stands for is not told.
def describedProperty (propertyId formatId : Nat) : Option ProfileProperty :=
  let exactRow := properties.find? fun row => row.propCode == propertyId && row.formatId == formatId
  let defaultRow := properties.find? fun row => row.propCode == propertyId && row.formatId == 0xFFFF
  let row := (exactRow.orElse fun _ => defaultRow).getD lastProperty
  if row.propCode = propertyId then some { row with formatId := 0 } else none

-- The properties that an object has a value for.
def valuedProperties : List Nat :=
  [MTP_PROPERTY_OBJECT_FORMAT, MTP_PROPERTY_OBJECT_SIZE, MTP_PROPERTY_DISPLAY_NAME,
    MTP_PROPERTY_NAME, MTP_PROPERTY_OBJECT_FILE_NAME, MTP_PROPERTY_STORAGE_ID,
    MTP_PROPERTY_PARENT_OBJECT, MTP_PROPERTY_HIDDEN, MTP_PROPERTY_SYSTEM_OBJECT,
    MTP_PROPERTY_PROTECTION_STATUS, MTP_PROPERTY_ASSOCIATION_TYPE,
    MTP_PROPERTY_ASSOCIATION_DESC, MTP_PROPERTY_DATE_CREATED, MTP_PROPERTY_DATE_MODIFIED,
    MTP_PROPERTY_PERSISTENT_UID]

-- The codes that select something in the property list of an object.
def selectingCodes : List Nat :=
  [0xFFFFFFFF, MTP_PROPERTY_STORAGE_ID, MTP_PROPERTY_OBJECT_FORMAT, MTP_PROPERTY_PARENT_OBJECT,
    MTP_PROPERTY_OBJECT_SIZE, MTP_PROPERTY_PROTECTION_STATUS, MTP_PROPERTY_OBJECT_FILE_NAME,
    MTP_PROPERTY_NAME, MTP_PROPERTY_DISPLAY_NAME, MTP_PROPERTY_DATE_CREATED,
    MTP_PROPERTY_DATE_MODIFIED, MTP_PROPERTY_PERSISTENT_UID]

-- The offset and the size that GetPartialObject is asked for.
def partialRange (hdr : Buffer) : Int × Int :=
  if hdrCode hdr = MTP_OPERATION_GET_PARTIAL_OBJECT_64 then
    (toInt64 (peek64 hdr (MTP_HEADER_SIZE + 4) 8), toInt32 (param hdr 3))
  else
    ((param hdr 1 : Int), toInt32 (param hdr 2))

-- The list that is not supported.
def asksForGroup (hdr : Buffer) : Prop := param hdr 2 = 0 ∧ param hdr 3 = 0

-- Both words for the top folder are one handle.
def folderHandle (handle : Nat) : Nat := if handle = NO_HANDLE then 0 else handle

def newObjectName (datain : Buffer) : Option CString :=
  sanitizeName (datasetName (datain.shift MTP_HEADER_SIZE)) TMP_STR_SIZE

def newObjectFormat (datain : Buffer) : Nat := peek (datain.shift MTP_HEADER_SIZE) 0x04 2

def newObjectSize (datain : Buffer) : Nat := peek (datain.shift MTP_HEADER_SIZE) 0x08 4

-- The same value, or two of which neither is any of the known ones.
def SameAmong (known : Nat → Prop) (n n' : Nat) : Prop := n = n' ∨ ¬known n ∧ ¬known n'

structure SameHeader (hdr hdr' : Buffer) : Prop where
  code : hdrCode hdr = hdrCode hdr'
  operation : hdrOperation hdr = hdrOperation hdr'
  txId : hdrTxId hdr = hdrTxId hdr'

-- When two packets ask for the same, by operation

namespace MtpCtx

section Same

variable (ctx : MtpCtx) (hdr hdr' : Buffer)

def SameSession : Prop :=
  (param hdr 0 = 0 ↔ param hdr' 0 = 0) ∧ (ctx.fsDb.isSome = false → param hdr 0 = param hdr' 0)

def SameStorage : Prop :=
  SameAmong (fun storageId => (ctx.mtpGetStorageRoot storageId).isSome = true) (param hdr 0)
    (param hdr' 0)

def SameFormat : Prop := supportedProperties (param hdr 0) = supportedProperties (param hdr' 0)

def HasDescription (propCode : Nat) : Prop :=
  ((devProperties.find? fun row => row.propCode == propCode).getD lastProperty).propCode =
    propCode ∧ isDevicePropertySupported ctx propCode = true

def SameDeviceDesc : Prop := SameAmong ctx.HasDescription (param hdr 0) (param hdr' 0)

def HasDeviceValue (propCode : Nat) : Prop :=
  propCode ∈ devProperties.map ProfileProperty.propCode ∧
    isDevicePropertySupported ctx propCode = true

def SameDeviceValue : Prop := SameAmong ctx.HasDeviceValue (param hdr 0) (param hdr' 0)

def SameDescription : Prop :=
  describedProperty (param hdr 0) (param hdr 1) = describedProperty (param hdr' 0) (param hdr' 1)

-- The same handle, or two that no object has.
def HasObject (handle : Nat) : Prop := (ctx.getEntryByHandle handle).isSome = true

def SameHandle : Prop := SameAmong ctx.HasObject (param hdr 0) (param hdr' 0)

def SameKnown : Prop := ctx.HasObject (param hdr 0) ↔ ctx.HasObject (param hdr' 0)

def SameAccess (wraccess : Bool) : Prop :=
  ctx.checkHandleAccess none (param hdr 0) wraccess =
    ctx.checkHandleAccess none (param hdr' 0) wraccess

-- An object is only looked at further when the access is granted.
def Grants (wraccess : Bool) : Prop := ctx.checkHandleAccess none (param hdr 0) wraccess = none

def SameObject (wraccess : Bool) : Prop :=
  ctx.SameAccess hdr hdr' wraccess ∧ (ctx.Grants hdr wraccess → param hdr 0 = param hdr' 0)

def SamePart : Prop :=
  ctx.SameObject hdr hdr' false ∧ (ctx.Grants hdr false →
    (partialRange hdr).1 = (partialRange hdr').1 ∧
      ∀ p, ctx.getEntryByHandle (param hdr 0) = some p →
        actualSize (ctx.entry p).size (partialRange hdr).1 (partialRange hdr).2 =
          actualSize (ctx.entry p).size (partialRange hdr').1 (partialRange hdr').2)

def SameLength : Prop :=
  ctx.SameObject hdr hdr' true ∧ (ctx.Grants hdr true →
    toInt64 (peek64 hdr (MTP_HEADER_SIZE + 4) 8) = toInt64 (peek64 hdr' (MTP_HEADER_SIZE + 4) 8))

def SameProperty : Prop :=
  ctx.SameHandle hdr hdr' ∧
    (ctx.HasObject (param hdr 0) → SameAmong (· ∈ valuedProperties) (param hdr 1) (param hdr' 1))

def SameList : Prop :=
  (asksForGroup hdr ↔ asksForGroup hdr') ∧ (¬asksForGroup hdr → ctx.SameHandle hdr hdr' ∧
    (ctx.HasObject (param hdr 0) → SameAmong (· ∈ selectingCodes) (param hdr 2) (param hdr' 2)))

-- The children of an unknown folder are not looked for, whatever the storage.
def IsUnknownFolder (handle : Nat) : Prop :=
  handle ≠ 0 ∧ handle ≠ NO_HANDLE ∧ ¬ctx.HasObject handle

def SameFolder : Prop :=
  ctx.SameStorage hdr hdr' ∧ folderHandle (param hdr 2) = folderHandle (param hdr' 2) ∨
    ((ctx.mtpGetStorageRoot (param hdr 0)).isSome = (ctx.mtpGetStorageRoot (param hdr' 0)).isSome ∧
      ((ctx.mtpGetStorageRoot (param hdr 0)).isSome = true →
        ctx.IsUnknownFolder (param hdr 2) ∧ ctx.IsUnknownFolder (param hdr' 2)))

-- The file of the object is closed with the editing.
def SameClosing : Prop :=
  ctx.SameAccess hdr hdr' true ∧ SameAmong (fun handle => ∃ p,
    ctx.getEntryByHandle handle = some p ∧ (ctx.entry p).fileDescriptor ≠ -1)
      (param hdr 0) (param hdr' 0)

-- The command of SendPartialObject leaves its parameters for the data.
def SamePlace : Prop :=
  hdrOperation hdr = MTP_CONTAINER_TYPE_COMMAND →
    param hdr 0 = param hdr' 0 ∧ param hdr 3 = param hdr' 3 ∧
      toInt64 (peek64 hdr (MTP_HEADER_SIZE + 4) 8) = toInt64 (peek64 hdr' (MTP_HEADER_SIZE + 4) 8)

-- The data of SetObjectPropValue gives a name to the object.
def GivesName : Prop :=
  ctx.setObjectPropValueHandle ≠ NO_HANDLE ∧
    ctx.setObjectPropValuePropCode = MTP_PROPERTY_OBJECT_FILE_NAME ∧
    ∃ p, ctx.getEntryByHandle ctx.setObjectPropValueHandle = some p ∧
      ctx.checkHandleAccess (some p) 0 true = none

def SameName : Prop :=
  (hdrOperation hdr = MTP_CONTAINER_TYPE_COMMAND →
      param hdr 0 = param hdr' 0 ∧ param hdr 1 = param hdr' 1) ∧
    (hdrOperation hdr = MTP_CONTAINER_TYPE_DATA → ctx.GivesName →
      newFilename hdr = newFilename hdr')

-- The response when the storage takes no new objects.
def newObjectRefusal (storageId : Nat) : Option Nat :=
  if ctx.mtpGetStorageFlags storageId = NO_STORAGE_FLAGS then
    some MTP_RESPONSE_INVALID_STORAGE_ID
  else if hasFlag (ctx.mtpGetStorageFlags storageId) UMTP_STORAGE_READONLY then
    some MTP_RESPONSE_STORE_READ_ONLY
  else
    none

end Same

-- The folder that a new object is made in.
def newObjectFolder (ctx : MtpCtx) (hdr : Buffer) : Option EntryPtr :=
  (ctx.getEntryByHandleAndStorageid (folderHandle (param hdr 1)) (param hdr 0)).filter fun folder =>
    (ctx.entry folder).isDir

-- A dataset without a name is refused, and one that is none is passed over. The rest is
-- looked at when there is a folder.
def SameDataset (ctx : MtpCtx) (hdr datain datain' : Buffer) : Prop :=
  (hdrCode datain = MTP_OPERATION_SEND_OBJECT_INFO ↔
      hdrCode datain' = MTP_OPERATION_SEND_OBJECT_INFO) ∧
    (hdrCode datain = MTP_OPERATION_SEND_OBJECT_INFO →
      (newObjectName datain).isSome = (newObjectName datain').isSome ∧
        ((ctx.newObjectFolder hdr).isSome = true → newObjectName datain = newObjectName datain' ∧
          (newObjectFormat datain = MTP_FORMAT_ASSOCIATION ↔
            newObjectFormat datain' = MTP_FORMAT_ASSOCIATION) ∧
          (newObjectFormat datain ≠ MTP_FORMAT_ASSOCIATION →
            newObjectSize datain = newObjectSize datain')))

def IsNameless (datain : Buffer) : Prop :=
  hdrCode datain = MTP_OPERATION_SEND_OBJECT_INFO ∧ newObjectName datain = none

def SameNewObject (ctx : MtpCtx) (hdr hdr' datain datain' : Buffer) : Prop :=
  ctx.newObjectRefusal (param hdr 0) = ctx.newObjectRefusal (param hdr' 0) ∧
    (ctx.newObjectRefusal (param hdr 0) = none → IsNameless datain ∧ IsNameless datain' ∨
      param hdr 0 = param hdr' 0 ∧ param hdr 1 = param hdr' 1 ∧
        ctx.SameDataset hdr datain datain')

end MtpCtx

-- The requests that are answered with a session alone, and those under the mutex
def sessionRequests : List (Nat × (MtpCtx → Buffer → Buffer → Prop)) :=
  [(MTP_OPERATION_GET_STORAGE_INFO, MtpCtx.SameStorage),
    (MTP_OPERATION_GET_OBJECT_PROPS_SUPPORTED, fun _ => MtpCtx.SameFormat),
    (MTP_OPERATION_SET_OBJECT_PROP_VALUE, MtpCtx.SameName)]

def lockedRequests : List (Nat × (MtpCtx → Buffer → Buffer → Prop)) :=
  [(MTP_OPERATION_GET_DEVICE_PROP_DESC, MtpCtx.SameDeviceDesc),
    (MTP_OPERATION_GET_DEVICE_PROP_VALUE, MtpCtx.SameDeviceValue),
    (MTP_OPERATION_GET_OBJECT_HANDLES, MtpCtx.SameFolder),
    (MTP_OPERATION_GET_OBJECT_INFO, MtpCtx.SameHandle),
    (MTP_OPERATION_GET_PARTIAL_OBJECT_64, MtpCtx.SamePart),
    (MTP_OPERATION_GET_PARTIAL_OBJECT, MtpCtx.SamePart),
    (MTP_OPERATION_GET_OBJECT, fun ctx hdr hdr' => ctx.SameObject hdr hdr' false),
    (MTP_OPERATION_SEND_PARTIAL_OBJECT, fun _ => MtpCtx.SamePlace),
    (MTP_OPERATION_DELETE_OBJECT, fun ctx hdr hdr' => ctx.SameObject hdr hdr' true),
    (MTP_OPERATION_GET_OBJECT_PROP_DESC, fun _ => MtpCtx.SameDescription),
    (MTP_OPERATION_GET_OBJECT_PROP_VALUE, MtpCtx.SameProperty),
    (MTP_OPERATION_GET_OBJECT_PROP_LIST, MtpCtx.SameList),
    (MTP_OPERATION_GET_OBJECT_REFERENCES, MtpCtx.SameKnown),
    (MTP_OPERATION_BEGIN_EDIT_OBJECT, fun ctx hdr hdr' => ctx.SameAccess hdr hdr' true),
    (MTP_OPERATION_END_EDIT_OBJECT, MtpCtx.SameClosing),
    (MTP_OPERATION_TRUNCATE_OBJECT, MtpCtx.SameLength)]

-- A command of SendObject that is taken is not answered, and its transaction not read.
def World.IsSilent (os : Os σ) (w : World σ) (hdr : Buffer) : Prop :=
  hdrCode hdr = MTP_OPERATION_SEND_OBJECT ∧ hdrOperation hdr = MTP_CONTAINER_TYPE_COMMAND ∧
    w.ctx.fsDb.isSome = true ∧ w.GetsMutex os ∧ w.ctx.sendObjInfoHandle ≠ NO_HANDLE ∧
      w.ctx.checkHandleAccess none w.ctx.sendObjInfoHandle true = none ∧
        (os.act .unlockInotifyMutex (w.locked os).os).1 = true

-- What the read of the dataset gives.
def World.datasetRead (os : Os σ) (w : World σ) : List UInt8 :=
  ((os.act (.readUsb w.ctx.usbRdBufferMaxSize) (w.locked os).os).1).getD []

-- Both packets ask for the same in the state.
structure World.SameRequest (os : Os σ) (w : World σ) (hdr hdr' : Buffer) : Prop where
  code : hdrCode hdr = hdrCode hdr'
  operation : hdrOperation hdr = hdrOperation hdr'
  answer : hdrTxId hdr = hdrTxId hdr' ∨ w.IsSilent os hdr
  opening : hdrCode hdr = MTP_OPERATION_OPEN_SESSION → w.ctx.SameSession hdr hdr'
  session : w.ctx.fsDb.isSome = true → ∀ same, sessionRequests.lookup (hdrCode hdr) = some same →
    same w.ctx hdr hdr'
  locked : w.ctx.fsDb.isSome = true → w.GetsMutex os →
    ∀ same, lockedRequests.lookup (hdrCode hdr) = some same → same w.ctx hdr hdr'
  dataset : hdrCode hdr = MTP_OPERATION_SEND_OBJECT_INFO → w.ctx.fsDb.isSome = true →
    w.GetsMutex os → ∀ buffer buffer2 : Buffer, w.ctx.SameNewObject hdr hdr'
      (buffer.write 0 (w.datasetRead os)) (buffer2.write 0 (w.datasetRead os))

-- The read buffers have no part in what is asked for.
theorem World.SameRequest.withBuffers (h : w.SameRequest os hdr hdr') (buffer buffer2 : Buffer) :
    World.SameRequest os ⟨w.ctx.withBuffers buffer buffer2, w.os⟩ hdr hdr' := by
  refine ⟨h.code, h.operation, h.answer, h.opening, fun hs same hsame => ?_,
    fun hs hl same hsame => ?_, h.dataset⟩
  · have hasked := h.session hs same hsame
    have hm := mem_of_lookup hsame
    simp only [sessionRequests, List.mem_cons, Prod.mk.injEq, List.not_mem_nil, or_false] at hm
    rcases hm with ⟨-, rfl⟩ | ⟨-, rfl⟩ | ⟨-, rfl⟩
    all_goals exact hasked
  · have hasked := h.locked hs hl same hsame
    have hm := mem_of_lookup hsame
    simp only [lockedRequests, List.mem_cons, Prod.mk.injEq, List.not_mem_nil, or_false] at hm
    rcases hm with ⟨-, rfl⟩ | ⟨-, rfl⟩ | ⟨-, rfl⟩ | ⟨-, rfl⟩ | ⟨-, rfl⟩ | ⟨-, rfl⟩ | ⟨-, rfl⟩ |
      ⟨-, rfl⟩ | ⟨-, rfl⟩ | ⟨-, rfl⟩ | ⟨-, rfl⟩ | ⟨-, rfl⟩ | ⟨-, rfl⟩ | ⟨-, rfl⟩ | ⟨-, rfl⟩ |
      ⟨-, rfl⟩
    all_goals exact hasked

-- The operations

theorem startData_same (h : SameHeader hdr hdr') : startData hdr = startData hdr' := by
  rw [startData, startData, h.txId, h.code]

theorem sendDataset_same (h : SameHeader hdr hdr') (emptyResponse : Option Nat)
    (build : Buffer → Int → M Poked) :
    sendDataset hdr emptyResponse build = sendDataset hdr' emptyResponse build := by
  rw [sendDataset, sendDataset, startData_same h]

-- The start of an answer changes the write buffer alone.
def World.writing (w : World σ) (wrbuffer : Buffer) : World σ :=
  ⟨{ w.ctx with wrbuffer := wrbuffer }, w.os⟩

theorem startData_writing (hdr : Buffer) (w : World σ) :
    ∃ wrbuffer, (exec (World.handle os) (startData hdr) w).2 = w.writing wrbuffer :=
  ⟨_, rfl⟩

theorem alike_sendDataset (h : SameHeader hdr hdr') (emptyResponse : Option Nat)
    {build build' : Buffer → Int → M Poked}
    (hbuild : ∀ wrbuffer buffer maxsize,
      Alike os (· = w.writing wrbuffer) (build buffer maxsize) (build' buffer maxsize)) :
    Alike os (· = w) (sendDataset hdr emptyResponse build)
      (sendDataset hdr' emptyResponse build') := by
  rw [sendDataset, sendDataset, ← startData_same h]
  obtain ⟨wrbuffer, hstart⟩ := @startData_writing _ os hdr w
  refine alike_at_bind (made_startData hdr).alike_at ?_
  rw [hstart]
  split
  · refine alike_at_getCtx fun buffer buffer2 => ?_
    refine alike_at_bind (hbuild _ _ _) (Made.alike_at ?_)
    refine made_getCtx (fun _ _ _ => rfl) fun ctx => ?_
    grind
  · exact alike_ret _

theorem alike_mtpOpOpenSession (h : w.ctx.SameSession hdr hdr') :
    Alike os (· = w) (mtpOpOpenSession hdr) (mtpOpOpenSession hdr') := by
  by_cases hsame : param hdr 0 = param hdr' 0
  · have hop : mtpOpOpenSession hdr = mtpOpOpenSession hdr' := by
      rw [mtpOpOpenSession, mtpOpOpenSession, hsame]
    rw [← hop]
    exact (made_mtpOpOpenSession ((@blindRole_performs MTP_OPERATION_OPEN_SESSION
      (by decide)).opens rfl) hdr).alike_at
  · have hs : w.ctx.fsDb.isSome = true := by
      rw [← Bool.not_eq_false]
      exact fun hno => hsame (h.2 hno)
    rw [mtpOpOpenSession, mtpOpOpenSession]
    refine alike_at_getCtx fun buffer buffer2 => ?_
    have hs' : (w.ctx.withBuffers buffer buffer2).fsDb.isSome = true := hs
    by_cases hzero : param hdr 0 = 0
    · rw [if_pos hzero, if_pos (h.1.mp hzero)]
      exact alike_ret _
    · rw [if_neg hzero, if_neg (fun hz => hzero (h.1.mpr hz)), if_pos hs, if_pos hs']
      exact alike_ret _

theorem alike_mtpOpGetDeviceInfos (hh : SameHeader hdr hdr') :
    Alike os (· = w) (mtpOpGetDeviceInfos hdr) (mtpOpGetDeviceInfos hdr') := by
  rw [mtpOpGetDeviceInfos, mtpOpGetDeviceInfos, ← sendDataset_same hh]
  exact (made_mtpOpGetDeviceInfos hdr).alike_at

theorem alike_mtpOpGetStorageIDs (hh : SameHeader hdr hdr') :
    Alike os (· = w) (mtpOpGetStorageIDs hdr) (mtpOpGetStorageIDs hdr') := by
  rw [mtpOpGetStorageIDs, mtpOpGetStorageIDs, ← sendDataset_same hh]
  exact (made_mtpOpGetStorageIDs hdr).alike_at

theorem alike_mtpOpGetStorageInfo (hh : SameHeader hdr hdr')
    (h : w.ctx.fsDb.isSome = true → w.ctx.SameStorage hdr hdr') :
    Alike os (· = w) (mtpOpGetStorageInfo hdr) (mtpOpGetStorageInfo hdr') := by
  refine alike_open (made_mtpOpGetStorageInfo hdr) fun hs => ?_
  rcases h hs with hsame | ⟨hnone, hnone'⟩
  · left
    simp only [hsame, sendDataset_same hh]
  · right
    refine alike_at_getCtx fun buffer buffer2 => ?_
    rw [if_neg hnone, if_neg (show ¬((w.ctx.withBuffers buffer buffer2).mtpGetStorageRoot
      (param hdr' 0)).isSome = true from hnone')]
    exact alike_ret _

theorem alike_buildDevicePropertiesDataset {propCode propCode' : Nat}
    (h : SameAmong w.ctx.HasDescription propCode propCode') (buffer : Buffer) (maxsize : Int) :
    Alike os (· = w) (buildDevicePropertiesDataset buffer maxsize propCode)
      (buildDevicePropertiesDataset buffer maxsize propCode') := by
  rcases h with rfl | ⟨hnone, hnone'⟩
  · exact (made_buildDevicePropertiesDataset buffer maxsize propCode).alike_at
  · refine alike_at_getCtx fun buffer buffer2 => ?_
    dsimp only
    rw [if_neg (show ¬(_ ∧ _) from hnone), if_neg (show ¬(_ ∧ isDevicePropertySupported
      (w.ctx.withBuffers buffer buffer2) propCode' = true) from hnone')]
    exact alike_ret _

theorem alike_mtpOpGetDevicePropDesc (hh : SameHeader hdr hdr')
    (h : w.ctx.fsDb.isSome = true → w.GetsMutex os → w.ctx.SameDeviceDesc hdr hdr') :
    Alike os (· = w) (mtpOpGetDevicePropDesc hdr) (mtpOpGetDevicePropDesc hdr') := by
  have hend : ∀ response : Response, Made blindRole (do
      M.act_ .unlockInotifyMutex
      return response) := fun response =>
    made_bind (made_act_ _ (Or.inl rfl)) fun _ => made_pure _
  refine alike_inSession fun hs => alike_lock (fun hl => ?_) ?_
  · refine alike_at_bind (alike_sendDataset hh _ fun wrbuffer buffer maxsize => ?_)
      (hend _).alike_at
    exact alike_buildDevicePropertiesDataset (w := (w.locked os).writing wrbuffer) (h hs hl) _ _
  · exact alike_at_bind (alike_ret _) (hend _).alike_at

theorem not_hasDeviceValue {propCode : Nat} (h : ¬ctx.HasDeviceValue propCode) :
    propCode ≠ MTP_DEVICE_PROPERTY_DEVICE_FRIENDLY_NAME ∧
      propCode ≠ MTP_DEVICE_PROPERTY_SYNCHRONIZATION_PARTNER ∧
        (propCode = MTP_DEVICE_PROPERTY_BATTERY_LEVEL ∨
          propCode = MTP_DEVICE_PROPERTY_PERCEIVED_DEVICE_TYPE →
            ¬isDevicePropertySupported ctx propCode = true) := by
  refine ⟨?_, ?_, ?_⟩
  · rintro rfl
    exact h ⟨by decide, rfl⟩
  · rintro rfl
    exact h ⟨by decide, rfl⟩
  · rintro (rfl | rfl) hsupported
    · exact h ⟨by decide, hsupported⟩
    · exact h ⟨by decide, hsupported⟩

theorem alike_buildDevicePropValueDataset {propCode propCode' : Nat}
    (h : SameAmong w.ctx.HasDeviceValue propCode propCode') (buffer : Buffer) (maxsize : Int) :
    Alike os (· = w) (buildDevicePropValueDataset buffer maxsize propCode)
      (buildDevicePropValueDataset buffer maxsize propCode') := by
  rcases h with rfl | ⟨hnone, hnone'⟩
  · exact (made_buildDevicePropValueDataset buffer maxsize propCode).alike_at
  · obtain ⟨hfriendly, hpartner, hsupported⟩ := not_hasDeviceValue hnone
    refine alike_at_getCtx fun rdbuffer rdbuffer2 => ?_
    have hnone' : ¬(w.ctx.withBuffers rdbuffer rdbuffer2).HasDeviceValue propCode' := hnone'
    obtain ⟨hfriendly', hpartner', hsupported'⟩ := not_hasDeviceValue hnone'
    refine alike_of_pure (buffer, 0) ?_ ?_
    · grind
    · grind

theorem alike_mtpOpGetDevicePropValue (hh : SameHeader hdr hdr')
    (h : w.ctx.fsDb.isSome = true → w.GetsMutex os → w.ctx.SameDeviceValue hdr hdr') :
    Alike os (· = w) (mtpOpGetDevicePropValue hdr) (mtpOpGetDevicePropValue hdr') := by
  refine alike_underMutex (made_mtpOpGetDevicePropValue hdr) fun hs hl => Or.inr ?_
  refine alike_sendDataset hh _ fun wrbuffer buffer maxsize => ?_
  exact alike_buildDevicePropValueDataset (w := (w.locked os).writing wrbuffer) (h hs hl) _ _

theorem alike_mtpOpGetObjectPropsSupported (hh : SameHeader hdr hdr')
    (h : w.ctx.fsDb.isSome = true → MtpCtx.SameFormat hdr hdr') :
    Alike os (· = w) (mtpOpGetObjectPropsSupported hdr) (mtpOpGetObjectPropsSupported hdr') := by
  have hbuild : ∀ formatId buffer maxsize, buildPropertiesSupportedDataset buffer maxsize formatId =
      (supportedProperties formatId).elim (buffer, 0) fun codes =>
        codes.foldl (fun dst code => poke16 maxsize code dst)
          (poke32 maxsize codes.length (buffer, 0)) := by
    intro formatId buffer maxsize
    rw [buildPropertiesSupportedDataset, supportedProperties]
    cases fmtProperties.find? fun row => row.formatCode == formatId with
    | none => rfl
    | some row => rfl
  refine alike_open (made_mtpOpGetObjectPropsSupported hdr) fun hs => Or.inl ?_
  have hsame : supportedProperties (param hdr 0) = supportedProperties (param hdr' 0) := h hs
  simp only [hbuild, hsame, sendDataset_same hh]

theorem buildPropertiesDataset_same {propertyId formatId propertyId' formatId' : Nat}
    (h : describedProperty propertyId formatId = describedProperty propertyId' formatId')
    (buffer : Buffer) (maxsize : Int) : buildPropertiesDataset buffer maxsize propertyId formatId =
      buildPropertiesDataset buffer maxsize propertyId' formatId' := by
  rw [describedProperty, describedProperty] at h
  rw [buildPropertiesDataset, buildPropertiesDataset]
  dsimp only at h ⊢
  generalize ((properties.find? fun row => row.propCode == propertyId &&
    row.formatId == formatId).orElse fun _ => properties.find? fun row =>
      row.propCode == propertyId && row.formatId == 0xFFFF).getD lastProperty = row at h ⊢
  generalize ((properties.find? fun row => row.propCode == propertyId' &&
    row.formatId == formatId').orElse fun _ => properties.find? fun row =>
      row.propCode == propertyId' && row.formatId == 0xFFFF).getD lastProperty = row' at h ⊢
  by_cases hrow : row.propCode = propertyId
  · by_cases hrow' : row'.propCode = propertyId'
    · rw [if_pos hrow, if_pos hrow'] at h
      obtain ⟨hcode, htype, hgetset, hvalue, hgroup, hform, -⟩ :=
        (ProfileProperty.mk.injEq ..).mp (Option.some.inj h)
      rw [if_pos hrow, if_pos hrow', hcode, htype, hgetset, hvalue, hgroup, hform]
    · rw [if_pos hrow, if_neg hrow'] at h
      cases h
  · by_cases hrow' : row'.propCode = propertyId'
    · rw [if_neg hrow, if_pos hrow'] at h
      cases h
    · rw [if_neg hrow, if_neg hrow']

theorem alike_mtpOpGetObjectPropDesc (hh : SameHeader hdr hdr')
    (h : w.ctx.fsDb.isSome = true → w.GetsMutex os → MtpCtx.SameDescription hdr hdr') :
    Alike os (· = w) (mtpOpGetObjectPropDesc hdr) (mtpOpGetObjectPropDesc hdr') := by
  refine alike_underMutex (made_mtpOpGetObjectPropDesc hdr) fun hs hl => Or.inl ?_
  have hsame := buildPropertiesDataset_same (h hs hl)
  simp only [hsame, sendDataset_same hh]

-- The requests about one object are refused when it is unknown.
theorem alike_aboutEntry {op op' : EntryPtr → M Response}
    (hmade : Made blindRole (aboutEntry hdr op))
    (h : w.ctx.fsDb.isSome = true → w.GetsMutex os →
      param hdr 0 = param hdr' 0 ∧ (w.ctx.HasObject (param hdr 0) → op = op') ∨
        ¬w.ctx.HasObject (param hdr 0) ∧ ¬w.ctx.HasObject (param hdr' 0)) :
    Alike os (· = w) (aboutEntry hdr op) (aboutEntry hdr' op') := by
  refine alike_underMutex hmade fun hs hl => ?_
  by_cases hknown : w.ctx.HasObject (param hdr 0)
  · left
    obtain ⟨hsame, hop⟩ := (h hs hl).resolve_right fun hno => hno.1 hknown
    rw [hsame, hop hknown]
  · right
    have hknown' : ¬w.ctx.HasObject (param hdr' 0) := by
      rcases h hs hl with ⟨hsame, -⟩ | ⟨-, hno⟩
      · rwa [← hsame]
      · exact hno
    rw [MtpCtx.HasObject, Option.not_isSome_iff_eq_none] at hknown hknown'
    refine alike_at_getCtx fun buffer buffer2 => ?_
    have hleft : (w.locked os).ctx.getEntryByHandle (param hdr 0) = none := hknown
    have hright : ((w.locked os).ctx.withBuffers buffer buffer2).getEntryByHandle
        (param hdr' 0) = none := hknown'
    rw [hleft, hright]
    exact alike_ret _

theorem alike_mtpOpGetObjectInfo (hh : SameHeader hdr hdr')
    (h : w.ctx.fsDb.isSome = true → w.GetsMutex os → w.ctx.SameHandle hdr hdr') :
    Alike os (· = w) (mtpOpGetObjectInfo hdr) (mtpOpGetObjectInfo hdr') :=
  alike_aboutEntry (made_mtpOpGetObjectInfo hdr) fun hs hl => (h hs hl).imp_left fun hsame =>
    ⟨hsame, fun _ => funext fun _ => sendDataset_same hh _ _⟩

theorem buildObjectPropValueDataset_same {propCode propCode' : Nat}
    (h : SameAmong (· ∈ valuedProperties) propCode propCode') (ctx : MtpCtx) (buffer : Buffer)
    (maxsize : Int) (handle : Nat) :
    buildObjectPropValueDataset ctx buffer maxsize handle propCode =
      buildObjectPropValueDataset ctx buffer maxsize handle propCode' := by
  rcases h with rfl | ⟨hno, hno'⟩
  · rfl
  · simp only [valuedProperties, List.mem_cons, List.not_mem_nil, or_false, not_or] at hno hno'
    simp only [buildObjectPropValueDataset, hno, hno', if_false, or_self]

theorem alike_mtpOpGetObjectPropValue (hh : SameHeader hdr hdr')
    (h : w.ctx.fsDb.isSome = true → w.GetsMutex os → w.ctx.SameProperty hdr hdr') :
    Alike os (· = w) (mtpOpGetObjectPropValue hdr) (mtpOpGetObjectPropValue hdr') := by
  refine alike_aboutEntry (made_mtpOpGetObjectPropValue hdr) fun hs hl => ?_
  obtain ⟨hhandle, hvalue⟩ := h hs hl
  refine hhandle.imp_left fun hsame => ⟨hsame, fun hknown => funext fun _ => ?_⟩
  have hbuild := buildObjectPropValueDataset_same (hvalue hknown)
  simp only [hbuild, hsame, sendDataset_same hh]

theorem alike_mtpOpGetObjectReferences (hh : SameHeader hdr hdr')
    (h : w.ctx.fsDb.isSome = true → w.GetsMutex os → w.ctx.SameKnown hdr hdr') :
    Alike os (· = w) (mtpOpGetObjectReferences hdr) (mtpOpGetObjectReferences hdr') := by
  refine alike_underMutex (made_mtpOpGetObjectReferences hdr) fun hs hl => Or.inr ?_
  have hsame : w.ctx.HasObject (param hdr 0) ↔ w.ctx.HasObject (param hdr' 0) := h hs hl
  rw [MtpCtx.HasObject, MtpCtx.HasObject] at hsame
  refine alike_at_getCtx fun buffer buffer2 => ?_
  have hright : ((w.locked os).ctx.withBuffers buffer buffer2).getEntryByHandle (param hdr' 0) =
      w.ctx.getEntryByHandle (param hdr' 0) := rfl
  have hleft : (w.locked os).ctx.getEntryByHandle (param hdr 0) =
      w.ctx.getEntryByHandle (param hdr 0) := rfl
  rw [hleft, hright]
  cases hp : w.ctx.getEntryByHandle (param hdr 0) with
  | none =>
      rw [hp, Option.isSome_none, Bool.false_eq_true, false_iff,
        Option.not_isSome_iff_eq_none] at hsame
      rw [hsame]
      exact alike_ret _
  | some p =>
      obtain ⟨p', hp'⟩ := Option.isSome_iff_exists.mp (hsame.mp (by rw [hp]; rfl))
      rw [hp']
      exact alike_sendDataset hh _ fun _ _ _ => alike_ret _

theorem objectproplist_unlisted {propCode : Nat} (h : propCode ∉ selectingCodes)
    (maxsize : Int) (entry : FsEntry) (handle : Nat) (created modified : CString) (dst : Poked) :
    objectproplist maxsize entry handle created modified propCode dst =
      ((poke32 maxsize 0 ((poke32 maxsize 0 dst).1, 0)).1, (poke32 maxsize 0 dst).2) := by
  have hall : propCode ≠ 0xFFFFFFFF := fun hcode => h (hcode ▸ List.mem_cons_self)
  have hskip : ∀ code ∈ selectingCodes, ∀ handle data (dst : Poked × Nat),
      objectproplistElement maxsize code handle data propCode dst = dst :=
    fun code hcode handle data dst => if_pos ⟨fun heq => h (heq ▸ hcode), hall⟩
  -- no row of the table has this code
  have htype : ∀ handle data (dst : Poked × Nat), objectproplistElement maxsize
      MTP_PROPERTY_ASSOCIATION_TYPE handle data propCode dst = dst := by
    intro handle data dst
    unfold objectproplistElement
    split
    · rfl
    · rw [show (properties.find? fun row => row.propCode == MTP_PROPERTY_ASSOCIATION_TYPE) = none
        from by decide +kernel]
  simp only [selectingCodes, List.forall_mem_cons] at hskip
  simp only [objectproplist, htype, hskip]

theorem buildObjectproplistDataset_same {propCode propCode' : Nat}
    (h : SameAmong (· ∈ selectingCodes) propCode propCode') (buffer : Buffer) (maxsize : Int)
    (p : EntryPtr) (handle : Nat) : buildObjectproplistDataset buffer maxsize p handle propCode =
      buildObjectproplistDataset buffer maxsize p handle propCode' := by
  rcases h with rfl | ⟨hno, hno'⟩
  · rfl
  · simp only [buildObjectproplistDataset, objectproplist_unlisted hno,
      objectproplist_unlisted hno']

theorem alike_mtpOpGetObjectPropList (hh : SameHeader hdr hdr')
    (h : w.ctx.fsDb.isSome = true → w.GetsMutex os → w.ctx.SameList hdr hdr') :
    Alike os (· = w) (mtpOpGetObjectPropList hdr) (mtpOpGetObjectPropList hdr') := by
  refine alike_underMutex (made_mtpOpGetObjectPropList hdr) fun hs hl => Or.inr ?_
  obtain ⟨hgroup, hlist⟩ := h hs hl
  refine alike_at_getCtx fun buffer buffer2 => ?_
  by_cases hasks : asksForGroup hdr
  · rw [if_pos (show _ ∧ _ from hasks), if_pos (show _ ∧ _ from hgroup.mp hasks)]
    exact alike_ret _
  rw [if_neg (show ¬(_ ∧ _) from hasks),
    if_neg (show ¬(_ ∧ _) from fun hasks' => hasks (hgroup.mpr hasks'))]
  obtain ⟨hhandle, hselect⟩ := hlist hasks
  have hright : ((w.locked os).ctx.withBuffers buffer buffer2).getEntryByHandle (param hdr' 0) =
      w.ctx.getEntryByHandle (param hdr' 0) := rfl
  have hleft : (w.locked os).ctx.getEntryByHandle (param hdr 0) =
      w.ctx.getEntryByHandle (param hdr 0) := rfl
  rw [hleft, hright]
  cases hp : w.ctx.getEntryByHandle (param hdr 0) with
  | none =>
      have hnone : w.ctx.getEntryByHandle (param hdr' 0) = none := by
        rcases hhandle with hsame | ⟨-, hno⟩
        · rw [← hsame, hp]
        · exact Option.not_isSome_iff_eq_none.mp hno
      rw [hnone]
      exact alike_ret _
  | some p =>
      have hknown : w.ctx.HasObject (param hdr 0) := by
        rw [MtpCtx.HasObject, hp]
        rfl
      have hsame := hhandle.resolve_right fun hno => hno.1 hknown
      have hbuild := buildObjectproplistDataset_same (hselect hknown)
      rw [← hsame, hp]
      dsimp only
      simp only [hbuild]
      rw [← sendDataset_same hh]
      exact (made_sendDataset hdr _ fun _ _ =>
        made_buildObjectproplistDataset _ _ _ _ _).alike_at

theorem alike_mtpOpBeginEditObject
    (h : w.ctx.fsDb.isSome = true → w.GetsMutex os → w.ctx.SameAccess hdr hdr' true) :
    Alike os (· = w) (mtpOpBeginEditObject hdr) (mtpOpBeginEditObject hdr') := by
  refine alike_underMutex (made_mtpOpBeginEditObject hdr) fun hs hl => Or.inr ?_
  have hsame : w.ctx.checkHandleAccess none (param hdr 0) true =
      w.ctx.checkHandleAccess none (param hdr' 0) true := h hs hl
  refine alike_at_getCtx fun buffer buffer2 => ?_
  show Alike os _
    (.ret ((w.ctx.checkHandleAccess none (param hdr 0) true).getD MTP_RESPONSE_OK, []))
    (.ret ((w.ctx.checkHandleAccess none (param hdr' 0) true).getD MTP_RESPONSE_OK, []))
  rw [hsame]
  exact alike_ret _

theorem applyDb_closed {p : EntryPtr} (h : (ctx.entry p).fileDescriptor = -1) :
    ctx.applyDb (.setFileDescriptor p (-1)) = ctx := by
  rw [MtpCtx.applyDb]
  rw [MtpCtx.entry, MtpCtx.db] at h
  cases hdb : ctx.fsDb with
  | none => rw [Option.map_none, ← hdb]
  | some db =>
      rw [hdb, Option.getD_some] at h
      have hkeep : DbOp.step db (.setFileDescriptor p (-1)) = db := by
        show db.setEntry p { db.pool p with fileDescriptor := -1 } = db
        rw [← h]
        have hpool : (fun q => if q = p then db.pool p else db.pool q) = db.pool := by
          funext q
          split
          · rename_i heq
            rw [heq]
          · rfl
        rw [FsHandlesDb.setEntry, hpool]
      rw [Option.map_some, hkeep, ← hdb]

-- A file that is closed is not closed again.
theorem stays_entryClose {entry : Option EntryPtr}
    (h : ∀ p, entry = some p → (w.ctx.entry p).fileDescriptor = -1) :
    Stays os w (entryClose entry) () := by
  cases entry with
  | none => exact stays_pure ()
  | some p =>
      refine stays_getCtx fun buffer buffer2 => ?_
      dsimp only
      rw [if_neg (fun hopen => hopen (h p rfl))]
      rintro w' hl
      obtain ⟨buffer, buffer2, hctx⟩ := hl.ctx
      have hclosed : (w'.ctx.entry p).fileDescriptor = -1 := by
        rw [hctx]
        exact h p rfl
      refine ⟨?_, rfl⟩
      show ((), (⟨w'.ctx.applyDb (.setFileDescriptor p (-1)), w'.os⟩ : World σ)) = ((), w')
      rw [applyDb_closed hclosed]

theorem alike_mtpOpEndEditObject
    (h : w.ctx.fsDb.isSome = true → w.GetsMutex os → w.ctx.SameClosing hdr hdr') :
    Alike os (· = w) (mtpOpEndEditObject hdr) (mtpOpEndEditObject hdr') := by
  refine alike_underMutex (made_mtpOpEndEditObject trivial hdr) fun hs hl => ?_
  obtain ⟨haccess, hfile⟩ := h hs hl
  rcases hfile with hsame | ⟨hno, hno'⟩
  · left
    rw [hsame]
  · right
    have hclosed : ∀ handle, (¬∃ p, w.ctx.getEntryByHandle handle = some p ∧
        (w.ctx.entry p).fileDescriptor ≠ -1) → ∀ p, w.ctx.getEntryByHandle handle = some p →
          (w.ctx.entry p).fileDescriptor = -1 := by
      intro handle hno p hp
      by_contra hopen
      exact hno ⟨p, hp, hopen⟩
    refine alike_at_getCtx fun buffer buffer2 => ?_
    have hleft := @stays_entryClose _ os (w.locked os) _ (hclosed _ hno)
    have hright := @stays_entryClose _ os (w.locked os) _ (hclosed _ hno')
    refine alike_at_bind (hleft.alike hright) ?_
    have hsame : (w.locked os).ctx.checkHandleAccess none (param hdr 0) true =
        ((w.locked os).ctx.withBuffers buffer buffer2).checkHandleAccess none (param hdr' 0)
          true := haccess
    rw [hsame]
    exact alike_ret _

-- An object whose access is refused is not looked at further.
theorem stays_refused {wraccess : Bool} {granted : EntryPtr → MtpCtx → M Response} {code : Nat}
    (hrefused : w.ctx.checkHandleAccess none (param hdr 0) wraccess = some code) :
    Stays os w (do
      let ctx ← M.getCtx
      match ctx.getEntryByHandle (param hdr 0) with
      | some p => do
        let ctx ← M.getCtx
        match ctx.checkHandleAccess (some p) (param hdr 0) wraccess with
        | some code => return (code, [])
        | none => granted p ctx
      | none => return (MTP_RESPONSE_INVALID_OBJECT_HANDLE, [])) (code, []) := by
  refine stays_getCtx fun buffer buffer2 => ?_
  have hentry : (w.ctx.withBuffers buffer buffer2).getEntryByHandle (param hdr 0) =
      w.ctx.getEntryByHandle (param hdr 0) := rfl
  rw [hentry]
  cases hp : w.ctx.getEntryByHandle (param hdr 0) with
  | none =>
      rw [MtpCtx.checkHandleAccess, hp] at hrefused
      obtain rfl := Option.some.inj hrefused
      exact stays_pure _
  | some p =>
      refine stays_getCtx fun buffer buffer2 => ?_
      have hcode : (w.ctx.withBuffers buffer buffer2).checkHandleAccess (some p) (param hdr 0)
          wraccess = some code := by
        rwa [checkHandleAccess_none hp] at hrefused
      rw [hcode]
      exact stays_pure _

theorem alike_object {wraccess : Bool} {granted granted' : EntryPtr → MtpCtx → M Response}
    (hmade : Made blindRole (aboutEntry hdr fun p => do
      let ctx ← M.getCtx
      match ctx.checkHandleAccess (some p) (param hdr 0) wraccess with
      | some code => return (code, [])
      | none => granted p ctx))
    (h : w.ctx.fsDb.isSome = true → w.GetsMutex os → w.ctx.SameObject hdr hdr' wraccess)
    (hsame : w.ctx.fsDb.isSome = true → w.GetsMutex os → w.ctx.Grants hdr wraccess →
      granted = granted') :
    Alike os (· = w) (aboutEntry hdr fun p => do
        let ctx ← M.getCtx
        match ctx.checkHandleAccess (some p) (param hdr 0) wraccess with
        | some code => return (code, [])
        | none => granted p ctx)
      (aboutEntry hdr' fun p => do
        let ctx ← M.getCtx
        match ctx.checkHandleAccess (some p) (param hdr' 0) wraccess with
        | some code => return (code, [])
        | none => granted' p ctx) := by
  refine alike_underMutex hmade fun hs hl => ?_
  obtain ⟨haccess, hgranted⟩ := h hs hl
  rw [MtpCtx.SameAccess] at haccess
  cases hcode : w.ctx.checkHandleAccess none (param hdr 0) wraccess with
  | none =>
      left
      rw [hgranted hcode, hsame hs hl hcode]
  | some code =>
      right
      exact (stays_refused (w := w.locked os) hcode).alike
        (stays_refused (w := w.locked os) (haccess.symm.trans hcode))

theorem alike_mtpOpGetObject (hh : SameHeader hdr hdr')
    (h : w.ctx.fsDb.isSome = true → w.GetsMutex os → w.ctx.SameObject hdr hdr' false) :
    Alike os (· = w) (mtpOpGetObject hdr) (mtpOpGetObject hdr') := by
  have htransfers := (@blindRole_performs MTP_OPERATION_GET_OBJECT (by decide)).transfers
    (Or.inl rfl)
  refine alike_object (made_mtpOpGetObject htransfers hdr) h fun _ _ _ => ?_
  simp only [startData_same hh]

theorem alike_mtpOpTruncateObject
    (h : w.ctx.fsDb.isSome = true → w.GetsMutex os → w.ctx.SameLength hdr hdr') :
    Alike os (· = w) (mtpOpTruncateObject hdr) (mtpOpTruncateObject hdr') := by
  refine alike_object (made_mtpOpTruncateObject (fun _ _ _ => by simp [blindRole]) hdr)
    (fun hs hl => (h hs hl).1) fun hs hl hgranted => ?_
  rw [(h hs hl).2 hgranted]

theorem alike_mtpOpDeleteObject
    (h : w.ctx.fsDb.isSome = true → w.GetsMutex os → w.ctx.SameObject hdr hdr' true) :
    Alike os (· = w) (mtpOpDeleteObject hdr) (mtpOpDeleteObject hdr') := by
  have hremoves := (@blindRole_performs MTP_OPERATION_DELETE_OBJECT (by decide)).removes rfl
  refine alike_underMutex (made_mtpOpDeleteObject hremoves.1 hremoves.2 hdr) fun hs hl => ?_
  obtain ⟨haccess, hgranted⟩ := h hs hl
  rw [MtpCtx.SameAccess] at haccess
  have hrefused : ∀ (hdr : Buffer) code,
      w.ctx.checkHandleAccess none (param hdr 0) true = some code →
        Stays os (w.locked os) (deleteObject hdr) (code, []) := by
    intro hdr code hcode
    refine stays_getCtx fun buffer buffer2 => ?_
    have hcode : ((w.locked os).ctx.withBuffers buffer buffer2).checkHandleAccess none
      (param hdr 0) true = some code := hcode
    rw [hcode]
    exact stays_pure _
  cases hcode : w.ctx.checkHandleAccess none (param hdr 0) true with
  | none =>
      left
      rw [deleteObject, deleteObject, hgranted hcode]
  | some code =>
      exact Or.inr ((hrefused hdr code hcode).alike
        (hrefused hdr' code (haccess.symm.trans hcode)))

theorem allocReadFileBuffer_entry (w : World σ) :
    (exec (World.handle os) allocReadFileBuffer w).2.ctx.entry = w.ctx.entry := by
  have hctx : exec (World.handle os) M.getCtx w = (w.ctx, w) := rfl
  unfold allocReadFileBuffer
  rw [bind_eq, exec_bind, hctx]
  dsimp only
  split
  · rw [bind_eq, exec_bind]
    split
    · rfl
    · rfl
  · rfl

-- Of the size, only how much of the file it comes to is used.
theorem alike_sendFileData {p : EntryPtr} {offset maxsize maxsize' : Int}
    (h : actualSize (w.ctx.entry p).size offset maxsize =
      actualSize (w.ctx.entry p).size offset maxsize') :
    Alike os (· = w) (sendFileData p offset maxsize) (sendFileData p offset maxsize') := by
  have htransfers := (@blindRole_performs MTP_OPERATION_GET_OBJECT (by decide)).transfers
    (Or.inl rfl)
  have hset := htransfers.transferring
  have hopen := htransfers.opens
  have hclose := htransfers.closes
  rw [sendFileData, sendFileData]
  refine alike_at_bind made_allocReadFileBuffer.alike_at ?_
  split
  · refine alike_at_getCtx fun buffer buffer2 => ?_
    rw [← @allocReadFileBuffer_entry _ os w] at h
    rw [MtpCtx.entry_withBuffers, ← h]
    refine Made.alike_at ?_
    grind
  · exact alike_ret _

theorem checkHandleAccess_found (ctx : MtpCtx) (handle : Nat) (wraccess : Bool) :
    ctx.checkHandleAccess (ctx.getEntryByHandle handle) handle wraccess =
      ctx.checkHandleAccess none handle wraccess := by
  rw [MtpCtx.checkHandleAccess, MtpCtx.checkHandleAccess]
  cases hp : ctx.getEntryByHandle handle with
  | none => rfl
  | some p => rfl

theorem alike_mtpOpGetPartialObject (hh : SameHeader hdr hdr')
    (h : w.ctx.fsDb.isSome = true → w.GetsMutex os → w.ctx.SamePart hdr hdr') :
    Alike os (· = w) (mtpOpGetPartialObject hdr) (mtpOpGetPartialObject hdr') := by
  have htransfers := (@blindRole_performs MTP_OPERATION_GET_PARTIAL_OBJECT (by decide)).transfers
    (Or.inr (Or.inl rfl))
  refine alike_underMutex (made_mtpOpGetPartialObject htransfers hdr) fun hs hl => Or.inr ?_
  obtain ⟨⟨haccess, hgranted⟩, hrange⟩ := h hs hl
  rw [MtpCtx.SameAccess] at haccess
  rcases hr : partialRange hdr with ⟨offset, maxsize⟩
  rcases hr' : partialRange hdr' with ⟨offset', maxsize'⟩
  rw [hr, hr'] at hrange
  rw [partialRange] at hr hr'
  rw [hr, hr']
  refine alike_at_getCtx fun buffer buffer2 => ?_
  have hentry : ∀ handle, ((w.locked os).ctx.withBuffers buffer buffer2).getEntryByHandle handle =
      w.ctx.getEntryByHandle handle := fun _ => rfl
  have hentry' : ∀ handle, (w.locked os).ctx.getEntryByHandle handle =
      w.ctx.getEntryByHandle handle := fun _ => rfl
  have hcheck : (w.locked os).ctx.checkHandleAccess = w.ctx.checkHandleAccess := rfl
  dsimp only
  rw [hentry, hentry', MtpCtx.checkHandleAccess_withBuffers, hcheck, checkHandleAccess_found,
    checkHandleAccess_found, ← haccess]
  cases hcode : w.ctx.checkHandleAccess none (param hdr 0) false with
  | some code => exact alike_ret _
  | none =>
      obtain ⟨hoffset, hsize⟩ := hrange hcode
      dsimp only at hoffset hsize
      rw [← hoffset] at hsize
      rw [← hgranted hcode, ← hoffset, ← startData_same hh]
      cases hp : w.ctx.getEntryByHandle (param hdr 0) with
      | none => exact alike_ret _
      | some p =>
          obtain ⟨wrbuffer, hstart⟩ := @startData_writing _ os hdr (w.locked os)
          refine alike_at_bind (made_startData hdr).alike_at ?_
          rw [hstart]
          split
          · refine alike_at_bind (alike_sendFileData (hsize p hp)) (Made.alike_at ?_)
            grind
          · exact alike_ret _

theorem folderHandle_top {handle handle' : Nat} (h : folderHandle handle = folderHandle handle')
    (hne : handle ≠ handle') : ¬(handle ≠ 0 ∧ handle ≠ NO_HANDLE) := by
  rintro ⟨hzero, hno⟩
  rw [folderHandle, if_neg hno, folderHandle] at h
  split at h
  · exact hzero h
  · exact hne h

-- The top folder is listed whichever word the packet has for it.
theorem handlesBody_same (hh : SameHeader hdr hdr') (hstorage : param hdr 0 = param hdr' 0)
    (hfolder : folderHandle (param hdr 2) = folderHandle (param hdr' 2)) :
    mtpOpGetObjectHandles hdr = mtpOpGetObjectHandles hdr' := by
  rw [mtpOpGetObjectHandles, mtpOpGetObjectHandles, startData_same hh, hstorage]
  by_cases hsame : param hdr 2 = param hdr' 2
  · rw [hsame]
  · simp only [if_neg (folderHandle_top hfolder hsame),
      if_neg (folderHandle_top hfolder.symm (Ne.symm hsame))]

-- Otherwise the storage or the folder is unknown to both.
theorem unlisted_folder (h : ctx.SameFolder hdr hdr') (hno : ¬(param hdr 0 = param hdr' 0 ∧
    folderHandle (param hdr 2) = folderHandle (param hdr' 2))) :
    ctx.mtpGetStorageRoot (param hdr 0) = none ∧ ctx.mtpGetStorageRoot (param hdr' 0) = none ∨
      (∃ root, ctx.mtpGetStorageRoot (param hdr 0) = some root) ∧
        (∃ root, ctx.mtpGetStorageRoot (param hdr' 0) = some root) ∧
          ctx.IsUnknownFolder (param hdr 2) ∧ ctx.IsUnknownFolder (param hdr' 2) := by
  rcases h with ⟨hsame | ⟨hnone, hnone'⟩, hfolder⟩ | ⟨hstorage, hfolder⟩
  · exact absurd ⟨hsame, hfolder⟩ hno
  · exact Or.inl ⟨Option.not_isSome_iff_eq_none.mp hnone, Option.not_isSome_iff_eq_none.mp hnone'⟩
  · cases hroot : ctx.mtpGetStorageRoot (param hdr 0) with
    | none =>
        rw [hroot] at hstorage
        exact Or.inl ⟨rfl, Option.not_isSome_iff_eq_none.mp (by rw [← hstorage]; decide)⟩
    | some root =>
        rw [hroot] at hstorage hfolder
        exact Or.inr ⟨⟨root, rfl⟩, Option.isSome_iff_exists.mp hstorage.symm, hfolder rfl⟩

theorem alike_mtpOpGetObjectHandles (hh : SameHeader hdr hdr')
    (h : w.ctx.fsDb.isSome = true → w.GetsMutex os → w.ctx.SameFolder hdr hdr') :
    Alike os (· = w) (mtpOpGetObjectHandles hdr) (mtpOpGetObjectHandles hdr') := by
  have hlists := (@blindRole_performs MTP_OPERATION_GET_OBJECT_HANDLES (by decide)).lists rfl
  have hmade := made_mtpOpGetObjectHandles hlists hdr
  by_cases hsame : param hdr 0 = param hdr' 0 ∧
      folderHandle (param hdr 2) = folderHandle (param hdr' 2)
  · rw [← handlesBody_same hh hsame.1 hsame.2]
    exact hmade.alike_at
  have hanswer : Made blindRole (answerHandles (some 0)) := by
    unfold answerHandles
    grind
  refine alike_underMutex hmade fun hs hl => Or.inr ?_
  obtain ⟨wrbuffer, hstart⟩ := @startData_writing _ os hdr (w.locked os)
  rw [← startData_same hh]
  refine alike_at_bind (made_startData hdr).alike_at ?_
  rw [hstart]
  split
  · refine alike_at_getCtx fun buffer buffer2 => ?_
    have hleft : ((w.locked os).writing wrbuffer).ctx.mtpGetStorageRoot (param hdr 0) =
        w.ctx.mtpGetStorageRoot (param hdr 0) := rfl
    have hright : (((w.locked os).writing wrbuffer).ctx.withBuffers buffer
        buffer2).mtpGetStorageRoot (param hdr' 0) = w.ctx.mtpGetStorageRoot (param hdr' 0) := rfl
    rw [hleft, hright]
    rcases @unlisted_folder w.ctx hdr hdr' (h hs hl) hsame with ⟨hnone, hnone'⟩ |
      ⟨⟨root, hroot⟩, ⟨root', hroot'⟩, ⟨hzero, hno, hunknown⟩, hzero', hno', hunknown'⟩
    · rw [hnone, hnone']
      exact alike_ret _
    · rw [MtpCtx.HasObject, Option.not_isSome_iff_eq_none] at hunknown hunknown'
      have hentry : ((w.locked os).writing wrbuffer).ctx.getEntryByHandle (param hdr 2) = none :=
        hunknown
      have hentry' : (((w.locked os).writing wrbuffer).ctx.withBuffers buffer
          buffer2).getEntryByHandle (param hdr' 2) = none := hunknown'
      rw [hroot, hroot']
      dsimp only
      rw [if_pos ⟨hzero, hno⟩, if_pos ⟨hzero', hno'⟩, hentry, hentry']
      exact hanswer.alike_at
  · exact alike_ret _

-- The data phases look at the bytes that are behind the header, as far as the size goes.
theorem sendObjectData_same (hcode : hdrCode hdr = hdrCode hdr') {size : Nat}
    (hread : hdr.read MTP_HEADER_SIZE ((size : Int) - MTP_HEADER_SIZE).toNat =
      hdr'.read MTP_HEADER_SIZE ((size : Int) - MTP_HEADER_SIZE).toNat) :
    sendObjectData hdr size = sendObjectData hdr' size := by
  have hreceive : receiveObject hdr size = receiveObject hdr' size := by
    funext isPartial p file
    unfold receiveObject
    simp only [hread]
  rw [sendObjectData, sendObjectData, hcode, hreceive]

theorem sendObjectPhase_same (hcode : hdrCode hdr = hdrCode hdr')
    (hoperation : hdrOperation hdr = hdrOperation hdr') {size : Nat}
    (hread : hdr.read MTP_HEADER_SIZE ((size : Int) - MTP_HEADER_SIZE).toNat =
      hdr'.read MTP_HEADER_SIZE ((size : Int) - MTP_HEADER_SIZE).toNat)
    (hplace : hdrCode hdr = MTP_OPERATION_SEND_PARTIAL_OBJECT → MtpCtx.SamePlace hdr hdr') :
    sendObjectPhase hdr size = sendObjectPhase hdr' size := by
  rw [sendObjectPhase, sendObjectPhase, sendObjectRest, sendObjectRest, ← hcode, ← hoperation,
    sendObjectData_same hcode hread]
  by_cases hpart : hdrCode hdr = MTP_OPERATION_SEND_PARTIAL_OBJECT ∧
      hdrOperation hdr = MTP_CONTAINER_TYPE_COMMAND
  · obtain ⟨hhandle, hsize, hoffset⟩ := hplace hpart.1 hpart.2
    rw [hhandle, hsize, hoffset]
  · simp only [if_neg hpart]

theorem alike_mtpOpSendObject (hcode : hdrCode hdr = hdrCode hdr')
    (hoperation : hdrOperation hdr = hdrOperation hdr') {size : Nat}
    (hread : hdr.read MTP_HEADER_SIZE ((size : Int) - MTP_HEADER_SIZE).toNat =
      hdr'.read MTP_HEADER_SIZE ((size : Int) - MTP_HEADER_SIZE).toNat)
    (h : w.ctx.fsDb.isSome = true → w.GetsMutex os →
      hdrCode hdr = MTP_OPERATION_SEND_PARTIAL_OBJECT → MtpCtx.SamePlace hdr hdr') :
    Alike os (· = w) (mtpOpSendObject hdr size) (mtpOpSendObject hdr' size) := by
  have hreceives := (@blindRole_performs MTP_OPERATION_SEND_OBJECT (by decide)).receives
    (Or.inl rfl)
  by_cases hopen : w.ctx.fsDb.isSome = true ∧ w.GetsMutex os
  · have hsame := sendObjectPhase_same hcode hoperation hread (h hopen.1 hopen.2)
    have hop : mtpOpSendObject hdr size = mtpOpSendObject hdr' size := by
      rw [mtpOpSendObject, mtpOpSendObject, hsame]
    rw [← hop]
    exact (made_mtpOpSendObject hreceives hdr size).alike_at
  · exact alike_inSession fun hs => alike_lock (fun hl => absurd ⟨hs, hl⟩ hopen) (alike_ret _)

-- The name is looked at when an object is given one.
theorem alike_setObjectPropValue (h : w.ctx.GivesName → newFilename hdr = newFilename hdr') :
    Alike os (· = w)
      (setObjectPropValue hdr w.ctx.setObjectPropValueHandle w.ctx.setObjectPropValuePropCode)
      (setObjectPropValue hdr' w.ctx.setObjectPropValueHandle
        w.ctx.setObjectPropValuePropCode) := by
  have hrenames := (@blindRole_performs MTP_OPERATION_SET_OBJECT_PROP_VALUE (by decide)).renames rfl
  unfold setObjectPropValue
  split
  · exact alike_ret _
  split
  · rename_i hhandle hprop
    refine alike_at_getCtx fun buffer buffer2 => ?_
    have hentry : (w.ctx.withBuffers buffer buffer2).getEntryByHandle
        w.ctx.setObjectPropValueHandle =
          w.ctx.getEntryByHandle w.ctx.setObjectPropValueHandle := rfl
    rw [hentry, MtpCtx.checkHandleAccess_withBuffers]
    cases hentry : w.ctx.getEntryByHandle w.ctx.setObjectPropValueHandle with
    | none => exact alike_ret _
    | some p =>
        dsimp only
        cases haccess : w.ctx.checkHandleAccess (some p) 0 true with
        | some code => exact alike_ret _
        | none =>
            have hname := h ⟨hhandle, hprop, p, hentry, haccess⟩
            have hsame : renameObject hdr p = renameObject hdr' p := by
              rw [renameObject, renameObject, getObjectPropFilename, getObjectPropFilename, hname]
            dsimp only
            rw [← hsame]
            exact (made_renameObject hrenames hdr p).alike_at
  · exact alike_ret _

theorem alike_mtpOpSetObjectPropValue (hoperation : hdrOperation hdr = hdrOperation hdr')
    (h : w.ctx.fsDb.isSome = true → w.ctx.SameName hdr hdr') :
    Alike os (· = w) (mtpOpSetObjectPropValue hdr) (mtpOpSetObjectPropValue hdr') := by
  refine alike_inSession fun hs => ?_
  obtain ⟨hparams, hname⟩ := h hs
  rw [← hoperation]
  by_cases hcommand : hdrOperation hdr = MTP_CONTAINER_TYPE_COMMAND
  · obtain ⟨hhandle, hprop⟩ := hparams hcommand
    rw [if_pos hcommand, if_pos hcommand, hhandle, hprop]
    exact alike_at_bind (alike_cmd (by simp)) (alike_ret _)
  rw [if_neg hcommand, if_neg hcommand]
  by_cases hdata : hdrOperation hdr = MTP_CONTAINER_TYPE_DATA
  · rw [if_pos hdata, if_pos hdata]
    have hend : ∀ code : Nat, Made blindRole (do
        M.cmd (.setObjectPropValue NO_HANDLE w.ctx.setObjectPropValuePropCode)
        return ((code, []) : Response)) := fun code =>
      made_bind (made_cmd _ (Or.inr (by simp [blindRole]))) fun _ => made_pure _
    refine alike_at_getCtx fun buffer buffer2 => ?_
    exact alike_at_bind (alike_setObjectPropValue (hname hdata)) (hend _).alike_at
  · rw [if_neg hdata, if_neg hdata]
    exact alike_ret _

theorem stays_parse_refused {storageId code : Nat}
    (h : w.ctx.newObjectRefusal storageId = some code) (datain : Buffer) (parentHandle : Nat) :
    Stays os w (parseIncomingDataset datain parentHandle storageId) (code, NO_HANDLE) := by
  refine stays_getCtx fun buffer buffer2 => ?_
  rw [MtpCtx.newObjectRefusal] at h
  have hflags : (w.ctx.withBuffers buffer buffer2).mtpGetStorageFlags storageId =
      w.ctx.mtpGetStorageFlags storageId := rfl
  dsimp only
  rw [hflags]
  split at h
  · rename_i hnone
    rw [if_pos hnone, Option.some.inj h]
    exact stays_pure _
  · rename_i hnone
    split at h
    · rename_i hread
      rw [if_neg hnone, if_pos hread, Option.some.inj h]
      exact stays_pure _
    · cases h

theorem flags_of_taken {storageId : Nat} (h : ctx.newObjectRefusal storageId = none) :
    ctx.mtpGetStorageFlags storageId ≠ NO_STORAGE_FLAGS ∧
      ¬hasFlag (ctx.mtpGetStorageFlags storageId) UMTP_STORAGE_READONLY = true := by
  rw [MtpCtx.newObjectRefusal] at h
  split at h
  · cases h
  · rename_i hnone
    split at h
    · cases h
    · rename_i hread
      exact ⟨hnone, hread⟩

theorem stays_parse_nameless {storageId : Nat} (h : w.ctx.newObjectRefusal storageId = none)
    {datain : Buffer} (hname : MtpCtx.IsNameless datain) (parentHandle : Nat) :
    Stays os w (parseIncomingDataset datain parentHandle storageId)
      (MTP_RESPONSE_INVALID_DATASET, NO_HANDLE) := by
  obtain ⟨hnone, hread⟩ := flags_of_taken h
  refine stays_getCtx fun buffer buffer2 => ?_
  have hflags : (w.ctx.withBuffers buffer buffer2).mtpGetStorageFlags storageId =
      w.ctx.mtpGetStorageFlags storageId := rfl
  have hnameless : sanitizeName (datasetName (datain.shift MTP_HEADER_SIZE)) TMP_STR_SIZE = none :=
    hname.2
  dsimp only
  rw [hflags, if_neg hnone, if_neg hread, if_pos hname.1, hnameless]
  exact stays_pure _

-- The folder or the file that a dataset asks for.
theorem alike_newObject {datain datain' : Buffer} {parentHandle storageId : Nat}
    (folder : EntryPtr) (name : CString)
    (hformat : newObjectFormat datain = MTP_FORMAT_ASSOCIATION ↔
      newObjectFormat datain' = MTP_FORMAT_ASSOCIATION)
    (hsize : newObjectFormat datain ≠ MTP_FORMAT_ASSOCIATION →
      newObjectSize datain = newObjectSize datain') :
    Alike os (· = w)
      (if newObjectFormat datain = MTP_FORMAT_ASSOCIATION then
        createFolder folder name parentHandle storageId
      else
        createFile folder name (newObjectSize datain) parentHandle storageId)
      (if newObjectFormat datain' = MTP_FORMAT_ASSOCIATION then
        createFolder folder name parentHandle storageId
      else
        createFile folder name (newObjectSize datain') parentHandle storageId) := by
  have hcreates : blindRole.Creates :=
    ⟨trivial, trivial, trivial, fun _ _ => by simp [blindRole], fun _ _ _ => by simp [blindRole]⟩
  by_cases hassociation : newObjectFormat datain = MTP_FORMAT_ASSOCIATION
  · rw [if_pos hassociation, if_pos (hformat.mp hassociation)]
    exact (made_createFolder hcreates _ _ _ _).alike_at
  · rw [if_neg hassociation, if_neg fun hother => hassociation (hformat.mpr hother),
      ← hsize hassociation]
    exact (made_createFile hcreates _ _ _ _ _).alike_at

theorem alike_parse {datain datain' : Buffer}
    (h : w.ctx.newObjectRefusal (param hdr 0) = none)
    (hdata : w.ctx.SameDataset hdr datain datain') :
    Alike os (· = w) (parseIncomingDataset datain (param hdr 1) (param hdr 0))
      (parseIncomingDataset datain' (param hdr 1) (param hdr 0)) := by
  obtain ⟨hnone, hread⟩ := flags_of_taken h
  refine alike_at_getCtx fun buffer buffer2 => ?_
  have hflags : (w.ctx.withBuffers buffer buffer2).mtpGetStorageFlags (param hdr 0) =
      w.ctx.mtpGetStorageFlags (param hdr 0) := rfl
  dsimp only
  rw [hflags, if_neg hnone, if_neg hread, if_neg hnone, if_neg hread]
  obtain ⟨hinfo, hfields⟩ := hdata
  by_cases hcode : hdrCode datain = MTP_OPERATION_SEND_OBJECT_INFO
  · obtain ⟨hname, hobject⟩ := hfields hcode
    rw [if_pos hcode, if_pos (hinfo.mp hcode)]
    rw [newObjectName, newObjectName] at hname
    cases hsanitized : sanitizeName (datasetName (datain.shift MTP_HEADER_SIZE)) TMP_STR_SIZE with
    | none =>
        rw [hsanitized] at hname
        have hsanitized' : sanitizeName (datasetName (datain'.shift MTP_HEADER_SIZE))
            TMP_STR_SIZE = none := Option.not_isSome_iff_eq_none.mp (by rw [← hname]; decide)
        rw [hsanitized']
        exact alike_ret _
    | some name =>
        rw [hsanitized] at hname
        obtain ⟨name', hsanitized'⟩ := Option.isSome_iff_exists.mp hname.symm
        rw [newObjectName, newObjectName, hsanitized, hsanitized'] at hobject
        rw [hsanitized']
        dsimp only
        have hhandle : (if param hdr 1 = NO_HANDLE then 0 else param hdr 1) =
            folderHandle (param hdr 1) := rfl
        have hlookup : (w.ctx.withBuffers buffer buffer2).getEntryByHandleAndStorageid
            (folderHandle (param hdr 1)) (param hdr 0) =
              w.ctx.getEntryByHandleAndStorageid (folderHandle (param hdr 1)) (param hdr 0) := rfl
        rw [hhandle, hlookup, MtpCtx.entry_withBuffers]
        rw [MtpCtx.newObjectFolder] at hobject
        cases hfolder : w.ctx.getEntryByHandleAndStorageid (folderHandle (param hdr 1))
            (param hdr 0) with
        | none => exact alike_ret _
        | some folder =>
            dsimp only
            by_cases hdir : (w.ctx.entry folder).isDir = true
            · rw [if_pos hdir, if_pos hdir]
              have hsome : ((some folder).filter fun folder =>
                  (w.ctx.entry folder).isDir).isSome = true := by
                rw [Option.filter_some, if_pos hdir]
                rfl
              rw [hfolder] at hobject
              obtain ⟨hsame, hformat, hsize⟩ := hobject hsome
              obtain rfl := Option.some.inj hsame
              exact alike_newObject folder name hformat hsize
            · rw [if_neg hdir, if_neg hdir]
              exact alike_ret _
  · rw [if_neg hcode, if_neg fun hcode' => hcode (hinfo.mpr hcode')]
    exact alike_ret _

-- What is answered when the dataset is looked at.
def newObjectAnswer (hdr datain : Buffer) : M Response := do
  let (code, newHandle) ← parseIncomingDataset datain (param hdr 1) (param hdr 0)
  if code = MTP_RESPONSE_OK then
    return (code, [param hdr 0, param hdr 1, newHandle])
  else
    return (code, [])

theorem answerDataset_eq (hdr : Buffer) :
    answerDataset hdr = M.getCtx.bind fun ctx => newObjectAnswer hdr ctx.rdbuffer2 := rfl

theorem stays_newObjectAnswer {datain : Buffer} {code handle : Nat}
    (h : Stays os w (parseIncomingDataset datain (param hdr 1) (param hdr 0)) (code, handle))
    (hcode : code ≠ MTP_RESPONSE_OK) : Stays os w (newObjectAnswer hdr datain) (code, []) := by
  refine stays_bind h ?_
  dsimp only
  rw [if_neg hcode]
  exact stays_pure _

theorem alike_newObjectAnswer {datain datain' : Buffer}
    (h : w.ctx.SameNewObject hdr hdr' datain datain') :
    Alike os (· = w) (newObjectAnswer hdr datain) (newObjectAnswer hdr' datain') := by
  obtain ⟨hrefusal, hdata⟩ := h
  cases hcode : w.ctx.newObjectRefusal (param hdr 0) with
  | some code =>
      have hnot : code ≠ MTP_RESPONSE_OK := by
        rintro rfl
        rw [MtpCtx.newObjectRefusal] at hcode
        split at hcode
        · exact absurd (Option.some.inj hcode) (by decide)
        · split at hcode
          · exact absurd (Option.some.inj hcode) (by decide)
          · cases hcode
      have hcode' := hrefusal.symm.trans hcode
      exact (stays_newObjectAnswer (stays_parse_refused hcode datain _) hnot).alike
        (stays_newObjectAnswer (stays_parse_refused hcode' datain' _) hnot)
  | none =>
      have hcode' := hrefusal.symm.trans hcode
      have hnot : MTP_RESPONSE_INVALID_DATASET ≠ MTP_RESPONSE_OK := by decide
      rcases hdata hcode with ⟨hname, hname'⟩ | ⟨hstorage, hparent, hsame⟩
      · exact (stays_newObjectAnswer (stays_parse_nameless hcode hname _) hnot).alike
          (stays_newObjectAnswer (stays_parse_nameless hcode' hname' _) hnot)
      · rw [newObjectAnswer, newObjectAnswer, ← hstorage, ← hparent]
        refine alike_at_bind (alike_parse hcode hsame) (Made.alike_at ?_)
        grind

theorem alike_mtpOpSendObjectInfo
    (h : w.ctx.fsDb.isSome = true → w.GetsMutex os → ∀ buffer buffer2 : Buffer,
      w.ctx.SameNewObject hdr hdr' (buffer.write 0 (w.datasetRead os))
        (buffer2.write 0 (w.datasetRead os))) :
    Alike os (· = w) (mtpOpSendObjectInfo hdr) (mtpOpSendObjectInfo hdr') := by
  refine alike_inSession fun hs => alike_lock (fun hl => ?_) (alike_ret _)
  refine alike_at_bind ?_ (made_bind (made_act_ _ (Or.inl rfl)) fun _ => made_pure _).alike_at
  have hsame := h hs hl
  rw [World.datasetRead] at hsame
  refine alike_at_getCtx fun buffer buffer2 => ?_
  refine alike_at_bind (alike_cmd (c := .act (.readUsb _)) (by simp)) ?_
  dsimp only
  generalize hread : (exec (World.handle os) (M.act (.readUsb _)) _).1 = read
  have hread' : (os.act (.readUsb w.ctx.usbRdBufferMaxSize) (w.locked os).os).1 = read := hread
  rw [hread'] at hsame
  cases read with
  | none =>
      dsimp only
      rw [answerDataset_eq, answerDataset_eq]
      refine alike_at_getCtx fun buffer buffer2 => alike_newObjectAnswer ?_
      have hstale := hsame w.ctx.rdbuffer2 buffer2
      rw [Option.getD_none, Buffer.write_nil, Buffer.write_nil] at hstale
      exact hstale
  | some bytes => exact alike_stored fun buffer => alike_newObjectAnswer (hsame _ _)

theorem alike_performOperation {size : Nat}
    (hread : hdr.read MTP_HEADER_SIZE ((size : Int) - MTP_HEADER_SIZE).toNat =
      hdr'.read MTP_HEADER_SIZE ((size : Int) - MTP_HEADER_SIZE).toNat)
    (h : w.SameRequest os hdr hdr') :
    Alike os (· = w) (performOperation hdr size) (performOperation hdr' size) := by
  have hheader : hdrCode hdr ≠ MTP_OPERATION_SEND_OBJECT → SameHeader hdr hdr' := fun hno =>
    ⟨h.code, h.operation, h.answer.resolve_right fun hsilent => hno hsilent.1⟩
  have hsession : ∀ {code same}, hdrCode hdr = code → sessionRequests.lookup code = some same →
      w.ctx.fsDb.isSome = true → same w.ctx hdr hdr' := by
    rintro code same rfl hsame hs
    exact h.session hs same hsame
  have hlocked : ∀ {code same}, hdrCode hdr = code → lockedRequests.lookup code = some same →
      w.ctx.fsDb.isSome = true → w.GetsMutex os → same w.ctx hdr hdr' := by
    rintro code same rfl hsame hs hl
    exact h.locked hs hl same hsame
  unfold performOperation
  rw [← h.code]
  split
  · rename_i op hop
    have hm := mem_of_lookup hop
    simp only [operations, List.mem_cons, Prod.mk.injEq, List.not_mem_nil, or_false] at hm
    rcases hm with ⟨hcode, rfl⟩ | ⟨hcode, rfl⟩ | ⟨hcode, rfl⟩ | ⟨hcode, rfl⟩ | ⟨hcode, rfl⟩ |
      ⟨hcode, rfl⟩ | ⟨hcode, rfl⟩ | ⟨hcode, rfl⟩ | ⟨hcode, rfl⟩ | ⟨hcode, rfl⟩ | ⟨hcode, rfl⟩ |
      ⟨hcode, rfl⟩ | ⟨hcode, rfl⟩ | ⟨hcode, rfl⟩ | ⟨hcode, rfl⟩ | ⟨hcode, rfl⟩ | ⟨hcode, rfl⟩ |
      ⟨hcode, rfl⟩ | ⟨hcode, rfl⟩ | ⟨hcode, rfl⟩ | ⟨hcode, rfl⟩ | ⟨hcode, rfl⟩ | ⟨hcode, rfl⟩ |
      ⟨hcode, rfl⟩ | ⟨hcode, rfl⟩
    · exact alike_mtpOpOpenSession (h.opening hcode)
    · exact (made_mtpOpCloseSession trivial (by simp [blindRole])).alike_at
    · exact alike_mtpOpGetDeviceInfos (hheader (by rw [hcode]; decide))
    · exact alike_mtpOpGetStorageIDs (hheader (by rw [hcode]; decide))
    · exact alike_mtpOpGetStorageInfo (hheader (by rw [hcode]; decide)) (hsession hcode rfl)
    · exact alike_mtpOpGetDevicePropDesc (hheader (by rw [hcode]; decide)) (hlocked hcode rfl)
    · exact alike_mtpOpGetDevicePropValue (hheader (by rw [hcode]; decide)) (hlocked hcode rfl)
    · exact alike_mtpOpGetObjectHandles (hheader (by rw [hcode]; decide)) (hlocked hcode rfl)
    · exact alike_mtpOpGetObjectInfo (hheader (by rw [hcode]; decide)) (hlocked hcode rfl)
    · exact alike_mtpOpGetPartialObject (hheader (by rw [hcode]; decide)) (hlocked hcode rfl)
    · exact alike_mtpOpGetPartialObject (hheader (by rw [hcode]; decide)) (hlocked hcode rfl)
    · exact alike_mtpOpGetObject (hheader (by rw [hcode]; decide)) (hlocked hcode rfl)
    · exact alike_mtpOpSendObjectInfo (h.dataset hcode)
    · exact alike_mtpOpSendObject h.code h.operation hread fun hs hl _ => hlocked hcode rfl hs hl
    · refine alike_mtpOpSendObject h.code h.operation hread fun _ _ hpart => ?_
      rw [hcode] at hpart
      cases hpart
    · exact alike_mtpOpDeleteObject (hlocked hcode rfl)
    · exact alike_mtpOpGetObjectPropsSupported (hheader (by rw [hcode]; decide))
        (hsession hcode rfl)
    · exact alike_mtpOpGetObjectPropDesc (hheader (by rw [hcode]; decide)) (hlocked hcode rfl)
    · exact alike_mtpOpGetObjectPropValue (hheader (by rw [hcode]; decide)) (hlocked hcode rfl)
    · exact alike_mtpOpSetObjectPropValue h.operation (hsession hcode rfl)
    · exact alike_mtpOpGetObjectPropList (hheader (by rw [hcode]; decide)) (hlocked hcode rfl)
    · exact alike_mtpOpGetObjectReferences (hheader (by rw [hcode]; decide)) (hlocked hcode rfl)
    · exact alike_mtpOpBeginEditObject (hlocked hcode rfl)
    · exact alike_mtpOpEndEditObject (hlocked hcode rfl)
    · exact alike_mtpOpTruncateObject (hlocked hcode rfl)
  · exact alike_ret _

end Umtp
