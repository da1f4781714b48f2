import Umtp.Incoming
import Umtp.Transfer

namespace Umtp

open Lib Handles

-- What an operation answers: a response code and the response parameters.
abbrev Response := Nat × List Nat

-- The n-th parameter of a request.
def param (hdr : Buffer) (n : Nat) : Nat := peek hdr (MTP_HEADER_SIZE + n * 4) 4

-- Numbers read as int64_t and as int.
def toInt64 (n : Nat) : Int := (BitVec.ofNat 64 n).toInt

def toInt32 (n : Nat) : Int := (BitVec.ofNat 32 n).toInt

-- An operation that needs a session.
def inSession (op : M Response) : M Response := do
  let ctx ← M.getCtx
  if ctx.fsDb.isSome then
    op
  else
    return (MTP_RESPONSE_SESSION_NOT_OPEN, [])

-- An operation made under the mutex of the database.
def underMutex (op : M Response) : M Response := do
  if ← M.act .lockInotifyMutex then
    let response ← op
    M.act_ .unlockInotifyMutex
    return response
  else
    return (MTP_RESPONSE_GENERAL_ERROR, [])

-- Puts the header of a data container in the write buffer. False when it does
-- not fit.
def startData (hdr : Buffer) : M Bool := do
  let ctx ← M.getCtx
  let out := buildResponse (hdrTxId hdr) MTP_CONTAINER_TYPE_DATA (hdrCode hdr) ctx.wrbuffer
    ctx.usbWrBufferMaxSize []
  M.cmd (.setWrbuffer out.1)
  return 0 ≤ out.2

-- Sends the container that is in the write buffer, with its size put in front.
def sendData (sz : Int) : M Unit := do
  let ctx ← M.getCtx
  let wrbuffer := (poke32 ctx.usbWrBufferMaxSize (u32 sz) (ctx.wrbuffer, 0)).1
  M.cmd (.setWrbuffer wrbuffer)
  writeUsb .bulkIn (wrbuffer.read 0 sz.toNat)
  checkAndSendUsbZlp sz

-- The operations that answer with a dataset, built behind the header. Some of
-- them refuse an empty dataset with a response of their own.
def sendDataset (hdr : Buffer) (emptyResponse : Option Nat)
    (build : Buffer → Int → M Poked) : M Response := do
  if ← startData hdr then
    let ctx ← M.getCtx
    let out ← build (ctx.wrbuffer.shift MTP_HEADER_SIZE)
      (ctx.usbWrBufferMaxSize - MTP_HEADER_SIZE)
    let ctx ← M.getCtx
    M.cmd (.setWrbuffer (ctx.wrbuffer.unshift MTP_HEADER_SIZE out.1))
    if out.2 < 0 then
      return (MTP_RESPONSE_GENERAL_ERROR, [])
    else
      match emptyResponse with
      | some code =>
        if 0 < out.2 then
          sendData (MTP_HEADER_SIZE + out.2)
          return (MTP_RESPONSE_OK, [])
        else
          return (code, [])
      | none =>
        sendData (MTP_HEADER_SIZE + out.2)
        return (MTP_RESPONSE_OK, [])
  else
    return (MTP_RESPONSE_GENERAL_ERROR, [])

-- The session and its storages

-- The root entries of the storages, up to the first free slot.
def allocRootEntries : List (Fin MAX_STORAGE_NB) → M Response
  | [] => return (MTP_RESPONSE_OK, [])
  | i :: rest => do
    let ctx ← M.getCtx
    if (ctx.storages i).rootPath.isSome then
      if ← M.act .lockInotifyMutex then
        let mem ← M.act .entryMemory
        M.db_ (.allocRootEntry mem (ctx.storages i).storageId)
        M.act_ .unlockInotifyMutex
        allocRootEntries rest
      else
        return (MTP_RESPONSE_GENERAL_ERROR, [])
    else
      return (MTP_RESPONSE_OK, [])

def mtpOpOpenSession (hdr : Buffer) : M Response := do
  let id := param hdr 0
  let ctx ← M.getCtx
  if id = 0 then
    return (MTP_RESPONSE_INVALID_PARAMETER, [])
  else if ctx.fsDb.isSome then
    return (MTP_RESPONSE_SESSION_ALREADY_OPEN, [ctx.sessionId])
  else
    M.cmd (.setSessionId id)
    if ← M.act .malloc then
      M.cmd .initFsDb
      allocRootEntries MtpCtx.slots
    else
      return (MTP_RESPONSE_GENERAL_ERROR, [])

def mtpOpCloseSession : M Response :=
  inSession do
    deinitFsDb
    M.cmd .dropFsDb
    return (MTP_RESPONSE_OK, [])

def mtpOpGetDeviceInfos (hdr : Buffer) : M Response :=
  sendDataset hdr none fun buffer maxsize => do
    let ctx ← M.getCtx
    return buildDeviceinfoDataset ctx buffer maxsize

-- The available storages among those before the first free slot.
def MtpCtx.availableStorages (ctx : MtpCtx) : List (Fin MAX_STORAGE_NB) :=
  (MtpCtx.slots.takeWhile fun i => (ctx.storages i).rootPath.isSome).filter fun i =>
    !hasFlag (ctx.storages i).flags UMTP_STORAGE_NOTMOUNTED &&
      !hasFlag (ctx.storages i).flags UMTP_STORAGE_LOCKED

def mtpOpGetStorageIDs (hdr : Buffer) : M Response :=
  inSession <| sendDataset hdr none fun buffer maxsize => do
    let ctx ← M.getCtx
    let ids := ctx.availableStorages.map fun i => (ctx.storages i).storageId
    return pokeArray maxsize 4 (ids.flatMap (littleEndian 4)) true (buffer, 0)

def mtpOpGetStorageInfo (hdr : Buffer) : M Response :=
  inSession do
    let storageid := param hdr 0
    let ctx ← M.getCtx
    if (ctx.mtpGetStorageRoot storageid).isSome then
      sendDataset hdr none fun buffer maxsize => buildStorageinfoDataset buffer maxsize storageid
    else
      return (MTP_RESPONSE_INVALID_STORAGE_ID, [])

-- Properties

-- A failed lock is followed by an unlock here.
def mtpOpGetDevicePropDesc (hdr : Buffer) : M Response :=
  inSession do
    let locked ← M.act .lockInotifyMutex
    let response ←
      if locked then
        sendDataset hdr (some MTP_RESPONSE_OPERATION_NOT_SUPPORTED) fun buffer maxsize =>
          buildDevicePropertiesDataset buffer maxsize (param hdr 0)
      else
        pure (MTP_RESPONSE_GENERAL_ERROR, [])
    M.act_ .unlockInotifyMutex
    return response

def mtpOpGetDevicePropValue (hdr : Buffer) : M Response :=
  inSession <| underMutex <|
    sendDataset hdr (some MTP_RESPONSE_DEVICE_PROP_NOT_SUPPORTED) fun buffer maxsize =>
      buildDevicePropValueDataset buffer maxsize (param hdr 0)

def mtpOpGetObjectPropsSupported (hdr : Buffer) : M Response :=
  inSession <| sendDataset hdr none fun buffer maxsize =>
    return buildPropertiesSupportedDataset buffer maxsize (param hdr 0)

def mtpOpGetObjectPropDesc (hdr : Buffer) : M Response :=
  inSession <| underMutex <|
    sendDataset hdr (some MTP_RESPONSE_OPERATION_NOT_SUPPORTED) fun buffer maxsize =>
      return buildPropertiesDataset buffer maxsize (param hdr 0) (param hdr 1)

-- The requests about one object: its handle is the first parameter.
def aboutEntry (hdr : Buffer) (op : EntryPtr → M Response) : M Response :=
  inSession <| underMutex do
    let ctx ← M.getCtx
    match ctx.getEntryByHandle (param hdr 0) with
    | some p => op p
    | none => return (MTP_RESPONSE_INVALID_OBJECT_HANDLE, [])

def mtpOpGetObjectInfo (hdr : Buffer) : M Response :=
  aboutEntry hdr fun p => sendDataset hdr none fun buffer maxsize =>
    buildObjectinfoDataset buffer maxsize p

def mtpOpGetObjectPropValue (hdr : Buffer) : M Response :=
  aboutEntry hdr fun _ => sendDataset hdr none fun buffer maxsize => do
    let ctx ← M.getCtx
    return buildObjectPropValueDataset ctx buffer maxsize (param hdr 0) (param hdr 1)

def mtpOpGetObjectReferences (hdr : Buffer) : M Response :=
  aboutEntry hdr fun _ => sendDataset hdr none fun buffer maxsize =>
    return poke32 maxsize 0 (buffer, 0)

-- Lists of properties by group are not supported.
def mtpOpGetObjectPropList (hdr : Buffer) : M Response :=
  inSession <| underMutex do
    let ctx ← M.getCtx
    if param hdr 2 = 0 ∧ param hdr 3 = 0 then
      return (MTP_RESPONSE_PARAMETER_NOT_SUPPORTED, [])
    else
      match ctx.getEntryByHandle (param hdr 0) with
      | some p =>
        sendDataset hdr none fun buffer maxsize =>
          buildObjectproplistDataset buffer maxsize p (param hdr 0) (param hdr 2)
      | none => return (MTP_RESPONSE_INVALID_OBJECT_HANDLE, [])

-- The handles of a folder

-- The number of children the search still finds.
def countChildren : Nat → Nat → M Nat
  | 0, count => return count
  | fuel + 1, count => do
    match ← M.db .getNextChildHandle with
    | some _ => countChildren fuel (count + 1)
    | none => return count

-- Fills a packet with handles, from `ofs` on.
def pokeHandles (nbOfHandles : Nat) : Nat → (ofs : Int) → (handleIndex : Nat) → M (Int × Nat)
  | 0, ofs, handleIndex => return (ofs, handleIndex)
  | fuel + 1, ofs, handleIndex => do
    let next ← M.db .getNextChildHandle
    let ctx ← M.getCtx
    let (ofs, handleIndex) ←
      match next with
      | some p => do
        let out := poke32 ctx.usbWrBufferMaxSize (ctx.entry p).handle (ctx.wrbuffer, ofs)
        M.cmd (.setWrbuffer out.1)
        pure (out.2, handleIndex + 1)
      | none => pure (ofs, handleIndex)
    if 0 ≤ ofs ∧ ofs < ctx.maxPacketSize ∧ handleIndex < nbOfHandles then
      pokeHandles nbOfHandles fuel ofs handleIndex
    else
      return (ofs, handleIndex)

-- Sends the handles packet by packet. The children were counted before, so that
-- each turn finds one. False when the write buffer overruns.
def sendHandles (nbOfHandles : Nat) : Nat → (ofs : Int) → (handleIndex : Nat) → M Bool
  | 0, _, _ => return true
  | fuel + 1, ofs, handleIndex => do
    let (ofs, handleIndex) ← pokeHandles nbOfHandles (nbOfHandles + 1) ofs handleIndex
    if ofs < 0 then
      return false
    else
      let ctx ← M.getCtx
      writeUsb .bulkIn (ctx.wrbuffer.read 0 ofs.toNat)
      if handleIndex < nbOfHandles then
        sendHandles nbOfHandles fuel 0 handleIndex
      else
        return true

-- Registers a watch point.
def watchFolder (entry : Option EntryPtr) (fullPath : CString) : M Unit := do
  match entry with
  | some p =>
    let ctx ← M.getCtx
    if (ctx.entry p).isDir then
      let wd ← inotifyHandlerAddwatch fullPath
      M.db_ (.setWatchDescriptor p wd)
  | none => return ()

-- Scans the folder and watches it. The number of its children, and `none` when
-- it cannot be read.
def listFolder (entry : Option EntryPtr) (fullPath : CString) (parentHandle storageid : Nat) :
    M (Option Nat) := do
  let scanned ←
    if ← setStorageGiduid storageid then scanAndAddFolder fullPath parentHandle storageid
    else pure false
  restoreGiduid
  if scanned then
    M.db_ (.initSearchHandle parentHandle storageid)
    let fuel ← childFuel
    let nbOfHandles ← countChildren fuel 0
    M.db_ (.initSearchHandle parentHandle storageid)
    watchFolder entry fullPath
    return some nbOfHandles
  else
    return none

def sendHandleArray (nbOfHandles : Nat) : M Response := do
  let ctx ← M.getCtx
  let maxsize := (ctx.usbWrBufferMaxSize : Int)
  let sized := poke32 maxsize (u32 (MTP_HEADER_SIZE + (1 + nbOfHandles) * 4)) (ctx.wrbuffer, 0)
  let counted := poke32 maxsize (u32 nbOfHandles) (sized.1, MTP_HEADER_SIZE)
  M.cmd (.setWrbuffer counted.1)
  if ← sendHandles nbOfHandles (nbOfHandles + 1) counted.2 0 then
    checkAndSendUsbZlp (MTP_HEADER_SIZE + 4 + nbOfHandles * 4)
    return (MTP_RESPONSE_OK, [])
  else
    return (MTP_RESPONSE_GENERAL_ERROR, [])

-- The answer of GetObjectHandles with the number of handles.
def answerHandles (listed : Option Nat) : M Response := do
  match listed with
  | some nbOfHandles => sendHandleArray nbOfHandles
  | none => return (MTP_RESPONSE_ACCESS_DENIED, [])

-- The path of a folder whose handle is unknown stays NULL: nothing is scanned
-- and no child counted then.
def mtpOpGetObjectHandles (hdr : Buffer) : M Response :=
  inSession <| underMutex do
    let storageid := param hdr 0
    if ← startData hdr then
      let parentHandle := param hdr 2
      let ctx ← M.getCtx
      match ctx.mtpGetStorageRoot storageid with
      | some root =>
        let listed ←
          if parentHandle ≠ 0 ∧ parentHandle ≠ NO_HANDLE then
            match ctx.getEntryByHandle parentHandle with
            | some p => do
              match ← entryPath p with
              | some path => listFolder (some p) path parentHandle storageid
              | none => pure (some 0)
            | none => pure (some 0)
          else
            listFolder (ctx.getEntryByHandleAndStorageid 0 storageid) root 0 storageid
        answerHandles listed
      | none => return (MTP_RESPONSE_INVALID_STORAGE_ID, [])
    else
      return (MTP_RESPONSE_GENERAL_ERROR, [])

-- Reading, writing and removing objects

def mtpOpGetObject (hdr : Buffer) : M Response :=
  aboutEntry hdr fun p => do
    let ctx ← M.getCtx
    match ctx.checkHandleAccess (some p) (param hdr 0) false with
    | some code => return (code, [])
    | none =>
      if ← startData hdr then
        let actualsize ← sendFileData p 0 (ctx.entry p).size
        if 0 ≤ actualsize then
          return (MTP_RESPONSE_OK, [])
        else if actualsize = -2 then
          return (MTP_RESPONSE_NO_RESPONSE, [])
        else
          return (MTP_RESPONSE_INCOMPLETE_TRANSFER, [])
      else
        return (MTP_RESPONSE_GENERAL_ERROR, [])

def mtpOpGetPartialObject (hdr : Buffer) : M Response :=
  inSession <| underMutex do
    let handle := param hdr 0
    let (offset, maxsize) :=
      if hdrCode hdr = MTP_OPERATION_GET_PARTIAL_OBJECT_64 then
        (toInt64 (peek64 hdr (MTP_HEADER_SIZE + 4) 8), toInt32 (param hdr 3))
      else
        ((param hdr 1 : Int), toInt32 (param hdr 2))
    let ctx ← M.getCtx
    let entry := ctx.getEntryByHandle handle
    match ctx.checkHandleAccess entry handle false, entry with
    | some code, _ => return (code, [])
    | none, some p =>
      if ← startData hdr then
        let actualsize ← sendFileData p offset maxsize
        if 0 ≤ actualsize then
          return (MTP_RESPONSE_OK, [u32 actualsize])
        else if actualsize = -2 then
          return (MTP_RESPONSE_NO_RESPONSE, [])
        else
          return (MTP_RESPONSE_OK, [])
      else
        return (MTP_RESPONSE_GENERAL_ERROR, [])
    | none, none => return (MTP_RESPONSE_INVALID_OBJECT_HANDLE, [])

-- What SendObjectInfo does when the dataset is in the buffer.
def answerDataset (hdr : Buffer) : M Response := do
  let storageid := param hdr 0
  let parentHandle := param hdr 1
  let ctx ← M.getCtx
  let (code, newHandle) ← parseIncomingDataset ctx.rdbuffer2 parentHandle storageid
  if code = MTP_RESPONSE_OK then
    return (code, [storageid, parentHandle, newHandle])
  else
    return (code, [])

def mtpOpSendObjectInfo (hdr : Buffer) : M Response :=
  inSession <| underMutex do
    let ctx ← M.getCtx
    match ← M.act (.readUsb ctx.usbRdBufferMaxSize) with
    | some bytes => M.cmd (.setRdbuffer2 (ctx.rdbuffer2.write 0 bytes))
    | none => pure ()
    answerDataset hdr

-- The data phase of SendObject and SendPartialObject. The response comes with
-- whether the function ends here.
def sendObjectData (hdr : Buffer) (size : Nat) : M (Nat × Bool) := do
  let ctx ← M.getCtx
  let isPartial := hdrCode hdr = MTP_OPERATION_SEND_PARTIAL_OBJECT
  match ctx.getEntryByHandle ctx.sendObjInfoHandle with
  | some p =>
    match ctx.checkHandleAccess (some p) 0 true with
    | some code => return (code, true)
    | none =>
      let file ← entryOpen p (if isPartial then .readWrite else .createTruncate)
      if file ≠ -1 then
        if ← receiveObject hdr size isPartial p file then
          return (MTP_RESPONSE_OK, false)
        else
          return (MTP_RESPONSE_NO_RESPONSE, true)
      else
        return (MTP_RESPONSE_GENERAL_ERROR, false)
  | none => return (MTP_RESPONSE_INVALID_OBJECT_HANDLE, false)

-- The phases of an object that is expected.
def sendObjectRest (hdr : Buffer) (size : Nat) : M (Nat × Bool) := do
  let ctx ← M.getCtx
  if ctx.sendObjInfoHandle = NO_HANDLE then
    return (MTP_RESPONSE_INVALID_OBJECT_HANDLE, false)
  else if hdrOperation hdr = MTP_CONTAINER_TYPE_DATA then
    sendObjectData hdr size
  else if hdrOperation hdr = MTP_CONTAINER_TYPE_COMMAND then
    match ctx.checkHandleAccess none ctx.sendObjInfoHandle true with
    | some code => return (code, true)
    | none => return (MTP_RESPONSE_NO_RESPONSE, false)
  else
    return (MTP_RESPONSE_GENERAL_ERROR, false)

-- The command phase keeps the parameters of SendPartialObject for the data phase.
def sendObjectPhase (hdr : Buffer) (size : Nat) : M (Nat × Bool) := do
  if hdrCode hdr = MTP_OPERATION_SEND_PARTIAL_OBJECT ∧
      hdrOperation hdr = MTP_CONTAINER_TYPE_COMMAND then
    M.cmd (.setSendObjInfo (param hdr 0) (param hdr 3)
      (toInt64 (peek64 hdr (MTP_HEADER_SIZE + 4) 8)))
  sendObjectRest hdr size

def mtpOpSendObject (hdr : Buffer) (size : Nat) : M Response :=
  inSession do
    if ← M.act .lockInotifyMutex then
      let (code, ended) ← sendObjectPhase hdr size
      let unlocked ← M.act .unlockInotifyMutex
      return (if unlocked ∨ ended then code else MTP_RESPONSE_GENERAL_ERROR, [])
    else
      return (MTP_RESPONSE_GENERAL_ERROR, [])

-- What DeleteObject does under the mutex.
def deleteObject (hdr : Buffer) : M Response := do
  let handle := param hdr 0
  let ctx ← M.getCtx
  match ctx.checkHandleAccess none handle true with
  | some code => return (code, [])
  | none =>
    let code ←
      match ctx.getEntryByHandle handle with
      | some p => do
        if ← setStorageGiduid (ctx.entry p).storageId then
          let deleted ← deleteTree handle
          pure (if deleted then MTP_RESPONSE_OK else MTP_RESPONSE_OBJECT_WRITE_PROTECTED)
        else
          pure MTP_RESPONSE_OBJECT_WRITE_PROTECTED
      | none => pure MTP_RESPONSE_INVALID_OBJECT_HANDLE
    restoreGiduid
    return (code, [])

def mtpOpDeleteObject (hdr : Buffer) : M Response :=
  inSession <| underMutex (deleteObject hdr)

-- The rename is made without the mutex.
def mtpOpSetObjectPropValue (hdr : Buffer) : M Response :=
  inSession do
    if hdrOperation hdr = MTP_CONTAINER_TYPE_COMMAND then
      M.cmd (.setObjectPropValue (param hdr 0) (param hdr 1))
      return (MTP_RESPONSE_NO_RESPONSE, [])
    else if hdrOperation hdr = MTP_CONTAINER_TYPE_DATA then
      let ctx ← M.getCtx
      let code ← setObjectPropValue hdr ctx.setObjectPropValueHandle
        ctx.setObjectPropValuePropCode
      M.cmd (.setObjectPropValue NO_HANDLE ctx.setObjectPropValuePropCode)
      return (code, [])
    else
      return (MTP_RESPONSE_OPERATION_NOT_SUPPORTED, [])

def mtpOpBeginEditObject (hdr : Buffer) : M Response :=
  inSession <| underMutex do
    let ctx ← M.getCtx
    return ((ctx.checkHandleAccess none (param hdr 0) true).getD MTP_RESPONSE_OK, [])

-- The file is closed even when the access is refused.
def mtpOpEndEditObject (hdr : Buffer) : M Response :=
  inSession <| underMutex do
    let ctx ← M.getCtx
    entryClose (ctx.getEntryByHandle (param hdr 0))
    return ((ctx.checkHandleAccess none (param hdr 0) true).getD MTP_RESPONSE_OK, [])

-- The size kept in the entry is not updated.
def mtpOpTruncateObject (hdr : Buffer) : M Response :=
  aboutEntry hdr fun p => do
    let offset := toInt64 (peek64 hdr (MTP_HEADER_SIZE + 4) 8)
    let ctx ← M.getCtx
    match ctx.checkHandleAccess (some p) (param hdr 0) true with
    | some code => return (code, [])
    | none =>
      match ← entryPath p with
      | some fullPath =>
        match ← M.act (.truncate64 (ctx.entry p).storageId fullPath offset) with
        | .ok _ => return (MTP_RESPONSE_OK, [])
        | .error errno => return (posixToMtpErrcode errno, [])
      | none => return (MTP_RESPONSE_GENERAL_ERROR, [])

end Umtp
