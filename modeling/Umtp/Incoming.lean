import Umtp.Folders
import Umtp.Datasets

namespace Umtp

open Lib Handles Text

-- mtp_helpers.c

def posixToMtpErrcode : Errno → Nat
  | .EBUSY | .ETXTBSY | .EINPROGRESS | .EAGAIN => MTP_RESPONSE_DEVICE_BUSY
  | .EACCES | .EPERM | .ENOTDIR => MTP_RESPONSE_ACCESS_DENIED
  | .EBADF | .EBADFD | .ENOENT | .EMEDIUMTYPE | .ENOLINK | .ENOMEDIUM | .ENOTBLK | .ESTALE =>
    MTP_RESPONSE_INVALID_OBJECT_HANDLE
  | .ECANCELED | .ELOOP => MTP_RESPONSE_INCOMPLETE_TRANSFER
  | .EDQUOT | .EFBIG | .EMFILE | .EMLINK | .ENOSPC => MTP_RESPONSE_STORAGE_FULL
  | .EINVAL | .EISDIR | .ENAMETOOLONG | .ENODEV => MTP_RESPONSE_INVALID_PARAMETER
  | .ENOTEMPTY => MTP_RESPONSE_PARTIAL_DELETION
  | .EROFS => MTP_RESPONSE_STORE_READ_ONLY
  | .EEXIST | .EHWPOISON | .EINTR | Errno.EREMOTEIO | Errno.EIO | .ELIBACC | .ELIBBAD | .ELIBSCN
  | .ELIBMAX | .ELIBEXEC | .ENOEXEC | .ENOPKG | .ENOSYS | .ENOTRECOVERABLE | .ENOTSUP | .EPIPE
  | .ENOMEM | .ENFILE | .ESPIPE | .other => MTP_RESPONSE_GENERAL_ERROR

-- mtp.c

-- The packet header: length, container type, code and transaction id.
def hdrOperation (hdr : Buffer) : Nat := peek hdr 4 2

def hdrCode (hdr : Buffer) : Nat := peek hdr 6 2

def hdrTxId (hdr : Buffer) : Nat := peek hdr 8 4

-- The response of a refused access. `entry` is NULL for `none`, and is looked up
-- then.
def MtpCtx.checkHandleAccess (ctx : MtpCtx) (entry : Option EntryPtr) (handle : Nat)
    (wraccess : Bool) : Option Nat :=
  match entry.orElse fun _ => ctx.getEntryByHandle handle with
  | some p =>
    let storageFlags := ctx.mtpGetStorageFlags (ctx.entry p).storageId
    if storageFlags = NO_STORAGE_FLAGS then
      some MTP_RESPONSE_INVALID_STORAGE_ID
    else if hasFlag storageFlags UMTP_STORAGE_LOCKED then
      some MTP_RESPONSE_STORE_NOT_AVAILABLE
    else if hasFlag storageFlags UMTP_STORAGE_READONLY ∧ wraccess = true then
      some MTP_RESPONSE_STORE_READ_ONLY
    else
      none
  | none => some MTP_RESPONSE_INVALID_OBJECT_HANDLE

-- sizeof(tmp_str) and sizeof(unicode_str) / 2
def TMP_STR_SIZE : Nat := 256 + 1

-- The object name of an ObjectInfo dataset, after its length byte.
def datasetName (dataset : Buffer) : CString :=
  let stringLen := peek dataset 0x34 1
  let units := (List.range stringLen).map fun i => peek dataset (0x35 + i * 2) 2
  unicode2charstring TMP_STR_SIZE units []

-- The path of a new object in a folder that is known.
def newObjectPath (folder : EntryPtr) (name : CString) : M (Option CString) := do
  match ← entryPath folder with
  | some parentFolder =>
    let memory ← M.act .malloc
    return if memory then some (parentFolder ++ SLASH :: name) else none
  | none => return none

-- A new folder gets an entry once the system has made it.
def registerFolder (name : CString) (parentHandle storageId : Nat) (made : Bool) :
    M (Nat × Nat) := do
  if made then
    match ← addEntry ⟨true, name, 0⟩ parentHandle storageId with
    | some p =>
      let ctx ← M.getCtx
      return (MTP_RESPONSE_OK, (ctx.entry p).handle)
    | none => return (MTP_RESPONSE_OK, NO_HANDLE)
  else
    return (MTP_RESPONSE_ACCESS_DENIED, NO_HANDLE)

-- The part of `parse_incoming_dataset` that makes a folder. The response comes
-- with the new handle.
def createFolder (folder : EntryPtr) (name : CString) (parentHandle storageId : Nat) :
    M (Nat × Nat) := do
  let ctx ← M.getCtx
  let folderStorageId := (ctx.entry folder).storageId
  match ← newObjectPath folder name with
  | some tmpPath =>
    let made ←
      if ← setStorageGiduid folderStorageId then M.act (.mkdir folderStorageId tmpPath)
      else pure false
    restoreGiduid
    registerFolder name parentHandle storageId made
  | none => return (MTP_RESPONSE_OK, NO_HANDLE)

-- The object that SendObject writes next. Without an entry there is none.
def expectObject (entry : Option EntryPtr) (objectsize : Nat) : M (Nat × Nat) := do
  match entry with
  | some p =>
    let ctx ← M.getCtx
    M.cmd (.setSendObjInfo (ctx.entry p).handle objectsize 0)
    return (MTP_RESPONSE_OK, (ctx.entry p).handle)
  | none =>
    M.cmd (.setSendObjInfo NO_HANDLE 0 0)
    return (MTP_RESPONSE_OK, NO_HANDLE)

-- The part that makes a file.
def createFile (folder : EntryPtr) (name : CString) (objectsize parentHandle storageId : Nat) :
    M (Nat × Nat) := do
  match ← newObjectPath folder name with
  | some tmpPath =>
    let file ←
      if ← setStorageGiduid storageId then M.act (.open storageId tmpPath .createTruncate)
      else pure (-1)
    restoreGiduid
    if file = -1 then
      return (MTP_RESPONSE_ACCESS_DENIED, NO_HANDLE)
    else
      M.act (.close file)
      let entry ← addEntry ⟨false, name, objectsize⟩ parentHandle storageId
      expectObject entry objectsize
  | none => expectObject none objectsize

-- A parent that is unknown, or no folder, leaves the new handle unset.
def parseIncomingDataset (datain : Buffer) (parentHandle storageId : Nat) : M (Nat × Nat) := do
  let parentHandle := if parentHandle = NO_HANDLE then 0 else parentHandle
  let ctx ← M.getCtx
  let storageFlags := ctx.mtpGetStorageFlags storageId
  if storageFlags = NO_STORAGE_FLAGS then
    return (MTP_RESPONSE_INVALID_STORAGE_ID, NO_HANDLE)
  else if hasFlag storageFlags UMTP_STORAGE_READONLY then
    return (MTP_RESPONSE_STORE_READ_ONLY, NO_HANDLE)
  else if hdrCode datain = MTP_OPERATION_SEND_OBJECT_INFO then
    let dataset := datain.shift MTP_HEADER_SIZE
    let objectformat := peek dataset 0x04 2
    let objectsize := peek dataset 0x08 4
    match sanitizeName (datasetName dataset) TMP_STR_SIZE with
    | some name =>
      match ctx.getEntryByHandleAndStorageid parentHandle storageId with
      | some folder =>
        if (ctx.entry folder).isDir then
          if objectformat = MTP_FORMAT_ASSOCIATION then
            createFolder folder name parentHandle storageId
          else
            createFile folder name objectsize parentHandle storageId
        else
          return (MTP_RESPONSE_OK, NO_HANDLE)
      | none => return (MTP_RESPONSE_OK, NO_HANDLE)
    | none => return (MTP_RESPONSE_INVALID_DATASET, NO_HANDLE)
  else
    return (MTP_RESPONSE_OK, NO_HANDLE)

-- mtp_properties.c

-- The name that SetObjectPropValue gives an object. It is read without regard to its
-- length byte.
def newFilename (hdr : Buffer) : Option CString :=
  let units := (List.range (FS_HANDLE_MAX_FILENAME_SIZE + 1)).map fun i =>
    peek hdr (MTP_HEADER_SIZE + 1 + i * 2) 2
  sanitizeName (unicode2charstring (FS_HANDLE_MAX_FILENAME_SIZE + 1) units [])
    (FS_HANDLE_MAX_FILENAME_SIZE + 1)

def getObjectPropFilename (hdr : Buffer) : M (Option CString) := do
  let memory ← M.act .malloc
  return if memory then newFilename hdr else none

-- Renames the file of an entry, then the entry.
def renameObject (hdr : Buffer) (p : EntryPtr) : M Nat := do
  let ctx ← M.getCtx
  let storageId := (ctx.entry p).storageId
  let rootPath := ctx.mtpGetStorageRoot storageId
  match ← buildFullPath rootPath p with
  | some path =>
    match ← getObjectPropFilename hdr with
    | some newFilename =>
      match ← buildFullPathNamed rootPath p newFilename with
      | some path2 =>
        let renamed ←
          if ← setStorageGiduid storageId then M.act (.rename storageId path path2)
          else pure false
        restoreGiduid
        if renamed then
          let mem ← M.act .entryMemory
          M.db_ (.renameEntry mem p newFilename)
          return MTP_RESPONSE_OK
        else
          return MTP_RESPONSE_GENERAL_ERROR
      | none => return MTP_RESPONSE_GENERAL_ERROR
    | none => return MTP_RESPONSE_GENERAL_ERROR
  | none => return MTP_RESPONSE_GENERAL_ERROR

def setObjectPropValue (hdr : Buffer) (handle propCode : Nat) : M Nat := do
  if handle = NO_HANDLE then
    return MTP_RESPONSE_INVALID_OBJECT_HANDLE
  else if propCode = MTP_PROPERTY_OBJECT_FILE_NAME then
    let ctx ← M.getCtx
    match ctx.getEntryByHandle handle with
    | some p =>
      match ctx.checkHandleAccess (some p) 0 true with
      | some code => return code
      | none => renameObject hdr p
    | none => return MTP_RESPONSE_GENERAL_ERROR
  else
    return MTP_RESPONSE_INVALID_OBJECT_PROP_CODE

end Umtp
