import Umtp.Operations
import Umtp.Storages
import Umtp.Lib.Runs

namespace Umtp

open Lib Handles

-- mtp.c

-- The switch of `process_in_packet`.
def operations : List (Nat × (Buffer → Nat → M Response)) :=
  [(MTP_OPERATION_OPEN_SESSION, fun hdr _ => mtpOpOpenSession hdr),
    (MTP_OPERATION_CLOSE_SESSION, fun _ _ => mtpOpCloseSession),
    (MTP_OPERATION_GET_DEVICE_INFO, fun hdr _ => mtpOpGetDeviceInfos hdr),
    (MTP_OPERATION_GET_STORAGE_IDS, fun hdr _ => mtpOpGetStorageIDs hdr),
    (MTP_OPERATION_GET_STORAGE_INFO, fun hdr _ => mtpOpGetStorageInfo hdr),
    (MTP_OPERATION_GET_DEVICE_PROP_DESC, fun hdr _ => mtpOpGetDevicePropDesc hdr),
    (MTP_OPERATION_GET_DEVICE_PROP_VALUE, fun hdr _ => mtpOpGetDevicePropValue hdr),
    (MTP_OPERATION_GET_OBJECT_HANDLES, fun hdr _ => mtpOpGetObjectHandles hdr),
    (MTP_OPERATION_GET_OBJECT_INFO, fun hdr _ => mtpOpGetObjectInfo hdr),
    (MTP_OPERATION_GET_PARTIAL_OBJECT_64, fun hdr _ => mtpOpGetPartialObject hdr),
    (MTP_OPERATION_GET_PARTIAL_OBJECT, fun hdr _ => mtpOpGetPartialObject hdr),
    (MTP_OPERATION_GET_OBJECT, fun hdr _ => mtpOpGetObject hdr),
    (MTP_OPERATION_SEND_OBJECT_INFO, fun hdr _ => mtpOpSendObjectInfo hdr),
    (MTP_OPERATION_SEND_PARTIAL_OBJECT, mtpOpSendObject),
    (MTP_OPERATION_SEND_OBJECT, mtpOpSendObject),
    (MTP_OPERATION_DELETE_OBJECT, fun hdr _ => mtpOpDeleteObject hdr),
    (MTP_OPERATION_GET_OBJECT_PROPS_SUPPORTED, fun hdr _ => mtpOpGetObjectPropsSupported hdr),
    (MTP_OPERATION_GET_OBJECT_PROP_DESC, fun hdr _ => mtpOpGetObjectPropDesc hdr),
    (MTP_OPERATION_GET_OBJECT_PROP_VALUE, fun hdr _ => mtpOpGetObjectPropValue hdr),
    (MTP_OPERATION_SET_OBJECT_PROP_VALUE, fun hdr _ => mtpOpSetObjectPropValue hdr),
    (MTP_OPERATION_GET_OBJECT_PROP_LIST, fun hdr _ => mtpOpGetObjectPropList hdr),
    (MTP_OPERATION_GET_OBJECT_REFERENCES, fun hdr _ => mtpOpGetObjectReferences hdr),
    (MTP_OPERATION_BEGIN_EDIT_OBJECT, fun hdr _ => mtpOpBeginEditObject hdr),
    (MTP_OPERATION_END_EDIT_OBJECT, fun hdr _ => mtpOpEndEditObject hdr),
    (MTP_OPERATION_TRUNCATE_OBJECT, fun hdr _ => mtpOpTruncateObject hdr)]

theorem mem_of_lookup {α : Type} {rows : List (Nat × α)} {code : Nat} {row : α}
    (h : rows.lookup code = some row) : (code, row) ∈ rows := by
  obtain ⟨front, rest, heq, -⟩ := List.lookup_eq_some_iff.mp h
  rw [heq]
  exact List.mem_append_right _ List.mem_cons_self

def performOperation (hdr : Buffer) (rawsize : Nat) : M Response :=
  match operations.lookup (hdrCode hdr) with
  | some op => op hdr rawsize
  | none => return (MTP_RESPONSE_OPERATION_NOT_SUPPORTED, [])

def sendResponse (hdr : Buffer) (response : Response) : M Unit := do
  if response.1 ≠ MTP_RESPONSE_NO_RESPONSE then
    let ctx ← M.getCtx
    let out := buildResponse (hdrTxId hdr) MTP_CONTAINER_TYPE_RESPONSE response.1 ctx.wrbuffer
      ctx.usbWrBufferMaxSize (response.2.flatMap (littleEndian 4))
    M.cmd (.setWrbuffer out.1)
    if 0 ≤ out.2 then
      writeUsb .bulkIn (out.1.read 0 out.2.toNat)

def processInPacket (hdr : Buffer) (rawsize : Nat) : M Unit := do
  let response ← performOperation hdr rawsize
  sendResponse hdr response

-- `packet` is what `read_usb` gives. A zero length packet is dropped.
def mtpIncomingPacket (packet : List UInt8) : M Unit := do
  let ctx ← M.getCtx
  let received := packet.take ctx.usbRdBufferMaxSize
  let rdbuffer := ctx.rdbuffer.write 0 received
  M.cmd (.setRdbuffer rdbuffer)
  if received ≠ [] then
    processInPacket rdbuffer received.length

def EVENT_BUFFER_SIZE : Nat := 64

def mtpPushEvent (event : Nat) (parameters : List Nat) : M Unit := do
  let ctx ← M.getCtx
  let out := buildEventDataset ctx (fun _ => 0) EVENT_BUFFER_SIZE event parameters
  if 0 ≤ out.2 then
    writeUsb .interruptIn (out.1.read 0 out.2.toNat)

-- inotify.c

def IN_MODIFY : BitVec 32 := 0x00000002#32
def IN_MOVED_FROM : BitVec 32 := 0x00000040#32
def IN_MOVED_TO : BitVec 32 := 0x00000080#32
def IN_CREATE : BitVec 32 := 0x00000100#32
def IN_DELETE : BitVec 32 := 0x00000200#32

-- The watch descriptors of the kernel are not negative.
structure InotifyEvent where
  wd : Nat
  mask : BitVec 32
  name : CString
deriving DecidableEq, Repr

-- The file info is left in the context. True when it is found.
def getFileInfo (event : InotifyEvent) (entry : Option EntryPtr) (deleted : Bool) : M Bool := do
  match entry with
  | some p =>
    match ← entryPath p with
    | some path =>
      if ← M.act .malloc then
        if deleted then
          M.cmd (.setInotifyFileInfo
            ⟨false, event.name.take FS_HANDLE_MAX_FILENAME_SIZE, 0⟩)
        else
          let ctx ← M.getCtx
          let found ← fsEntryStat (path ++ SLASH :: event.name) ctx.inotifyFileInfo
          M.cmd (.setInotifyFileInfo found.2)
        return true
      else
        return false
    | none => return false
  | none => return false

-- What is done for a watched folder: the entry that an event is sent for.
def entryCreated (folder : EntryPtr) : M (Option EntryPtr) := do
  let ctx ← M.getCtx
  let entry := ctx.entry folder
  match ctx.db.searchEntryByInfo ctx.inotifyFileInfo entry.handle entry.storageId with
  | some _ => return none
  | none => addEntry ctx.inotifyFileInfo entry.handle entry.storageId

def entryModified (folder : EntryPtr) : M (Option EntryPtr) := do
  let ctx ← M.getCtx
  let entry := ctx.entry folder
  return ctx.db.searchEntryByInfo ctx.inotifyFileInfo entry.handle entry.storageId

def entryDeleted (folder : EntryPtr) : M (Option EntryPtr) := do
  let ctx ← M.getCtx
  let entry := ctx.entry folder
  match ctx.db.searchEntryByInfo ctx.inotifyFileInfo entry.handle entry.storageId with
  | some p =>
    M.flagDeleted .inotifyThread p
    dropWatch p
    return some p
  | none => return none

-- The end of a turn. When the mutex is released, the event is sent for the entry that
-- changed.
def endTurn (code : Nat) (changed : Option EntryPtr) (next : M Bool) : M Bool := do
  let ctx ← M.getCtx
  if ← M.act .unlockInotifyMutex then
    match changed with
    | some p => mtpPushEvent code [(ctx.entry p).handle]
    | none => pure ()
    next
  else
    return false

-- The loop over the entries that have the watch descriptor, from `start` on.
-- False when a mutex fails, which ends the thread.
def forWatchedFolders (event : InotifyEvent) (deleted : Bool) (code : Nat)
    (change : EntryPtr → M (Option EntryPtr)) : Nat → List EntryPtr → M Bool
  | 0, _ => return true
  | fuel + 1, start => do
    if ← M.act .lockInotifyMutex then
      let ctx ← M.getCtx
      let found := ctx.db.getEntryByWd event.wd start
      let known ← getFileInfo event found.head? deleted
      let changed ←
        match found.head?, known with
        | some folder, true => change folder
        | _, _ => pure none
      endTurn code changed (
        if found.tail ≠ [] then forWatchedFolders event deleted code change fuel found.tail
        else return true)
    else
      return false

def hasAnyFlag (mask flag flag' : BitVec 32) : Bool := hasFlag mask flag || hasFlag mask flag'

-- One event of the queue. Those without a name are skipped.
def inotifyThread (event : InotifyEvent) : M Unit := do
  if event.name ≠ [] then
    let ctx ← M.getCtx
    let turns := ctx.db.entryList.length + 1
    let goesOn ←
      if hasAnyFlag event.mask IN_CREATE IN_MOVED_TO then
        forWatchedFolders event false MTP_EVENT_OBJECT_ADDED entryCreated turns []
      else
        pure true
    let goesOn ←
      if goesOn && hasFlag event.mask IN_MODIFY then
        forWatchedFolders event true MTP_EVENT_OBJECT_INFO_CHANGED entryModified turns []
      else
        pure goesOn
    if goesOn && hasAnyFlag event.mask IN_DELETE IN_MOVED_FROM then
      let _ ← forWatchedFolders event true MTP_EVENT_OBJECT_REMOVED entryDeleted turns []

-- msgqueue.c

-- "addstorage:", "rmstorage:", "mount:", "unmount:", "lock" and "unlock"
def ADDSTORAGE_MESSAGE : CString :=
  [0x61, 0x64, 0x64, 0x73, 0x74, 0x6F, 0x72, 0x61, 0x67, 0x65, 0x3A]
def RMSTORAGE_MESSAGE : CString := [0x72, 0x6D, 0x73, 0x74, 0x6F, 0x72, 0x61, 0x67, 0x65, 0x3A]
def MOUNT_MESSAGE : CString := [0x6D, 0x6F, 0x75, 0x6E, 0x74, 0x3A]
def UNMOUNT_MESSAGE : CString := [0x75, 0x6E, 0x6D, 0x6F, 0x75, 0x6E, 0x74, 0x3A]
def LOCK_MESSAGE : CString := [0x6C, 0x6F, 0x63, 0x6B]
def UNLOCK_MESSAGE : CString := [0x75, 0x6E, 0x6C, 0x6F, 0x63, 0x6B]

-- Mounts or unmounts the storage with the name.
def switchStore (name : CString) (switch : Fin MAX_STORAGE_NB → M Unit) (event : Nat) :
    M Unit := do
  let ctx ← M.getCtx
  match ctx.mtpGetStorageIndexByName name with
  | some i =>
    if ← M.act .lockInotifyMutex then
      switch i
      mtpPushEvent event [(ctx.storages i).storageId]
      M.act_ .unlockInotifyMutex
  | none => return ()

-- Locks or unlocks the lockable storages for which that is a change, one after
-- the other. A failing unlock of the mutex ends the thread.
def switchLocks (locked : Bool) (switch : Fin MAX_STORAGE_NB → M Unit)
    (change : BitVec 32 → BitVec 32) (event : Nat) : List (Fin MAX_STORAGE_NB) → M Unit
  | [] => return ()
  | i :: rest => do
    let ctx ← M.getCtx
    let storage := ctx.storages i
    if storage.rootPath.isSome ∧ hasFlag storage.flags UMTP_STORAGE_LOCKABLE = true ∧
        hasFlag storage.flags UMTP_STORAGE_LOCKED = locked then
      if ← M.act .lockInotifyMutex then
        switch i
        setStorageFlags i change
        mtpPushEvent event [storage.storageId]
        if ← M.act .unlockInotifyMutex then
          switchLocks locked switch change event rest
      else
        switchLocks locked switch change event rest
    else
      switchLocks locked switch change event rest

-- No message starts with two of the texts.
def msgqueueThread (message : CString) : M Unit :=
  if ADDSTORAGE_MESSAGE.isPrefixOf message then
    mtpAddStorageFromLine (message.drop ADDSTORAGE_MESSAGE.length) 0
  else if RMSTORAGE_MESSAGE.isPrefixOf message then
    mtpRemoveStorageFromLine (message.drop RMSTORAGE_MESSAGE.length) 0
  else if MOUNT_MESSAGE.isPrefixOf message then
    switchStore (message.drop MOUNT_MESSAGE.length) (mountStore · true) MTP_EVENT_STORE_ADDED
  else if UNMOUNT_MESSAGE.isPrefixOf message then
    switchStore (message.drop UNMOUNT_MESSAGE.length) (umountStore · true)
      MTP_EVENT_STORE_REMOVED
  else if LOCK_MESSAGE.isPrefixOf message then
    switchLocks false (umountStore · false) (raise · UMTP_STORAGE_LOCKED)
      MTP_EVENT_STORE_REMOVED MtpCtx.slots
  else if UNLOCK_MESSAGE.isPrefixOf message then
    switchLocks true (mountStore · false) (lower · UMTP_STORAGE_LOCKED)
      MTP_EVENT_STORE_ADDED MtpCtx.slots
  else
    return ()

-- What the daemon reacts to, one at a time, and what happens around it.
inductive Event (σ : Type) where
  | packet (bytes : List UInt8)
  | inotify (event : InotifyEvent)
  | message (text : CString)
  | outside (change : σ → σ)

variable {σ : Type}

def Event.program : Event σ → M Unit
  | packet bytes => mtpIncomingPacket bytes
  | inotify event => inotifyThread event
  | message text => msgqueueThread text
  | outside _ => return ()

-- The state the daemon is left in, and the accesses it makes on the way.
def World.step (os : Os σ) (w : World σ) : Event σ → World σ
  | .outside change => { w with os := change w.os }
  | event => (event.program.exec (World.handle os) w).2

def World.trace (os : Os σ) (w : World σ) (event : Event σ) : List (World σ × Cmd) :=
  event.program.trace (World.handle os) w

end Umtp
