import Umtp.Lib.Components
import Umtp.Daemon

namespace Umtp

open Lib Handles Text

-- A system that lives in memory. A path stands for a directory or a file with
-- its bytes. `host` is what the host still sends, and `sent` what it was sent,
-- newest first.
structure MemSystem where
  nodes : List (CString × Option (List UInt8))
  opened : List (Int × CString × Nat)
  lastFile : Nat
  lastWatch : Nat
  host : List (List UInt8)
  sent : List (Endpoint × List UInt8)
  cancelReq : Bool
deriving DecidableEq, Repr

namespace MemSystem

variable (sys : MemSystem)

def node (path : CString) : Option (Option (List UInt8)) := sys.nodes.lookup path

def setNode (path : CString) (content : Option (List UInt8)) : MemSystem :=
  { sys with nodes :=
      if (sys.node path).isSome then
        sys.nodes.map fun entry => if entry.1 = path then (path, content) else entry
      else
        sys.nodes ++ [(path, content)] }

def stat (path : CString) : Option Stat :=
  (sys.node path).map fun content =>
    ⟨content.isNone, (content.getD []).length, 0⟩

-- The name of a path in a directory.
def nameIn (folder path : CString) : Option CString :=
  if (folder ++ [SLASH]).isPrefixOf path then
    let name := path.drop (folder.length + 1)
    if name.contains SLASH then none else some name
  else
    none

def names (folder : CString) : Option (List CString) :=
  match sys.node folder with
  | some none => some (sys.nodes.filterMap fun entry => nameIn folder entry.1)
  | _ => none

-- The path without repeated or final slashes.
def canonicalPath (path : CString) : CString :=
  match components SLASH path with
  | [] => [SLASH]
  | names => names.flatMap (SLASH :: ·)

def query : (q : Query) → q.Ans
  | .stat64 path => sys.stat path
  | .lstat64 path => sys.stat path
  | .opendir path => sys.names path
  | .realpath path =>
    if (sys.node (canonicalPath path)).isSome then .ok (canonicalPath path) else .error .ENOENT
  | .statvfs _ => some ⟨4096, 1024, 512⟩
  | .localtime _ => some ⟨70, 0, 1, 0, 0, 0⟩
  | .batteryLevel _ => none
  | .usbBacklog => sys.host.length

-- The path a file is open for and the position in it.
def file (file : Int) : Option (CString × Nat) := sys.opened.lookup file

def seek (file : Int) (position : Nat) : MemSystem :=
  { sys with opened := sys.opened.map fun entry =>
      if entry.1 = file then (file, entry.2.1, position) else entry }

def content (path : CString) : List UInt8 := ((sys.node path).getD none).getD []

-- The bytes of a file with others written over them.
def overwrite (content : List UInt8) (position : Nat) (bytes : List UInt8) : List UInt8 :=
  content.take position ++ List.replicate (position - content.length) 0 ++ bytes ++
    content.drop (position + bytes.length)

def openFile (path : CString) (flags : OpenFlags) : Int × MemSystem :=
  let found := (sys.node path).isSome || flags == .createTruncate
  if found then
    let sys := if flags = .createTruncate then sys.setNode path (some []) else sys
    let file : Int := (sys.lastFile : Int) + 1
    (file, { sys with opened := (file, path, 0) :: sys.opened, lastFile := sys.lastFile + 1 })
  else
    (-1, sys)

def act : (a : Action) → a.Ans × MemSystem
  | .malloc => (true, sys)
  | .entryMemory => (AllocMem.success, sys)
  | .mkdir _ path =>
    if (sys.node path).isSome then (false, sys) else (true, sys.setNode path none)
  | .open _ path flags => sys.openFile path flags
  | .truncate64 _ path offset =>
    match sys.node path with
    | some (some bytes) =>
      (.ok (), sys.setNode path
        (some (bytes.take offset.toNat ++ List.replicate (offset.toNat - bytes.length) 0)))
    | some none => (.error .EISDIR, sys)
    | none => (.error .ENOENT, sys)
  | .rename _ path path2 =>
    if (sys.node path).isSome then
      let kept := sys.nodes.filter fun entry => entry.1 != path2 || path2 == path
      (true, { sys with nodes := kept.map fun entry =>
        if path.isPrefixOf entry.1 then (path2 ++ entry.1.drop path.length, entry.2) else entry })
    else
      (false, sys)
  | .remove _ path =>
    if (sys.node path).isSome && (sys.names path).all List.isEmpty then
      (true, { sys with nodes := sys.nodes.filter fun entry => entry.1 != path })
    else
      (false, sys)
  | .write _ file bytes =>
    match sys.file file with
    | some (path, position) =>
      (bytes.length, (sys.setNode path (some (overwrite (sys.content path) position bytes))).seek
        file (position + bytes.length))
    | none => (-1, sys)
  | .lseekSet file offset => ((), sys.seek file offset.toNat)
  | .lseekEnd file =>
    match sys.file file with
    | some (path, _) => ((sys.content path).length, sys.seek file (sys.content path).length)
    | none => (-1, sys)
  | .read file size =>
    match sys.file file with
    | some (path, position) =>
      let bytes := ((sys.content path).drop position).take size
      (some bytes, sys.seek file (position + bytes.length))
    | none => (none, sys)
  | .fsync _ => ((), sys)
  | .close file => ((), { sys with opened := sys.opened.filter fun entry => entry.1 != file })
  | .inotifyAddWatch _ =>
    ((sys.lastWatch : Int) + 1, { sys with lastWatch := sys.lastWatch + 1 })
  | .inotifyRmWatch _ => ((), sys)
  | .readUsb maxsize =>
    match sys.host with
    | packet :: rest => (some (packet.take maxsize), { sys with host := rest })
    | [] => (none, sys)
  | .writeUsb channel bytes => ((), { sys with sent := (channel, bytes) :: sys.sent })
  | .getCancelReq => (sys.cancelReq, sys)
  | .clearCancelReq => ((), { sys with cancelReq := false })
  | .setfsuid _ => (0, sys)
  | .setfsgid _ => (0, sys)
  | .lockInotifyMutex => (true, sys)
  | .unlockInotifyMutex => (true, sys)
  | .lockCancelMutex => (true, sys)
  | .unlockCancelMutex => (true, sys)

end MemSystem

def memOs : Os MemSystem where
  query q sys := sys.query q
  act a sys := sys.act a

-- A daemon before the first session.
def startCtx (storages : Fin MAX_STORAGE_NB → MtpStorage) : MtpCtx where
  sessionId := 0
  usbCfg := ⟨[], [], [], [], [], [], [], 0, false⟩
  wrbuffer _ := 0
  usbWrBufferMaxSize := 0x10000
  rdbuffer _ := 0
  rdbuffer2 _ := 0
  usbRdBufferMaxSize := 0x10000
  readFileBuffer := none
  readFileBufferSize := 0x8000
  fsDb := none
  sendObjInfoHandle := 0
  sendObjInfoSize := 0
  sendObjInfoOffset := 0
  setObjectPropValueHandle := NO_HANDLE
  setObjectPropValuePropCode := 0
  maxPacketSize := 512
  storages := storages
  inotifyFd := 1
  inotifyFileInfo := ⟨false, [], 0⟩
  noInotify := false
  syncWhenClose := false
  uid := -1
  gid := -1
  defaultUid := -1
  defaultGid := -1
  transferringFileData := false

-- Storages from the first slot on.
def storagesOf (storages : List (CString × CString × BitVec 32)) (i : Fin MAX_STORAGE_NB) :
    MtpStorage :=
  match storages[i.val]? with
  | some (root, description, flags) =>
    ⟨some root, description, FIRST_STORAGE_ID + i, flags, -1, -1⟩
  | none => freeSlot

-- The packet of a request.
def requestPacket (operation code : Nat) (params : List Nat) : List UInt8 :=
  littleEndian 4 (MTP_HEADER_SIZE + 4 * params.length) ++ littleEndian 2 operation ++
    littleEndian 2 code ++ littleEndian 4 1 ++ params.flatMap (littleEndian 4)

def commandPacket (code : Nat) (params : List Nat) : List UInt8 :=
  requestPacket MTP_CONTAINER_TYPE_COMMAND code params

def dataPacket (code : Nat) (payload : List UInt8) : List UInt8 :=
  littleEndian 4 (MTP_HEADER_SIZE + payload.length) ++ littleEndian 2 MTP_CONTAINER_TYPE_DATA ++
    littleEndian 2 code ++ littleEndian 4 1 ++ payload

-- A string with its length byte and its zero, of characters below 128.
def stringPayload (str : CString) : List UInt8 :=
  UInt8.ofNat (str.length + 1) :: (str ++ [0]).flatMap fun c => [c, 0]

-- Sample systems and events

-- "/a", "/b" and "/c" are directories with a file "f" each.
def A_ROOT : CString := [SLASH, 0x61]
def B_ROOT : CString := [SLASH, 0x62]
def C_ROOT : CString := [SLASH, 0x63]
def F_NAME : CString := [0x66]

def sampleSystem : MemSystem where
  nodes := [(A_ROOT, none), (B_ROOT, none), (C_ROOT, none),
    (A_ROOT ++ SLASH :: F_NAME, some [1, 2, 3]), (B_ROOT ++ SLASH :: F_NAME, some [4, 5]),
    (C_ROOT ++ SLASH :: F_NAME, some [6])]
  opened := []
  lastFile := 0
  lastWatch := 0
  host := []
  sent := []
  cancelReq := false

-- The storages are named "A", "B" and "C".
def A_STORAGE : CString := [0x41]
def B_STORAGE : CString := [0x42]
def C_STORAGE : CString := [0x43]

def twoStorages : World MemSystem :=
  ⟨startCtx (storagesOf [(A_ROOT, A_STORAGE, 0), (B_ROOT, B_STORAGE, 0)]), sampleSystem⟩

def openSession : Event MemSystem := .packet (commandPacket MTP_OPERATION_OPEN_SESSION [1])

def getObjectHandles (storageId parentHandle : Nat) : Event MemSystem :=
  .packet (commandPacket MTP_OPERATION_GET_OBJECT_HANDLES [storageId, 0, parentHandle])

def closeSession : Event MemSystem := .packet (commandPacket MTP_OPERATION_CLOSE_SESSION [])

-- The host sends the dataset of a new object, and then asks for the object.
def sendObjectInfo (storageId parentHandle format : Nat) (name : CString) :
    List (Event MemSystem) :=
  let dataset := List.replicate 4 0 ++ littleEndian 2 format ++ List.replicate 46 0 ++
    stringPayload name
  [.outside fun sys => { sys with host := [dataPacket MTP_OPERATION_SEND_OBJECT_INFO dataset] },
    .packet (commandPacket MTP_OPERATION_SEND_OBJECT_INFO [storageId, parentHandle])]

def sendObject (payload : List UInt8) : List (Event MemSystem) :=
  [.packet (commandPacket MTP_OPERATION_SEND_OBJECT []),
    .packet (dataPacket MTP_OPERATION_SEND_OBJECT payload)]

def sendPartialObject (handle : Nat) (payload : List UInt8) : List (Event MemSystem) :=
  [.packet (commandPacket MTP_OPERATION_SEND_PARTIAL_OBJECT [handle, 0, 0, payload.length]),
    .packet (dataPacket MTP_OPERATION_SEND_PARTIAL_OBJECT payload)]

-- The two containers that give an object another name.
def setObjectName (handle : Nat) (name : CString) : List (Event MemSystem) :=
  [.packet (commandPacket MTP_OPERATION_SET_OBJECT_PROP_VALUE
      [handle, MTP_PROPERTY_OBJECT_FILE_NAME]),
    .packet (dataPacket MTP_OPERATION_SET_OBJECT_PROP_VALUE (stringPayload name))]

-- The system in memory with symbolic links: `fs` is its `realpath`.
def linkedOs (fs : CString → Except Errno CString) : Os MemSystem where
  query q sys :=
    match q with
    | .realpath path => fs path
    | q => sys.query q
  act a sys := sys.act a

end Umtp
