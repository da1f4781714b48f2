import Umtp.Lib.Prog
import Umtp.Os

namespace Umtp

open Lib Handles

def MAX_STORAGE_NB : Nat := 16

def UMTP_STORAGE_LOCKED : BitVec 32 := 0x00000010#32
def UMTP_STORAGE_LOCKABLE : BitVec 32 := 0x00000008#32
def UMTP_STORAGE_REMOVABLE : BitVec 32 := 0x00000004#32
def UMTP_STORAGE_NOTMOUNTED : BitVec 32 := 0x00000002#32
def UMTP_STORAGE_READONLY : BitVec 32 := 0x00000001#32

-- The flags of a storage that does not exist.
def NO_STORAGE_FLAGS : BitVec 32 := 0xFFFFFFFF#32

def NO_HANDLE : Nat := 0xFFFFFFFF

-- A free slot has no root path; its description is not read.
structure MtpStorage where
  rootPath : Option CString
  description : CString
  storageId : Nat
  flags : BitVec 32
  uid : Int
  gid : Int
deriving DecidableEq, Repr

-- The part of the configuration that requests and events depend on.
structure MtpUsbCfg where
  usbStringManufacturer : CString
  usbStringProduct : CString
  usbStringSerial : CString
  usbStringVersion : CString
  usbStringMtpExtensions : CString
  synchronizationPartner : CString
  batteryCapacity : CString
  perceivedDeviceType : Nat
  showHiddenFiles : Bool
deriving DecidableEq, Repr

structure MtpCtx where
  sessionId : Nat
  usbCfg : MtpUsbCfg
  wrbuffer : Buffer
  usbWrBufferMaxSize : Nat
  rdbuffer : Buffer
  rdbuffer2 : Buffer
  usbRdBufferMaxSize : Nat
  readFileBuffer : Option Buffer
  readFileBufferSize : Nat
  fsDb : Option FsHandlesDb
  sendObjInfoHandle : Nat
  sendObjInfoSize : Int
  sendObjInfoOffset : Int
  setObjectPropValueHandle : Nat
  setObjectPropValuePropCode : Nat
  maxPacketSize : Nat
  storages : Fin MAX_STORAGE_NB → MtpStorage
  inotifyFd : Int
  -- the file info of the inotify thread, kept from one event to the next
  inotifyFileInfo : FileFoundInfo
  noInotify : Bool
  syncWhenClose : Bool
  uid : Int
  gid : Int
  defaultUid : Int
  defaultGid : Int
  transferringFileData : Bool

-- The function an entry is flagged as deleted in.
inductive Site where
  | scanAndAddFolder | inotifyThread | deleteDbTree | deleteTree | umountStore
deriving DecidableEq, Repr

-- One access of the daemon to its context or to the system.
inductive Cmd where
  | getCtx
  | db (op : DbOp)
  | flagDeleted (site : Site) (p : EntryPtr)
  | initFsDb
  | dropFsDb
  | setSessionId (id : Nat)
  | setStorage (i : Fin MAX_STORAGE_NB) (storage : MtpStorage)
  | setSendObjInfo (handle : Nat) (size offset : Int)
  | setObjectPropValue (handle propCode : Nat)
  | setWrbuffer (buffer : Buffer)
  | setRdbuffer (buffer : Buffer)
  | setRdbuffer2 (buffer : Buffer)
  | setReadFileBuffer (buffer : Buffer)
  | setInotifyFileInfo (fileinfo : FileFoundInfo)
  | setTransferringFileData (transferring : Bool)
  | query (q : Query)
  | act (a : Action)

@[reducible] def Cmd.Ans : Cmd → Type
  | getCtx => MtpCtx
  | db _ => Option EntryPtr
  | query q => q.Ans
  | act a => a.Ans
  | _ => Unit

-- The operation a command makes on the database.
def Cmd.dbOp : Cmd → Option DbOp
  | db op => some op
  | flagDeleted _ p => some (.setDeleted p)
  | _ => none

structure World (σ : Type) where
  ctx : MtpCtx
  os : σ

namespace MtpCtx

variable (ctx : MtpCtx)

-- Without a session the database is NULL and no lookup finds anything in it.
def db : FsHandlesDb := ctx.fsDb.getD initFsDb

def applyDb (op : DbOp) : MtpCtx :=
  { ctx with fsDb := ctx.fsDb.map op.step }

theorem applyDb_cases (op : DbOp) :
    (ctx.applyDb op).db = ctx.db ∨ (ctx.applyDb op).db = op.step ctx.db := by
  rw [applyDb, db, db]
  cases ctx.fsDb with
  | none => exact Or.inl rfl
  | some db => exact Or.inr rfl

end MtpCtx

-- What a command does to the context and to the system.
def World.handle {σ : Type} (os : Os σ) : Handler Cmd Cmd.Ans (World σ)
  | .getCtx, w => (w.ctx, w)
  | .db op, w => (w.ctx.fsDb.bind fun db => (op.apply db).1, { w with ctx := w.ctx.applyDb op })
  | .flagDeleted _ p, w => ((), { w with ctx := w.ctx.applyDb (.setDeleted p) })
  | .initFsDb, w => ((), { w with ctx := { w.ctx with fsDb := some Handles.initFsDb } })
  | .dropFsDb, w => ((), { w with ctx := { w.ctx with fsDb := none } })
  | .setSessionId id, w => ((), { w with ctx := { w.ctx with sessionId := id } })
  | .setStorage i storage, w =>
    ((), { w with ctx := { w.ctx with storages := Function.update w.ctx.storages i storage } })
  | .setSendObjInfo handle size offset, w =>
    ((), { w with ctx := { w.ctx with
      sendObjInfoHandle := handle, sendObjInfoSize := size, sendObjInfoOffset := offset } })
  | .setObjectPropValue handle propCode, w =>
    ((), { w with ctx := { w.ctx with
      setObjectPropValueHandle := handle, setObjectPropValuePropCode := propCode } })
  | .setWrbuffer buffer, w => ((), { w with ctx := { w.ctx with wrbuffer := buffer } })
  | .setRdbuffer buffer, w => ((), { w with ctx := { w.ctx with rdbuffer := buffer } })
  | .setRdbuffer2 buffer, w => ((), { w with ctx := { w.ctx with rdbuffer2 := buffer } })
  | .setReadFileBuffer buffer, w =>
    ((), { w with ctx := { w.ctx with readFileBuffer := some buffer } })
  | .setInotifyFileInfo fileinfo, w =>
    ((), { w with ctx := { w.ctx with inotifyFileInfo := fileinfo } })
  | .setTransferringFileData transferring, w =>
    ((), { w with ctx := { w.ctx with transferringFileData := transferring } })
  | .query q, w => (os.query q w.os, w)
  | .act a, w => ((os.act a w.os).1, { w with os := (os.act a w.os).2 })

-- A function of the daemon.
abbrev M := Prog Cmd Cmd.Ans

namespace M

def getCtx : M MtpCtx := Prog.perform Cmd.getCtx

def db (op : DbOp) : M (Option EntryPtr) := Prog.perform (Cmd.db op)

def db_ (op : DbOp) : M Unit := (db op).bind fun _ => .ret ()

def flagDeleted (site : Site) (p : EntryPtr) : M Unit := Prog.perform (Cmd.flagDeleted site p)

def query (q : Query) : M q.Ans := Prog.perform (Cmd.query q)

def act (a : Action) : M a.Ans := Prog.perform (Cmd.act a)

def act_ (a : Action) : M Unit := (act a).bind fun _ => .ret ()

def cmd (c : Cmd) : M c.Ans := Prog.perform c

end M

section Exec

open Prog

variable {σ α : Type} {os : Os σ}

theorem exec_getCtx_bind (f : MtpCtx → M α) (w : World σ) :
    exec (World.handle os) (M.getCtx >>= f) w = exec (World.handle os) (f w.ctx) w := rfl

theorem exec_query_bind (q : Query) (f : q.Ans → M α) (w : World σ) :
    exec (World.handle os) (M.query q >>= f) w =
      exec (World.handle os) (f (os.query q w.os)) w := rfl

theorem exec_act_bind (a : Action) (f : a.Ans → M α) (w : World σ) :
    exec (World.handle os) (M.act a >>= f) w =
      exec (World.handle os) (f (os.act a w.os).1) ⟨w.ctx, (os.act a w.os).2⟩ := rfl

-- The size of the write buffer never changes.
theorem usbWrBufferMaxSize_exec (prog : M α) (w : World σ) :
    (exec (World.handle os) prog w).2.ctx.usbWrBufferMaxSize = w.ctx.usbWrBufferMaxSize := by
  have hstep : ∀ (v : World σ) (c : Cmd), v.ctx.usbWrBufferMaxSize = w.ctx.usbWrBufferMaxSize →
      (World.handle os c v).2.ctx.usbWrBufferMaxSize = w.ctx.usbWrBufferMaxSize := by
    intro v c hv
    cases c <;> exact hv
  exact exec_keeps (fun v c hv (_ : True) => hstep v c hv) prog w (fun _ _ => trivial) rfl

end Exec

-- mtp.c

namespace MtpCtx

variable (ctx : MtpCtx)

def slots : List (Fin MAX_STORAGE_NB) := List.finRange MAX_STORAGE_NB

-- The first registered slot with the id; -1 is `none`.
def mtpGetStorageIndexById (storageId : Nat) : Option (Fin MAX_STORAGE_NB) :=
  slots.find? fun i =>
    (ctx.storages i).rootPath.isSome && (ctx.storages i).storageId == storageId

def mtpGetStorageIndexByName (name : CString) : Option (Fin MAX_STORAGE_NB) :=
  slots.find? fun i =>
    (ctx.storages i).rootPath.isSome && (ctx.storages i).description == name

def mtpGetStorageIdByName (name : CString) : Nat :=
  match ctx.mtpGetStorageIndexByName name with
  | some i => (ctx.storages i).storageId
  | none => NO_HANDLE

def mtpGetStorageRoot (storageId : Nat) : Option CString :=
  (ctx.mtpGetStorageIndexById storageId).bind fun i => (ctx.storages i).rootPath

def mtpGetStorageDescription (storageId : Nat) : Option CString :=
  (ctx.mtpGetStorageIndexById storageId).map fun i => (ctx.storages i).description

def mtpGetStorageFlags (storageId : Nat) : BitVec 32 :=
  match ctx.mtpGetStorageIndexById storageId with
  | some i => (ctx.storages i).flags
  | none => NO_STORAGE_FLAGS

-- The lookups of the database in the context.
def getEntryByHandle (handle : Nat) : Option EntryPtr :=
  ctx.db.getEntryByHandle ctx.mtpGetStorageRoot handle

def getEntryByHandleAndStorageid (handle storageId : Nat) : Option EntryPtr :=
  ctx.db.getEntryByHandleAndStorageid handle storageId

def entry (p : EntryPtr) : FsEntry := ctx.db.pool p

end MtpCtx

end Umtp
