import Umtp.MemOs
import Umtp.Effects.Roles

namespace Umtp

open Lib Lib.Prog Handles

variable {σ α β : Type} {os : Os σ} {p : EntryPtr}

def Action.isMutex : Action → Bool
  | lockInotifyMutex | unlockInotifyMutex => true
  | _ => false

-- Commands other than those on the mutex of the database.
def Cmd.LeavesMutex : Cmd → Prop
  | act a => a.isMutex = false
  | _ => True

attribute [grind =] Action.isMutex Cmd.LeavesMutex

abbrev LockFree (prog : M α) : Prop :=
  Uses AnyAnswer Cmd.LeavesMutex prog

theorem lockFree_getCtx_bind {f : MtpCtx → M α} (hf : ∀ ctx, LockFree (f ctx)) :
    LockFree (M.getCtx >>= f) :=
  ⟨trivial, fun ctx _ => hf ctx⟩

theorem lockFree_cmd (c : Cmd) (hc : c.LeavesMutex) : LockFree (M.cmd c) :=
  ⟨hc, fun _ _ => trivial⟩

theorem lockFree_act (a : Action) (ha : a.isMutex = false) : LockFree (M.act a) :=
  ⟨ha, fun _ _ => trivial⟩

theorem lockFree_act_ (a : Action) (ha : a.isMutex = false) : LockFree (M.act_ a) :=
  uses_bind (lockFree_act a ha) fun _ => uses_pure ()

theorem lockFree_query (q : Query) : LockFree (M.query q) := ⟨trivial, fun _ _ => trivial⟩

theorem lockFree_db (op : DbOp) : LockFree (M.db op) := ⟨trivial, fun _ _ => trivial⟩

theorem lockFree_db_ (op : DbOp) : LockFree (M.db_ op) :=
  uses_bind (lockFree_db op) fun _ => uses_pure ()

theorem lockFree_flagDeleted (site : Site) (p : EntryPtr) : LockFree (M.flagDeleted site p) :=
  ⟨trivial, fun _ _ => trivial⟩

attribute [grind ←] lockFree_getCtx_bind lockFree_cmd lockFree_act lockFree_act_ lockFree_query
  lockFree_db lockFree_db_ lockFree_flagDeleted

theorem lockFree_resolveNewObject (rootPath fullPath name : CString) :
    LockFree (resolveNewObject rootPath fullPath name) := by
  unfold resolveNewObject
  grind

attribute [grind ←] lockFree_resolveNewObject

theorem lockFree_buildFullPathNamed (rootPath : Option CString) (p : EntryPtr) (name : CString) :
    LockFree (buildFullPathNamed rootPath p name) := by
  unfold buildFullPathNamed
  grind

attribute [grind ←] lockFree_buildFullPathNamed

theorem lockFree_entryPath (p : EntryPtr) : LockFree (entryPath p) :=
  lockFree_getCtx_bind fun _ => lockFree_getCtx_bind fun _ => lockFree_buildFullPathNamed _ _ _

theorem lockFree_setGiduid (uid gid : Int) : LockFree (setGiduid uid gid) := by
  unfold setGiduid
  grind

attribute [grind ←] lockFree_entryPath lockFree_setGiduid

theorem lockFree_restoreGiduid : LockFree restoreGiduid := by
  unfold restoreGiduid
  grind

theorem lockFree_setStorageGiduid (storageId : Nat) : LockFree (setStorageGiduid storageId) := by
  unfold setStorageGiduid
  grind

attribute [grind ←] lockFree_restoreGiduid lockFree_setStorageGiduid

theorem lockFree_entryOpen (p : EntryPtr) (flags : OpenFlags) : LockFree (entryOpen p flags) := by
  have hnext : ∀ _ : Unit, LockFree (do
      let ctx ← M.getCtx
      return (ctx.entry p).fileDescriptor) := by
    intro _
    grind
  unfold entryOpen
  refine lockFree_getCtx_bind fun ctx => ?_
  split
  · exact uses_pure _
  · refine uses_bind (lockFree_entryPath p) fun found => ?_
    dsimp only
    split
    · refine uses_bind (lockFree_setStorageGiduid _) fun set => ?_
      grind
    · exact hnext ()

theorem lockFree_entryRead (p : EntryPtr) (offset : Int) (size : Nat) :
    LockFree (entryRead p offset size) := by
  unfold entryRead
  grind

theorem lockFree_entryClose (entry : Option EntryPtr) : LockFree (entryClose entry) := by
  unfold entryClose
  grind

theorem lockFree_addwatch (path : CString) : LockFree (inotifyHandlerAddwatch path) := by
  unfold inotifyHandlerAddwatch
  grind

theorem lockFree_rmwatch (wd : Int) : LockFree (inotifyHandlerRmwatch wd) := by
  unfold inotifyHandlerRmwatch
  grind

attribute [grind ←] lockFree_entryOpen lockFree_entryRead lockFree_entryClose lockFree_addwatch
  lockFree_rmwatch

theorem lockFree_dropWatch (p : EntryPtr) : LockFree (dropWatch p) := by
  unfold dropWatch
  grind

theorem lockFree_writeUsb (channel : Endpoint) (bytes : List UInt8) :
    LockFree (writeUsb channel bytes) := by
  unfold writeUsb
  grind

attribute [grind ←] lockFree_dropWatch lockFree_writeUsb

theorem lockFree_checkAndSendUsbZlp (size : Int) : LockFree (checkAndSendUsbZlp size) := by
  unfold checkAndSendUsbZlp
  grind

attribute [grind ←] lockFree_checkAndSendUsbZlp

-- mtp_datasets.c and mtp_properties.c

theorem lockFree_dateString (time : Int) : LockFree (dateString time) := by
  unfold dateString
  grind

theorem lockFree_buildStorageinfoDataset (buffer : Buffer) (maxsize : Int) (storageId : Nat) :
    LockFree (buildStorageinfoDataset buffer maxsize storageId) := by
  unfold buildStorageinfoDataset
  grind

theorem lockFree_statEntry (p : EntryPtr) : LockFree (statEntry p) := by
  unfold statEntry
  grind

theorem lockFree_getBatteryLevel : LockFree getBatteryLevel := by
  unfold getBatteryLevel
  grind

attribute [grind ←] lockFree_dateString lockFree_buildStorageinfoDataset lockFree_statEntry
  lockFree_getBatteryLevel

theorem lockFree_buildObjectinfoDataset (buffer : Buffer) (maxsize : Int) (p : EntryPtr) :
    LockFree (buildObjectinfoDataset buffer maxsize p) := by
  unfold buildObjectinfoDataset
  grind

theorem lockFree_buildObjectproplistDataset (buffer : Buffer) (maxsize : Int) (p : EntryPtr)
    (handle propCode : Nat) :
    LockFree (buildObjectproplistDataset buffer maxsize p handle propCode) := by
  unfold buildObjectproplistDataset
  grind

theorem lockFree_buildDevicePropertiesDataset (buffer : Buffer) (maxsize : Int)
    (propertyId : Nat) :
    LockFree (buildDevicePropertiesDataset buffer maxsize propertyId) := by
  unfold buildDevicePropertiesDataset
  grind

theorem lockFree_buildDevicePropValueDataset (buffer : Buffer) (maxsize : Int)
    (propCode : Nat) : LockFree (buildDevicePropValueDataset buffer maxsize propCode) := by
  unfold buildDevicePropValueDataset
  grind

attribute [grind ←] lockFree_buildObjectinfoDataset lockFree_buildObjectproplistDataset
  lockFree_buildDevicePropertiesDataset lockFree_buildDevicePropValueDataset

-- fs_handles_db.c and mtp_ops_helpers.c

theorem lockFree_fsEntryStat (path : CString) (fileinfo : FileFoundInfo) :
    LockFree (fsEntryStat path fileinfo) := by
  unfold fsEntryStat
  grind

theorem lockFree_addEntry (fileinfo : FileFoundInfo) (parent storageId : Nat) :
    LockFree (addEntry fileinfo parent storageId) := by
  unfold addEntry
  refine lockFree_getCtx_bind fun ctx => ?_
  grind

attribute [grind ←] lockFree_fsEntryStat lockFree_addEntry

theorem lockFree_addFolderEntries (base : CString) (parent storageId : Nat)
    (names : List CString) : LockFree (addFolderEntries base parent storageId names) := by
  induction names with
  | nil => exact uses_pure _
  | cons name names ih =>
      unfold addFolderEntries
      refine uses_bind (lockFree_act _ rfl) fun memory => ?_
      grind

theorem lockFree_refreshChild (p : EntryPtr) : LockFree (refreshChild p) := by
  unfold refreshChild
  grind

attribute [grind ←] lockFree_addFolderEntries lockFree_refreshChild

theorem lockFree_refreshChildren (fuel : Nat) : LockFree (refreshChildren fuel) := by
  induction fuel with
  | zero => exact uses_pure _
  | succ fuel ih =>
      unfold refreshChildren
      grind

theorem lockFree_childFuel : LockFree childFuel :=
  lockFree_getCtx_bind fun _ => uses_pure _

attribute [grind ←] lockFree_refreshChildren lockFree_childFuel

theorem lockFree_scanAndAddFolder (base : CString) (parent storageId : Nat) :
    LockFree (scanAndAddFolder base parent storageId) := by
  unfold scanAndAddFolder
  grind

theorem lockFree_removeNames {removeTree : CString → M Bool}
    (hr : ∀ path, LockFree (removeTree path)) (storageId : Nat) (folder : CString)
    (names : List CString) : LockFree (removeNames removeTree storageId folder names) := by
  induction names with
  | nil => exact uses_pure _
  | cons name names ih =>
      unfold removeNames
      grind

theorem lockFree_fsRemoveTree (storageId fuel : Nat) (folder : CString) :
    LockFree (fsRemoveTree storageId fuel folder) := by
  induction fuel generalizing folder with
  | zero => exact uses_pure _
  | succ fuel ih =>
      have hnames := lockFree_removeNames ih storageId folder
      unfold fsRemoveTree
      grind

attribute [grind ←] lockFree_scanAndAddFolder lockFree_fsRemoveTree

theorem lockFree_removeChild (p : EntryPtr) (isDir : Bool) : LockFree (removeChild p isDir) := by
  unfold removeChild
  grind

attribute [grind ←] lockFree_removeChild

theorem lockFree_deleteChildren {deleteSubTree : EntryPtr → M Nat}
    (hd : ∀ p, LockFree (deleteSubTree p)) (fuel fcnt : Nat) :
    LockFree (deleteChildren deleteSubTree fuel fcnt) := by
  induction fuel generalizing fcnt with
  | zero => exact uses_pure _
  | succ fuel ih =>
      unfold deleteChildren
      refine uses_bind (lockFree_db _) fun next => ?_
      split
      · refine lockFree_getCtx_bind fun ctx => ?_
        grind
      · exact uses_pure _

theorem lockFree_deleteDbTree (levels : Nat) (p : EntryPtr) : LockFree (deleteDbTree levels p) := by
  induction levels generalizing p with
  | zero =>
      unfold deleteDbTree
      exact lockFree_getCtx_bind fun ctx => uses_bind (lockFree_db_ _) fun _ =>
        uses_bind lockFree_childFuel fun fuel => lockFree_deleteChildren (fun _ => uses_pure _) _ _
  | succ levels ih =>
      unfold deleteDbTree
      exact lockFree_getCtx_bind fun ctx => uses_bind (lockFree_db_ _) fun _ =>
        uses_bind lockFree_childFuel fun fuel => lockFree_deleteChildren ih _ _

attribute [grind ←] lockFree_deleteDbTree

theorem lockFree_deleteEntry (p : EntryPtr) : LockFree (deleteEntry p) := by
  have hnext : ∀ removed : Bool, LockFree (do
      if removed then
        M.flagDeleted .deleteTree p
        dropWatch p
      return removed) := by
    intro removed
    grind
  unfold deleteEntry
  refine lockFree_getCtx_bind fun ctx => uses_bind (lockFree_entryPath p) fun found => ?_
  split
  · dsimp only
    split
    · refine uses_bind (lockFree_deleteDbTree _ _) fun cnt => ?_
      split
      · exact uses_bind (lockFree_fsRemoveTree _ _ _) fun failed =>
          uses_bind (uses_pure _) fun removed => hnext _
      · exact uses_bind (uses_pure _) fun removed => hnext _
    · exact uses_bind (lockFree_act _ rfl) fun removed => hnext _
  · exact uses_pure _

theorem lockFree_deleteTree (handle : Nat) : LockFree (deleteTree handle) := by
  unfold deleteTree
  refine lockFree_getCtx_bind fun ctx => ?_
  split
  · exact lockFree_deleteEntry _
  · exact uses_pure _

theorem lockFree_deinitFsDb : LockFree deinitFsDb := by
  unfold deinitFsDb
  refine lockFree_getCtx_bind fun ctx => ?_
  dsimp only
  generalize List.filter _ _ = watched
  refine uses_bind ?_ fun _ => lockFree_entryClose _
  induction watched with
  | nil => exact uses_pure _
  | cons p watched ih => exact uses_bind (lockFree_rmwatch _) fun _ => ih

-- mtp_ops_helpers.c and mtp_op_sendobject.c

theorem lockFree_loadPage (p : EntryPtr) (position : Int) : LockFree (loadPage p position) := by
  unfold loadPage
  grind

attribute [grind ←] lockFree_loadPage

theorem lockFree_fetchBlock (p : EntryPtr) (position bufIndex : Int) (ofs : Nat)
    (blocksize : Int) : LockFree (fetchBlock p position bufIndex ofs blocksize) := by
  unfold fetchBlock
  refine lockFree_getCtx_bind fun ctx => ?_
  grind

theorem lockFree_sendBlocks (p : EntryPtr) (offset actualsize : Int) (fuel : Nat)
    (j bufIndex : Int) (ofs : Nat) :
    LockFree (sendBlocks p offset actualsize fuel j bufIndex ofs) := by
  induction fuel generalizing j bufIndex ofs with
  | zero => exact uses_pure _
  | succ fuel ih =>
      unfold sendBlocks
      refine lockFree_getCtx_bind fun ctx => uses_bind (lockFree_fetchBlock ..) fun block => ?_
      grind

theorem lockFree_endTransfer (actualsize : Int) : LockFree (endTransfer actualsize) := by
  unfold endTransfer
  grind

theorem lockFree_allocReadFileBuffer : LockFree allocReadFileBuffer := by
  unfold allocReadFileBuffer
  grind

attribute [grind ←] lockFree_sendBlocks lockFree_endTransfer lockFree_allocReadFileBuffer

theorem lockFree_sendFileData (p : EntryPtr) (offset maxsize : Int) :
    LockFree (sendFileData p offset maxsize) := by
  unfold sendFileData
  refine uses_bind lockFree_allocReadFileBuffer fun allocated => ?_
  split
  · refine lockFree_getCtx_bind fun ctx => uses_bind (lockFree_cmd _ trivial) fun _ =>
      uses_bind (lockFree_entryOpen p .readOnly) fun file => ?_
    grind
  · exact uses_pure _

theorem lockFree_writePayload (p : EntryPtr) (file : Int) (bytes : List UInt8) :
    LockFree (writePayload p file bytes) := by
  unfold writePayload
  grind

attribute [grind ←] lockFree_sendFileData lockFree_writePayload

theorem lockFree_receiveBlocks (p : EntryPtr) (file : Int) (fuel : Nat) (sz : Int) :
    LockFree (receiveBlocks p file fuel sz) := by
  induction fuel generalizing sz with
  | zero => exact uses_pure _
  | succ fuel ih =>
      unfold receiveBlocks
      refine lockFree_getCtx_bind fun ctx => ?_
      grind

theorem lockFree_endReceive (isPartial : Bool) (p : EntryPtr) (file : Int) :
    LockFree (endReceive isPartial p file) := by
  unfold endReceive
  grind

attribute [grind ←] lockFree_receiveBlocks lockFree_endReceive

theorem lockFree_receiveObject (hdr : Buffer) (size : Nat) (isPartial : Bool) (p : EntryPtr)
    (file : Int) : LockFree (receiveObject hdr size isPartial p file) := by
  have hnext : ∀ sz : Int, LockFree (do
      let ctx ← M.getCtx
      let full := (ctx.usbRdBufferMaxSize : Int)
      let next := if sz = full - MTP_HEADER_SIZE ∨ (isPartial = true ∧ ctx.sendObjInfoSize ≠ 0)
        then full else sz
      let backlog ← M.query .usbBacklog
      receiveBlocks p file (backlog + 1) next
      endReceive isPartial p file) := by
    intro sz
    refine lockFree_getCtx_bind fun ctx => ?_
    exact uses_bind (lockFree_query _) fun backlog =>
      uses_bind (lockFree_receiveBlocks ..) fun _ => lockFree_endReceive ..
  unfold receiveObject
  refine uses_bind (lockFree_cmd _ trivial) fun _ => lockFree_getCtx_bind fun ctx =>
    uses_bind (lockFree_act _ rfl) fun _ => ?_
  dsimp only
  split
  · exact uses_bind (lockFree_writePayload ..) fun _ => hnext _
  · exact hnext _

attribute [grind ←] lockFree_receiveObject

-- mtp.c

theorem lockFree_newObjectPath (folder : EntryPtr) (name : CString) :
    LockFree (newObjectPath folder name) := by
  unfold newObjectPath
  grind

theorem lockFree_expectObject (entry : Option EntryPtr) (objectsize : Nat) :
    LockFree (expectObject entry objectsize) := by
  unfold expectObject
  grind

attribute [grind ←] lockFree_newObjectPath lockFree_expectObject

theorem lockFree_createFolder (folder : EntryPtr) (name : CString)
    (parentHandle storageId : Nat) :
    LockFree (createFolder folder name parentHandle storageId) := by
  have hnext : ∀ made : Bool, LockFree (do
      restoreGiduid
      registerFolder name parentHandle storageId made) := by
    intro made
    unfold registerFolder
    grind
  unfold createFolder
  refine lockFree_getCtx_bind fun ctx => uses_bind (lockFree_newObjectPath _ _) fun found => ?_
  split
  · refine uses_bind (lockFree_setStorageGiduid _) fun set => ?_
    dsimp only
    split
    · exact uses_bind (lockFree_act _ rfl) hnext
    · exact hnext false
  · exact uses_pure _

theorem lockFree_createFile (folder : EntryPtr) (name : CString)
    (objectsize parentHandle storageId : Nat) :
    LockFree (createFile folder name objectsize parentHandle storageId) := by
  have hnext : ∀ file : Int, LockFree (do
      restoreGiduid
      if file = -1 then
        return (MTP_RESPONSE_ACCESS_DENIED, NO_HANDLE)
      else
        M.act (.close file)
        let entry ← addEntry ⟨false, name, objectsize⟩ parentHandle storageId
        expectObject entry objectsize) := by
    intro file
    refine uses_bind lockFree_restoreGiduid fun _ => ?_
    split
    · exact uses_pure _
    · exact uses_bind (lockFree_act _ rfl) fun _ => uses_bind (lockFree_addEntry ..) fun entry =>
        lockFree_expectObject entry objectsize
  unfold createFile
  refine uses_bind (lockFree_newObjectPath _ _) fun found => ?_
  split
  · refine uses_bind (lockFree_setStorageGiduid _) fun set => ?_
    dsimp only
    split
    · exact uses_bind (lockFree_act _ rfl) hnext
    · exact hnext (-1)
  · exact lockFree_expectObject none objectsize

attribute [grind ←] lockFree_createFolder lockFree_createFile

theorem lockFree_parseIncomingDataset (datain : Buffer) (parentHandle storageId : Nat) :
    LockFree (parseIncomingDataset datain parentHandle storageId) := by
  unfold parseIncomingDataset
  refine lockFree_getCtx_bind fun ctx => ?_
  grind

theorem lockFree_getObjectPropFilename (hdr : Buffer) : LockFree (getObjectPropFilename hdr) := by
  unfold getObjectPropFilename
  grind

attribute [grind ←] lockFree_parseIncomingDataset lockFree_getObjectPropFilename

theorem lockFree_renameObject (hdr : Buffer) (p : EntryPtr) : LockFree (renameObject hdr p) := by
  have hnext : ∀ (newFilename : CString) (renamed : Bool), LockFree (do
      restoreGiduid
      if renamed then
        let mem ← M.act .entryMemory
        M.db_ (.renameEntry mem p newFilename)
        return MTP_RESPONSE_OK
      else
        return MTP_RESPONSE_GENERAL_ERROR) := by
    intro newFilename renamed
    grind
  unfold renameObject
  refine lockFree_getCtx_bind fun ctx => ?_
  refine uses_bind (lockFree_getCtx_bind fun _ => lockFree_buildFullPathNamed _ _ _)
    fun path => ?_
  split
  · refine uses_bind (lockFree_getObjectPropFilename hdr) fun name => ?_
    split
    · refine uses_bind (lockFree_buildFullPathNamed _ _ _) fun path2 => ?_
      split
      · refine uses_bind (lockFree_setStorageGiduid _) fun set => ?_
        dsimp only
        split
        · exact uses_bind (lockFree_act _ rfl) (hnext _)
        · exact hnext _ false
      · exact uses_pure _
    · exact uses_pure _
  · exact uses_pure _

attribute [grind ←] lockFree_renameObject

theorem lockFree_setObjectPropValue (hdr : Buffer) (handle propCode : Nat) :
    LockFree (setObjectPropValue hdr handle propCode) := by
  unfold setObjectPropValue
  grind

attribute [grind ←] lockFree_setObjectPropValue lockFree_deleteTree lockFree_deinitFsDb

-- mtp_operations

theorem lockFree_startData (hdr : Buffer) : LockFree (startData hdr) := by
  unfold startData
  grind

theorem lockFree_sendData (sz : Int) : LockFree (sendData sz) := by
  unfold sendData
  grind

attribute [grind ←] lockFree_startData lockFree_sendData

theorem lockFree_sendDataset (hdr : Buffer) (emptyResponse : Option Nat)
    {build : Buffer → Int → M Poked} (hb : ∀ buffer maxsize, LockFree (build buffer maxsize)) :
    LockFree (sendDataset hdr emptyResponse build) := by
  unfold sendDataset
  refine uses_bind (lockFree_startData hdr) fun started => ?_
  split
  · refine lockFree_getCtx_bind fun ctx => uses_bind (hb _ _) fun out =>
      lockFree_getCtx_bind fun ctx => ?_
    grind
  · exact uses_pure _

theorem lockFree_countChildren (fuel count : Nat) : LockFree (countChildren fuel count) := by
  induction fuel generalizing count with
  | zero => exact uses_pure _
  | succ fuel ih =>
      unfold countChildren
      grind

theorem lockFree_pokeHandles (nbOfHandles fuel : Nat) (ofs : Int) (handleIndex : Nat) :
    LockFree (pokeHandles nbOfHandles fuel ofs handleIndex) := by
  induction fuel generalizing ofs handleIndex with
  | zero => exact uses_pure _
  | succ fuel ih =>
      unfold pokeHandles
      refine uses_bind (lockFree_db _) fun next => lockFree_getCtx_bind fun ctx => ?_
      have hnext : ∀ poked : Int × Nat, LockFree (do
          if 0 ≤ poked.1 ∧ poked.1 < ctx.maxPacketSize ∧ poked.2 < nbOfHandles then
            pokeHandles nbOfHandles fuel poked.1 poked.2
          else
            return (poked.1, poked.2)) := by
        intro poked
        split
        · exact ih _ _
        · exact uses_pure _
      dsimp only
      split
      · exact uses_bind (lockFree_cmd _ trivial) fun _ => uses_bind (uses_pure _) hnext
      · exact uses_bind (uses_pure _) hnext

theorem lockFree_sendHandles (nbOfHandles fuel : Nat) (ofs : Int) (handleIndex : Nat) :
    LockFree (sendHandles nbOfHandles fuel ofs handleIndex) := by
  induction fuel generalizing ofs handleIndex with
  | zero => exact uses_pure _
  | succ fuel ih =>
      unfold sendHandles
      refine uses_bind (lockFree_pokeHandles _ _ _ _) fun poked => ?_
      split
      split
      · exact uses_pure _
      · refine lockFree_getCtx_bind fun ctx => ?_
        grind

theorem lockFree_watchFolder (entry : Option EntryPtr) (fullPath : CString) :
    LockFree (watchFolder entry fullPath) := by
  unfold watchFolder
  grind

theorem lockFree_sendHandleArray (nbOfHandles : Nat) :
    LockFree (sendHandleArray nbOfHandles) := by
  have hsend := lockFree_sendHandles
  unfold sendHandleArray
  grind

attribute [grind ←] lockFree_countChildren lockFree_watchFolder lockFree_sendHandleArray

theorem lockFree_listFolder (entry : Option EntryPtr) (fullPath : CString)
    (parentHandle storageid : Nat) :
    LockFree (listFolder entry fullPath parentHandle storageid) := by
  have hnext : ∀ scanned : Bool, LockFree (do
      restoreGiduid
      if scanned then
        M.db_ (.initSearchHandle parentHandle storageid)
        let fuel ← childFuel
        let nbOfHandles ← countChildren fuel 0
        M.db_ (.initSearchHandle parentHandle storageid)
        watchFolder entry fullPath
        return some nbOfHandles
      else
        return none) := by
    intro scanned
    grind
  refine uses_bind (lockFree_setStorageGiduid _) fun set => ?_
  split
  · exact uses_bind (lockFree_scanAndAddFolder ..) hnext
  · exact hnext false

theorem lockFree_sendObjectData (hdr : Buffer) (size : Nat) :
    LockFree (sendObjectData hdr size) := by
  unfold sendObjectData
  refine lockFree_getCtx_bind fun ctx => ?_
  grind

theorem lockFree_sendObjectPhase (hdr : Buffer) (size : Nat) :
    LockFree (sendObjectPhase hdr size) := by
  have hnext : LockFree (sendObjectRest hdr size) := by
    have hdata := lockFree_sendObjectData hdr size
    refine lockFree_getCtx_bind fun ctx => ?_
    grind
  unfold sendObjectPhase
  dsimp only
  split
  · exact uses_bind (lockFree_cmd _ trivial) fun _ => hnext
  · exact hnext

theorem lockFree_sendResponse (hdr : Buffer) (response : Response) :
    LockFree (sendResponse hdr response) := by
  unfold sendResponse
  grind

theorem lockFree_mtpPushEvent (event : Nat) (parameters : List Nat) :
    LockFree (mtpPushEvent event parameters) := by
  unfold mtpPushEvent
  grind

-- inotify.c and msgqueue.c

theorem lockFree_getFileInfo (event : InotifyEvent) (entry : Option EntryPtr) (deleted : Bool) :
    LockFree (getFileInfo event entry deleted) := by
  unfold getFileInfo
  split
  · refine uses_bind (lockFree_entryPath _) fun path => ?_
    split
    · refine uses_bind (lockFree_act _ rfl) fun memory => ?_
      grind
    · exact uses_pure _
  · exact uses_pure _

theorem lockFree_entryCreated (folder : EntryPtr) : LockFree (entryCreated folder) := by
  unfold entryCreated
  grind

theorem lockFree_entryModified (folder : EntryPtr) : LockFree (entryModified folder) :=
  lockFree_getCtx_bind fun _ => uses_pure _

theorem lockFree_entryDeleted (folder : EntryPtr) : LockFree (entryDeleted folder) := by
  unfold entryDeleted
  grind

theorem lockFree_setStorageFlags (i : Fin MAX_STORAGE_NB) (change : BitVec 32 → BitVec 32) :
    LockFree (setStorageFlags i change) :=
  lockFree_getCtx_bind fun _ => lockFree_cmd _ trivial

theorem lockFree_umountEntries (storageId fuel : Nat) (start : List EntryPtr) :
    LockFree (umountEntries storageId fuel start) := by
  induction fuel generalizing start with
  | zero => exact uses_pure _
  | succ fuel ih =>
      unfold umountEntries
      refine lockFree_getCtx_bind fun ctx => ?_
      grind

attribute [grind ←] lockFree_mtpPushEvent lockFree_setStorageFlags lockFree_umountEntries

theorem lockFree_umountStore (i : Fin MAX_STORAGE_NB) (updateFlag : Bool) :
    LockFree (umountStore i updateFlag) := by
  unfold umountStore
  grind

theorem lockFree_mountStore (i : Fin MAX_STORAGE_NB) (updateFlag : Bool) :
    LockFree (mountStore i updateFlag) := by
  unfold mountStore
  grind

theorem lockFree_mtpAddStorage (path description : CString) (uid gid : Int)
    (flags : BitVec 32) : LockFree (mtpAddStorage path description uid gid flags) := by
  unfold mtpAddStorage
  refine lockFree_getCtx_bind fun ctx => ?_
  split
  · split
    · refine uses_bind (lockFree_query _) fun rootPath => uses_bind (lockFree_act _ rfl) fun _ => ?_
      split
      · exact lockFree_cmd _ trivial
      · exact lockFree_cmd _ trivial
    · exact uses_pure _
  · exact uses_pure _

theorem lockFree_mtpRemoveStorage (name : CString) : LockFree (mtpRemoveStorage name) := by
  unfold mtpRemoveStorage
  grind

-- Calls on the mutex succeed.
structure MutexSucceeds (os : Os σ) : Prop where
  lock : ∀ s, (os.act .lockInotifyMutex s).1 = true
  unlock : ∀ s, (os.act .unlockInotifyMutex s).1 = true

-- Whether inotify_mutex is held, kept beside the state.
def noteMutex : Cmd → Bool → Bool
  | .act .lockInotifyMutex, _ => true
  | .act .unlockInotifyMutex, _ => false
  | _, held => held

def watchMutex (os : Os σ) : Handler Cmd Cmd.Ans (World σ × Bool) :=
  observe (World.handle os) fun c _ _ => noteMutex c

-- The mutex is locked while it is free and unlocked while it is held.
def ProperlyLocked (s : World σ × Bool) : Cmd → Prop
  | .act .lockInotifyMutex => s.2 = false
  | .act .unlockInotifyMutex => s.2 = true
  | _ => True

-- What a part does to the mutex: whether it is held before and after.
abbrev Locks (os : Os σ) (before after : Bool) (prog : M α) : Prop :=
  Valid (watchMutex os) ProperlyLocked (fun s => s.2 = before) prog fun _ s => s.2 = after

-- From a free mutex to a free mutex.
abbrev FreesMutex (os : Os σ) (prog : M α) : Prop := Locks os false false prog

theorem locks_of_lockFree {prog : M α} {held : Bool} (hp : LockFree prog) :
    Locks os held held prog := by
  refine valid_weaken (valid_of_runs hp (I := fun s => s.2 = held) fun s c hs hc => ?_)
    (fun _ hs => hs) fun _ _ hs => hs.2
  cases c with
  | act a =>
      cases a with
      | lockInotifyMutex => exact absurd hc (by simp [Cmd.LeavesMutex, Action.isMutex])
      | unlockInotifyMutex => exact absurd hc (by simp [Cmd.LeavesMutex, Action.isMutex])
      | _ => exact ⟨trivial, trivial, hs⟩
  | _ => exact ⟨trivial, trivial, hs⟩

theorem freesMutex_ret (value : α) : FreesMutex os (pure value : M α) :=
  locks_of_lockFree (uses_pure value)

theorem freesMutex_bind {prog : M α} {f : α → M β} (hp : FreesMutex os prog)
    (hf : ∀ value, FreesMutex os (f value)) : FreesMutex os (prog >>= f) :=
  valid_bind hp hf

variable {before after : Bool}

-- A part that leaves the mutex alone, and what follows it.
theorem locks_bind {prog : M α} {f : α → M β} (hp : LockFree prog)
    (hf : ∀ value, Locks os before after (f value)) : Locks os before after (prog >>= f) :=
  valid_bind (locks_of_lockFree hp) hf

theorem locks_getCtx_bind {f : MtpCtx → M α} (hf : ∀ ctx, Locks os before after (f ctx)) :
    Locks os before after (M.getCtx >>= f) :=
  locks_bind ⟨trivial, fun _ _ => trivial⟩ hf

-- A lock succeeds.
theorem locks_lock_bind (hos : MutexSucceeds os) {f : Bool → M α}
    (hf : Locks os true after (f true)) :
    Locks os false after (M.act .lockInotifyMutex >>= f) := by
  have hlock : Valid (watchMutex os) ProperlyLocked (fun s => s.2 = false)
      (M.act .lockInotifyMutex) fun locked s => locked = true ∧ s.2 = true :=
    valid_perform (fun s hs => hs) fun s _ => ⟨hos.lock _, rfl⟩
  refine valid_bind hlock fun locked => ?_
  refine valid_of_fact (fun s (hs : locked = true ∧ s.2 = true) => hs.1) fun hlocked => ?_
  rw [hlocked]
  exact valid_weaken hf (fun _ hs => hs.2) fun _ _ hs => hs

theorem locks_unlock_bind (hos : MutexSucceeds os) {f : Bool → M α}
    (hf : Locks os false after (f true)) :
    Locks os true after (M.act .unlockInotifyMutex >>= f) := by
  have hunlock : Valid (watchMutex os) ProperlyLocked (fun s => s.2 = true)
      (M.act .unlockInotifyMutex) fun unlocked s => unlocked = true ∧ s.2 = false :=
    valid_perform (fun s hs => hs) fun s _ => ⟨hos.unlock _, rfl⟩
  refine valid_bind hunlock fun unlocked => ?_
  refine valid_of_fact (fun s (hs : unlocked = true ∧ s.2 = false) => hs.1) fun hunlocked => ?_
  rw [hunlocked]
  exact valid_weaken hf (fun _ hs => hs.2) fun _ _ hs => hs

-- An unlock whose result is not looked at.
theorem locks_unlock_ : Locks os true false (M.act_ .unlockInotifyMutex) :=
  valid_bind (valid_perform (fun _ hs => hs) fun _ _ => rfl) fun _ => valid_ret fun _ hs => hs

theorem locks_unlock_bind_ {f : Unit → M α} (hf : Locks os false after (f ())) :
    Locks os true after (M.act_ .unlockInotifyMutex >>= f) :=
  valid_bind locks_unlock_ fun _ => hf

theorem freesMutex_underMutex (hos : MutexSucceeds os) {op : M Response} (hp : LockFree op) :
    FreesMutex os (underMutex op) :=
  locks_lock_bind hos (locks_bind hp fun response =>
    locks_unlock_bind_ (freesMutex_ret response))

theorem freesMutex_inSession {op : M Response} (hp : FreesMutex os op) :
    FreesMutex os (inSession op) := by
  refine locks_getCtx_bind fun ctx => ?_
  split
  · exact hp
  · exact freesMutex_ret _

-- The requests about one object.
theorem freesMutex_aboutEntry (hos : MutexSucceeds os) (hdr : Buffer)
    {op : EntryPtr → M Response} (hp : ∀ p, LockFree (op p)) :
    FreesMutex os (aboutEntry hdr op) := by
  refine freesMutex_inSession (freesMutex_underMutex hos (lockFree_getCtx_bind fun ctx => ?_))
  split
  · exact hp _
  · exact uses_pure _

-- The mutex is locked once for each storage.
theorem freesMutex_allocRootEntries (hos : MutexSucceeds os)
    (slots : List (Fin MAX_STORAGE_NB)) : FreesMutex os (allocRootEntries slots) := by
  induction slots with
  | nil => exact freesMutex_ret _
  | cons i rest ih =>
      unfold allocRootEntries
      refine locks_getCtx_bind fun ctx => ?_
      split
      · refine locks_lock_bind hos ?_
        exact locks_bind (lockFree_act .entryMemory rfl) fun mem =>
          locks_bind (lockFree_db_ _) fun _ => locks_unlock_bind_ ih
      · exact freesMutex_ret _

theorem freesMutex_mtpOpOpenSession (hos : MutexSucceeds os) (hdr : Buffer) :
    FreesMutex os (mtpOpOpenSession hdr) := by
  unfold mtpOpOpenSession
  refine locks_getCtx_bind fun ctx => ?_
  split
  · exact freesMutex_ret _
  split
  · exact freesMutex_ret _
  refine locks_bind (lockFree_cmd _ trivial) fun _ =>
    locks_bind (lockFree_act _ rfl) fun memory => ?_
  split
  · exact locks_bind (lockFree_cmd _ trivial) fun _ =>
      freesMutex_allocRootEntries hos _
  · exact freesMutex_ret _

theorem freesMutex_mtpOpGetDevicePropDesc (hos : MutexSucceeds os) (hdr : Buffer) :
    FreesMutex os (mtpOpGetDevicePropDesc hdr) := by
  refine freesMutex_inSession (locks_lock_bind hos ?_)
  exact locks_bind (lockFree_sendDataset hdr _ fun _ _ =>
    lockFree_buildDevicePropertiesDataset _ _ _) fun response =>
      locks_unlock_bind_ (freesMutex_ret response)

theorem freesMutex_mtpOpGetObjectPropList (hos : MutexSucceeds os) (hdr : Buffer) :
    FreesMutex os (mtpOpGetObjectPropList hdr) := by
  refine freesMutex_inSession (freesMutex_underMutex hos (lockFree_getCtx_bind fun ctx => ?_))
  split
  · exact uses_pure _
  · split
    · exact lockFree_sendDataset hdr _ fun _ _ => lockFree_buildObjectproplistDataset _ _ _ _ _
    · exact uses_pure _

theorem freesMutex_mtpOpGetObjectHandles (hos : MutexSucceeds os) (hdr : Buffer) :
    FreesMutex os (mtpOpGetObjectHandles hdr) := by
  have hnext : ∀ listed : Option Nat, LockFree (answerHandles listed) := by
    intro listed
    unfold answerHandles
    grind
  refine freesMutex_inSession (freesMutex_underMutex hos
    (uses_bind (lockFree_startData hdr) fun started => ?_))
  split
  · refine lockFree_getCtx_bind fun ctx => ?_
    split
    · dsimp only
      split
      · split
        · refine uses_bind (lockFree_entryPath _) fun path => ?_
          split
          · exact uses_bind (lockFree_listFolder ..) hnext
          · exact hnext (some 0)
        · exact hnext (some 0)
      · exact uses_bind (lockFree_listFolder ..) hnext
    · exact uses_pure _
  · exact uses_pure _

theorem freesMutex_mtpOpGetObject (hos : MutexSucceeds os) (hdr : Buffer) :
    FreesMutex os (mtpOpGetObject hdr) := by
  refine freesMutex_aboutEntry hos hdr fun p => lockFree_getCtx_bind fun ctx => ?_
  grind

theorem freesMutex_mtpOpGetPartialObject (hos : MutexSucceeds os) (hdr : Buffer) :
    FreesMutex os (mtpOpGetPartialObject hdr) := by
  refine freesMutex_inSession (freesMutex_underMutex hos ?_)
  dsimp only
  split
  all_goals
    refine lockFree_getCtx_bind fun ctx => ?_
    grind

theorem freesMutex_mtpOpSendObjectInfo (hos : MutexSucceeds os) (hdr : Buffer) :
    FreesMutex os (mtpOpSendObjectInfo hdr) := by
  have hnext : LockFree (answerDataset hdr) := by
    refine lockFree_getCtx_bind fun ctx =>
      uses_bind (lockFree_parseIncomingDataset _ _ _) fun parsed => ?_
    grind
  refine freesMutex_inSession (freesMutex_underMutex hos (lockFree_getCtx_bind fun ctx => ?_))
  refine uses_bind (lockFree_act _ rfl) fun read => ?_
  dsimp only
  split
  · exact uses_bind (lockFree_cmd _ trivial) fun _ => hnext
  · exact hnext

theorem freesMutex_mtpOpSendObject (hos : MutexSucceeds os) (hdr : Buffer) (size : Nat) :
    FreesMutex os (mtpOpSendObject hdr size) := by
  refine freesMutex_inSession (locks_lock_bind hos ?_)
  exact locks_bind (lockFree_sendObjectPhase hdr size) fun phase =>
    locks_unlock_bind hos (freesMutex_ret _)

theorem freesMutex_mtpOpDeleteObject (hos : MutexSucceeds os) (hdr : Buffer) :
    FreesMutex os (mtpOpDeleteObject hdr) := by
  have hnext : ∀ code : Nat, LockFree (do
      restoreGiduid
      return ((code, []) : Response)) := by
    intro code
    grind
  refine freesMutex_inSession (freesMutex_underMutex hos (lockFree_getCtx_bind fun ctx => ?_))
  split
  · exact uses_pure _
  · dsimp only
    split
    · refine uses_bind (lockFree_setStorageGiduid _) fun set => ?_
      split
      · exact uses_bind (lockFree_deleteTree _) fun deleted => hnext _
      · exact hnext _
    · exact hnext _

theorem freesMutex_mtpOpSetObjectPropValue (hdr : Buffer) :
    FreesMutex os (mtpOpSetObjectPropValue hdr) := by
  refine freesMutex_inSession (locks_of_lockFree ?_)
  split
  · grind
  · split
    · refine lockFree_getCtx_bind fun ctx => ?_
      grind
    · exact uses_pure _

theorem freesMutex_mtpOpTruncateObject (hos : MutexSucceeds os) (hdr : Buffer) :
    FreesMutex os (mtpOpTruncateObject hdr) := by
  refine freesMutex_aboutEntry hos hdr fun p => lockFree_getCtx_bind fun ctx => ?_
  grind

-- A request runs one of the operations of the table, or none.
theorem performOperation_cases {P : M Response → Prop} (hdr : Buffer) (rawsize : Nat)
    (hop : ∀ entry ∈ operations, P (entry.2 hdr rawsize))
    (hnone : P (pure (MTP_RESPONSE_OPERATION_NOT_SUPPORTED, []))) :
    P (performOperation hdr rawsize) := by
  unfold performOperation
  split
  · rename_i op hlookup
    exact hop _ (mem_of_lookup hlookup)
  · exact hnone

theorem freesMutex_performOperation (hos : MutexSucceeds os) (hdr : Buffer) (rawsize : Nat) :
    FreesMutex os (performOperation hdr rawsize) := by
  refine performOperation_cases hdr rawsize ?_ (freesMutex_ret _)
  have hdata : ∀ emptyResponse {build : Buffer → Int → M Poked},
      (∀ buffer maxsize, LockFree (build buffer maxsize)) →
        FreesMutex os (sendDataset hdr emptyResponse build) :=
    fun emptyResponse _ hb => locks_of_lockFree (lockFree_sendDataset hdr emptyResponse hb)
  simp only [operations, List.forall_mem_cons, List.not_mem_nil, false_imp_iff, implies_true,
    and_true]
  refine ⟨freesMutex_mtpOpOpenSession hos hdr, ?closeSession, ?deviceInfos, ?storageIds,
    ?storageInfo, freesMutex_mtpOpGetDevicePropDesc hos hdr, ?devicePropValue,
    freesMutex_mtpOpGetObjectHandles hos hdr, ?objectInfo,
    freesMutex_mtpOpGetPartialObject hos hdr, freesMutex_mtpOpGetPartialObject hos hdr,
    freesMutex_mtpOpGetObject hos hdr, freesMutex_mtpOpSendObjectInfo hos hdr,
    freesMutex_mtpOpSendObject hos hdr rawsize, freesMutex_mtpOpSendObject hos hdr rawsize,
    freesMutex_mtpOpDeleteObject hos hdr, ?propsSupported, ?propDesc, ?propValue,
    freesMutex_mtpOpSetObjectPropValue hdr, freesMutex_mtpOpGetObjectPropList hos hdr,
    ?references, ?beginEdit, ?endEdit, freesMutex_mtpOpTruncateObject hos hdr⟩
  case closeSession =>
    exact freesMutex_inSession (locks_of_lockFree (uses_bind lockFree_deinitFsDb fun _ =>
      uses_bind (lockFree_cmd _ trivial) fun _ => uses_pure _))
  case deviceInfos =>
    exact hdata _ fun _ _ => lockFree_getCtx_bind fun _ => uses_pure _
  case storageIds =>
    exact freesMutex_inSession (hdata _ fun _ _ => lockFree_getCtx_bind fun _ => uses_pure _)
  case storageInfo =>
    refine freesMutex_inSession (locks_getCtx_bind fun ctx => ?_)
    split
    · exact hdata _ fun _ _ => lockFree_buildStorageinfoDataset _ _ _
    · exact freesMutex_ret _
  case devicePropValue =>
    exact freesMutex_inSession (freesMutex_underMutex hos (lockFree_sendDataset hdr _ fun _ _ =>
      lockFree_buildDevicePropValueDataset _ _ _))
  case objectInfo =>
    exact freesMutex_aboutEntry hos hdr fun p => lockFree_sendDataset hdr _ fun _ _ =>
      lockFree_buildObjectinfoDataset _ _ p
  case propsSupported => exact freesMutex_inSession (hdata _ fun _ _ => uses_pure _)
  case propDesc =>
    exact freesMutex_inSession (freesMutex_underMutex hos (lockFree_sendDataset hdr _ fun _ _ =>
      uses_pure _))
  case propValue =>
    exact freesMutex_aboutEntry hos hdr fun _ => lockFree_sendDataset hdr _ fun _ _ =>
      lockFree_getCtx_bind fun _ => uses_pure _
  case references =>
    exact freesMutex_aboutEntry hos hdr fun _ => lockFree_sendDataset hdr _ fun _ _ => uses_pure _
  case beginEdit =>
    exact freesMutex_inSession (freesMutex_underMutex hos
      (lockFree_getCtx_bind fun _ => uses_pure _))
  case endEdit =>
    exact freesMutex_inSession (freesMutex_underMutex hos (lockFree_getCtx_bind fun _ =>
      uses_bind (lockFree_entryClose _) fun _ => uses_pure _))

theorem freesMutex_mtpIncomingPacket (hos : MutexSucceeds os) (packet : List UInt8) :
    FreesMutex os (mtpIncomingPacket packet) := by
  unfold mtpIncomingPacket
  refine locks_getCtx_bind fun ctx =>
    locks_bind (lockFree_cmd _ trivial) fun _ => ?_
  split
  · exact freesMutex_bind (freesMutex_performOperation hos _ _) fun response =>
      locks_of_lockFree (lockFree_sendResponse _ _)
  · exact freesMutex_ret _

-- The thread of inotify gives the mutex back before it sends the event.
theorem freesMutex_forWatchedFolders (hos : MutexSucceeds os) (event : InotifyEvent)
    (deleted : Bool) (code : Nat) {change : EntryPtr → M (Option EntryPtr)}
    (hc : ∀ folder, LockFree (change folder)) (fuel : Nat) (start : List EntryPtr) :
    FreesMutex os (forWatchedFolders event deleted code change fuel start) := by
  induction fuel generalizing start with
  | zero => exact freesMutex_ret _
  | succ fuel ih =>
      unfold forWatchedFolders
      refine locks_lock_bind hos ?_
      refine locks_getCtx_bind fun ctx => locks_bind (lockFree_getFileInfo ..) fun known => ?_
      have hnext : ∀ changed : Option EntryPtr, Locks os true false (endTurn code changed (do
          if (ctx.db.getEntryByWd event.wd start).tail ≠ [] then
            forWatchedFolders event deleted code change fuel
              (ctx.db.getEntryByWd event.wd start).tail
          else
            return true)) := by
        intro changed
        have hturn : FreesMutex os (do
            if (ctx.db.getEntryByWd event.wd start).tail ≠ [] then
              forWatchedFolders event deleted code change fuel
                (ctx.db.getEntryByWd event.wd start).tail
            else
              return true) := by
          split
          · exact ih _
          · exact freesMutex_ret _
        refine locks_getCtx_bind fun ctx' => locks_unlock_bind hos ?_
        cases changed with
        | some p => exact locks_bind (lockFree_mtpPushEvent _ _) fun _ => hturn
        | none => exact hturn
      dsimp only
      split
      · exact locks_bind (hc _) hnext
      · exact hnext none

theorem freesMutex_inotifyThread (hos : MutexSucceeds os) (event : InotifyEvent) :
    FreesMutex os (inotifyThread event) := by
  have hmodified : ∀ (goesOn : Bool) (turns : Nat), FreesMutex os (do
      let goesOn ←
        if goesOn && hasFlag event.mask IN_MODIFY then
          forWatchedFolders event true MTP_EVENT_OBJECT_INFO_CHANGED entryModified turns []
        else
          pure goesOn
      if goesOn && hasAnyFlag event.mask IN_DELETE IN_MOVED_FROM then
        let _ ← forWatchedFolders event true MTP_EVENT_OBJECT_REMOVED entryDeleted turns []) := by
    intro goesOn turns
    have hdeleted : ∀ goesOn : Bool, FreesMutex os (do
        if goesOn && hasAnyFlag event.mask IN_DELETE IN_MOVED_FROM then
          let _ ← forWatchedFolders event true MTP_EVENT_OBJECT_REMOVED entryDeleted turns []) := by
      intro goesOn
      split
      · exact freesMutex_bind (freesMutex_forWatchedFolders hos _ _ _ lockFree_entryDeleted _ _)
          fun _ => freesMutex_ret _
      · exact freesMutex_ret _
    dsimp only
    split
    · exact freesMutex_bind (freesMutex_forWatchedFolders hos _ _ _ lockFree_entryModified _ _)
        hdeleted
    · exact hdeleted _
  unfold inotifyThread
  split
  · refine locks_getCtx_bind fun ctx => ?_
    dsimp only
    split
    · exact freesMutex_bind (freesMutex_forWatchedFolders hos _ _ _ lockFree_entryCreated _ _)
        fun goesOn => hmodified goesOn _
    · exact hmodified true _
  · exact freesMutex_ret _

theorem freesMutex_switchStore (hos : MutexSucceeds os) (name : CString)
    {switch : Fin MAX_STORAGE_NB → M Unit} (hs : ∀ i, LockFree (switch i)) (event : Nat) :
    FreesMutex os (switchStore name switch event) := by
  unfold switchStore
  refine locks_getCtx_bind fun ctx => ?_
  split
  · refine locks_lock_bind hos ?_
    exact locks_bind (hs _) fun _ => locks_bind (lockFree_mtpPushEvent _ _) fun _ => locks_unlock_
  · exact freesMutex_ret _

theorem freesMutex_switchLocks (hos : MutexSucceeds os) (locked : Bool)
    {switch : Fin MAX_STORAGE_NB → M Unit} (hs : ∀ i, LockFree (switch i))
    (change : BitVec 32 → BitVec 32) (event : Nat) (slots : List (Fin MAX_STORAGE_NB)) :
    FreesMutex os (switchLocks locked switch change event slots) := by
  induction slots with
  | nil => exact freesMutex_ret _
  | cons i rest ih =>
      unfold switchLocks
      refine locks_getCtx_bind fun ctx => ?_
      dsimp only
      split
      · refine locks_lock_bind hos ?_
        exact locks_bind (hs _) fun _ => locks_bind (lockFree_setStorageFlags _ _) fun _ =>
          locks_bind (lockFree_mtpPushEvent _ _) fun _ => locks_unlock_bind hos ih
      · exact ih

theorem freesMutex_msgqueueThread (hos : MutexSucceeds os) (message : CString) :
    FreesMutex os (msgqueueThread message) := by
  unfold msgqueueThread mtpAddStorageFromLine mtpRemoveStorageFromLine
  split
  · split
    · exact locks_of_lockFree (lockFree_mtpAddStorage ..)
    · exact freesMutex_ret _
  split
  · split
    · exact locks_of_lockFree (lockFree_mtpRemoveStorage _)
    · exact freesMutex_ret _
  split
  · exact freesMutex_switchStore hos _ (fun i => lockFree_mountStore i true) _
  split
  · exact freesMutex_switchStore hos _ (fun i => lockFree_umountStore i true) _
  split
  · exact freesMutex_switchLocks hos _ (fun i => lockFree_umountStore i false) _ _ _
  split
  · exact freesMutex_switchLocks hos _ (fun i => lockFree_mountStore i false) _ _ _
  · exact freesMutex_ret _

theorem freesMutex_event (hos : MutexSucceeds os) (event : Event σ) :
    FreesMutex os event.program := by
  cases event with
  | packet bytes => exact freesMutex_mtpIncomingPacket hos bytes
  | inotify event => exact freesMutex_inotifyThread hos event
  | message text => exact freesMutex_msgqueueThread hos text
  | outside change => exact freesMutex_ret _

-- An event, with whether the mutex is held.
def watchMutexStep (os : Os σ) (s : World σ × Bool) : Event σ → World σ × Bool
  | .outside change => ({ s.1 with os := change s.1.os }, s.2)
  | event => (exec (watchMutex os) event.program s).2

-- The mutex is free before the event and used properly in it, and the event
-- gives it back.
def MutexFree (os : Os σ) (s : World σ × Bool) (event : Event σ) : Prop :=
  s.2 = false ∧ Safe (watchMutex os) ProperlyLocked event.program s ∧
    (watchMutexStep os s event).2 = false

theorem mutexFree_step (hos : MutexSucceeds os) {s : World σ × Bool} (hs : s.2 = false)
    (event : Event σ) : MutexFree os s event := by
  obtain ⟨hsafe, hafter⟩ := freesMutex_event hos event s hs
  refine ⟨hs, hsafe, ?_⟩
  cases event with
  | outside change => exact hs
  | _ => exact hafter

theorem mutexFree_run (hos : MutexSucceeds os) {s : World σ × Bool} (hs : s.2 = false)
    (events : List (Event σ)) : Allowed (watchMutexStep os) (MutexFree os) s events := by
  induction events generalizing s with
  | nil => trivial
  | cons event events ih =>
      have hfree := mutexFree_step hos hs event
      exact ⟨hfree, ih hfree.2.2⟩

-- Every operation takes the mutex only while it is free, gives it back only
-- while it is held, and returns with a free mutex, whatever the answers to its
-- other calls. So no requests, with anything that happens between them, wait
-- for a mutex that the daemon itself holds.
theorem mutex_free_between_requests (hos : MutexSucceeds os) :
    (∀ (hdr : Buffer) (rawsize : Nat), FreesMutex os (performOperation hdr rawsize)) ∧
      ∀ (w : World σ) (events : List (Event σ)),
        Allowed (watchMutexStep os) (MutexFree os) (w, false) events :=
  ⟨freesMutex_performOperation hos, fun _ events => mutexFree_run hos rfl events⟩

theorem mutex_free_between_requests_sample :
    MutexSucceeds memOs ∧ Allowed (watchMutexStep memOs) (MutexFree memOs) (twoStorages, false)
      [openSession, getObjectHandles FIRST_STORAGE_ID 0, closeSession] := by
  have hos : MutexSucceeds memOs := ⟨fun _ => rfl, fun _ => rfl⟩
  exact ⟨hos, (mutex_free_between_requests hos).2 twoStorages
    [openSession, getObjectHandles FIRST_STORAGE_ID 0, closeSession]⟩

end Umtp
