import Umtp.Effects.Footprint

namespace Umtp

open Lib Lib.Prog Handles

variable {R : (c : Cmd) → c.Ans → Prop} {fp : Footprint} {α : Type} {p : EntryPtr}

-- usb_gadget.c and the helpers of mtp.c

theorem uses_writeUsb (channel : Endpoint) (bytes : List UInt8) :
    Uses R (Cmd.Within fp) (writeUsb channel bytes) := by
  unfold writeUsb
  grind

attribute [grind ←] uses_writeUsb

theorem uses_checkAndSendUsbZlp (size : Int) :
    Uses R (Cmd.Within fp) (checkAndSendUsbZlp size) := by
  unfold checkAndSendUsbZlp
  grind

attribute [grind ←] uses_checkAndSendUsbZlp

-- mtp_datasets.c and mtp_properties.c

theorem uses_stat64 {path : CString} (h : fp.path path) :
    Uses R (Cmd.Within fp) (M.query (.stat64 path)) :=
  uses_query _ (by simpa [Query.paths] using h)

theorem uses_opendir {path : CString} (h : fp.path path) :
    Uses R (Cmd.Within fp) (M.query (.opendir path)) :=
  uses_query _ (by simpa [Query.paths] using h)

theorem uses_lstat64 {path : CString} (h : fp.path path) :
    Uses R (Cmd.Within fp) (M.query (.lstat64 path)) :=
  uses_query _ (by simpa [Query.paths] using h)

attribute [grind ←] uses_stat64 uses_opendir uses_lstat64

theorem uses_dateString (time : Int) : Uses R (Cmd.Within fp) (dateString time) := by
  unfold dateString
  grind

attribute [grind ←] uses_dateString

theorem uses_buildStorageinfoDataset (buffer : Buffer) (maxsize : Int) (storageId : Nat) :
    Uses R (Cmd.Within fp) (buildStorageinfoDataset buffer maxsize storageId) := by
  unfold buildStorageinfoDataset
  grind

theorem uses_statEntry (hc : Covers R fp p) : Uses R (Cmd.Within fp) (statEntry p) := by
  unfold statEntry
  grind

attribute [grind ←] uses_statEntry

theorem uses_buildObjectinfoDataset (hc : Covers R fp p) (buffer : Buffer)
    (maxsize : Int) : Uses R (Cmd.Within fp) (buildObjectinfoDataset buffer maxsize p) := by
  unfold buildObjectinfoDataset
  grind

theorem uses_getBatteryLevel : Uses R (Cmd.Within fp) getBatteryLevel := by
  unfold getBatteryLevel
  grind

attribute [grind ←] uses_getBatteryLevel

theorem uses_buildDevicePropertiesDataset (buffer : Buffer) (maxsize : Int) (propertyId : Nat) :
    Uses R (Cmd.Within fp) (buildDevicePropertiesDataset buffer maxsize propertyId) := by
  unfold buildDevicePropertiesDataset
  grind

theorem uses_buildDevicePropValueDataset (buffer : Buffer) (maxsize : Int) (propCode : Nat) :
    Uses R (Cmd.Within fp) (buildDevicePropValueDataset buffer maxsize propCode) := by
  unfold buildDevicePropValueDataset
  grind

theorem uses_buildObjectproplistDataset (hc : Covers R fp p)
    (buffer : Buffer) (maxsize : Int) (handle propCode : Nat) :
    Uses R (Cmd.Within fp) (buildObjectproplistDataset buffer maxsize p handle propCode) := by
  unfold buildObjectproplistDataset
  grind

attribute [grind ←] uses_buildStorageinfoDataset uses_buildObjectinfoDataset
  uses_buildDevicePropertiesDataset uses_buildDevicePropValueDataset
  uses_buildObjectproplistDataset

-- fs_handles_db.c

theorem uses_fsEntryStat {path : CString} (h : fp.path path) (fileinfo : FileFoundInfo) :
    Uses R (Cmd.Within fp) (fsEntryStat path fileinfo) := by
  unfold fsEntryStat
  grind

attribute [grind ←] uses_fsEntryStat

theorem uses_addEntry (fileinfo : FileFoundInfo) {parent storageId : Nat}
    (h : fp.allocates parent storageId) :
    Uses R (Cmd.Within fp) (addEntry fileinfo parent storageId) := by
  have halloc : ∀ mem, Uses R (Cmd.Within fp)
      (M.db (.allocEntry mem fileinfo parent storageId)) :=
    fun mem => ⟨h, fun _ _ => trivial⟩
  unfold addEntry
  grind

attribute [grind ←] uses_addEntry

theorem uses_addFolderEntries {base : CString} {parent storageId : Nat} (hb : fp.Below base)
    (h : fp.allocates parent storageId) (names : List CString) :
    Uses R (Cmd.Within fp) (addFolderEntries base parent storageId names) := by
  induction names with
  | nil => exact uses_pure _
  | cons name names ih =>
      have hpath : fp.path (base ++ SLASH :: name) := hb _
      unfold addFolderEntries
      refine uses_bind (uses_plain _ rfl) fun memory => ?_
      grind

theorem uses_flagDeleted {site : Site} (h : fp.flags site p) :
    Uses R (Cmd.Within fp) (M.flagDeleted site p) :=
  ⟨h, fun _ _ => trivial⟩

attribute [grind ←] uses_flagDeleted

theorem uses_refreshChild (hc : Covers R fp p)
    (hf : fp.flags .scanAndAddFolder p) : Uses R (Cmd.Within fp) (refreshChild p) := by
  unfold refreshChild
  grind

-- The entries the search comes to.
def ChildOf (R : (c : Cmd) → c.Ans → Prop) (p : EntryPtr) : Prop :=
  R (.db .getNextChildHandle) (some p)

theorem runs_nextChild_bind {Q : α → Prop} {f : Option EntryPtr → M α}
    (hf : ∀ next, R (.db .getNextChildHandle) next → Runs R (Cmd.Within fp) Q (f next)) :
    Runs R (Cmd.Within fp) Q (M.db .getNextChildHandle >>= f) :=
  ⟨trivial, hf⟩

theorem uses_refreshChildren (h : ∀ p, ChildOf R p → Covers R fp p ∧
    fp.flags .scanAndAddFolder p) (fuel : Nat) :
    Uses R (Cmd.Within fp) (refreshChildren fuel) := by
  induction fuel with
  | zero => exact uses_pure _
  | succ fuel ih =>
      unfold refreshChildren
      refine runs_nextChild_bind fun next hr => ?_
      split
      · rename_i p
        obtain ⟨hc, hf⟩ := h p hr
        exact uses_bind (uses_refreshChild hc hf) fun _ => ih
      · exact uses_pure _

theorem uses_childFuel : Uses R (Cmd.Within fp) childFuel := by
  unfold childFuel
  grind

theorem uses_initSearchHandle {parent storageId : Nat} (h : fp.searches parent storageId) :
    Uses R (Cmd.Within fp) (M.db_ (.initSearchHandle parent storageId)) :=
  uses_bind ⟨h, fun _ _ => trivial⟩ fun _ => uses_pure ()

attribute [grind ←] uses_addFolderEntries uses_refreshChildren uses_childFuel
  uses_initSearchHandle

theorem uses_scanAndAddFolder {base : CString} {parent storageId : Nat} (hb : fp.Below base)
    (ha : fp.allocates parent storageId) (hs : fp.searches parent storageId)
    (h : ∀ p, ChildOf R p → Covers R fp p ∧ fp.flags .scanAndAddFolder p) :
    Uses R (Cmd.Within fp) (scanAndAddFolder base parent storageId) := by
  unfold scanAndAddFolder
  refine uses_bind (uses_opendir hb.self) fun names => ?_
  grind

theorem uses_remove {storageId : Nat} {path : CString} (hp : fp.path path)
    (hs : fp.changes storageId) : Uses R (Cmd.Within fp) (M.act (.remove storageId path)) :=
  uses_act _ (by simpa [Action.paths] using hp) (by simpa [Action.changes] using hs)

attribute [grind ←] uses_scanAndAddFolder uses_remove

theorem uses_removeNames {removeTree : CString → M Bool} {storageId : Nat} {folder : CString}
    (hs : fp.changes storageId) (hf : fp.Below folder)
    (ht : ∀ path, fp.Below path → Uses R (Cmd.Within fp) (removeTree path))
    (names : List CString) :
    Uses R (Cmd.Within fp) (removeNames removeTree storageId folder names) := by
  induction names with
  | nil => exact uses_pure _
  | cons name names ih =>
      have hbelow : fp.Below (folder ++ SLASH :: name) := hf.append _
      have htree := ht _ hbelow
      unfold removeNames
      refine uses_bind (uses_plain _ rfl) fun memory => ?_
      split
      · refine uses_bind (uses_lstat64 hbelow.self) fun stat => ?_
        grind
      · grind

theorem uses_fsRemoveTree {storageId : Nat} (hs : fp.changes storageId) (fuel : Nat)
    {folder : CString} (hf : fp.Below folder) :
    Uses R (Cmd.Within fp) (fsRemoveTree storageId fuel folder) := by
  induction fuel generalizing folder with
  | zero => exact uses_pure _
  | succ fuel ih =>
      have hnames := uses_removeNames hs hf (fun _ hp => ih hp)
      unfold fsRemoveTree
      grind

-- What the removal of an entry with everything under it needs.
structure Removable (R : (c : Cmd) → c.Ans → Prop) (fp : Footprint) (p : EntryPtr) : Prop where
  covers : Covers R fp p
  owns : Owns R fp p
  flags : fp.flags .deleteDbTree p ∧ fp.flags .deleteTree p
  searches : ∀ ctx, R .getCtx ctx → fp.searches (ctx.entry p).handle (ctx.entry p).storageId

theorem uses_removeChild (h : Removable R fp p) (isDir : Bool) :
    Uses R (Cmd.Within fp) (removeChild p isDir) := by
  unfold removeChild
  refine uses_getCtx_bind fun ctx hr => ?_
  have howns := h.owns ctx hr
  have hflag := uses_flagDeleted (R := R) h.flags.1
  refine uses_entryPath_bind h.covers fun found hfound => ?_
  split
  · rename_i path
    have htree := uses_fsRemoveTree (R := R) howns PATH_MAX hfound
    have hpath : fp.path path := Footprint.Below.self hfound
    grind
  · grind

theorem uses_deleteChildren {deleteSubTree : EntryPtr → M Nat}
    (h : ∀ p, ChildOf R p → Removable R fp p)
    (ht : ∀ p, Removable R fp p → Uses R (Cmd.Within fp) (deleteSubTree p)) (fuel fcnt : Nat) :
    Uses R (Cmd.Within fp) (deleteChildren deleteSubTree fuel fcnt) := by
  induction fuel generalizing fcnt with
  | zero => exact uses_pure _
  | succ fuel ih =>
      unfold deleteChildren
      refine runs_nextChild_bind fun next hr => ?_
      split
      · rename_i p
        have hp := h p hr
        have hsub := ht p hp
        have hdir := uses_removeChild hp true
        have hfile := uses_removeChild hp false
        refine uses_getCtx_bind fun ctx _ => ?_
        grind
      · exact uses_pure _

theorem uses_deleteDbTree (h : ∀ p, ChildOf R p → Removable R fp p) (levels : Nat)
    {p : EntryPtr} (hp : Removable R fp p) : Uses R (Cmd.Within fp) (deleteDbTree levels p) := by
  induction levels generalizing p with
  | zero =>
      unfold deleteDbTree
      refine uses_getCtx_bind fun ctx hr => ?_
      refine uses_bind (uses_initSearchHandle (hp.searches ctx hr)) fun _ => ?_
      refine uses_bind uses_childFuel fun fuel => ?_
      exact uses_deleteChildren h (fun _ _ => uses_pure _) _ _
  | succ levels ih =>
      unfold deleteDbTree
      refine uses_getCtx_bind fun ctx hr => ?_
      refine uses_bind (uses_initSearchHandle (hp.searches ctx hr)) fun _ => ?_
      refine uses_bind uses_childFuel fun fuel => ?_
      exact uses_deleteChildren h (fun _ hq => ih hq) _ _

-- mtp_ops_helpers.c

-- Writes to the buffers and the fields of the context that no lookup reads.
def Cmd.isBuffer : Cmd → Bool
  | setSendObjInfo _ _ _ | setObjectPropValue _ _ | setWrbuffer _ | setRdbuffer _ | setRdbuffer2 _
  | setReadFileBuffer _ | setInotifyFileInfo _ | setTransferringFileData _ => true
  | _ => false

theorem uses_buffer (c : Cmd) (hc : c.isBuffer = true) : Uses R (Cmd.Within fp) (M.cmd c) := by
  refine ⟨?_, fun _ _ => trivial⟩
  cases c <;> simp_all [Cmd.isBuffer, Cmd.Within]

example : (Cmd.setWrbuffer fun _ => 0).isBuffer = true ∧ (Cmd.act .malloc).isBuffer = false := by
  decide +kernel

attribute [grind =] Cmd.isBuffer
attribute [grind ←] uses_buffer

theorem uses_loadPage (position : Int) : Uses R (Cmd.Within fp) (loadPage p position) := by
  unfold loadPage
  grind

attribute [grind ←] uses_loadPage

theorem uses_fetchBlock (position bufIndex : Int) (ofs : Nat) (blocksize : Int) :
    Uses R (Cmd.Within fp) (fetchBlock p position bufIndex ofs blocksize) := by
  unfold fetchBlock
  refine uses_getCtx_bind fun ctx _ => ?_
  grind

theorem uses_sendBlocks (offset actualsize : Int) (fuel : Nat)
    (j bufIndex : Int) (ofs : Nat) :
    Uses R (Cmd.Within fp) (sendBlocks p offset actualsize fuel j bufIndex ofs) := by
  induction fuel generalizing j bufIndex ofs with
  | zero => exact uses_pure _
  | succ fuel ih =>
      unfold sendBlocks
      refine uses_getCtx_bind fun ctx _ => ?_
      refine uses_bind (uses_fetchBlock _ _ _ _) fun fetched => ?_
      split
      · refine uses_bind (uses_plain _ rfl) fun cancelReq => ?_
        grind
      · grind

theorem uses_endTransfer (actualsize : Int) : Uses R (Cmd.Within fp) (endTransfer actualsize) := by
  unfold endTransfer
  grind

theorem uses_allocReadFileBuffer : Uses R (Cmd.Within fp) allocReadFileBuffer := by
  unfold allocReadFileBuffer
  grind

attribute [grind ←] uses_fetchBlock uses_sendBlocks uses_endTransfer uses_allocReadFileBuffer

theorem uses_sendFileData (hc : Covers R fp p) (offset maxsize : Int) :
    Uses R (Cmd.Within fp) (sendFileData p offset maxsize) := by
  unfold sendFileData
  refine uses_bind uses_allocReadFileBuffer fun memory => ?_
  split
  · refine uses_getCtx_bind fun ctx _ => ?_
    refine uses_bind (uses_buffer _ rfl) fun _ => ?_
    refine uses_bind (uses_entryOpen hc (Or.inl rfl)) fun file => ?_
    grind
  · exact uses_pure _

-- mtp_op_sendobject.c

theorem uses_writePayload (ho : Owns R fp p) (file : Int) (bytes : List UInt8) :
    Uses R (Cmd.Within fp) (writePayload p file bytes) := by
  unfold writePayload
  refine uses_getCtx_bind fun ctx hr => ?_
  refine uses_bind (uses_act _ (by simp [Action.paths]) ?_) fun written => ?_
  · simpa [Action.changes] using ho ctx hr
  · exact uses_buffer _ rfl

attribute [grind ←] uses_sendFileData uses_writePayload

theorem uses_receiveBlocks (ho : Owns R fp p) (file : Int) (fuel : Nat) (sz : Int) :
    Uses R (Cmd.Within fp) (receiveBlocks p file fuel sz) := by
  induction fuel generalizing sz with
  | zero => exact uses_pure _
  | succ fuel ih =>
      unfold receiveBlocks
      refine uses_getCtx_bind fun ctx _ => ?_
      split
      · refine uses_bind (uses_plain _ rfl) fun cancelReq => ?_
        grind
      · exact uses_pure _

theorem uses_endReceive (isPartial : Bool) (file : Int) :
    Uses R (Cmd.Within fp) (endReceive isPartial p file) := by
  unfold endReceive
  refine uses_bind (uses_plain _ rfl) fun fileSize => ?_
  refine uses_bind (uses_setSize p fileSize) fun _ => ?_
  refine uses_bind (uses_buffer _ rfl) fun _ => ?_
  grind

theorem uses_receiveObject (ho : Owns R fp p) (hdr : Buffer) (size : Nat)
    (isPartial : Bool) (file : Int) :
    Uses R (Cmd.Within fp) (receiveObject hdr size isPartial p file) := by
  have hreceive := fun fuel sz => uses_receiveBlocks (R := R) ho file fuel sz
  have hpayload := fun bytes => uses_writePayload (R := R) ho file bytes
  have hend := @uses_endReceive R fp p isPartial file
  unfold receiveObject
  refine uses_bind (uses_buffer _ rfl) fun _ => ?_
  refine uses_getCtx_bind fun ctx _ => ?_
  refine uses_bind (uses_plain _ rfl) fun _ => ?_
  grind

attribute [grind ←] uses_receiveObject

-- mtp.c

-- What a new object in a folder needs.
structure Addable (R : (c : Cmd) → c.Ans → Prop) (fp : Footprint) (folder : EntryPtr)
    (parentHandle storageId : Nat) : Prop where
  covers : Covers R fp folder
  owns : Owns R fp folder
  changes : fp.changes storageId
  allocates : fp.allocates parentHandle storageId

theorem runs_newObjectPath (hc : Covers R fp p) (name : CString) :
    Runs R (Cmd.Within fp) fp.Holds (newObjectPath p name) := by
  unfold newObjectPath
  refine runs_bind (runs_entryPath hc) fun found hfound => ?_
  split
  · refine runs_bind (uses_plain _ rfl) fun memory _ => ?_
    split
    · exact Footprint.Below.append hfound _
    · simp
  · simp

theorem uses_mkdir {storageId : Nat} {path : CString} (hp : fp.path path)
    (hs : fp.changes storageId) : Uses R (Cmd.Within fp) (M.act (.mkdir storageId path)) :=
  uses_act _ (by simpa [Action.paths] using hp) (by simpa [Action.changes] using hs)

attribute [grind ←] uses_mkdir

theorem uses_createFolder {parentHandle storageId : Nat}
    (h : Addable R fp p parentHandle storageId) (name : CString) :
    Uses R (Cmd.Within fp) (createFolder p name parentHandle storageId) := by
  have hadd := fun fileinfo => uses_addEntry (R := R) fileinfo h.allocates
  have hregister : ∀ made, Uses R (Cmd.Within fp)
      (registerFolder name parentHandle storageId made) := by
    intro made
    unfold registerFolder
    grind
  unfold createFolder
  refine uses_getCtx_bind fun ctx hr => ?_
  have howns := h.owns ctx hr
  refine uses_bind_of (runs_newObjectPath h.covers name) fun found hfound => ?_
  split
  · rename_i path
    have hpath : fp.path path := Footprint.Below.self hfound
    refine uses_bind (uses_setStorageGiduid _) fun set => ?_
    split <;> grind
  · exact uses_pure _

theorem uses_expectObject (entry : Option EntryPtr) (objectsize : Nat) :
    Uses R (Cmd.Within fp) (expectObject entry objectsize) := by
  unfold expectObject
  grind

attribute [grind ←] uses_expectObject

theorem uses_createFile {parentHandle storageId : Nat}
    (h : Addable R fp p parentHandle storageId) (name : CString) (objectsize : Nat) :
    Uses R (Cmd.Within fp) (createFile p name objectsize parentHandle storageId) := by
  have hadd := fun fileinfo => uses_addEntry (R := R) fileinfo h.allocates
  have hchanges := h.changes
  unfold createFile
  refine uses_bind_of (runs_newObjectPath h.covers name) fun found hfound => ?_
  split
  · rename_i path
    refine uses_bind (uses_setStorageGiduid _) fun set => ?_
    split <;> grind
  · grind

-- mtp_properties.c

theorem uses_getObjectPropFilename (hdr : Buffer) :
    Uses R (Cmd.Within fp) (getObjectPropFilename hdr) := by
  unfold getObjectPropFilename
  grind

theorem uses_rename {storageId : Nat} {path path2 : CString} (hp : fp.path path)
    (hp2 : fp.path path2) (hs : fp.changes storageId) :
    Uses R (Cmd.Within fp) (M.act (.rename storageId path path2)) := by
  refine uses_act _ ?_ (by simpa [Action.changes] using hs)
  simp [Action.paths, hp, hp2]

theorem uses_renameObject (hc : Covers R fp p) (ho : Owns R fp p) (hn : fp.renames p)
    (hdr : Buffer) : Uses R (Cmd.Within fp) (renameObject hdr p) := by
  have hentry : ∀ mem name, Uses R (Cmd.Within fp) (M.db_ (.renameEntry mem p name)) :=
    fun mem name => uses_bind ⟨hn, fun _ _ => trivial⟩ fun _ => uses_pure ()
  unfold renameObject
  refine uses_getCtx_bind fun ctx hr => ?_
  have howns := ho ctx hr
  have hroot := hc ctx hr
  refine uses_bind_of (runs_buildFullPath hroot) fun found hfound => ?_
  split
  · rename_i path
    refine uses_bind (uses_getObjectPropFilename hdr) fun filename => ?_
    split
    · refine uses_bind_of (runs_buildFullPathNamed hroot) fun found2 hfound2 => ?_
      split
      · rename_i path2
        have hrename := uses_rename (R := R) (Footprint.Below.self hfound)
          (Footprint.Below.self hfound2) howns
        refine uses_bind (uses_setStorageGiduid _) fun set => ?_
        split <;> grind
      · exact uses_pure _
    · exact uses_pure _
  · exact uses_pure _

-- The operations

theorem uses_inSession {op : M Response} (h : Uses R (Cmd.Within fp) op) :
    Uses R (Cmd.Within fp) (inSession op) := by
  unfold inSession
  grind

theorem uses_underMutex {op : M Response} (h : Uses R (Cmd.Within fp) op) :
    Uses R (Cmd.Within fp) (underMutex op) := by
  unfold underMutex
  grind

theorem uses_startData (hdr : Buffer) : Uses R (Cmd.Within fp) (startData hdr) := by
  unfold startData
  grind

theorem uses_sendData (sz : Int) : Uses R (Cmd.Within fp) (sendData sz) := by
  unfold sendData
  grind

attribute [grind ←] uses_startData uses_sendData

theorem uses_sendDataset (hdr : Buffer) (emptyResponse : Option Nat)
    {build : Buffer → Int → M Poked}
    (h : ∀ buffer maxsize, Uses R (Cmd.Within fp) (build buffer maxsize)) :
    Uses R (Cmd.Within fp) (sendDataset hdr emptyResponse build) := by
  unfold sendDataset
  refine uses_bind (uses_startData hdr) fun started => ?_
  split
  · refine uses_getCtx_bind fun ctx _ => ?_
    refine uses_bind (h _ _) fun out => ?_
    refine uses_getCtx_bind fun ctx _ => ?_
    grind
  · exact uses_pure _

attribute [grind ←] uses_inSession uses_underMutex uses_sendDataset

theorem uses_mtpOpGetDeviceInfos (hdr : Buffer) :
    Uses R (Cmd.Within fp) (mtpOpGetDeviceInfos hdr) := by
  unfold mtpOpGetDeviceInfos
  grind

theorem uses_mtpOpGetStorageIDs (hdr : Buffer) :
    Uses R (Cmd.Within fp) (mtpOpGetStorageIDs hdr) := by
  unfold mtpOpGetStorageIDs
  grind

theorem uses_mtpOpGetStorageInfo (hdr : Buffer) :
    Uses R (Cmd.Within fp) (mtpOpGetStorageInfo hdr) := by
  unfold mtpOpGetStorageInfo
  grind

theorem uses_mtpOpGetDevicePropDesc (hdr : Buffer) :
    Uses R (Cmd.Within fp) (mtpOpGetDevicePropDesc hdr) := by
  unfold mtpOpGetDevicePropDesc
  grind

theorem uses_mtpOpGetDevicePropValue (hdr : Buffer) :
    Uses R (Cmd.Within fp) (mtpOpGetDevicePropValue hdr) := by
  unfold mtpOpGetDevicePropValue
  grind

theorem uses_mtpOpGetObjectPropsSupported (hdr : Buffer) :
    Uses R (Cmd.Within fp) (mtpOpGetObjectPropsSupported hdr) := by
  unfold mtpOpGetObjectPropsSupported
  grind

theorem uses_mtpOpGetObjectPropDesc (hdr : Buffer) :
    Uses R (Cmd.Within fp) (mtpOpGetObjectPropDesc hdr) := by
  unfold mtpOpGetObjectPropDesc
  grind

-- The handles of a folder

theorem uses_countChildren (fuel count : Nat) :
    Uses R (Cmd.Within fp) (countChildren fuel count) := by
  induction fuel generalizing count with
  | zero => exact uses_pure _
  | succ fuel ih =>
      unfold countChildren
      refine runs_nextChild_bind fun next _ => ?_
      split
      · exact ih _
      · exact uses_pure _

theorem uses_pokeHandles (nbOfHandles fuel : Nat) (ofs : Int) (handleIndex : Nat) :
    Uses R (Cmd.Within fp) (pokeHandles nbOfHandles fuel ofs handleIndex) := by
  induction fuel generalizing ofs handleIndex with
  | zero => exact uses_pure _
  | succ fuel ih =>
      unfold pokeHandles
      refine runs_nextChild_bind fun next _ => ?_
      refine uses_getCtx_bind fun ctx _ => ?_
      cases next <;> grind

theorem uses_sendHandles (nbOfHandles fuel : Nat) (ofs : Int) (handleIndex : Nat) :
    Uses R (Cmd.Within fp) (sendHandles nbOfHandles fuel ofs handleIndex) := by
  induction fuel generalizing ofs handleIndex with
  | zero => exact uses_pure _
  | succ fuel ih =>
      unfold sendHandles
      refine uses_bind (uses_pokeHandles _ _ _ _) fun poked => ?_
      grind

theorem uses_sendHandleArray (nbOfHandles : Nat) :
    Uses R (Cmd.Within fp) (sendHandleArray nbOfHandles) := by
  have hsend := fun fuel ofs => @uses_sendHandles R fp nbOfHandles fuel ofs 0
  unfold sendHandleArray
  grind

theorem uses_watchFolder {entry : Option EntryPtr} {fullPath : CString} (hb : fp.Below fullPath)
    (hw : ∀ ctx, R .getCtx ctx → ∀ p, entry = some p → (ctx.entry p).isDir = true →
      fp.watches p) : Uses R (Cmd.Within fp) (watchFolder entry fullPath) := by
  have hwatch := uses_addwatch (R := R) hb
  unfold watchFolder
  split
  · rename_i p
    refine uses_getCtx_bind fun ctx hr => ?_
    have hdir := hw ctx hr p rfl
    grind
  · exact uses_pure _

end Umtp
