import Umtp.Reachable
import Umtp.Effects.Made

namespace Umtp

open Lib Lib.Prog Handles

variable {role : Role} {α β : Type} {p : EntryPtr}

-- The end of a transfer of a file's data.
structure Role.Ends (role : Role) : Prop where
  closes : role.closes
  transferring : ∀ b, role.commands (.setTransferringFileData b)
  getCancelReq : role.commands (.act .getCancelReq)
  clearCancelReq : role.commands (.act .clearCancelReq)

-- The transfer as a whole, under the cancel flag.
structure Role.Transfers (role : Role) : Prop extends role.Ends where
  opens : role.opens
  lock : role.commands (.act .lockCancelMutex)
  unlock : role.commands (.act .unlockCancelMutex)

theorem made_loadPage (p : EntryPtr) (position : Int) : Made role (loadPage p position) := by
  unfold loadPage
  refine made_getCtx (fun _ _ _ => rfl) fun ctx => made_bind (made_entryRead _ _ _) fun read => ?_
  split
  · refine made_getCtx (fun _ _ _ => rfl) fun ctx => ?_
    grind
  · exact made_pure _

attribute [grind ←] made_loadPage

theorem made_fetchBlock (p : EntryPtr) (position bufIndex : Int) (ofs : Nat) (blocksize : Int) :
    Made role (fetchBlock p position bufIndex ofs blocksize) := by
  unfold fetchBlock
  refine made_getCtx (fun _ _ _ => rfl) fun ctx => ?_
  dsimp only
  split
  all_goals
    refine made_bind (by grind) fun loaded => ?_
    split
    · refine made_getCtx (fun _ _ _ => rfl) fun ctx' => ?_
      split
      · grind
      · refine made_bind (made_cmd _ (Or.inl rfl)) fun _ =>
          made_bind (made_loadPage _ _) fun more => ?_
        split
        · refine made_getCtx (fun _ _ _ => rfl) fun ctx'' => ?_
          grind
        · exact made_pure _
    · exact made_pure _

theorem made_sendBlocks (h : role.Transfers) (p : EntryPtr) (offset actualsize : Int) (fuel : Nat)
    (j bufIndex : Int) (ofs : Nat) :
    Made role (sendBlocks p offset actualsize fuel j bufIndex ofs) := by
  induction fuel generalizing j bufIndex ofs with
  | zero => exact made_pure _
  | succ fuel ih =>
      have hcancel := made_act _ (Or.inr h.getCancelReq)
      have hclose := h.closes
      unfold sendBlocks
      refine made_getCtx (fun _ _ _ => rfl) fun ctx =>
        made_bind (made_fetchBlock _ _ _ _ _) fun block => ?_
      split
      · grind
      · grind

theorem made_endTransfer (h : role.Transfers) (actualsize : Int) :
    Made role (endTransfer actualsize) := by
  have hget := h.getCancelReq
  have hclear := h.clearCancelReq
  have hlock := h.lock
  have hunlock := h.unlock
  unfold endTransfer
  grind

theorem made_allocReadFileBuffer : Made role allocReadFileBuffer := by
  unfold allocReadFileBuffer
  refine made_getCtx (fun _ _ _ => rfl) fun ctx => ?_
  grind

attribute [grind ←] made_sendBlocks made_endTransfer made_allocReadFileBuffer

theorem made_sendFileData (h : role.Transfers) (p : EntryPtr) (offset maxsize : Int) :
    Made role (sendFileData p offset maxsize) := by
  have hset := h.transferring
  have hopen := h.opens
  have hclose := h.closes
  unfold sendFileData
  refine made_bind made_allocReadFileBuffer fun memory => ?_
  split
  · refine made_getCtx (fun _ _ _ => rfl) fun ctx => ?_
    grind
  · exact made_pure _

-- What writes the payload that comes in to an open file.
structure Role.Writes (role : Role) (file : Int) : Prop where
  getCancelReq : role.commands (.act .getCancelReq)
  receives : role.receives
  write : ∀ storageId bytes, role.commands (.act (.write storageId file bytes))
  readUsb : ∀ maxsize, role.commands (.act (.readUsb maxsize))
  latch : ∀ handle size offset, role.commands (.setSendObjInfo handle size offset)

theorem made_writePayload {file : Int} (h : role.Writes file) (p : EntryPtr)
    (bytes : List UInt8) : Made role (writePayload p file bytes) := by
  have hwrite := h.write
  have hlatch := h.latch
  unfold writePayload
  refine made_getCtx (fun _ _ _ => rfl) fun ctx => ?_
  grind

theorem made_receiveBlocks {file : Int} (h : role.Writes file) (p : EntryPtr) (fuel : Nat)
    (sz : Int) : Made role (receiveBlocks p file fuel sz) := by
  induction fuel generalizing sz with
  | zero => exact made_pure _
  | succ fuel ih =>
      unfold receiveBlocks
      refine made_getCtx ?_ fun ctx => ?_
      · intro ctx buffer buffer2
        beta_reduce
        rw [MtpCtx.usbRdBufferMaxSize_withBuffers]
        congr! 6 with _ _ _ _ read
        cases read <;> rfl
      split
      · refine made_bind (made_act _ (Or.inr h.getCancelReq)) fun cancelReq => ?_
        split
        · exact made_pure _
        · refine made_bind (made_act _ (Or.inr (h.readUsb _))) fun read => ?_
          split
          · rename_i bytes
            have hstore : Made role (M.getCtx >>= fun ctx =>
                M.cmd (.setRdbuffer2 (ctx.rdbuffer2.write 0 bytes))) :=
              .receive h.receives bytes
            show Made role ((M.getCtx >>= fun ctx =>
              M.cmd (.setRdbuffer2 (ctx.rdbuffer2.write 0 bytes))) >>= fun _ => do
                writePayload p file bytes
                receiveBlocks p file fuel bytes.length)
            exact made_bind hstore fun _ => made_bind (made_writePayload h _ _) fun _ => ih _
          · exact made_pure _
      · exact made_pure _

-- The data phase of SendObject and SendPartialObject.
structure Role.Receives (role : Role) : Prop extends role.Transfers where
  receives : role.receives
  write : ∀ storageId file bytes, role.commands (.act (.write storageId file bytes))
  readUsb : ∀ maxsize, role.commands (.act (.readUsb maxsize))
  latch : ∀ handle size offset, role.commands (.setSendObjInfo handle size offset)

theorem Role.Receives.writes (h : role.Receives) (file : Int) : role.Writes file :=
  ⟨h.getCancelReq, h.receives, fun storageId bytes => h.write storageId file bytes, h.readUsb,
    h.latch⟩

theorem made_endReceive (h : role.Ends) (isPartial : Bool) (p : EntryPtr) (file : Int) :
    Made role (endReceive isPartial p file) := by
  have hset := h.transferring false
  have hclose := h.closes
  have hget := h.getCancelReq
  have hclear := h.clearCancelReq
  unfold endReceive
  grind

theorem made_receiveObject (h : role.Receives) (hdr : Buffer) (size : Nat) (isPartial : Bool)
    (p : EntryPtr) (file : Int) : Made role (receiveObject hdr size isPartial p file) := by
  have hend : ∀ next : Int, Made role (do
      let backlog ← M.query .usbBacklog
      receiveBlocks p file (backlog + 1) next
      endReceive isPartial p file) := fun next =>
    made_bind (made_query _) fun _ => made_bind (made_receiveBlocks (h.writes file) _ _ _) fun _ =>
      made_endReceive h.toEnds _ _ _
  unfold receiveObject
  refine made_bind (made_cmd _ (Or.inr (h.transferring true))) fun _ =>
    made_getCtx (fun _ _ _ => rfl) fun ctx => made_bind (made_act _ (Or.inl rfl)) fun _ => ?_
  dsimp only
  split
  · exact made_bind (made_writePayload (h.writes file) _ _) fun _ =>
      made_getCtx (fun _ _ _ => rfl) fun ctx' => hend _
  · exact made_getCtx (fun _ _ _ => rfl) fun ctx' => hend _

-- mtp.c and mtp_properties.c

theorem made_newObjectPath (folder : EntryPtr) (name : CString) :
    Made role (newObjectPath folder name) := by
  unfold newObjectPath
  grind

attribute [grind ←] made_newObjectPath

-- What makes a new folder or file.
structure Role.Creates (role : Role) : Prop where
  adds : role.adds
  switches : role.switches
  makes : role.makes
  mkdir : ∀ storageId path, role.inner storageId (.act (.mkdir storageId path))
  latch : ∀ handle size offset, role.commands (.setSendObjInfo handle size offset)

theorem made_createFolder (h : role.Creates) (folder : EntryPtr) (name : CString)
    (parentHandle storageId : Nat) :
    Made role (createFolder folder name parentHandle storageId) := by
  have hnext : ∀ made : Bool, Made role (registerFolder name parentHandle storageId made) := by
    intro made
    unfold registerFolder
    split
    · refine made_bind (.addEntry h.adds _ _ _) fun new => ?_
      split
      · exact made_getCtx (fun _ _ _ => rfl) fun ctx => made_pure _
      · exact made_pure _
    · exact made_pure _
  unfold createFolder
  refine made_getCtx (fun _ _ _ => rfl) fun ctx =>
    made_bind (made_newObjectPath _ _) fun found => ?_
  split
  · exact made_bracket_bind h.switches (made_act _ (Or.inr (Or.inr (h.mkdir _ _)))) hnext
  · exact made_pure _

theorem made_expectObject (h : role.Creates) (entry : Option EntryPtr) (objectsize : Nat) :
    Made role (expectObject entry objectsize) := by
  have hlatch := h.latch
  unfold expectObject
  split
  · refine made_getCtx (fun _ _ _ => rfl) fun ctx => ?_
    grind
  · grind

-- `createFile` with the making of the file as one part.
theorem createFile_eq (folder : EntryPtr) (name : CString)
    (objectsize parentHandle storageId : Nat) :
    createFile folder name objectsize parentHandle storageId = (do
      match ← newObjectPath folder name with
      | some tmpPath =>
        if ← makeFile storageId tmpPath then
          let entry ← addEntry ⟨false, name, objectsize⟩ parentHandle storageId
          expectObject entry objectsize
        else
          return (MTP_RESPONSE_ACCESS_DENIED, NO_HANDLE)
      | none => expectObject none objectsize) := by
  unfold createFile makeFile withStorageIds
  refine congrArg (newObjectPath folder name).bind (funext fun found => ?_)
  cases found with
  | none => rfl
  | some tmpPath =>
      simp only [bind_eq, Prog.bind_assoc]
      refine congrArg (setStorageGiduid storageId).bind (funext fun set => ?_)
      cases set with
      | false => simp [Prog.bind_assoc]
      | true =>
          simp only [if_true, Prog.bind_assoc]
          refine congrArg (Prog.bind _) (funext fun file => ?_)
          refine congrArg restoreGiduid.bind (funext fun _ => ?_)
          by_cases hfile : file = -1 <;> simp [hfile, Prog.bind_assoc]

theorem made_createFile (h : role.Creates) (folder : EntryPtr) (name : CString)
    (objectsize parentHandle storageId : Nat) :
    Made role (createFile folder name objectsize parentHandle storageId) := by
  rw [createFile_eq]
  refine made_bind (made_newObjectPath _ _) fun found => ?_
  split
  · refine made_bind (.makeFile h.makes _ _) fun made => ?_
    split
    · exact made_bind (.addEntry h.adds _ _ _) fun entry => made_expectObject h _ _
    · exact made_pure _
  · exact made_expectObject h _ _

theorem made_parseIncomingDataset (h : role.Creates) (datain : Buffer)
    (parentHandle storageId : Nat) :
    Made role (parseIncomingDataset datain parentHandle storageId) := by
  have hfolder := made_createFolder h
  have hfile := made_createFile h
  unfold parseIncomingDataset
  refine made_getCtx (fun _ _ _ => rfl) fun ctx => ?_
  grind

theorem made_getObjectPropFilename (hdr : Buffer) :
    Made role (getObjectPropFilename hdr) := by
  unfold getObjectPropFilename
  grind

structure Role.Renames (role : Role) : Prop where
  switches : role.switches
  rename : ∀ storageId path path2, role.inner storageId (.act (.rename storageId path path2))
  renameEntry : ∀ mem p name, role.commands (.db (.renameEntry mem p name))
  latchProp : ∀ handle propCode, role.commands (.setObjectPropValue handle propCode)

theorem made_renameObject (h : role.Renames) (hdr : Buffer) (p : EntryPtr) :
    Made role (renameObject hdr p) := by
  have hnext : ∀ (newFilename : CString) (renamed : Bool), Made role (do
      if renamed then
        let mem ← M.act .entryMemory
        M.db_ (.renameEntry mem p newFilename)
        return MTP_RESPONSE_OK
      else
        return MTP_RESPONSE_GENERAL_ERROR) := by
    intro newFilename renamed
    have hrename := h.renameEntry
    grind
  unfold renameObject
  refine made_getCtx (fun _ _ _ => rfl) fun ctx => ?_
  dsimp only
  refine made_bind (made_getCtx (fun _ _ _ => rfl) fun _ => made_buildFullPathNamed _ _ _)
    fun path => ?_
  split
  · refine made_bind (made_getObjectPropFilename hdr) fun name => ?_
    split
    · refine made_bind (made_buildFullPathNamed _ _ _) fun path2 => ?_
      split
      · exact made_bracket_bind h.switches (made_act _ (Or.inr (Or.inr (h.rename _ _ _))))
          (hnext _)
      · exact made_pure _
    · exact made_pure _
  · exact made_pure _

theorem made_setObjectPropValue (h : role.Renames) (hdr : Buffer) (handle propCode : Nat) :
    Made role (setObjectPropValue hdr handle propCode) := by
  unfold setObjectPropValue
  split
  · exact made_pure _
  · split
    · refine made_getCtx (fun _ _ _ => rfl) fun ctx => ?_
      split
      · split
        · exact made_pure _
        · exact made_renameObject h _ _
      · exact made_pure _
    · exact made_pure _

-- mtp_operations

theorem made_inSession {op : M Response} (h : Made role op) : Made role (inSession op) := by
  unfold inSession
  refine made_getCtx (fun _ _ _ => rfl) fun ctx => ?_
  grind

theorem made_underMutex {op : M Response} (h : Made role op) : Made role (underMutex op) := by
  unfold underMutex
  grind

theorem made_startData (hdr : Buffer) : Made role (startData hdr) := by
  unfold startData
  refine made_getCtx (fun _ _ _ => rfl) fun ctx => ?_
  grind

theorem made_sendData (sz : Int) : Made role (sendData sz) := by
  unfold sendData
  refine made_getCtx (fun _ _ _ => rfl) fun ctx => ?_
  grind

attribute [grind ←] made_inSession made_underMutex made_startData made_sendData

theorem made_sendDataset (hdr : Buffer) (emptyResponse : Option Nat)
    {build : Buffer → Int → M Poked} (h : ∀ buffer maxsize, Made role (build buffer maxsize)) :
    Made role (sendDataset hdr emptyResponse build) := by
  unfold sendDataset
  refine made_bind (made_startData hdr) fun started => ?_
  split
  · refine made_getCtx (fun _ _ _ => rfl) fun ctx => made_bind (h _ _) fun out =>
      made_getCtx (fun _ _ _ => rfl) fun ctx' => ?_
    grind
  · exact made_pure _

theorem made_aboutEntry (hdr : Buffer) {op : EntryPtr → M Response}
    (h : ∀ p, Made role (op p)) : Made role (aboutEntry hdr op) := by
  unfold aboutEntry
  refine made_inSession (made_underMutex (made_getCtx (fun _ _ _ => rfl) fun ctx => ?_))
  grind

theorem made_mtpOpGetDeviceInfos (hdr : Buffer) : Made role (mtpOpGetDeviceInfos hdr) :=
  made_sendDataset hdr none fun _ _ => made_getCtx (fun _ _ _ => rfl) fun _ => made_pure _

theorem made_mtpOpGetStorageIDs (hdr : Buffer) : Made role (mtpOpGetStorageIDs hdr) :=
  made_inSession (made_sendDataset hdr none fun _ _ =>
    made_getCtx (fun _ _ _ => rfl) fun _ => made_pure _)

theorem made_mtpOpGetStorageInfo (hdr : Buffer) : Made role (mtpOpGetStorageInfo hdr) := by
  refine made_inSession (made_getCtx (fun _ _ _ => rfl) fun ctx => ?_)
  split
  · exact made_sendDataset hdr none fun _ _ => made_buildStorageinfoDataset _ _ _
  · exact made_pure _

theorem made_mtpOpGetDevicePropDesc (hdr : Buffer) : Made role (mtpOpGetDevicePropDesc hdr) := by
  have hsend := @made_sendDataset role hdr (some MTP_RESPONSE_OPERATION_NOT_SUPPORTED) _
    fun buffer maxsize => made_buildDevicePropertiesDataset buffer maxsize (param hdr 0)
  refine made_inSession ?_
  grind

theorem made_mtpOpGetDevicePropValue (hdr : Buffer) : Made role (mtpOpGetDevicePropValue hdr) :=
  made_inSession (made_underMutex (made_sendDataset hdr _ fun _ _ =>
    made_buildDevicePropValueDataset _ _ _))

theorem made_mtpOpGetObjectPropsSupported (hdr : Buffer) :
    Made role (mtpOpGetObjectPropsSupported hdr) :=
  made_inSession (made_sendDataset hdr _ fun _ _ => made_pure _)

theorem made_mtpOpGetObjectPropDesc (hdr : Buffer) : Made role (mtpOpGetObjectPropDesc hdr) :=
  made_inSession (made_underMutex (made_sendDataset hdr _ fun _ _ => made_pure _))

theorem made_mtpOpGetObjectInfo (hdr : Buffer) : Made role (mtpOpGetObjectInfo hdr) :=
  made_aboutEntry hdr fun p => made_sendDataset hdr _ fun _ _ => made_buildObjectinfoDataset _ _ p

theorem made_mtpOpGetObjectPropValue (hdr : Buffer) : Made role (mtpOpGetObjectPropValue hdr) :=
  made_aboutEntry hdr fun _ => made_sendDataset hdr _ fun _ _ =>
    made_getCtx (fun _ _ _ => rfl) fun _ => made_pure _

theorem made_mtpOpGetObjectReferences (hdr : Buffer) : Made role (mtpOpGetObjectReferences hdr) :=
  made_aboutEntry hdr fun _ => made_sendDataset hdr _ fun _ _ => made_pure _

theorem made_mtpOpGetObjectPropList (hdr : Buffer) : Made role (mtpOpGetObjectPropList hdr) := by
  refine made_inSession (made_underMutex (made_getCtx (fun _ _ _ => rfl) fun ctx => ?_))
  split
  · exact made_pure _
  · split
    · exact made_sendDataset hdr _ fun _ _ => made_buildObjectproplistDataset _ _ _ _ _
    · exact made_pure _

theorem made_mtpOpBeginEditObject (hdr : Buffer) : Made role (mtpOpBeginEditObject hdr) :=
  made_inSession (made_underMutex (made_getCtx (fun _ _ _ => rfl) fun _ => made_pure _))

theorem made_mtpOpEndEditObject (h : role.closes) (hdr : Buffer) :
    Made role (mtpOpEndEditObject hdr) :=
  made_inSession (made_underMutex (made_getCtx (fun _ _ _ => rfl) fun _ =>
    made_bind (.entryClose h _) fun _ => made_pure _))

theorem made_mtpOpCloseSession (h : role.closes) (hd : role.commands .dropFsDb) :
    Made role mtpOpCloseSession :=
  made_inSession (made_bind (made_deinitFsDb h) fun _ =>
    made_bind (made_cmd _ (Or.inr hd)) fun _ => made_pure _)

-- The opening of a session.
structure Role.Opens (role : Role) : Prop where
  session : ∀ id, role.commands (.setSessionId id)
  init : role.commands .initFsDb
  root : ∀ mem storageId, role.commands (.db (.allocRootEntry mem storageId))

theorem made_allocRootEntries (h : role.Opens) (slots : List (Fin MAX_STORAGE_NB)) :
    Made role (allocRootEntries slots) := by
  induction slots with
  | nil => exact made_pure _
  | cons i rest ih =>
      have hroot := h.root
      unfold allocRootEntries
      refine made_getCtx (fun _ _ _ => rfl) fun ctx => ?_
      grind

theorem made_mtpOpOpenSession (h : role.Opens) (hdr : Buffer) :
    Made role (mtpOpOpenSession hdr) := by
  unfold mtpOpOpenSession
  refine made_getCtx (fun _ _ _ => rfl) fun ctx => ?_
  split
  · exact made_pure _
  split
  · exact made_pure _
  refine made_bind (made_cmd _ (Or.inr (h.session _))) fun _ =>
    made_bind (made_act _ (Or.inl rfl)) fun memory => ?_
  split
  · exact made_bind (made_cmd _ (Or.inr h.init)) fun _ => made_allocRootEntries h _
  · exact made_pure _

theorem made_countChildren (fuel count : Nat) : Made role (countChildren fuel count) := by
  induction fuel generalizing count with
  | zero => exact made_pure _
  | succ fuel ih =>
      unfold countChildren
      grind

theorem made_pokeHandles (nbOfHandles fuel : Nat) (ofs : Int) (handleIndex : Nat) :
    Made role (pokeHandles nbOfHandles fuel ofs handleIndex) := by
  induction fuel generalizing ofs handleIndex with
  | zero => exact made_pure _
  | succ fuel ih =>
      unfold pokeHandles
      refine made_bind (made_db _ (Or.inl rfl)) fun next =>
        made_getCtx (fun _ _ _ => rfl) fun ctx => ?_
      have hnext : ∀ poked : Int × Nat, Made role (do
          if 0 ≤ poked.1 ∧ poked.1 < ctx.maxPacketSize ∧ poked.2 < nbOfHandles then
            pokeHandles nbOfHandles fuel poked.1 poked.2
          else
            return (poked.1, poked.2)) := by
        intro poked
        split
        · exact ih _ _
        · exact made_pure _
      dsimp only
      split
      · exact made_bind (made_cmd _ (Or.inl rfl)) fun _ => made_bind (made_pure _) hnext
      · exact made_bind (made_pure _) hnext

theorem made_sendHandles (nbOfHandles fuel : Nat) (ofs : Int) (handleIndex : Nat) :
    Made role (sendHandles nbOfHandles fuel ofs handleIndex) := by
  induction fuel generalizing ofs handleIndex with
  | zero => exact made_pure _
  | succ fuel ih =>
      unfold sendHandles
      refine made_bind (made_pokeHandles _ _ _ _) fun poked => ?_
      split
      split
      · exact made_pure _
      · refine made_getCtx (fun _ _ _ => rfl) fun ctx => ?_
        grind

theorem made_watchFolder (entry : Option EntryPtr) (fullPath : CString) :
    Made role (watchFolder entry fullPath) := by
  unfold watchFolder
  split
  · refine made_getCtx (fun _ _ _ => rfl) fun ctx => ?_
    grind
  · exact made_pure _

theorem made_sendHandleArray (nbOfHandles : Nat) : Made role (sendHandleArray nbOfHandles) := by
  have hsend := @made_sendHandles role
  unfold sendHandleArray
  refine made_getCtx (fun _ _ _ => rfl) fun ctx => ?_
  grind

attribute [grind ←] made_countChildren made_watchFolder made_sendHandleArray

-- What lists a folder.
structure Role.Lists (role : Role) : Prop where
  adds : role.adds
  switches : role.switches
  flag : ∀ storageId p, role.inner storageId (.flagDeleted .scanAndAddFolder p)

theorem made_listFolder (h : role.Lists) (entry : Option EntryPtr) (fullPath : CString)
    (parentHandle storageid : Nat) :
    Made role (listFolder entry fullPath parentHandle storageid) := by
  have hnext : ∀ scanned : Bool, Made role (do
      if scanned then
        M.db_ (.initSearchHandle parentHandle storageid)
        let fuel ← childFuel
        let nbOfHandles ← countChildren fuel 0
        M.db_ (.initSearchHandle parentHandle storageid)
        watchFolder entry fullPath
        return some nbOfHandles
      else
        return none) := by
    intro scanned
    grind
  have hflag : ∀ p, (role.inside storageid).commands (.flagDeleted .scanAndAddFolder p) :=
    fun p => Or.inr (h.flag storageid p)
  have hadds : (role.inside storageid).adds := h.adds
  have hscan := made_scanAndAddFolder hadds hflag fullPath parentHandle storageid
  exact made_bracket_bind h.switches hscan hnext

theorem made_mtpOpGetObjectHandles (h : role.Lists) (hdr : Buffer) :
    Made role (mtpOpGetObjectHandles hdr) := by
  have hnext : ∀ listed : Option Nat, Made role (answerHandles listed) := by
    intro listed
    unfold answerHandles
    grind
  refine made_inSession (made_underMutex (made_bind (made_startData hdr) fun started => ?_))
  split
  · refine made_getCtx (fun _ _ _ => rfl) fun ctx => ?_
    split
    · dsimp only
      split
      · split
        · refine made_bind (made_entryPath _) fun path => ?_
          split
          · exact made_bind (made_listFolder h _ _ _ _) hnext
          · exact made_bind (made_pure _) hnext
        · exact made_bind (made_pure _) hnext
      · exact made_bind (made_listFolder h _ _ _ _) hnext
    · exact made_pure _
  · exact made_pure _

theorem made_mtpOpGetObject (h : role.Transfers) (hdr : Buffer) :
    Made role (mtpOpGetObject hdr) := by
  have hsend := made_sendFileData h
  refine made_aboutEntry hdr fun p => made_getCtx (fun _ _ _ => rfl) fun ctx => ?_
  grind

theorem made_mtpOpGetPartialObject (h : role.Transfers) (hdr : Buffer) :
    Made role (mtpOpGetPartialObject hdr) := by
  have hsend := made_sendFileData h
  refine made_inSession (made_underMutex ?_)
  dsimp only
  split
  all_goals
    refine made_getCtx (fun _ _ _ => rfl) fun ctx => ?_
    grind

theorem made_sendObjectData (h : role.Receives) (hdr : Buffer) (size : Nat) :
    Made role (sendObjectData hdr size) := by
  have hreceive := made_receiveObject h
  have hopen := h.opens
  unfold sendObjectData
  refine made_getCtx (fun _ _ _ => rfl) fun ctx => ?_
  grind

theorem made_sendObjectPhase (h : role.Receives) (hdr : Buffer) (size : Nat) :
    Made role (sendObjectPhase hdr size) := by
  have hdata := made_sendObjectData h hdr size
  have hlatch := h.latch
  unfold sendObjectPhase
  dsimp only
  split
  · refine made_bind (made_cmd _ (Or.inr (hlatch _ _ _))) fun _ =>
      made_getCtx (fun _ _ _ => rfl) fun ctx => ?_
    grind
  · refine made_getCtx (fun _ _ _ => rfl) fun ctx => ?_
    grind

theorem made_mtpOpSendObject (h : role.Receives) (hdr : Buffer) (size : Nat) :
    Made role (mtpOpSendObject hdr size) := by
  have hphase := made_sendObjectPhase h hdr size
  refine made_inSession ?_
  grind

theorem made_mtpOpDeleteObject (h : ∀ storageId, (role.inside storageId).Removes)
    (hs : role.switches) (hdr : Buffer) : Made role (mtpOpDeleteObject hdr) := by
  refine made_inSession (made_underMutex (made_getCtx (fun _ _ _ => rfl) fun ctx => ?_))
  split
  · exact made_pure _
  · dsimp only
    split
    · rename_i p _
      have hdelete : Made (role.inside (ctx.entry p).storageId) (do
          let deleted ← deleteTree (param hdr 0)
          pure (if deleted then MTP_RESPONSE_OK else MTP_RESPONSE_OBJECT_WRITE_PROTECTED)) :=
        made_bind (made_deleteTree (h _) _) fun _ => made_pure _
      have hbracket := @made_bracket_bind _ _ Response _ MTP_RESPONSE_OBJECT_WRITE_PROTECTED _ _
        hs hdelete fun code => made_pure (code, [])
      rw [bind_eq, bind_eq] at hbracket ⊢
      simp only [bind_eq, Prog.bind_assoc] at hbracket ⊢
      exact hbracket
    · exact made_bind (made_pure _) fun code => made_bind (.restore hs) fun _ => made_pure _

theorem made_mtpOpSetObjectPropValue (h : role.Renames) (hdr : Buffer) :
    Made role (mtpOpSetObjectPropValue hdr) := by
  have hset := made_setObjectPropValue h hdr
  have hlatch := h.latchProp
  refine made_inSession ?_
  split
  · grind
  · split
    · refine made_getCtx (fun _ _ _ => rfl) fun ctx => ?_
      grind
    · exact made_pure _

theorem made_mtpOpTruncateObject
    (h : ∀ storageId path offset, role.commands (.act (.truncate64 storageId path offset)))
    (hdr : Buffer) : Made role (mtpOpTruncateObject hdr) := by
  refine made_aboutEntry hdr fun p => made_getCtx ?_ fun ctx => ?_
  · intro ctx buffer buffer2
    beta_reduce
    rw [MtpCtx.entry_withBuffers, MtpCtx.checkHandleAccess_withBuffers]
    congr! 7
    funext truncated
    cases truncated <;> rfl
  · grind

theorem made_mtpOpSendObjectInfo (h : role.Creates) (hs : role.sees)
    (hr : ∀ maxsize, role.commands (.act (.readUsb maxsize)))
    (hb : ∀ buffer, role.commands (.setRdbuffer2 buffer)) (hdr : Buffer) :
    Made role (mtpOpSendObjectInfo hdr) := by
  have hnext : Made role (answerDataset hdr) := by
    refine .look hs fun ctx => made_bind (made_parseIncomingDataset h _ _ _) fun parsed => ?_
    grind
  refine made_inSession (made_underMutex (.look hs fun ctx => ?_))
  refine made_bind (made_act _ (Or.inr (hr _))) fun read => ?_
  dsimp only
  split
  · exact made_bind (made_cmd _ (Or.inr (hb _))) fun _ => hnext
  · exact hnext

-- mtp.c

-- Everything that requests ask for.
structure Role.Serves (role : Role) : Prop extends role.Receives, role.Renames, role.Creates,
    role.Lists, role.Opens where
  removes : ∀ storageId, (role.inside storageId).Removes
  truncate : ∀ storageId path offset, role.commands (.act (.truncate64 storageId path offset))
  dropFsDb : role.commands .dropFsDb
  sees : role.sees
  setRdbuffer : ∀ buffer, role.commands (.setRdbuffer buffer)
  setRdbuffer2 : ∀ buffer, role.commands (.setRdbuffer2 buffer)

-- What one operation asks for.
structure Role.Performs (role : Role) (code : Nat) : Prop where
  opens : code = MTP_OPERATION_OPEN_SESSION → role.Opens
  drops : code = MTP_OPERATION_CLOSE_SESSION → role.closes ∧ role.commands .dropFsDb
  lists : code = MTP_OPERATION_GET_OBJECT_HANDLES → role.Lists
  transfers : code = MTP_OPERATION_GET_OBJECT ∨ code = MTP_OPERATION_GET_PARTIAL_OBJECT ∨
    code = MTP_OPERATION_GET_PARTIAL_OBJECT_64 → role.Transfers
  creates : code = MTP_OPERATION_SEND_OBJECT_INFO → role.Creates ∧ role.sees ∧
    (∀ maxsize, role.commands (.act (.readUsb maxsize))) ∧
      ∀ buffer, role.commands (.setRdbuffer2 buffer)
  receives : code = MTP_OPERATION_SEND_OBJECT ∨ code = MTP_OPERATION_SEND_PARTIAL_OBJECT →
    role.Receives
  removes : code = MTP_OPERATION_DELETE_OBJECT →
    (∀ storageId, (role.inside storageId).Removes) ∧ role.switches
  renames : code = MTP_OPERATION_SET_OBJECT_PROP_VALUE → role.Renames
  closes : code = MTP_OPERATION_END_EDIT_OBJECT → role.closes
  truncate : code = MTP_OPERATION_TRUNCATE_OBJECT →
    ∀ storageId path offset, role.commands (.act (.truncate64 storageId path offset))

theorem Role.Serves.performs (h : role.Serves) (code : Nat) : role.Performs code where
  opens _ := h.toOpens
  drops _ := ⟨h.closes, h.dropFsDb⟩
  lists _ := h.toLists
  transfers _ := h.toTransfers
  creates _ := ⟨h.toCreates, h.sees, h.readUsb, h.setRdbuffer2⟩
  receives _ := h.toReceives
  removes _ := ⟨h.removes, h.switches⟩
  renames _ := h.toRenames
  closes _ := h.closes
  truncate _ := h.truncate

theorem made_performOperation {hdr : Buffer} (h : role.Performs (hdrCode hdr)) (rawsize : Nat) :
    Made role (performOperation hdr rawsize) := by
  unfold performOperation
  split
  · rename_i op hop
    have hm := mem_of_lookup hop
    simp only [operations, List.mem_cons, Prod.mk.injEq, List.not_mem_nil, or_false] at hm
    rcases hm with ⟨hcode, rfl⟩ | ⟨hcode, rfl⟩ | ⟨-, rfl⟩ | ⟨-, rfl⟩ | ⟨-, rfl⟩ | ⟨-, rfl⟩ |
      ⟨-, rfl⟩ | ⟨hcode, rfl⟩ | ⟨-, rfl⟩ | ⟨hcode, rfl⟩ | ⟨hcode, rfl⟩ | ⟨hcode, rfl⟩ |
      ⟨hcode, rfl⟩ | ⟨hcode, rfl⟩ | ⟨hcode, rfl⟩ | ⟨hcode, rfl⟩ | ⟨-, rfl⟩ | ⟨-, rfl⟩ |
      ⟨-, rfl⟩ | ⟨hcode, rfl⟩ | ⟨-, rfl⟩ | ⟨-, rfl⟩ | ⟨-, rfl⟩ | ⟨hcode, rfl⟩ | ⟨hcode, rfl⟩
    · exact made_mtpOpOpenSession (h.opens hcode) hdr
    · exact made_mtpOpCloseSession (h.drops hcode).1 (h.drops hcode).2
    · exact made_mtpOpGetDeviceInfos hdr
    · exact made_mtpOpGetStorageIDs hdr
    · exact made_mtpOpGetStorageInfo hdr
    · exact made_mtpOpGetDevicePropDesc hdr
    · exact made_mtpOpGetDevicePropValue hdr
    · exact made_mtpOpGetObjectHandles (h.lists hcode) hdr
    · exact made_mtpOpGetObjectInfo hdr
    · exact made_mtpOpGetPartialObject (h.transfers (Or.inr (Or.inr hcode))) hdr
    · exact made_mtpOpGetPartialObject (h.transfers (Or.inr (Or.inl hcode))) hdr
    · exact made_mtpOpGetObject (h.transfers (Or.inl hcode)) hdr
    · have hc := h.creates hcode
      exact made_mtpOpSendObjectInfo hc.1 hc.2.1 hc.2.2.1 hc.2.2.2 hdr
    · exact made_mtpOpSendObject (h.receives (Or.inr hcode)) hdr rawsize
    · exact made_mtpOpSendObject (h.receives (Or.inl hcode)) hdr rawsize
    · exact made_mtpOpDeleteObject (h.removes hcode).1 (h.removes hcode).2 hdr
    · exact made_mtpOpGetObjectPropsSupported hdr
    · exact made_mtpOpGetObjectPropDesc hdr
    · exact made_mtpOpGetObjectPropValue hdr
    · exact made_mtpOpSetObjectPropValue (h.renames hcode) hdr
    · exact made_mtpOpGetObjectPropList hdr
    · exact made_mtpOpGetObjectReferences hdr
    · exact made_mtpOpBeginEditObject hdr
    · exact made_mtpOpEndEditObject (h.closes hcode) hdr
    · exact made_mtpOpTruncateObject (h.truncate hcode) hdr
  · exact made_pure _

theorem made_sendResponse (hdr : Buffer) (response : Response) :
    Made role (sendResponse hdr response) := by
  unfold sendResponse
  split
  · refine made_getCtx (fun _ _ _ => rfl) fun ctx => ?_
    grind
  · exact made_pure _

theorem made_mtpIncomingPacket (h : role.Serves) (packet : List UInt8) :
    Made role (mtpIncomingPacket packet) := by
  refine .look h.sees fun ctx => made_bind (made_cmd _ (Or.inr (h.setRdbuffer _))) fun _ => ?_
  split
  · exact made_bind (made_performOperation (h.performs _) _) fun response => made_sendResponse _ _
  · exact made_pure _

theorem made_mtpPushEvent (event : Nat) (parameters : List Nat) :
    Made role (mtpPushEvent event parameters) := by
  unfold mtpPushEvent
  refine made_getCtx (fun _ _ _ => rfl) fun ctx => ?_
  grind

attribute [grind ←] made_mtpPushEvent

-- inotify.c

theorem made_getFileInfo (event : InotifyEvent) (entry : Option EntryPtr) (deleted : Bool) :
    Made role (getFileInfo event entry deleted) := by
  unfold getFileInfo
  split
  · refine made_bind (made_entryPath _) fun path => ?_
    split
    · refine made_bind (made_act _ (Or.inl rfl)) fun memory => ?_
      split
      · split
        · exact made_bind (made_cmd _ (Or.inl rfl)) fun _ => made_pure _
        · refine made_getCtx (fun _ _ _ => rfl) fun ctx => ?_
          grind
      · exact made_pure _
    · exact made_pure _
  · exact made_pure _

theorem made_entryCreated (h : role.adds) (folder : EntryPtr) :
    Made role (entryCreated folder) := by
  refine made_getCtx (fun _ _ _ => rfl) fun ctx => ?_
  grind

theorem made_entryModified (folder : EntryPtr) : Made role (entryModified folder) :=
  made_getCtx (fun _ _ _ => rfl) fun _ => made_pure _

theorem made_entryDeleted (h : ∀ p, role.commands (.flagDeleted .inotifyThread p))
    (folder : EntryPtr) : Made role (entryDeleted folder) := by
  refine made_getCtx (fun _ _ _ => rfl) fun ctx => ?_
  grind

theorem made_forWatchedFolders (event : InotifyEvent) (deleted : Bool) (code : Nat)
    {change : EntryPtr → M (Option EntryPtr)} (h : ∀ folder, Made role (change folder))
    (fuel : Nat) (start : List EntryPtr) :
    Made role (forWatchedFolders event deleted code change fuel start) := by
  induction fuel generalizing start with
  | zero => exact made_pure _
  | succ fuel ih =>
      unfold forWatchedFolders
      refine made_bind (made_act _ (Or.inl rfl)) fun locked => ?_
      split
      · refine made_getCtx (fun _ _ _ => rfl) fun ctx =>
          made_bind (made_getFileInfo _ _ _) fun known => ?_
        have hnext : ∀ changed : Option EntryPtr, Made role (endTurn code changed (do
            if (ctx.db.getEntryByWd event.wd start).tail ≠ [] then
              forWatchedFolders event deleted code change fuel
                (ctx.db.getEntryByWd event.wd start).tail
            else
              return true)) := by
          intro changed
          refine made_getCtx (fun _ _ _ => rfl) fun ctx' => ?_
          grind
        dsimp only
        split
        · exact made_bind (h _) hnext
        · exact made_bind (made_pure _) hnext
      · exact made_pure _

theorem made_inotifyThread (ha : role.adds)
    (hf : ∀ p, role.commands (.flagDeleted .inotifyThread p)) (event : InotifyEvent) :
    Made role (inotifyThread event) := by
  have hcreated := fun deleted code =>
    made_forWatchedFolders event deleted code (made_entryCreated ha)
  have hmodified := fun deleted code =>
    made_forWatchedFolders event deleted code (@made_entryModified role)
  have hdeleted := fun deleted code =>
    made_forWatchedFolders event deleted code (made_entryDeleted hf)
  unfold inotifyThread
  split
  · refine made_getCtx (fun _ _ _ => rfl) fun ctx => ?_
    grind
  · exact made_pure _

-- msgqueue.c

-- What the messages do to the storages and their entries.
structure Role.Manages (role : Role) : Prop where
  storage : ∀ i storage, role.commands (.setStorage i storage)
  umount : ∀ p, role.commands (.flagDeleted .umountStore p)
  root : ∀ mem storageId, role.commands (.db (.allocRootEntry mem storageId))

theorem made_setStorageFlags (h : role.Manages) (i : Fin MAX_STORAGE_NB)
    (change : BitVec 32 → BitVec 32) : Made role (setStorageFlags i change) :=
  made_getCtx (fun _ _ _ => rfl) fun _ => made_cmd _ (Or.inr (h.storage _ _))

theorem made_umountEntries (h : role.Manages) (storageId fuel : Nat) (start : List EntryPtr) :
    Made role (umountEntries storageId fuel start) := by
  induction fuel generalizing start with
  | zero => exact made_pure _
  | succ fuel ih =>
      have humount := h.umount
      unfold umountEntries
      refine made_getCtx (fun _ _ _ => rfl) fun ctx => ?_
      grind

theorem made_umountStore (h : role.Manages) (i : Fin MAX_STORAGE_NB) (updateFlag : Bool) :
    Made role (umountStore i updateFlag) := by
  have humount := made_umountEntries h
  have hset := made_setStorageFlags h i
  unfold umountStore
  refine made_getCtx (fun _ _ _ => rfl) fun ctx => ?_
  grind

theorem made_mountStore (h : role.Manages) (i : Fin MAX_STORAGE_NB) (updateFlag : Bool) :
    Made role (mountStore i updateFlag) := by
  have hroot := h.root
  have hset := made_setStorageFlags h i
  unfold mountStore
  refine made_getCtx (fun _ _ _ => rfl) fun ctx => ?_
  grind

theorem made_switchStore (name : CString) {switch : Fin MAX_STORAGE_NB → M Unit}
    (h : ∀ i, Made role (switch i)) (event : Nat) : Made role (switchStore name switch event) := by
  unfold switchStore
  refine made_getCtx (fun _ _ _ => rfl) fun ctx => ?_
  grind

theorem made_switchLocks (hm : role.Manages) (locked : Bool)
    {switch : Fin MAX_STORAGE_NB → M Unit} (h : ∀ i, Made role (switch i))
    (change : BitVec 32 → BitVec 32) (event : Nat) (slots : List (Fin MAX_STORAGE_NB)) :
    Made role (switchLocks locked switch change event slots) := by
  induction slots with
  | nil => exact made_pure _
  | cons i rest ih =>
      have hset := made_setStorageFlags hm i change
      unfold switchLocks
      refine made_getCtx (fun _ _ _ => rfl) fun ctx => ?_
      grind

theorem made_mtpAddStorage (h : role.Manages) (path description : CString) (uid gid : Int)
    (flags : BitVec 32) : Made role (mtpAddStorage path description uid gid flags) := by
  unfold mtpAddStorage
  refine made_getCtx (fun _ _ _ => rfl) fun ctx => ?_
  split
  · split
    · refine made_bind (made_query _) fun rootPath =>
        made_bind (made_act _ (Or.inl rfl)) fun _ => ?_
      split
      · exact made_cmd _ (Or.inr (h.storage _ _))
      · exact made_cmd _ (Or.inr (h.storage _ _))
    · exact made_pure _
  · exact made_pure _

theorem made_mtpRemoveStorage (h : role.Manages) (name : CString) :
    Made role (mtpRemoveStorage name) := by
  have hset := h.storage
  unfold mtpRemoveStorage
  refine made_getCtx (fun _ _ _ => rfl) fun ctx => ?_
  grind

theorem made_msgqueueThread (h : role.Manages) (message : CString) :
    Made role (msgqueueThread message) := by
  have hadd := made_mtpAddStorage h
  have hremove := made_mtpRemoveStorage h
  have humount := made_umountStore h
  have hmount := made_mountStore h
  have hswitch := fun name updateFlag event =>
    made_switchStore name (fun i => humount i updateFlag) event
  have hswitch' := fun name updateFlag event =>
    made_switchStore name (fun i => hmount i updateFlag) event
  have hlocks := made_switchLocks h
  unfold msgqueueThread mtpAddStorageFromLine mtpRemoveStorageFromLine
  split
  · grind
  split
  · grind
  split
  · exact hswitch' _ true _
  split
  · exact hswitch _ true _
  split
  · exact hlocks _ (fun i => humount i false) _ _ _
  split
  · exact hlocks _ (fun i => hmount i false) _ _ _
  · exact made_pure _

-- Everything that any event makes the daemon do.
structure Role.Full (role : Role) : Prop extends role.Serves, role.Manages where
  inotify : ∀ p, role.commands (.flagDeleted .inotifyThread p)

theorem made_event {σ : Type} (h : role.Full) (event : Event σ) : Made role event.program := by
  cases event with
  | packet bytes => exact made_mtpIncomingPacket h.toServes bytes
  | inotify event => exact made_inotifyThread h.adds h.inotify event
  | message text => exact made_msgqueueThread h.toManages text
  | outside change => exact made_pure _

-- Anything but the excluded commands. Entries are allocated by `addEntry` only.
def Allows (excluded : Cmd → Prop) : Cmd → Prop
  | .getCtx | .db (.allocEntry _ _ _ _) => False
  | c => ¬ excluded c

theorem Allows.not_excluded {excluded : Cmd → Prop} {c : Cmd} (h : Allows excluded c) :
    ¬ excluded c := by
  cases c with
  | getCtx => exact h.elim
  | db op =>
      cases op with
      | allocEntry mem fileinfo parent storageId => exact h.elim
      | _ => exact h
  | _ => exact h

def roleBut (excluded : Cmd → Prop) : Role where
  commands := Allows excluded
  inner _ := Allows excluded
  adds := True
  opens := True
  makes := True
  closes := True
  switches := True
  receives := ∀ buffer, ¬ excluded (.setRdbuffer2 buffer)
  sees := True

-- Everything is done in terms of the parts that open and close files.
theorem roleBut_full {excluded : Cmd → Prop} (h : ∀ c, excluded c → c.isPart = true) :
    (roleBut excluded).Full := by
  have hfree : ∀ c : Cmd, c.isPart = false → ¬ excluded c := by
    intro c hc hex
    rw [h c hex] at hc
    cases hc
  exact {
    opens := trivial
    closes := trivial
    transferring := fun _ => hfree _ rfl
    getCancelReq := hfree _ rfl
    clearCancelReq := hfree _ rfl
    lock := hfree _ rfl
    unlock := hfree _ rfl
    receives := fun _ => hfree _ rfl
    write := fun _ _ _ => hfree _ rfl
    readUsb := fun _ => hfree _ rfl
    latch := fun _ _ _ => hfree _ rfl
    removes := fun _ => ⟨fun _ _ => Or.inl (hfree _ rfl), fun _ => Or.inl (hfree _ rfl),
      fun _ => Or.inl (hfree _ rfl)⟩
    switches := trivial
    rename := fun _ _ _ => hfree _ rfl
    renameEntry := fun _ _ _ => hfree _ rfl
    latchProp := fun _ _ => hfree _ rfl
    adds := trivial
    mkdir := fun _ _ => hfree _ rfl
    makes := trivial
    flag := fun _ _ => hfree _ rfl
    session := fun _ => hfree _ rfl
    init := hfree _ rfl
    root := fun _ _ => hfree _ rfl
    truncate := fun _ _ _ => hfree _ rfl
    dropFsDb := hfree _ rfl
    sees := trivial
    setRdbuffer := fun _ => hfree _ rfl
    setRdbuffer2 := fun _ => hfree _ rfl
    storage := fun _ _ => hfree _ rfl
    umount := fun _ => hfree _ rfl
    inotify := fun _ => hfree _ rfl }

def anyRole : Role := roleBut fun _ => False

theorem anyRole_full : anyRole.Full := roleBut_full fun _ h => h.elim

-- The commands that every role may issue.
def Cmd.isBasic : Cmd → Bool
  | getCtx | db (.allocEntry _ _ _ _) => true
  | c => c.isOrdinary || c.isSending || c.isPart

theorem isBasic_of {c : Cmd}
    (hc : c.isOrdinary = true ∨ c.isSending = true ∨ c.isPart = true) : c.isBasic = true := by
  cases c with
  | db op => cases op <;> simp_all [Cmd.isBasic, Cmd.isOrdinary, Cmd.isSending, Cmd.isPart]
  | act a => simpa only [Cmd.isBasic, Bool.or_eq_true, or_assoc] using hc
  | _ => simp_all [Cmd.isBasic, Cmd.isOrdinary, Cmd.isSending, Cmd.isPart]

-- What every command keeps but the excluded ones.
theorem roleBut_keeps {ω : Type} {h : Handler Cmd Cmd.Ans ω} {ok : ω → Cmd → Prop}
    {I : ω → Prop} {excluded : Cmd → Prop} (hok : ∀ w c, I w → ok w c)
    (hbasic : ∀ c, excluded c → c.isBasic = false)
    (hstep : ∀ c w, ¬ excluded c → I w → I (h c w).2) :
    (roleBut excluded).Keeps h ok I := by
  have hkeep : ∀ c : Cmd, c.isBasic = true → ∀ w, I w → I (h c w).2 := by
    intro c hc w hw
    refine hstep c w (fun hex => ?_) hw
    rw [hbasic c hex] at hc
    cases hc
  have hcommand : ∀ c : Cmd, c.isBasic = true → Valid h ok I (M.cmd c) fun _ => I :=
    fun c hc => valid_command fun w hw => ⟨hok w c hw, hkeep c hc w hw⟩
  refine Role.keeps_of_commands (fun w hw => ⟨hok w _ hw, hkeep .getCtx rfl w hw⟩)
    (fun c hc w hw => ⟨hok w c hw, ?_⟩)
    (fun hr buffer w hw => ⟨hok w _ hw, hstep (.setRdbuffer2 buffer) w (hr buffer) hw⟩)
    fun fileinfo parent storageId => ?_
  · rcases hc with hc | hc | hc | hc | ⟨_, hc⟩
    · exact hkeep c (isBasic_of (Or.inl hc)) w hw
    · exact hkeep c (isBasic_of (Or.inr (Or.inl hc))) w hw
    · exact hkeep c (isBasic_of (Or.inr (Or.inr hc))) w hw
    · exact hstep c w hc.not_excluded hw
    · exact hstep c w hc.not_excluded hw
  · refine valid_bind (hcommand .getCtx rfl) fun ctx => ?_
    split
    · exact valid_ret fun _ hw => hw
    · exact valid_bind (hcommand (.act .entryMemory) rfl) fun mem =>
        hcommand (.db (.allocEntry mem fileinfo parent storageId)) rfl

-- The wrappers of the operations

section Rules

variable {σ : Type} {os : Os σ} {ok : World σ → Cmd → Prop} {P : World σ → Prop}
  {Q : Response → World σ → Prop} {op : M Response}

theorem valid_inSession (hok : ∀ w, P w → ok w .getCtx)
    (hno : ∀ w, P w → Q (MTP_RESPONSE_SESSION_NOT_OPEN, []) w)
    (hop : Valid (World.handle os) ok P op Q) : Valid (World.handle os) ok P (inSession op) Q := by
  refine valid_getCtx_bind hok fun ctx => ?_
  split
  · exact valid_weaken hop (fun _ hw => hw.1) fun _ _ hw => hw
  · exact valid_ret fun w hw => hno w hw.1

theorem valid_underMutex
    (hlock : ∀ w, P w → ok w (.act .lockInotifyMutex) ∧
      P (World.handle os (.act .lockInotifyMutex) w).2)
    (hno : ∀ w, P w → Q (MTP_RESPONSE_GENERAL_ERROR, []) w)
    (hop : Valid (World.handle os) ok P op Q)
    (hunlock : ∀ response w, Q response w → ok w (.act .unlockInotifyMutex) ∧
      Q response (World.handle os (.act .unlockInotifyMutex) w).2) :
    Valid (World.handle os) ok P (underMutex op) Q := by
  have hlocked : Valid (World.handle os) ok P (M.act .lockInotifyMutex) fun _ => P :=
    valid_command hlock
  refine valid_bind hlocked fun locked => ?_
  split
  · refine valid_bind hop fun response => ?_
    have hdone : Valid (World.handle os) ok (Q response) (M.act .unlockInotifyMutex)
        fun _ => Q response := valid_command (hunlock response)
    exact valid_bind (valid_bind hdone fun _ => valid_ret fun _ hw => hw) fun _ =>
      valid_ret fun _ hw => hw
  · exact valid_ret hno

end Rules

theorem performOperation_eq {hdr : Buffer} {op : Buffer → Nat → M Response}
    (h : operations.lookup (hdrCode hdr) = some op) (rawsize : Nat) :
    performOperation hdr rawsize = op hdr rawsize := by
  rw [performOperation, h]

end Umtp
