import Umtp.Descriptors

namespace Umtp

open Lib Lib.Prog Handles

variable {σ α : Type} {os : Os σ} {isOpen : σ → Int → Prop} {w : World σ}

-- What the containers so far leave to come: the data of an object that
-- SendObjectInfo made, whose SendObject may have begun, or the data of a
-- SendPartialObject.
inductive Awaited where
  | nothing
  | object (handle : Nat) (begun : Bool)
  | part (handle : Nat)
deriving DecidableEq, Repr

-- The transactions of a session. `renamed` is the object that the last
-- SetObjectPropValue command named, up to its data.
structure Transactions where
  awaited : Awaited
  renamed : Option Nat
deriving DecidableEq, Repr

def Transactions.none : Transactions := ⟨.nothing, .none⟩

-- The response to a packet and the state before it is sent.
def World.performed (os : Os σ) (w : World σ) (packet : List UInt8) : Response × World σ :=
  exec (World.handle os)
    (performOperation (w.ctx.header packet) (packet.take w.ctx.usbRdBufferMaxSize).length)
    ⟨{ w.ctx with rdbuffer := w.ctx.header packet }, w.os⟩

-- The format of the object in an ObjectInfo dataset, after the packet header.
def datasetFormat (datain : Buffer) : Nat := peek (datain.shift MTP_HEADER_SIZE) 0x04 2

-- The file that SendObjectInfo made: it is answered OK with a handle, and the
-- dataset is not one of a folder.
def createdFile (response : Response) (datain : Buffer) : Option Nat :=
  match response with
  | (code, [_, _, handle]) =>
    if code = MTP_RESPONSE_OK ∧ handle ≠ NO_HANDLE ∧
        datasetFormat datain ≠ MTP_FORMAT_ASSOCIATION then some handle
    else none
  | _ => none

-- `created` is the file that the request made, and `taken` whether its command
-- was taken up.
def Awaited.next (awaited : Awaited) (hdr : Buffer) (created : Option Nat) (taken : Bool) :
    Awaited :=
  if hdrCode hdr = MTP_OPERATION_SEND_OBJECT_INFO then
    match created with
    | some handle => .object handle false
    | none => .nothing
  else if hdrCode hdr = MTP_OPERATION_SEND_OBJECT then
    match awaited with
    | .object handle false =>
      if hdrOperation hdr = MTP_CONTAINER_TYPE_COMMAND then .object handle true else .nothing
    | _ => .nothing
  else if hdrCode hdr = MTP_OPERATION_SEND_PARTIAL_OBJECT then
    if hdrOperation hdr = MTP_CONTAINER_TYPE_COMMAND ∧ taken = true then .part (param hdr 0)
    else .nothing
  else
    match awaited with
    | .part _ => .nothing
    | awaited => awaited

def renamedNext (renamed : Option Nat) (hdr : Buffer) : Option Nat :=
  if hdrCode hdr = MTP_OPERATION_SET_OBJECT_PROP_VALUE then
    if hdrOperation hdr = MTP_CONTAINER_TYPE_COMMAND then some (param hdr 0) else none
  else
    renamed

-- Nothing is left to come without a session.
def Transactions.next (os : Os σ) (t : Transactions) (w : World σ) : Event σ → Transactions
  | .packet bytes =>
    let hdr := w.ctx.header bytes
    let done := w.performed os bytes
    if bytes.take w.ctx.usbRdBufferMaxSize = [] then
      t
    else if done.2.ctx.fsDb.isNone then
      .none
    else
      ⟨t.awaited.next hdr (createdFile done.1 done.2.ctx.rdbuffer2)
          (os.act .lockInotifyMutex w.os).1,
        renamedNext t.renamed hdr⟩
  | _ => t

-- A step of the daemon with its open descriptors and its transactions.
def World.transact (os : Os σ) (s : (World σ × Opened) × Transactions) (event : Event σ) :
    (World σ × Opened) × Transactions :=
  (World.track os s.1 event, s.2.next os s.1.1 event)

-- The object that a data container of the operation is for.
def Transactions.target (t : Transactions) (hdr : Buffer) : Option Nat :=
  if hdrCode hdr = MTP_OPERATION_SEND_OBJECT then
    match t.awaited with
    | .object handle _ => some handle
    | _ => Option.none
  else if hdrCode hdr = MTP_OPERATION_SEND_PARTIAL_OBJECT then
    match t.awaited with
    | .part handle => some handle
    | _ => Option.none
  else
    t.renamed

-- The operations with a data phase that finds its object by a latched handle.
def hasLatch (hdr : Buffer) : Prop :=
  hdrOperation hdr = MTP_CONTAINER_TYPE_DATA ∧
    (hdrCode hdr = MTP_OPERATION_SEND_OBJECT ∨
      hdrCode hdr = MTP_OPERATION_SEND_PARTIAL_OBJECT ∨
      hdrCode hdr = MTP_OPERATION_SET_OBJECT_PROP_VALUE)

instance (hdr : Buffer) : Decidable (hasLatch hdr) :=
  inferInstanceAs (Decidable (_ ∧ _))

-- The call opens or renames the file of the entry, or writes to the descriptor
-- that was opened for it.
def Action.MadeFor (os : Os σ) (s : World σ × Opened) (p : EntryPtr) : Action → Prop
  | .open _ path _ => PathOf os s.1.ctx p path
  | .write _ file _ => Owned os s p file
  | .rename _ path _ => PathOf os s.1.ctx p path
  | _ => False

-- Every call that may change a file is made for the object with the handle.
def ChangesOnly (os : Os σ) (target : Option Nat) (s : World σ × Opened) (c : Cmd) : Prop :=
  ∀ a, c = .act a → a.changes ≠ none → ∃ handle ∈ target, ∃ p,
    s.1.ctx.getEntryByHandle handle = some p ∧ a.MadeFor os s p

def Cmd.changesFile : Cmd → Bool
  | act a => a.changes.isSome
  | _ => false

theorem ChangesOnly.not_changesFile {s : World σ × Opened} {c : Cmd}
    (h : ChangesOnly os none s c) : c.changesFile = false := by
  cases c with
  | act a =>
      by_contra hchanges
      rw [Cmd.changesFile, Bool.not_eq_false, Option.isSome_iff_ne_none] at hchanges
      obtain ⟨handle, hmem, -⟩ := h a rfl hchanges
      cases hmem
  | _ => rfl

-- Data containers change the object they are for, and nothing when there is
-- none.
def Rightful (os : Os σ) (s : (World σ × Opened) × Transactions) : Event σ → Prop
  | .packet bytes =>
    let hdr := s.1.1.ctx.header bytes
    hasLatch hdr →
      Safe (tracker os) (ChangesOnly os (s.2.target hdr)) (Event.packet (σ := σ) bytes).program s.1
  | _ => True

theorem Rightful.changes_nothing {s : (World σ × Opened) × Transactions} {bytes : List UInt8}
    (h : Rightful os s (.packet bytes)) (hlatch : hasLatch (s.1.1.ctx.header bytes))
    (hnone : s.2.target (s.1.1.ctx.header bytes) = none) :
    ∀ step ∈ trace (tracker os) (mtpIncomingPacket bytes) s.1, step.2.changesFile = false := by
  intro step hstep
  have honly := h hlatch step hstep
  rw [hnone] at honly
  exact honly.not_changesFile

-- The handle that the data phase of the operation looks up.
def MtpCtx.latchedHandle (ctx : MtpCtx) (hdr : Buffer) : Nat :=
  if hdrCode hdr = MTP_OPERATION_SET_OBJECT_PROP_VALUE then ctx.setObjectPropValueHandle
  else ctx.sendObjInfoHandle

-- No handle is latched, or it is not the one of an object that may be changed.
def MtpCtx.Unlatched (ctx : MtpCtx) (hdr : Buffer) : Prop :=
  ctx.latchedHandle hdr = NO_HANDLE ∨
    ∀ p ∈ ctx.getEntryByHandle (ctx.latchedHandle hdr),
      (ctx.checkHandleAccess (some p) 0 true).isSome = true

-- SendObject does nothing without the mutex.
def NotLocked (os : Os σ) (w : World σ) (hdr : Buffer) : Prop :=
  hdrCode hdr ≠ MTP_OPERATION_SET_OBJECT_PROP_VALUE ∧ (os.act .lockInotifyMutex w.os).1 = false

-- The opening of the latched object gives a descriptor of its own or none.
def CanReceive (os : Os σ) (s : World σ × Opened) : Prop :=
  ∀ p ∈ s.1.ctx.getEntryByHandle s.1.ctx.sendObjInfoHandle, ¬ (Unset s p ∧ CannotOpen os s.1 p)

-- The state in which SendObject comes to its data.
def World.receiving (os : Os σ) (w : World σ) (hdr : Buffer) : World σ :=
  ⟨{ w.ctx with rdbuffer := hdr }, (os.act .lockInotifyMutex w.os).2⟩

-- Data containers come where the transactions have an object for them, with a
-- file that can be opened if the data goes into one, or where they are refused.
def InOrder (os : Os σ) (s : (World σ × Opened) × Transactions) : Event σ → Prop
  | .packet bytes =>
    let hdr := s.1.1.ctx.header bytes
    hasLatch hdr →
      (s.2.target hdr).isSome = true ∧ (hdrCode hdr = MTP_OPERATION_SET_OBJECT_PROP_VALUE ∨
          CanReceive os (s.1.1.receiving os hdr, s.1.2)) ∨
        s.1.1.ctx.Unlatched hdr ∨ NotLocked os s.1.1 hdr
  | _ => True

-- The handle is the one that is awaited, if one is.
def Awaited.Latches (handle : Nat) : Awaited → Prop
  | nothing => True
  | object awaited _ => handle = awaited
  | part awaited => handle = awaited

-- The latched handles are the ones of the transactions.
structure Latched (s : World σ × Transactions) : Prop where
  awaited : s.2.awaited.Latches s.1.ctx.sendObjInfoHandle
  renamed : ∀ handle, s.2.renamed = some handle → s.1.ctx.setObjectPropValueHandle = handle

-- The latched handles are kept by every command but one

@[simp] def Cmd.SetsObject : Cmd → Prop
  | setSendObjInfo _ _ _ => True
  | _ => False

@[simp] def Cmd.SetsRenamed : Cmd → Prop
  | setObjectPropValue _ _ => True
  | _ => False

theorem keeps_object (handle : Nat) :
    (roleBut Cmd.SetsObject).Keeps (World.handle os) (fun _ _ => True)
      fun w => w.ctx.sendObjInfoHandle = handle := by
  refine roleBut_keeps (fun _ _ _ => trivial) (fun c hc => ?_) fun c w hc hw => ?_
  · cases c with
    | setSendObjInfo handle size offset => rfl
    | _ => exact hc.elim
  · cases c with
    | setSendObjInfo handle size offset => exact absurd trivial hc
    | _ => exact hw

theorem keeps_renamed (handle : Nat) :
    (roleBut Cmd.SetsRenamed).Keeps (World.handle os) (fun _ _ => True)
      fun w => w.ctx.setObjectPropValueHandle = handle := by
  refine roleBut_keeps (fun _ _ _ => trivial) (fun c hc => ?_) fun c w hc hw => ?_
  · cases c with
    | setObjectPropValue handle propCode => rfl
    | _ => exact hc.elim
  · cases c with
    | setObjectPropValue handle propCode => exact absurd trivial hc
    | _ => exact hw

theorem object_of_made {prog : M α} (h : Made (roleBut Cmd.SetsObject) prog) (w : World σ) :
    (exec (World.handle os) prog w).2.ctx.sendObjInfoHandle = w.ctx.sendObjInfoHandle :=
  (h.valid (keeps_object w.ctx.sendObjInfoHandle) w rfl).2

theorem renamed_of_made {prog : M α} (h : Made (roleBut Cmd.SetsRenamed) prog) (w : World σ) :
    (exec (World.handle os) prog w).2.ctx.setObjectPropValueHandle =
      w.ctx.setObjectPropValueHandle :=
  (h.valid (keeps_renamed w.ctx.setObjectPropValueHandle) w rfl).2

section Performs

variable {excluded : Cmd → Prop} {code : Nat}

-- Without a latch the operations do what they did, where they need none.
theorem performs_roleBut (hfree : ∀ c : Cmd, ¬ c.SetsObject → ¬ c.SetsRenamed → ¬ excluded c)
    (hobject : code = MTP_OPERATION_SEND_OBJECT_INFO ∨ code = MTP_OPERATION_SEND_OBJECT ∨
      code = MTP_OPERATION_SEND_PARTIAL_OBJECT →
        ∀ handle size offset, ¬ excluded (.setSendObjInfo handle size offset))
    (hrenamed : code = MTP_OPERATION_SET_OBJECT_PROP_VALUE →
      ∀ handle propCode, ¬ excluded (.setObjectPropValue handle propCode)) :
    (roleBut excluded).Performs code where
  opens _ := ⟨fun _ => hfree _ id id, hfree _ id id, fun _ _ => hfree _ id id⟩
  drops _ := ⟨trivial, hfree _ id id⟩
  lists _ := ⟨trivial, trivial, fun _ _ => hfree _ id id⟩
  transfers _ := ⟨⟨trivial, fun _ => hfree _ id id, hfree _ id id, hfree _ id id⟩, trivial,
    hfree _ id id, hfree _ id id⟩
  creates hcode := ⟨⟨trivial, trivial, trivial, fun _ _ => hfree _ id id,
    hobject (Or.inl hcode)⟩, trivial, fun _ => hfree _ id id, fun _ => hfree _ id id⟩
  receives hcode := ⟨⟨⟨trivial, fun _ => hfree _ id id, hfree _ id id, hfree _ id id⟩, trivial,
    hfree _ id id, hfree _ id id⟩, fun _ => hfree _ id id, fun _ _ _ => hfree _ id id,
    fun _ => hfree _ id id, hobject (Or.inr hcode)⟩
  removes _ := ⟨fun _ => ⟨fun _ _ => Or.inl (hfree _ id id), fun _ => Or.inl (hfree _ id id),
    fun _ => Or.inl (hfree _ id id)⟩, trivial⟩
  renames hcode := ⟨trivial, fun _ _ _ => hfree _ id id, fun _ _ _ => hfree _ id id,
    hrenamed hcode⟩
  closes _ := trivial
  truncate _ _ _ _ := hfree _ id id

theorem performs_keeping_object (hcode : code ≠ MTP_OPERATION_SEND_OBJECT_INFO ∧
    code ≠ MTP_OPERATION_SEND_OBJECT ∧ code ≠ MTP_OPERATION_SEND_PARTIAL_OBJECT) :
    (roleBut Cmd.SetsObject).Performs code := by
  refine performs_roleBut (fun c hc _ => hc) (fun h => ?_) fun _ _ _ => id
  rcases h with h | h | h
  · exact absurd h hcode.1
  · exact absurd h hcode.2.1
  · exact absurd h hcode.2.2

theorem performs_keeping_renamed (hcode : code ≠ MTP_OPERATION_SET_OBJECT_PROP_VALUE) :
    (roleBut Cmd.SetsRenamed).Performs code :=
  performs_roleBut (fun _ _ hc => hc) (fun _ _ _ _ => id) fun h => absurd h hcode

end Performs

-- The command phase of SendObject latches nothing.
theorem made_sendObject_command {hdr : Buffer} (size : Nat)
    (hcode : hdrCode hdr = MTP_OPERATION_SEND_OBJECT)
    (hcommand : hdrOperation hdr = MTP_CONTAINER_TYPE_COMMAND) :
    Made (roleBut Cmd.SetsObject) (mtpOpSendObject hdr size) := by
  have hphase : Made (roleBut Cmd.SetsObject) (sendObjectPhase hdr size) := by
    unfold sendObjectPhase sendObjectRest
    rw [hcode, hcommand]
    refine made_getCtx (fun _ _ _ => rfl) fun ctx => ?_
    simp only [MTP_CONTAINER_TYPE_COMMAND, MTP_CONTAINER_TYPE_DATA]
    grind
  refine made_inSession ?_
  grind

-- The dataset of SendObjectInfo

@[simp] def Cmd.SetsDataset : Cmd → Prop
  | setRdbuffer2 _ => True
  | _ => False

theorem keeps_dataset (datain : Buffer) :
    (roleBut Cmd.SetsDataset).Keeps (World.handle os) (fun _ _ => True) fun w => w.ctx.rdbuffer2 =
    datain := by
  refine roleBut_keeps (fun _ _ _ => trivial) (fun c hc => ?_) fun c w hc hw => ?_
  · cases c with
    | setRdbuffer2 buffer => rfl
    | _ => exact hc.elim
  · cases c with
    | setRdbuffer2 buffer => exact absurd trivial hc
    | _ => exact hw

theorem creates_keeping_dataset : (roleBut Cmd.SetsDataset).Creates :=
  ⟨trivial, trivial, trivial, fun _ _ => id, fun _ _ _ => id⟩

-- What is latched when a file is made.
def Expects (datain : Buffer) (answer : Nat × Nat) (w : World σ) : Prop :=
  w.ctx.rdbuffer2 = datain ∧
    (answer.2 ≠ NO_HANDLE → datasetFormat datain ≠ MTP_FORMAT_ASSOCIATION →
      w.ctx.sendObjInfoHandle = answer.2)

theorem expects_expectObject (datain : Buffer) (entry : Option EntryPtr) (objectsize : Nat) :
    Valid (World.handle os) (fun _ _ => True) (fun w => w.ctx.rdbuffer2 = datain)
      (expectObject entry objectsize) (Expects datain) := by
  intro w hw
  refine ⟨fun _ _ => trivial, ?_⟩
  cases entry with
  | none => exact ⟨hw, fun _ _ => rfl⟩
  | some p => exact ⟨hw, fun _ _ => rfl⟩

theorem expects_of_made {datain : Buffer} {prog : M α} {f : α → M (Nat × Nat)}
    (h : Made (roleBut Cmd.SetsDataset) prog)
    (hf : ∀ value, Valid (World.handle os) (fun _ _ => True)
      (fun w => w.ctx.rdbuffer2 = datain) (f value) (Expects datain)) :
    Valid (World.handle os) (fun _ _ => True) (fun w => w.ctx.rdbuffer2 = datain)
      (prog >>= f) (Expects datain) :=
  valid_bind (h.valid (keeps_dataset datain)) hf

theorem expects_no_handle (datain : Buffer) (code : Nat) :
    Valid (World.handle os) (fun _ _ => True) (fun w => w.ctx.rdbuffer2 = datain)
      (pure (code, NO_HANDLE) : M (Nat × Nat)) (Expects datain) :=
  valid_ret fun _ hw => ⟨hw, fun h => absurd rfl h⟩

theorem expects_createFile (datain : Buffer) (folder : EntryPtr) (name : CString)
    (objectsize parentHandle storageId : Nat) :
    Valid (World.handle os) (fun _ _ => True) (fun w => w.ctx.rdbuffer2 = datain)
      (createFile folder name objectsize parentHandle storageId) (Expects datain) := by
  rw [createFile_eq]
  refine expects_of_made (made_newObjectPath _ _) fun found => ?_
  split
  · refine expects_of_made (.makeFile trivial _ _) fun made => ?_
    split
    · exact expects_of_made (.addEntry trivial _ _ _) fun entry => expects_expectObject _ _ _
    · exact expects_no_handle _ _
  · exact expects_expectObject _ _ _

theorem expects_parseIncomingDataset (datain : Buffer) (parentHandle storageId : Nat) :
    Valid (World.handle os) (fun _ _ => True) (fun w => w.ctx.rdbuffer2 = datain)
      (parseIncomingDataset datain parentHandle storageId) (Expects datain) := by
  have hfolder : datasetFormat datain = MTP_FORMAT_ASSOCIATION → ∀ folder name parent,
      Valid (World.handle os) (fun _ _ => True) (fun w : World σ => w.ctx.rdbuffer2 = datain)
        (createFolder folder name parent storageId) (Expects datain) := by
    intro hformat folder name parent
    refine valid_weaken ((made_createFolder creates_keeping_dataset _ _ _ _).valid
      (keeps_dataset datain)) (fun _ hw => hw) fun answer w hw => ⟨hw, fun _ h => ?_⟩
    exact absurd hformat h
  unfold parseIncomingDataset
  refine valid_getCtx_bind (fun _ _ => trivial) fun ctx =>
    valid_weaken (P := fun w => w.ctx.rdbuffer2 = datain) ?_ (fun _ hw => hw.1) fun _ _ hw => hw
  dsimp only
  split
  · exact expects_no_handle _ _
  split
  · exact expects_no_handle _ _
  split
  · split
    · split
      · split
        · split
          · rename_i hformat
            exact hfolder hformat _ _ _
          · exact expects_createFile _ _ _ _ _ _
        · exact expects_no_handle _ _
      · exact expects_no_handle _ _
    · exact expects_no_handle _ _
  · exact expects_no_handle _ _

-- The latched handles after a packet

theorem step_packet {bytes : List UInt8} (hne : bytes.take w.ctx.usbRdBufferMaxSize ≠ []) :
    World.step os w (.packet bytes) =
      (exec (World.handle os) (sendResponse (w.ctx.header bytes) (w.performed os bytes).1)
        (w.performed os bytes).2).2 := by
  show (exec (World.handle os) (mtpIncomingPacket bytes) w).2 = _
  rw [mtpIncomingPacket, exec_getCtx_bind, bind_eq, exec_bind]
  rw [if_pos hne, processInPacket, bind_eq, exec_bind]
  rfl

-- The handle that SendObjectInfo answers for a file is latched.
def Created (response : Response) (w : World σ) : Prop :=
  ∀ handle ∈ createdFile response w.ctx.rdbuffer2, w.ctx.sendObjInfoHandle = handle

theorem created_refused (code : Nat) (w : World σ) : Created (code, []) w := by
  rintro handle ⟨⟩

theorem created_mtpOpSendObjectInfo (hdr : Buffer) :
    Valid (World.handle os) (fun _ _ => True) (fun _ => True) (mtpOpSendObjectInfo hdr)
      Created := by
  have hparse : Valid (World.handle os) (fun _ _ => True) (fun _ : World σ => True)
      (answerDataset hdr) Created := by
    refine valid_getCtx_bind (fun _ _ => trivial) fun ctx => ?_
    have hdataset := @expects_parseIncomingDataset _ os ctx.rdbuffer2 (param hdr 1) (param hdr 0)
    refine valid_bind (valid_weaken hdataset (fun w hw => by rw [hw.2]) fun _ _ hw => hw)
      fun answer => ?_
    split
    split
    · refine valid_ret fun w hw handle hh => ?_
      simp only [createdFile, Option.mem_def] at hh
      split at hh
      · rename_i hfile
        cases hh
        rw [hw.1] at hfile
        exact hw.2 hfile.2.1 hfile.2.2
      · cases hh
    · exact valid_ret fun w _ => created_refused _ w
  refine valid_inSession (fun _ _ => trivial) (fun w _ => created_refused _ w) ?_
  refine valid_underMutex (fun _ _ => ⟨trivial, trivial⟩) (fun w _ => created_refused _ w) ?_
    fun _ _ hw => ⟨trivial, hw⟩
  refine valid_getCtx_bind (fun _ _ => trivial) fun ctx => ?_
  refine valid_bind (Q := fun _ _ => True) (fun _ _ => ⟨fun _ _ => trivial, trivial⟩)
    fun read => ?_
  dsimp only
  split
  · exact valid_bind (Q := fun _ _ => True) (fun _ _ => ⟨fun _ _ => trivial, trivial⟩)
      fun _ => hparse
  · exact hparse

theorem object_performed {bytes : List UInt8}
    (h : Made (roleBut Cmd.SetsObject) (performOperation (w.ctx.header bytes)
      (bytes.take w.ctx.usbRdBufferMaxSize).length)) :
    (w.performed os bytes).2.ctx.sendObjInfoHandle = w.ctx.sendObjInfoHandle :=
  object_of_made h _

theorem created_performed {bytes : List UInt8}
    (hcode : hdrCode (w.ctx.header bytes) = MTP_OPERATION_SEND_OBJECT_INFO) :
    Created (w.performed os bytes).1 (w.performed os bytes).2 := by
  have hop : operations.lookup (hdrCode (w.ctx.header bytes)) =
      some fun hdr _ => mtpOpSendObjectInfo hdr := by
    rw [hcode]
    rfl
  rw [World.performed, performOperation_eq hop]
  exact (created_mtpOpSendObjectInfo _ _ trivial).2

theorem sendObject_performed {bytes : List UInt8}
    (hcode : hdrCode (w.ctx.header bytes) = MTP_OPERATION_SEND_OBJECT ∨
      hdrCode (w.ctx.header bytes) = MTP_OPERATION_SEND_PARTIAL_OBJECT) :
    performOperation (w.ctx.header bytes) (bytes.take w.ctx.usbRdBufferMaxSize).length =
      mtpOpSendObject (w.ctx.header bytes) (bytes.take w.ctx.usbRdBufferMaxSize).length := by
  rcases hcode with hcode | hcode
  all_goals
    have hop : operations.lookup (hdrCode (w.ctx.header bytes)) = some mtpOpSendObject := by
      rw [hcode]
      rfl
    exact performOperation_eq hop _

-- The command of a SendPartialObject latches its handle.
theorem part_sendObjectPhase {hdr : Buffer} (size : Nat)
    (hcode : hdrCode hdr = MTP_OPERATION_SEND_PARTIAL_OBJECT)
    (hcommand : hdrOperation hdr = MTP_CONTAINER_TYPE_COMMAND) :
    Valid (World.handle os) (fun _ _ => True) (fun _ => True) (sendObjectPhase hdr size)
      fun _ w => w.ctx.sendObjInfoHandle = param hdr 0 := by
  unfold sendObjectPhase sendObjectRest
  rw [if_pos ⟨hcode, hcommand⟩, hcommand]
  refine valid_bind (Q := fun _ w => w.ctx.sendObjInfoHandle = param hdr 0)
    (fun _ _ => ⟨fun _ _ => trivial, rfl⟩) fun _ => ?_
  refine Made.valid (keeps_object _) (made_getCtx (fun _ _ _ => rfl) fun ctx => ?_)
  simp only [MTP_CONTAINER_TYPE_COMMAND, MTP_CONTAINER_TYPE_DATA]
  grind

theorem part_performed {bytes : List UInt8}
    (hcode : hdrCode (w.ctx.header bytes) = MTP_OPERATION_SEND_PARTIAL_OBJECT)
    (hcommand : hdrOperation (w.ctx.header bytes) = MTP_CONTAINER_TYPE_COMMAND)
    (hlock : (os.act .lockInotifyMutex w.os).1 = true)
    (hdb : (w.performed os bytes).2.ctx.fsDb.isNone = false) :
    (w.performed os bytes).2.ctx.sendObjInfoHandle = param (w.ctx.header bytes) 0 := by
  rw [World.performed, sendObject_performed (Or.inr hcode), mtpOpSendObject, inSession,
    exec_getCtx_bind] at hdb ⊢
  split
  · rw [exec_act_bind, if_pos hlock, bind_eq, exec_bind]
    exact (part_sendObjectPhase _ hcode hcommand _ trivial).2
  · rename_i hno
    rw [if_neg hno] at hdb
    simp_all

theorem latched_awaited {bytes : List UInt8} {t : Transactions} (hl : Latched (w, t))
    (hdb : (w.performed os bytes).2.ctx.fsDb.isNone = false) :
    (t.awaited.next (w.ctx.header bytes)
      (createdFile (w.performed os bytes).1 (w.performed os bytes).2.ctx.rdbuffer2)
      (os.act .lockInotifyMutex w.os).1).Latches
        (w.performed os bytes).2.ctx.sendObjInfoHandle := by
  have hawaited := hl.awaited
  dsimp only at hawaited
  unfold Awaited.next
  split
  · rename_i hcode
    have hcreated := @created_performed _ os _ _ hcode
    split
    · rename_i handle hfile
      exact hcreated handle hfile
    · trivial
  split
  · rename_i hcode
    split
    · rename_i handle hobject
      split
      · rename_i hcommand
        have hmade := made_sendObject_command
          (bytes.take w.ctx.usbRdBufferMaxSize).length hcode hcommand
        rw [← sendObject_performed (Or.inl hcode)] at hmade
        rw [hobject] at hawaited
        exact (object_performed hmade).trans hawaited
      · trivial
    · trivial
  split
  · rename_i hcode
    split
    · rename_i hcommand
      exact part_performed hcode hcommand.1 hcommand.2 hdb
    · trivial
  · rename_i hinfo hsend hpart
    have hmade := made_performOperation (performs_keeping_object ⟨hinfo, hsend, hpart⟩)
      (bytes.take w.ctx.usbRdBufferMaxSize).length
    have hkept := @object_performed _ os _ _ hmade
    split
    · trivial
    · rw [hkept]
      exact hawaited

theorem renamed_performed {bytes : List UInt8} {t : Transactions} (hl : Latched (w, t))
    (hdb : (w.performed os bytes).2.ctx.fsDb.isNone = false) :
    ∀ handle, renamedNext t.renamed (w.ctx.header bytes) = some handle →
      (w.performed os bytes).2.ctx.setObjectPropValueHandle = handle := by
  intro handle hnext
  rw [renamedNext] at hnext
  split at hnext
  · rename_i hcode
    split at hnext
    · rename_i hcommand
      cases hnext
      have hop : operations.lookup (hdrCode (w.ctx.header bytes)) =
          some fun hdr _ => mtpOpSetObjectPropValue hdr := by
        rw [hcode]
        rfl
      rw [World.performed, performOperation_eq hop, mtpOpSetObjectPropValue, inSession,
        exec_getCtx_bind] at hdb ⊢
      split
      · rfl
      · rename_i hno
        rw [if_neg hno] at hdb
        simp_all
    · cases hnext
  · rename_i hcode
    have hmade := made_performOperation (performs_keeping_renamed hcode)
      (bytes.take w.ctx.usbRdBufferMaxSize).length
    have hkept : (w.performed os bytes).2.ctx.setObjectPropValueHandle =
        w.ctx.setObjectPropValueHandle := renamed_of_made hmade _
    exact hkept.trans (hl.renamed handle hnext)

theorem latched_step {t : Transactions} (hl : Latched (w, t)) (event : Event σ) :
    Latched (World.step os w event, t.next os w event) := by
  have hkeep : ∀ w' : World σ, w'.ctx.sendObjInfoHandle = w.ctx.sendObjInfoHandle →
      w'.ctx.setObjectPropValueHandle = w.ctx.setObjectPropValueHandle → Latched (w', t) :=
    fun w' hobject hrenamed => ⟨show t.awaited.Latches _ by rw [hobject]; exact hl.awaited,
      fun _ h => hrenamed.trans (hl.renamed _ h)⟩
  cases event with
  | packet bytes =>
      by_cases hempty : bytes.take w.ctx.usbRdBufferMaxSize = []
      · have hstep : World.step os w (.packet bytes) =
            ⟨{ w.ctx with rdbuffer := w.ctx.header bytes }, w.os⟩ := by
          show (exec (World.handle os) (mtpIncomingPacket bytes) w).2 = _
          rw [mtpIncomingPacket, exec_getCtx_bind, bind_eq, exec_bind]
          rw [if_neg (not_not.mpr hempty)]
          rfl
        have hnext : t.next os w (.packet bytes) = t := if_pos hempty
        rw [hstep, hnext]
        exact hkeep _ rfl rfl
      · have hsend := @made_sendResponse (roleBut Cmd.SetsObject) (w.ctx.header bytes)
          (w.performed os bytes).1
        have hsend' := @made_sendResponse (roleBut Cmd.SetsRenamed) (w.ctx.header bytes)
          (w.performed os bytes).1
        have hobject := @object_of_made _ _ os _ hsend (w.performed os bytes).2
        have hrenamed := @renamed_of_made _ _ os _ hsend' (w.performed os bytes).2
        rw [← step_packet hempty] at hobject hrenamed
        rw [Transactions.next]
        rw [if_neg hempty]
        split
        · exact ⟨trivial, fun _ h => by cases h⟩
        · rename_i hdb
          rw [Bool.not_eq_true] at hdb
          refine ⟨?_, fun handle h => hrenamed.trans (renamed_performed hl hdb handle h)⟩
          dsimp only
          rw [hobject]
          exact latched_awaited hl hdb
  | inotify event =>
      exact hkeep _ (object_of_made (made_inotifyThread trivial (fun _ => id) event) w)
        (renamed_of_made (made_inotifyThread trivial (fun _ => id) event) w)
  | message text =>
      exact hkeep _
        (object_of_made (made_msgqueueThread ⟨fun _ _ => id, fun _ => id, fun _ _ => id⟩ text) w)
        (renamed_of_made (made_msgqueueThread ⟨fun _ _ => id, fun _ => id, fun _ _ => id⟩ text) w)
  | outside change => exact hkeep _ rfl rfl

-- The data phases

variable {target : Option Nat} {s : World σ × Opened}

def Cmd.Quiet : Cmd → Prop
  | getCtx | db (.allocEntry _ _ _ _) => False
  | act a => a.changes = none
  | _ => True

-- What changes no file.
def quietRole : Role where
  commands := Cmd.Quiet
  inner _ _ := False
  adds := False
  opens := False
  makes := False
  closes := True
  switches := False
  receives := True
  sees := True

theorem changesOnly_act {a : Action} (h : a.changes = none) : ChangesOnly os target s (.act a) := by
  rintro a' heq hno
  cases heq
  exact absurd h hno

theorem changesOnly_of_ne {c : Cmd} (h : ∀ a, c ≠ .act a) : ChangesOnly os target s c :=
  fun a heq => absurd heq (h a)

theorem changesOnly_of_quiet {c : Cmd}
    (hc : c.isOrdinary = true ∨ c.isSending = true ∨ c.Quiet) : ChangesOnly os target s c := by
  cases c with
  | act a =>
      refine changesOnly_act ?_
      rcases hc with hc | hc | hc
      · cases a <;> simp_all [Cmd.isOrdinary, Action.isOrdinary, Action.changes]
      · cases a <;> simp_all [Cmd.isSending, Action.changes]
      · exact hc
  | _ => exact changesOnly_of_ne (by simp)

theorem quiet_keeps : quietRole.Keeps (tracker os) (ChangesOnly os target) fun _ => True := by
  have hcommand : ∀ c : Cmd, c.isOrdinary = true ∨ c.isSending = true ∨ c.Quiet →
      ∀ s : World σ × Opened, True → ChangesOnly os target s c ∧ True :=
    fun c hc s _ => ⟨changesOnly_of_quiet hc, trivial⟩
  -- a file is closed in single commands
  have hsingle : ({ quietRole with closes := False } : Role).Keeps (tracker os)
      (ChangesOnly os target) fun _ => True := {
    look := fun _ _ => ⟨changesOnly_of_ne (by simp), trivial⟩
    command := hcommand
    store := fun _ _ _ _ => ⟨changesOnly_of_ne (by simp), trivial⟩
    add := fun h => h.elim
    openFile := fun h => h.elim
    closeFile := fun h => h.elim
    makeFile := fun h => h.elim
    bracket := fun h => h.elim
    restore := fun h => h.elim }
  exact {
    look := fun _ _ => ⟨changesOnly_of_ne (by simp), trivial⟩
    command := hcommand
    store := fun _ _ _ _ => ⟨changesOnly_of_ne (by simp), trivial⟩
    add := fun h => h.elim
    openFile := fun h => h.elim
    closeFile := fun _ entry => (made_entryClose_of (fun _ => rfl) (fun _ => rfl)
      (fun _ => trivial) entry).valid hsingle
    makeFile := fun h => h.elim
    bracket := fun h => h.elim
    restore := fun h => h.elim }

theorem quiet_setGiduid (uid gid : Int) : Made quietRole (setGiduid uid gid) :=
  made_setGiduid_of (fun _ => rfl) (fun _ => rfl) uid gid

theorem quiet_setStorageGiduid (storageId : Nat) : Made quietRole (setStorageGiduid storageId) :=
  made_setStorageGiduid_of quiet_setGiduid storageId

theorem quiet_restoreGiduid : Made quietRole restoreGiduid := made_restoreGiduid_of quiet_setGiduid

-- What changes no file is safe in any state.
theorem valid_quiet {P : World σ × Opened → Prop} {prog : M α} (h : Made quietRole prog) :
    Valid (tracker os) (ChangesOnly os target) P prog fun _ _ => True :=
  valid_weaken (h.valid quiet_keeps) (fun _ _ => trivial) fun _ _ _ => trivial

theorem valid_getCtx_known {P : World σ × Opened → Prop} {c : MtpCtx} {f : MtpCtx → M α}
    {Q : α → World σ × Opened → Prop} (hP : ∀ s, P s → s.1.ctx = c)
    (hf : Valid (tracker os) (ChangesOnly os target) P (f c) Q) :
    Valid (tracker os) (ChangesOnly os target) P (M.getCtx >>= f) Q := by
  refine @valid_getCtx_bind_of _ _ _ _ _ (fun s : World σ × Opened => s.1.ctx) _ _ (fun _ => rfl)
    (fun _ _ => changesOnly_of_ne (by simp)) fun ctx' => ?_
  have hknown : ∀ s, P s ∧ s.1.ctx = ctx' → ctx' = c := fun s hs => hs.2.symm.trans (hP s hs.1)
  refine valid_of_fact hknown fun heq => ?_
  rw [heq]
  exact valid_weaken hf (fun _ hs => hs.1) fun _ _ hs => hs

-- A part that only looks at the context and asks the system.
theorem valid_looks {ctx : MtpCtx} {prog : M α} (h : Made quietRole prog) (hl : Looks prog) :
    Valid (tracker os) (ChangesOnly os target) (fun s => s.1.ctx = ctx) prog
      fun value s => s.1.ctx = ctx ∧ ∃ t, value = (exec (World.handle os) prog ⟨ctx, t⟩).1 := by
  rintro s rfl
  obtain ⟨hvalue, hstate⟩ := exec_observe (h := World.handle os) noteOpened prog s
  refine ⟨(valid_quiet (P := fun _ => True) h s trivial).1, ?_, s.1.os, hvalue⟩
  rw [hstate]
  exact looks_exec hl s.1

theorem valid_looks_keeps {P : MtpCtx → Prop} {prog : M α} (h : Made quietRole prog)
    (hl : Looks prog) :
    Valid (tracker os) (ChangesOnly os target) (fun s => P s.1.ctx) prog
      fun _ s => P s.1.ctx := by
  refine fun s hs => ⟨(valid_quiet (P := fun _ => True) h s trivial).1, ?_⟩
  show P _
  rw [(exec_observe (h := World.handle os) noteOpened prog s).2, looks_exec hl s.1]
  exact hs

-- The object that a data phase is about.
def Held (handle : Nat) (p : EntryPtr) (w : World σ) : Prop :=
  w.ctx.getEntryByHandle handle = some p

theorem held_step {handle : Nat} {p : EntryPtr} {c : Cmd} (h : Held handle p w)
    (hc : ∀ op, c = .db op → op.keepsLookups = true) (hno : ∀ site q, c ≠ .flagDeleted site q)
    (hinit : c ≠ .initFsDb) (hdrop : c ≠ .dropFsDb) (hs : ∀ i storage, c ≠ .setStorage i storage) :
    Held handle p (World.handle os c w).2 := by
  cases c with
  | db op =>
      show (w.ctx.applyDb op).db.getEntryByHandle w.ctx.mtpGetStorageRoot handle = some p
      rcases w.ctx.applyDb_cases op with heq | heq
      · rw [heq]
        exact h
      · rw [heq, DbOp.getEntryByHandle_step _ _ (hc op rfl)]
        exact h
  | flagDeleted site q => exact absurd rfl (hno site q)
  | initFsDb => exact absurd rfl hinit
  | dropFsDb => exact absurd rfl hdrop
  | setStorage i storage => exact absurd rfl (hs i storage)
  | _ => exact h

theorem Held.of_ctx {handle : Nat} {p : EntryPtr} {ctx : MtpCtx}
    (h : ctx.getEntryByHandle handle = some p) (hw : w.ctx = ctx) : Held handle p w := by
  rw [Held, hw]
  exact h

theorem changesOnly_held {handle : Nat} {p : EntryPtr} {a : Action} (h : Held handle p s.1)
    (ha : a.MadeFor os s p) : ChangesOnly os (some handle) s (.act a) := by
  rintro a' heq -
  cases heq
  exact ⟨handle, rfl, p, h, ha⟩

-- The file that is opened is the one of the object.
theorem held_entryOpen {handle : Nat} {p : EntryPtr} {ctx : MtpCtx}
    (h : ctx.getEntryByHandle handle = some p) (flags : OpenFlags) :
    Valid (tracker os) (ChangesOnly os (some handle)) (fun s => s.1.ctx = ctx)
      (entryOpen p flags) fun _ s => Held handle p s.1 := by
  unfold entryOpen
  refine valid_getCtx_known (fun _ hs => hs) ?_
  have hend : ∀ value : Unit, Valid (tracker os) (ChangesOnly os (some handle))
      (fun s => Held handle p s.1) (do
        let ctx ← M.getCtx
        return (ctx.entry p).fileDescriptor) fun _ s => Held handle p s.1 := by
    intro _
    refine @valid_getCtx_bind_of _ _ _ _ _ (fun s : World σ × Opened => s.1.ctx) _ _
      (fun _ => rfl) (fun _ _ => changesOnly_of_ne (by simp)) fun ctx' => ?_
    exact valid_ret fun s hs => hs.1
  split
  · exact valid_ret fun s hs => Held.of_ctx h hs
  · refine valid_bind (valid_looks (made_entryPath p) (looks_entryPath p)) fun found => ?_
    have hrestore : Valid (tracker os) (ChangesOnly os (some handle))
        (fun s => Held handle p s.1) (do
          restoreGiduid
          let ctx ← M.getCtx
          return (ctx.entry p).fileDescriptor) fun _ s => Held handle p s.1 :=
      valid_bind (valid_looks_keeps (P := fun ctx => ctx.getEntryByHandle handle = some p)
        quiet_restoreGiduid looks_restoreGiduid) hend
    dsimp only
    split
    · rename_i path
      have hswitch : Valid (tracker os) (ChangesOnly os (some handle))
          (fun s : World σ × Opened => s.1.ctx = ctx ∧
            ∃ t, some path = (exec (World.handle os) (entryPath p) ⟨ctx, t⟩).1)
          (setStorageGiduid (ctx.entry p).storageId)
          fun _ s => s.1.ctx = ctx ∧ PathOf os s.1.ctx p path := by
        refine valid_weaken (valid_looks_keeps
          (P := fun ctx' => ctx' = ctx ∧ PathOf os ctx' p path) (quiet_setStorageGiduid _)
          (looks_setStorageGiduid _)) (fun s hs => ?_) fun _ _ hs => hs
        obtain ⟨hctx, t, ht⟩ := hs
        exact ⟨hctx, t, by rw [hctx]; exact ht.symm⟩
      refine valid_bind hswitch fun set => ?_
      split
      · have hopen : Valid (tracker os) (ChangesOnly os (some handle))
            (fun s : World σ × Opened => s.1.ctx = ctx ∧ PathOf os s.1.ctx p path)
            (M.act (.open (ctx.entry p).storageId path flags)) fun _ s => Held handle p s.1 :=
          valid_perform (fun s hs => changesOnly_held (Held.of_ctx h hs.1) hs.2)
            fun s hs => Held.of_ctx h hs.1
        have hset : ∀ file, Valid (tracker os) (ChangesOnly os (some handle))
            (fun s => Held handle p s.1) (M.db (.setFileDescriptor p file))
            fun _ s => Held handle p s.1 :=
          fun file => valid_command fun s hs => ⟨changesOnly_of_ne (by simp),
            held_step hs (by simp) (by simp) (by simp) (by simp) (by simp)⟩
        refine valid_bind hopen fun file => ?_
        exact valid_bind (valid_bind (hset file) fun _ => valid_ret fun _ hs => hs)
          fun _ => hrestore
      · exact valid_weaken hrestore (fun s hs => Held.of_ctx h hs.1) fun _ _ hs => hs
    · exact valid_weaken (hend ()) (fun s hs => Held.of_ctx h hs.1) fun _ _ hs => hs

-- The object with its open file.
def HeldOpen (os : Os σ) (handle : Nat) (p : EntryPtr) (file : Int) (s : World σ × Opened) : Prop :=
  Held handle p s.1 ∧ Owned os s p file

theorem changesOnly_entryOpen (hos : os.HasDescriptors isOpen) {handle : Nat} {p : EntryPtr}
    (hs : Tracked os isOpen s) (hdb : s.1.ctx.fsDb ≠ none)
    (h : s.1.ctx.getEntryByHandle handle = some p) (hopens : ¬ (Unset s p ∧ CannotOpen os s.1 p))
    (flags : OpenFlags) :
    Valid (tracker os) (ChangesOnly os (some handle)) (fun t => t = s) (entryOpen p flags)
      fun file t => file ≠ -1 → HeldOpen os handle p file t := by
  rintro t rfl
  obtain ⟨hsafe, hheld⟩ := held_entryOpen h flags t rfl
  exact ⟨hsafe, fun hfile =>
    ⟨hheld, ((opensOwned_iff hos hs hdb flags).mpr hopens).resolve_left hfile⟩⟩

-- What writes the payload to one open file.
def writesRole (file : Int) : Role where
  commands
    | .setTransferringFileData _ | .setSendObjInfo _ _ _ | .act .getCancelReq
    | .act (.readUsb _) => True
    | .act (.write _ file' _) => file' = file
    | _ => False
  inner _ _ := False
  adds := False
  opens := False
  makes := False
  closes := False
  switches := False
  receives := True
  sees := False

theorem writes_keeps (handle : Nat) (p : EntryPtr) (file : Int) :
    (writesRole file).Keeps (tracker os) (ChangesOnly os (some handle))
    (HeldOpen os handle p file) where
  look _ hs := ⟨changesOnly_of_ne (by simp), hs⟩
  command c hc s hs := by
    have hkeep : ¬ c.SetsDescriptor → ¬ c.ClearsDescriptor → Owned os (tracker os c s).2 p file :=
      fun hset hclear => hs.2.keep hset hclear
    cases c with
    | db op =>
        have hop : op.isOrdinary = true := by
          rcases hc with hc | hc | hc
          · exact hc
          · cases hc
          · exact hc.elim
        have hlookups : op.keepsLookups = true := by
          cases op <;> simp_all [DbOp.isOrdinary]
        refine ⟨changesOnly_of_ne (by simp), ?_, hkeep ?_ ?_⟩
        · exact held_step hs.1 (by rintro op' heq; cases heq; exact hlookups) (by simp) (by simp)
            (by simp) (by simp)
        · cases op <;> simp_all [DbOp.isOrdinary, Cmd.SetsDescriptor]
        · cases op <;> simp_all [DbOp.isOrdinary, Cmd.ClearsDescriptor]
    | act a =>
        refine ⟨?_, hs.1, hkeep ?_ id⟩
        · by_cases ha : a.changes = none
          · exact changesOnly_act ha
          · refine changesOnly_held hs.1 ?_
            rcases hc with hc | hc | hc
            · exact absurd (by cases a <;> simp_all [Cmd.isOrdinary, Action.isOrdinary,
                Action.changes]) ha
            · exact absurd (by cases a <;> simp_all [Cmd.isSending, Action.changes]) ha
            · cases a with
              | write storageId file' bytes =>
                  have hfile : file' = file := hc
                  rw [hfile]
                  exact hs.2
              | readUsb maxsize => exact absurd rfl ha
              | getCancelReq => exact absurd rfl ha
              | _ => exact hc.elim
        · cases a <;> simp_all [Cmd.isOrdinary, Action.isOrdinary, Cmd.isSending, writesRole,
            Cmd.SetsDescriptor]
    | flagDeleted site q => simp [Cmd.isOrdinary, Cmd.isSending, writesRole] at hc
    | initFsDb => simp [Cmd.isOrdinary, Cmd.isSending, writesRole] at hc
    | dropFsDb => simp [Cmd.isOrdinary, Cmd.isSending, writesRole] at hc
    | setStorage i storage => simp [Cmd.isOrdinary, Cmd.isSending, writesRole] at hc
    | _ => exact ⟨changesOnly_of_ne (by simp), hs.1, hkeep id id⟩
  store _ _ _ hs := ⟨changesOnly_of_ne (by simp), hs.1, hs.2.keep id id⟩
  add h := h.elim
  openFile h := h.elim
  closeFile h := h.elim
  makeFile h := h.elim
  bracket h := h.elim
  restore h := h.elim

theorem writes_writesRole (file : Int) : (writesRole file).Writes file :=
  ⟨trivial, trivial, fun _ _ => rfl, fun _ => trivial, fun _ _ _ => trivial⟩

theorem changesOnly_receiveObject (handle : Nat) (p : EntryPtr) (file : Int) (hdr : Buffer)
    (size : Nat) (isPartial : Bool) :
    Valid (tracker os) (ChangesOnly os (some handle)) (HeldOpen os handle p file)
      (receiveObject hdr size isPartial p file) fun _ _ => True := by
  have hk := @writes_keeps _ os handle p file
  have hend : ∀ next : Int, Valid (tracker os) (ChangesOnly os (some handle))
      (HeldOpen os handle p file) (do
        let backlog ← M.query .usbBacklog
        receiveBlocks p file (backlog + 1) next
        endReceive isPartial p file) fun _ _ => True := fun next =>
    valid_bind ((made_query _).valid hk) fun _ =>
      valid_bind ((made_receiveBlocks (writes_writesRole file) _ _ _).valid hk) fun _ =>
        valid_quiet (made_endReceive ⟨trivial, fun _ => trivial, rfl, rfl⟩ _ _ _)
  have hcount : ∀ sz : Int, Valid (tracker os) (ChangesOnly os (some handle))
      (HeldOpen os handle p file) (do
        let ctx ← M.getCtx
        let full := (ctx.usbRdBufferMaxSize : Int)
        let next := if sz = full - MTP_HEADER_SIZE ∨ (isPartial = true ∧ ctx.sendObjInfoSize ≠ 0)
          then full else sz
        let backlog ← M.query .usbBacklog
        receiveBlocks p file (backlog + 1) next
        endReceive isPartial p file) fun _ _ => True := fun sz =>
    @valid_getCtx_bind_of _ _ _ _ _ (fun s : World σ × Opened => s.1.ctx) _ _ (fun _ => rfl)
      (fun _ _ => changesOnly_of_ne (by simp)) fun ctx =>
        valid_weaken (hend _) (fun _ hs => hs.1) fun _ _ hs => hs
  unfold receiveObject
  refine valid_bind ((made_cmd _ (Or.inr trivial)).valid hk) fun _ => ?_
  refine @valid_getCtx_bind_of _ _ _ _ _ (fun s : World σ × Opened => s.1.ctx) _ _ (fun _ => rfl)
    (fun _ _ => changesOnly_of_ne (by simp)) fun ctx => ?_
  refine valid_weaken (P := HeldOpen os handle p file) ?_ (fun _ hs => hs.1) fun _ _ hs => hs
  refine valid_bind ((made_act _ (Or.inl rfl)).valid hk) fun _ => ?_
  dsimp only
  split
  · exact valid_bind ((made_writePayload (writes_writesRole file) _ _).valid hk) fun _ => hcount _
  · exact hcount _

-- The target is the latched object, if that one may be changed.
def TargetFits (target : Option Nat) (ctx : MtpCtx) (handle : Nat) : Prop :=
  handle ≠ NO_HANDLE → ∀ p, ctx.getEntryByHandle handle = some p →
    ctx.checkHandleAccess (some p) 0 true = none → target = some handle

-- The data goes into a file of the latched object, if that one may be changed.
def WritesFit (os : Os σ) (target : Option Nat) (s : World σ × Opened) : Prop :=
  s.1.ctx.sendObjInfoHandle ≠ NO_HANDLE →
    ∀ p, s.1.ctx.getEntryByHandle s.1.ctx.sendObjInfoHandle = some p →
      s.1.ctx.checkHandleAccess (some p) 0 true = none →
        target = some s.1.ctx.sendObjInfoHandle ∧ ¬ (Unset s p ∧ CannotOpen os s.1 p)

theorem changesOnly_sendObjectData (hos : os.HasDescriptors isOpen) {hdr : Buffer} (size : Nat)
    (hs : Tracked os isOpen s) (hdb : s.1.ctx.fsDb ≠ none)
    (hhandle : s.1.ctx.sendObjInfoHandle ≠ NO_HANDLE) (hw : WritesFit os target s) :
    Valid (tracker os) (ChangesOnly os target) (fun t => t = s) (sendObjectData hdr size)
      fun _ _ => True := by
  unfold sendObjectData
  refine valid_getCtx_known (c := s.1.ctx) (fun _ ht => by rw [ht]) ?_
  dsimp only
  split
  · rename_i p hfound
    split
    · exact valid_ret fun _ _ => trivial
    · rename_i haccess
      obtain ⟨htarget, hopens⟩ := hw hhandle p hfound haccess
      rw [htarget]
      refine valid_bind (changesOnly_entryOpen hos hs hdb hfound hopens _) fun file => ?_
      split
      · rename_i hfile
        refine valid_weaken (valid_bind (changesOnly_receiveObject _ p file _ _ _) fun done => ?_)
          (fun _ h => h hfile) fun _ _ h => h
        split
        · exact valid_ret fun _ _ => trivial
        · exact valid_ret fun _ _ => trivial
      · exact valid_ret fun _ _ => trivial
  · exact valid_ret fun _ _ => trivial

theorem changesOnly_mtpOpSendObject (hos : os.HasDescriptors isOpen) {hdr : Buffer} (size : Nat)
    (hdata : hdrOperation hdr = MTP_CONTAINER_TYPE_DATA) (hs : Tracked os isOpen s)
    (hw : (os.act .lockInotifyMutex s.1.os).1 = true →
      WritesFit os target (tracker os (.act .lockInotifyMutex) s).2) :
    Valid (tracker os) (ChangesOnly os target) (fun t => t = s) (mtpOpSendObject hdr size)
      fun _ _ => True := by
  let locked : World σ × Opened := (tracker os (.act .lockInotifyMutex) s).2
  have hlock : Valid (tracker os) (ChangesOnly os target) (fun t => t = s)
      (M.act .lockInotifyMutex) fun taken t => t = locked ∧
        taken = (os.act .lockInotifyMutex s.1.os).1 :=
    valid_perform (fun _ _ => changesOnly_act rfl) (by rintro t rfl; exact ⟨rfl, rfl⟩)
  unfold mtpOpSendObject inSession
  refine valid_getCtx_known (c := s.1.ctx) (fun _ ht => by rw [ht]) ?_
  split
  · rename_i hsession
    refine valid_bind hlock fun taken => ?_
    refine valid_of_fact (fun t ht => ht.2) fun htaken => ?_
    split
    · rename_i hyes
      refine valid_weaken (P := fun t => t = locked) (valid_bind (Q := fun _ _ => True) ?_
        fun answer => valid_quiet (made_bind (made_act _ (Or.inl rfl)) fun _ => made_pure _))
        (fun _ ht => ht.1) fun _ _ ht => ht
      unfold sendObjectPhase sendObjectRest
      rw [hdata, if_neg (by simp [MTP_CONTAINER_TYPE_DATA, MTP_CONTAINER_TYPE_COMMAND])]
      refine valid_getCtx_known (c := s.1.ctx) (fun _ ht => by rw [ht]; rfl) ?_
      split
      · exact valid_ret fun _ _ => trivial
      · rename_i hhandle
        rw [if_pos rfl]
        exact changesOnly_sendObjectData (s := locked) hos size (tracked_step hos id hs)
          (Option.isSome_iff_ne_none.mp hsession) hhandle (hw (htaken.symm.trans hyes))
    · exact valid_ret fun _ _ => trivial
  · exact valid_ret fun _ _ => trivial

-- The old path that is renamed is the one of the object.
theorem changesOnly_renameObject {handle : Nat} {p : EntryPtr} {ctx : MtpCtx}
    (h : ctx.getEntryByHandle handle = some p) (hdr : Buffer) :
    Valid (tracker os) (ChangesOnly os (some handle)) (fun s => s.1.ctx = ctx)
      (renameObject hdr p) fun _ _ => True := by
  have hdone : ∀ (newFilename : CString) (renamed : Bool), Valid (tracker os)
      (ChangesOnly os (some handle)) (fun _ : World σ × Opened => True) (do
        restoreGiduid
        if renamed then
          let mem ← M.act .entryMemory
          M.db_ (.renameEntry mem p newFilename)
          return MTP_RESPONSE_OK
        else
          return MTP_RESPONSE_GENERAL_ERROR) fun _ _ => True := by
    intro newFilename renamed
    refine valid_quiet (made_bind quiet_restoreGiduid fun _ => ?_)
    have hrename : ∀ mem, Made quietRole (M.db_ (.renameEntry mem p newFilename)) :=
      fun mem => made_db_ _ (Or.inr trivial)
    grind
  have hbuild : Valid (tracker os) (ChangesOnly os (some handle)) (fun s => s.1.ctx = ctx)
      (buildFullPath (ctx.mtpGetStorageRoot (ctx.entry p).storageId) p)
      fun found s => s.1.ctx = ctx ∧ ∀ path ∈ found, PathOf os ctx p path := by
    refine valid_weaken (valid_looks (made_getCtx (fun _ _ _ => rfl) fun _ =>
      made_buildFullPathNamed _ _ _) (looks_getCtx_bind fun _ => looks_buildFullPathNamed _ _ _))
      (fun _ hs => hs) fun found s hs => ⟨hs.1, fun path hpath => ?_⟩
    obtain ⟨-, t, ht⟩ := hs
    exact ⟨t, ht.symm.trans hpath⟩
  unfold renameObject
  refine valid_getCtx_known (fun _ hs => hs) (valid_bind hbuild fun found => ?_)
  split
  · rename_i path
    have hkeep : ∀ {γ : Type} {prog : M γ}, Made quietRole prog → Looks prog →
        Valid (tracker os) (ChangesOnly os (some handle))
          (fun s => s.1.ctx = ctx ∧ PathOf os s.1.ctx p path) prog
          fun _ s => s.1.ctx = ctx ∧ PathOf os s.1.ctx p path := fun hm hl =>
      valid_looks_keeps (P := fun ctx' => ctx' = ctx ∧ PathOf os ctx' p path) hm hl
    refine valid_weaken (P := fun s => s.1.ctx = ctx ∧ PathOf os s.1.ctx p path) ?_
      (fun s hs => ⟨hs.1, hs.1.symm ▸ hs.2 path rfl⟩) fun _ _ hs => hs
    refine valid_bind (hkeep (made_getObjectPropFilename hdr) (looks_getObjectPropFilename hdr))
      fun newName => ?_
    split
    · rename_i newFilename
      refine valid_bind (hkeep (made_buildFullPathNamed _ _ _) (looks_buildFullPathNamed _ _ _))
        fun newPath => ?_
      split
      · rename_i path2
        refine valid_bind (hkeep (quiet_setStorageGiduid _) (looks_setStorageGiduid _))
          fun set => ?_
        split
        · refine valid_bind ?_ (hdone newFilename)
          exact valid_perform (fun s hs => changesOnly_held (Held.of_ctx h hs.1) hs.2)
            fun _ _ => trivial
        · exact valid_bind (valid_ret fun _ _ => trivial) (hdone newFilename)
      · exact valid_ret fun _ _ => trivial
    · exact valid_ret fun _ _ => trivial
  · exact valid_ret fun _ _ => trivial

theorem changesOnly_setObjectPropValue {ctx : MtpCtx} {handle : Nat}
    (ht : TargetFits target ctx handle) (hdr : Buffer) (propCode : Nat) :
    Valid (tracker os) (ChangesOnly os target) (fun s => s.1.ctx = ctx)
      (setObjectPropValue hdr handle propCode) fun _ _ => True := by
  unfold setObjectPropValue
  split
  · exact valid_ret fun _ _ => trivial
  · rename_i hhandle
    split
    · refine valid_getCtx_known (fun _ hs => hs) ?_
      split
      · rename_i p hfound
        split
        · exact valid_ret fun _ _ => trivial
        · rename_i haccess
          have htarget := ht hhandle p hfound haccess
          rw [htarget]
          exact changesOnly_renameObject hfound hdr
      · exact valid_ret fun _ _ => trivial
    · exact valid_ret fun _ _ => trivial

theorem changesOnly_mtpOpSetObjectPropValue {c : MtpCtx} {hdr : Buffer}
    (hdata : hdrOperation hdr = MTP_CONTAINER_TYPE_DATA)
    (ht : TargetFits target c c.setObjectPropValueHandle) :
    Valid (tracker os) (ChangesOnly os target) (fun s => s.1.ctx = c)
      (mtpOpSetObjectPropValue hdr) fun _ _ => True := by
  unfold mtpOpSetObjectPropValue inSession
  refine valid_getCtx_known (fun _ hs => hs) ?_
  split
  · rw [hdata, if_neg (by simp [MTP_CONTAINER_TYPE_DATA, MTP_CONTAINER_TYPE_COMMAND])]
    refine valid_getCtx_known (fun _ hs => hs) ?_
    refine valid_bind (changesOnly_setObjectPropValue ht hdr _) fun code => ?_
    have hlatch : ∀ propCode, Made quietRole (M.cmd (.setObjectPropValue NO_HANDLE propCode)) :=
      fun _ => made_cmd _ (Or.inr trivial)
    exact valid_quiet (made_bind (hlatch _) fun _ => made_pure _)
  · exact valid_ret fun _ _ => trivial

-- A packet with a data container.
theorem changesOnly_mtpIncomingPacket (hos : os.HasDescriptors isOpen) (hs : Tracked os isOpen s)
    {bytes : List UInt8} (hlatch : hasLatch (s.1.ctx.header bytes))
    (hrename : hdrCode (s.1.ctx.header bytes) = MTP_OPERATION_SET_OBJECT_PROP_VALUE →
      TargetFits target s.1.ctx s.1.ctx.setObjectPropValueHandle)
    (hwrite : hdrCode (s.1.ctx.header bytes) ≠ MTP_OPERATION_SET_OBJECT_PROP_VALUE →
      (os.act .lockInotifyMutex s.1.os).1 = true →
        WritesFit os target (s.1.receiving os (s.1.ctx.header bytes), s.2)) :
    Safe (tracker os) (ChangesOnly os target) (mtpIncomingPacket bytes) s := by
  obtain ⟨hdata, hcode⟩ := hlatch
  let filled : World σ × Opened := (tracker os (.setRdbuffer (s.1.ctx.header bytes)) s).2
  have hset : Valid (tracker os) (ChangesOnly os target) (fun t => t = s)
      (M.cmd (.setRdbuffer (s.1.ctx.header bytes))) fun _ t => t = filled :=
    valid_perform (fun _ _ => changesOnly_of_ne (by simp)) (by rintro t rfl; rfl)
  have hop : Valid (tracker os) (ChangesOnly os target) (fun t => t = filled)
      (performOperation (s.1.ctx.header bytes) (bytes.take s.1.ctx.usbRdBufferMaxSize).length)
      fun _ _ => True := by
    by_cases hset : hdrCode (s.1.ctx.header bytes) = MTP_OPERATION_SET_OBJECT_PROP_VALUE
    · have hlookup : operations.lookup (hdrCode (s.1.ctx.header bytes)) =
          some fun hdr _ => mtpOpSetObjectPropValue hdr := by
        rw [hset]
        rfl
      rw [performOperation_eq hlookup]
      have hrenames : Valid (tracker os) (ChangesOnly os target)
          (fun t => t.1.ctx = filled.1.ctx)
          (mtpOpSetObjectPropValue (s.1.ctx.header bytes)) fun _ _ => True :=
        changesOnly_mtpOpSetObjectPropValue hdata (hrename hset)
      exact valid_weaken hrenames (fun _ h => by rw [h]) fun _ _ h => h
    · rw [sendObject_performed (hcode.imp_right fun h => h.resolve_right hset)]
      exact changesOnly_mtpOpSendObject (s := filled) hos _ hdata (tracked_step hos id hs)
        (hwrite hset)
  refine valid_safe (P := fun t => t = s) (Q := fun _ _ => True) ?_ rfl
  unfold mtpIncomingPacket
  refine valid_getCtx_known (c := s.1.ctx) (fun _ h => by rw [h]) (valid_bind hset fun _ => ?_)
  split
  · exact valid_bind hop fun response => valid_quiet (made_sendResponse _ _)
  · exact valid_ret fun _ _ => trivial

-- The object of a data container is the latched one.
theorem latched_target {t : Transactions} {hdr : Buffer} (hl : Latched (w, t))
    (ho : (t.target hdr).isSome = true) (hlatch : hasLatch hdr) :
    t.target hdr = some (w.ctx.latchedHandle hdr) := by
  have hawaited := hl.awaited
  have hrenamed := hl.renamed
  have hcode := hlatch.2
  rw [MtpCtx.latchedHandle]
  rw [Transactions.target] at ho ⊢
  split at ho
  · rename_i hsend
    rw [if_pos hsend, hsend, if_neg (by decide)]
    split at ho
    · rename_i handle begun hobject
      rw [hobject] at hawaited
      exact congrArg some hawaited.symm
    · cases ho
  · rename_i hsend
    rw [if_neg hsend]
    split at ho
    · rename_i hpart
      rw [if_pos hpart, hpart, if_neg (by decide)]
      split at ho
      · rename_i handle hobject
        rw [hobject] at hawaited
        exact congrArg some hawaited.symm
      · cases ho
    · rename_i hpart
      rw [if_neg hpart, if_pos ((hcode.resolve_left hsend).resolve_left hpart)]
      obtain ⟨handle, hhandle⟩ := Option.isSome_iff_exists.mp ho
      rw [hrenamed handle hhandle, hhandle]

theorem MtpCtx.Unlatched.no_access {hdr : Buffer} (ho : w.ctx.Unlatched hdr)
    (hhandle : w.ctx.latchedHandle hdr ≠ NO_HANDLE) {p : EntryPtr}
    (hfound : w.ctx.getEntryByHandle (w.ctx.latchedHandle hdr) = some p) :
    w.ctx.checkHandleAccess (some p) 0 true ≠ none := by
  rw [← Option.isSome_iff_ne_none]
  exact ho.resolve_left hhandle p hfound

theorem rightful_of_inOrder (hos : os.HasDescriptors isOpen) {t : Transactions}
    (hs : Tracked os isOpen s) (hl : Latched (s.1, t)) (event : Event σ)
    (ho : InOrder os (s, t) event) : Rightful os (s, t) event := by
  cases event with
  | packet bytes =>
      intro hlatch
      refine changesOnly_mtpIncomingPacket hos hs hlatch (fun hcode => ?_) fun hcode hlock => ?_
      · have hlatched : s.1.ctx.latchedHandle (s.1.ctx.header bytes) =
            s.1.ctx.setObjectPropValueHandle := if_pos hcode
        intro hhandle p hfound haccess
        rcases ho hlatch with ⟨htarget, -⟩ | hno | hno
        · rw [latched_target hl htarget hlatch, hlatched]
        · rw [← hlatched] at hhandle hfound
          exact absurd haccess (hno.no_access hhandle hfound)
        · exact absurd hcode hno.1
      · have hlatched : s.1.ctx.latchedHandle (s.1.ctx.header bytes) =
            s.1.ctx.sendObjInfoHandle := if_neg hcode
        intro hhandle p hfound haccess
        rcases ho hlatch with ⟨htarget, hopens⟩ | hno | hno
        · refine ⟨?_, hopens.resolve_left hcode p hfound⟩
          rw [latched_target hl htarget hlatch, hlatched]
          rfl
        · have hno' := hno.no_access (p := p)
          rw [hlatched] at hno'
          exact absurd haccess (hno' hhandle hfound)
        · rw [hno.2] at hlock
          cases hlock
  | _ => trivial

section Samples

instance (ctx : MtpCtx) (hdr : Buffer) : Decidable (ctx.Unlatched hdr) :=
  inferInstanceAs (Decidable (_ ∨ ∀ p ∈ ctx.getEntryByHandle (ctx.latchedHandle hdr),
    (ctx.checkHandleAccess (some p) 0 true).isSome = true))

instance decidableCannotOpen (os : Os σ) (w : World σ) (p : EntryPtr) :
    Decidable (CannotOpen os w p) :=
  inferInstanceAs (Decidable (_ ∨ _))

instance (os : Os σ) (s : World σ × Opened) : Decidable (CanReceive os s) :=
  inferInstanceAs (Decidable (∀ p ∈ s.1.ctx.getEntryByHandle s.1.ctx.sendObjInfoHandle,
    ¬ (Unset s p ∧ CannotOpen os s.1 p)))

instance (os : Os σ) (w : World σ) (hdr : Buffer) : Decidable (NotLocked os w hdr) :=
  inferInstanceAs (Decidable (_ ∧ _))

instance (os : Os σ) (s : (World σ × Opened) × Transactions) :
    (event : Event σ) → Decidable (InOrder os s event)
  | .packet bytes => inferInstanceAs (Decidable (hasLatch (s.1.1.ctx.header bytes) →
      (s.2.target (s.1.1.ctx.header bytes)).isSome = true ∧
          (hdrCode (s.1.1.ctx.header bytes) = MTP_OPERATION_SET_OBJECT_PROP_VALUE ∨
            CanReceive os (s.1.1.receiving os (s.1.1.ctx.header bytes), s.1.2)) ∨
        s.1.1.ctx.Unlatched (s.1.1.ctx.header bytes) ∨
          NotLocked os s.1.1 (s.1.1.ctx.header bytes)))
  | .inotify _ => isTrue trivial
  | .message _ => isTrue trivial
  | .outside _ => isTrue trivial

-- A new file "g" is made, written and renamed, and then written in part.
def properTransactions : List (Event MemSystem) :=
  [openSession, getObjectHandles 0xFFFF0001 0] ++ sendObjectInfo 0xFFFF0001 0 0 [0x67] ++
    sendObject [1, 2] ++ setObjectName 2 [0x68] ++ sendPartialObject 2 [3]

theorem properTransactions_leavesOpen :
    ∀ event ∈ properTransactions, event.LeavesOpen MemSystem.HasOpen := by
  intro event h
  simp only [properTransactions, openSession, getObjectHandles, sendObjectInfo, sendObject,
    setObjectName, sendPartialObject, List.mem_append, List.mem_cons, List.not_mem_nil,
    or_false] at h
  rcases h with (((((rfl | rfl) | rfl | rfl) | rfl | rfl) | rfl | rfl) | rfl | rfl)
  all_goals first
    | trivial
    | exact fun _ _ hopen => hopen.of_eq rfl rfl

-- The handle 1 of "/a/f" stays latched when the session is closed, and is the
-- one of "/b/f" in the next session.
def staleLatch : List (Event MemSystem) :=
  [openSession, getObjectHandles 0xFFFF0001 0] ++ sendPartialObject 1 [8] ++
    [closeSession, openSession, getObjectHandles 0xFFFF0002 0]

end Samples

end Umtp
