import Umtp.StorageRegistry

namespace Umtp

open Lib Lib.Prog Handles

variable {σ α : Type} {os : Os σ} {ctx ctx' : MtpCtx} {w : World σ} {hdr : Buffer} {p q : EntryPtr}

-- The storage a command changes a file or a folder of, and the paths it names.
def Cmd.changes : Cmd → Option Nat
  | act a => a.changes
  | _ => none

def Cmd.paths : Cmd → List CString
  | act a => a.paths
  | _ => []

-- The storages let a request change what lies at the paths. These begin with the root
-- as strings, which is all that `strncmp` compares. A write goes by the storage of
-- the entry that is written for, whatever file its descriptor is open on. A locked
-- storage is asked about by every request but SendObjectInfo.
structure MtpCtx.Permits (ctx : MtpCtx) (hdr : Buffer) (storageId : Nat) (paths : List CString) :
    Prop where
  below : ∃ root, ctx.mtpGetStorageRoot storageId = some root ∧ ∀ path ∈ paths, root <+: path
  writable : hasFlag (ctx.mtpGetStorageFlags storageId) UMTP_STORAGE_READONLY = false
  unlocked : hdrCode hdr ≠ MTP_OPERATION_SEND_OBJECT_INFO →
    hasFlag (ctx.mtpGetStorageFlags storageId) UMTP_STORAGE_LOCKED = false

namespace MtpCtx

theorem mtpGetStorageRoot_isSome {storageId : Nat}
    (h : ctx.mtpGetStorageFlags storageId ≠ NO_STORAGE_FLAGS) :
    (ctx.mtpGetStorageRoot storageId).isSome = true := by
  rw [mtpGetStorageFlags] at h
  rw [mtpGetStorageRoot]
  cases hindex : ctx.mtpGetStorageIndexById storageId with
  | none =>
      rw [hindex] at h
      exact absurd rfl h
  | some i =>
      have hi := List.find?_some hindex
      rw [Bool.and_eq_true] at hi
      exact hi.1

theorem Permits.congr {storageId : Nat} {paths : List CString} (hs : ctx'.storages = ctx.storages)
    (h : ctx.Permits hdr storageId paths) : ctx'.Permits hdr storageId paths := by
  have hflags : ctx'.mtpGetStorageFlags = ctx.mtpGetStorageFlags := flags_eq_of_storages hs
  have hroot : ctx'.mtpGetStorageRoot = ctx.mtpGetStorageRoot := root_eq_of_storages hs
  exact ⟨by rw [hroot]; exact h.below, by rw [hflags]; exact h.writable,
    by rw [hflags]; exact h.unlocked⟩

-- What the guard of the single requests says of the storage.
theorem checkHandleAccess_granted {handle : Nat}
    (h : ctx.checkHandleAccess (some p) handle true = none) :
    ctx.mtpGetStorageFlags (ctx.entry p).storageId ≠ NO_STORAGE_FLAGS ∧
      hasFlag (ctx.mtpGetStorageFlags (ctx.entry p).storageId) UMTP_STORAGE_LOCKED = false ∧
      hasFlag (ctx.mtpGetStorageFlags (ctx.entry p).storageId) UMTP_STORAGE_READONLY = false := by
  rw [checkHandleAccess] at h
  dsimp only [Option.orElse] at h
  by_cases hknown : ctx.mtpGetStorageFlags (ctx.entry p).storageId = NO_STORAGE_FLAGS
  · rw [if_pos hknown] at h
    cases h
  · rw [if_neg hknown] at h
    by_cases hlocked :
        hasFlag (ctx.mtpGetStorageFlags (ctx.entry p).storageId) UMTP_STORAGE_LOCKED = true
    · rw [if_pos hlocked] at h
      cases h
    · rw [if_neg hlocked] at h
      by_cases hro :
          hasFlag (ctx.mtpGetStorageFlags (ctx.entry p).storageId) UMTP_STORAGE_READONLY = true
      · rw [if_pos ⟨hro, rfl⟩] at h
        cases h
      · exact ⟨hknown, Bool.eq_false_of_not_eq_true hlocked, Bool.eq_false_of_not_eq_true hro⟩

-- The entry whose storage a request changes files of.
def writtenEntry (ctx : MtpCtx) (hdr : Buffer) : Option EntryPtr :=
  if hdrCode hdr = MTP_OPERATION_DELETE_OBJECT ∨ hdrCode hdr = MTP_OPERATION_TRUNCATE_OBJECT then
    ctx.getEntryByHandle (param hdr 0)
  else if hdrCode hdr = MTP_OPERATION_SEND_OBJECT ∨
      hdrCode hdr = MTP_OPERATION_SEND_PARTIAL_OBJECT then
    ctx.getEntryByHandle ctx.sendObjInfoHandle
  else if hdrCode hdr = MTP_OPERATION_SET_OBJECT_PROP_VALUE then
    ctx.getEntryByHandle ctx.setObjectPropValueHandle
  else
    ctx.getEntryByHandleAndStorageid (newParent hdr) (param hdr 0)

theorem Writes.writtenEntry_eq (h : ctx.Writes hdr p) : ctx.writtenEntry hdr = some p := by
  cases h with
  | object code found granted => rw [writtenEntry, if_pos code, found]
  | content code data found granted =>
      rw [writtenEntry, if_neg ?_, if_pos code, found]
      rcases code with code | code <;> rw [code] <;> decide
  | name code data found granted =>
      rw [writtenEntry, if_neg (by rw [code]; decide), if_neg (by rw [code]; decide),
        if_pos code, found]
  | newObject code found isDir known writable =>
      rw [writtenEntry, if_neg (by rw [code]; decide), if_neg (by rw [code]; decide),
        if_neg (by rw [code]; decide), found]

-- No request both reads files of an entry and changes some.
def WRITING_OPERATIONS : List Nat :=
  [MTP_OPERATION_DELETE_OBJECT, MTP_OPERATION_TRUNCATE_OBJECT, MTP_OPERATION_SEND_OBJECT,
    MTP_OPERATION_SEND_PARTIAL_OBJECT, MTP_OPERATION_SET_OBJECT_PROP_VALUE,
    MTP_OPERATION_SEND_OBJECT_INFO]

theorem Writes.code_mem (h : ctx.Writes hdr p) : hdrCode hdr ∈ WRITING_OPERATIONS := by
  cases h with
  | object code found granted => rcases code with code | code <;> rw [code] <;> decide
  | content code data found granted => rcases code with code | code <;> rw [code] <;> decide
  | name code data found granted => rw [code]; decide
  | newObject code found isDir known writable => rw [code]; decide

theorem Reads.code_not_mem (h : ctx.Reads hdr p) : hdrCode hdr ∉ WRITING_OPERATIONS := by
  cases h with
  | properties code found => rcases code with code | code <;> rw [code] <;> decide
  | content code found granted => rcases code with code | code | code <;> rw [code] <;> decide
  | folder code found => rw [code]; decide

-- The storage of the entry is registered and writable when the request is
-- carried out.
theorem Writes.flags (h : ctx.Writes hdr p) :
    ctx.mtpGetStorageFlags (ctx.entry p).storageId ≠ NO_STORAGE_FLAGS ∧
      hasFlag (ctx.mtpGetStorageFlags (ctx.entry p).storageId) UMTP_STORAGE_READONLY = false ∧
      (hdrCode hdr ≠ MTP_OPERATION_SEND_OBJECT_INFO →
        hasFlag (ctx.mtpGetStorageFlags (ctx.entry p).storageId) UMTP_STORAGE_LOCKED = false) := by
  cases h with
  | object code found granted =>
      obtain ⟨hknown, hlocked, hro⟩ := checkHandleAccess_granted granted
      exact ⟨hknown, hro, fun _ => hlocked⟩
  | content code data found granted =>
      obtain ⟨hknown, hlocked, hro⟩ := checkHandleAccess_granted granted
      exact ⟨hknown, hro, fun _ => hlocked⟩
  | name code data found granted =>
      obtain ⟨hknown, hlocked, hro⟩ := checkHandleAccess_granted granted
      exact ⟨hknown, hro, fun _ => hlocked⟩
  | newObject code found isDir known writable =>
      have hid : (ctx.entry p).storageId = param hdr 0 :=
        (getEntryByHandleAndStorageid_live found).2.2
      rw [hid]
      exact ⟨known, writable, fun hne => absurd code hne⟩

-- What is within the footprint of a request is permitted.
theorem permits_of_within {c : Cmd} (hc : c.Within (requestFootprint ctx hdr)) {storageId : Nat}
    (hchange : c.changes = some storageId) : ctx.Permits hdr storageId c.paths := by
  cases c with
  | act a =>
      obtain ⟨hpaths, hids⟩ := hc
      obtain ⟨p, hw, hid⟩ := hids storageId hchange
      obtain ⟨hknown, hro, hlocked⟩ := hw.flags
      rw [hid] at hknown hro hlocked
      obtain ⟨root, hroot⟩ := Option.isSome_iff_exists.mp (mtpGetStorageRoot_isSome hknown)
      refine ⟨⟨root, hroot, fun path hpath => ?_⟩, hro, hlocked⟩
      have hrootOf : ctx.rootOf p = root := by rw [rootOf, hid, hroot]; rfl
      rcases hpaths path hpath with ⟨q, hq, hbelow⟩ | ⟨hlist, -⟩
      · rcases hq with hq | hq
        · exact absurd hw.code_mem hq.code_not_mem
        · have hqp : q = p :=
            Option.some.inj (hq.writtenEntry_eq.symm.trans hw.writtenEntry_eq)
          rw [← hrootOf, ← hqp]
          exact hbelow
      · have hmem := hw.code_mem
        rw [hlist] at hmem
        exact absurd hmem (by decide)
  | _ => cases hchange

end MtpCtx

def stillFootprint : Footprint := { Footprint.any with changes := fun _ => False }

-- The opening and closing of a session and the messages change no file.
def stillRole : Role where
  commands c := c.changes = none
  inner _ c := c.changes = none
  adds := True
  opens := False
  makes := False
  closes := True
  switches := False
  receives := False
  sees := True

theorem changes_eq_none_of_basic {c : Cmd}
    (hc : c.isOrdinary = true ∨ c.isSending = true) : c.changes = none := by
  cases c with
  | act a =>
      cases a with
      | mkdir _ _ | truncate64 _ _ _ | rename _ _ _ | remove _ _ | write _ _ _ | «open» _ _ _ =>
          rcases hc with hc | hc <;> cases hc
      | _ => rfl
  | _ => rfl

theorem changes_eq_none_of_within {fp : Footprint} (hfp : ∀ storageId, ¬ fp.changes storageId)
    {c : Cmd} (hc : c.Within fp) : c.changes = none := by
  cases c with
  | act a => exact Option.eq_none_iff_forall_not_mem.mpr fun id hid => hfp id (hc.2 id hid)
  | _ => rfl

theorem stillRole_keeps : stillRole.Keeps (World.handle os) (fun _ c => c.changes = none)
    fun _ : World σ => True where
  look _ _ := ⟨rfl, trivial⟩
  command c hc w _ := by
    rcases hc with hc | hc | hc
    · exact ⟨changes_eq_none_of_basic (Or.inl hc), trivial⟩
    · exact ⟨changes_eq_none_of_basic (Or.inr hc), trivial⟩
    · exact ⟨hc, trivial⟩
  store h := h.elim
  add _ _ _ _ := by
    refine valid_bind (valid_command fun _ _ => ⟨rfl, trivial⟩) fun ctx => ?_
    split
    · exact valid_ret fun _ hw => hw
    · exact valid_bind (valid_command fun _ _ => ⟨rfl, trivial⟩) fun mem =>
        valid_command fun _ _ => ⟨rfl, trivial⟩
  openFile h := h.elim
  closeFile _ entry := by
    have hclose : Uses AnyAnswer (Cmd.Within (stillFootprint))
        (entryClose entry) := uses_entryClose entry
    exact fun w _ => ⟨fun step hm =>
      changes_eq_none_of_within (fun _ => id) (uses_trace hclose _ w step hm), trivial⟩
  makeFile h := h.elim
  bracket h := h.elim
  restore h := h.elim

theorem Made.changes_eq_none {prog : M α} (hm : Made stillRole prog) (w : World σ) :
    ∀ step ∈ trace (World.handle os) prog w, step.2.changes = none :=
  (hm.valid stillRole_keeps w trivial).1

theorem stillRole_manages : stillRole.Manages := ⟨fun _ _ => rfl, fun _ => rfl, fun _ _ => rfl⟩

theorem stillRole_opens : stillRole.Opens := ⟨fun _ => rfl, rfl, fun _ _ => rfl⟩

theorem made_session {hdr : Buffer} (rawsize : Nat)
    (hcode : hdrCode hdr = MTP_OPERATION_OPEN_SESSION ∨
      hdrCode hdr = MTP_OPERATION_CLOSE_SESSION) :
    Made stillRole (performOperation hdr rawsize) := by
  rcases hcode with hcode | hcode
  · have hop : operations.lookup (hdrCode hdr) = some fun hdr _ => mtpOpOpenSession hdr := by
      rw [hcode]
      rfl
    rw [performOperation, hop]
    exact made_mtpOpOpenSession stillRole_opens hdr
  · have hop : operations.lookup (hdrCode hdr) = some fun _ _ => mtpOpCloseSession := by
      rw [hcode]
      rfl
    rw [performOperation, hop]
    exact made_mtpOpCloseSession trivial rfl

theorem changes_session_packet {packet : List UInt8}
    (hcode : hdrCode (w.ctx.header packet) = MTP_OPERATION_OPEN_SESSION ∨
      hdrCode (w.ctx.header packet) = MTP_OPERATION_CLOSE_SESSION) :
    ∀ step ∈ World.trace os w (.packet packet), step.2.changes = none := by
  have hmade : Made stillRole (do
      M.cmd (.setRdbuffer (w.ctx.header packet))
      if packet.take w.ctx.usbRdBufferMaxSize ≠ [] then
        processInPacket (w.ctx.header packet)
          (packet.take w.ctx.usbRdBufferMaxSize).length) := by
    refine made_bind (made_cmd _ (Or.inr rfl)) fun _ => ?_
    split
    · exact made_bind (made_session _ hcode) fun _ => made_sendResponse _ _
    · exact made_pure _
  intro step hm
  rcases List.mem_cons.mp hm with rfl | hm
  · rfl
  · exact hmade.changes_eq_none w step hm

-- One event: only a request changes files, and the storages permit it.
theorem permits_event (hr : w.ctx.Regular) (event : Event σ) {step : World σ × Cmd}
    (hm : step ∈ World.trace os w event) {storageId : Nat}
    (hchange : step.2.changes = some storageId) :
    ∃ packet, event = .packet packet ∧
      step.1.ctx.Permits (w.ctx.header packet) storageId step.2.paths := by
  have hquiet : ¬ step.2.changes = none := by rw [hchange]; exact Option.some_ne_none _
  cases event with
  | outside change => exact absurd hm List.not_mem_nil
  | message text =>
      exact absurd ((made_msgqueueThread stillRole_manages text).changes_eq_none w step hm) hquiet
  | inotify event =>
      have hs := (obeys_inotifyThread hr.ordered event w.os).1 step hm
      exact absurd (changes_eq_none_of_within (fun _ => id) hs.1) hquiet
  | packet packet =>
      refine ⟨packet, rfl, ?_⟩
      by_cases hcode : hdrCode (w.ctx.header packet) = MTP_OPERATION_OPEN_SESSION ∨
          hdrCode (w.ctx.header packet) = MTP_OPERATION_CLOSE_SESSION
      · exact absurd (changes_session_packet hcode step hm) hquiet
      · rw [not_or] at hcode
        have hs : Safe (World.handle os) (Sited (requestFootprint w.ctx (w.ctx.header packet)))
            (mtpIncomingPacket packet) w :=
          (obeys_mtpIncomingPacket hr.ordered packet hcode.1 hcode.2 w.os).1
        have hkeep : ∀ (w' : World σ) (c : Cmd), Later w.ctx w'.ctx →
            Sited (requestFootprint w.ctx (w.ctx.header packet)) w' c →
            Later w.ctx (World.handle os c w').2.ctx :=
          fun w' c hl hc => hl.trans (sited_later hl.ordered hc)
        have hlater := trace_keeps hkeep _ w hs (Later.refl hr.ordered) step hm
        exact (MtpCtx.permits_of_within (hs step hm).1 hchange).congr hlater.storages

-- In no run is a file or folder of a storage made, changed, renamed or removed
-- while the storage is read-only, nor, but for SendObjectInfo, while it is
-- locked. It lies under the root of the storage.
theorem write_protection (events : List (Event σ)) (hi : w.ctx.Initial) (event : Event σ) :
    ∀ step ∈ World.trace os (run (World.step os) w events) event, ∀ storageId,
      step.2.changes = some storageId →
        ∃ packet, event = .packet packet ∧
          step.1.ctx.Permits ((run (World.step os) w events).ctx.header packet) storageId
            step.2.paths :=
  fun _ hm _ hchange => permits_event (regular_run events hi.regular) event hm hchange

section Samples

-- The storage is mounted again while it is locked, and a new file is sent for.
def lockableStorage : World MemSystem :=
  ⟨startCtx (storagesOf [(A_ROOT, A_STORAGE, UMTP_STORAGE_LOCKABLE)]), sampleSystem⟩

def mountedWhileLocked : List (Event MemSystem) :=
  [openSession, .message (UNMOUNT_MESSAGE ++ A_STORAGE), .message LOCK_MESSAGE,
    .message (MOUNT_MESSAGE ++ A_STORAGE)] ++
    (sendObjectInfo FIRST_STORAGE_ID NO_HANDLE 0x3000 [0x67]).take 1

def newFilePacket : List UInt8 :=
  commandPacket MTP_OPERATION_SEND_OBJECT_INFO [FIRST_STORAGE_ID, NO_HANDLE]

def lockedTrace : List (World MemSystem × Cmd) :=
  World.trace memOs (run (World.step memOs) lockableStorage mountedWhileLocked)
    (.packet newFilePacket)

theorem write_protection_sample :
    (lockedTrace.any fun step => step.2.changes == some FIRST_STORAGE_ID &&
        hasFlag (step.1.ctx.mtpGetStorageFlags FIRST_STORAGE_ID) UMTP_STORAGE_LOCKED) = true ∧
      ∀ step ∈ lockedTrace, ∀ storageId, step.2.changes = some storageId →
        ∃ packet, (.packet newFilePacket : Event MemSystem) = .packet packet ∧
          step.1.ctx.Permits ((run (World.step memOs) lockableStorage
            mountedWhileLocked).ctx.header packet) storageId step.2.paths :=
  ⟨by decide +kernel, write_protection mountedWhileLocked (initial_startCtx _) _⟩

end Samples

end Umtp
