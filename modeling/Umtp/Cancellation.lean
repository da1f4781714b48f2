import Umtp.MemOs
import Umtp.Effects.Roles

namespace Umtp

open Lib Lib.Prog Handles

variable {σ α : Type} {os : Os σ}

-- usb_gadget.c

-- MTP_REQ_CANCEL and MTP_REQ_GET_DEVICE_STATUS
inductive MtpRequest where
  | cancel | getDeviceStatus
deriving DecidableEq, Repr

-- Where the ep0 thread is in `handle_setup_request`: what it does next. A request
-- to cancel keeps what it has read of `transferring_file_data`.
inductive Ep0 where
  | idle
  | cancelLock | cancelTest | cancelStore (transferring : Bool) | cancelUnlock
  | statusTest | statusRead | statusClear
  | statusLock | statusTestAgain | statusStore | statusUnlock
deriving DecidableEq, Repr

namespace Ep0

-- The ep0 thread has the cancel mutex.
def inRegion : Ep0 → Bool
  | cancelTest | cancelStore _ | cancelUnlock | statusTestAgain | statusStore | statusUnlock => true
  | _ => false

-- It sets `cancel_req` next.
def setsCancelReq : Ep0 → Bool
  | cancelStore true | statusStore => true
  | _ => false

theorem inRegion_of_setsCancelReq {ep0 : Ep0} (h : ep0.setsCancelReq = true) :
    ep0.inRegion = true := by
  cases ep0 with
  | cancelStore transferring => rfl
  | statusStore => rfl
  | _ => cases h

end Ep0

-- The io thread with its world, and the ep0 thread. `moves` are the steps that
-- the ep0 thread takes before each of the next steps of the io thread; the
-- request of a move counts when the thread is idle.
structure Threads (σ : Type) where
  world : World σ
  cancelReq : Nat
  ep0 : Ep0
  ioHolds : Bool
  moves : Nat → List MtpRequest

namespace Threads

def transferring (w : Threads σ) : Bool := w.world.ctx.transferringFileData

-- One step of the ep0 thread. It waits where the io thread has the mutex.
def ep0Step (w : Threads σ) (request : MtpRequest) : Threads σ :=
  match w.ep0 with
  | .idle =>
    match request with
    | .cancel => { w with ep0 := .cancelLock }
    | .getDeviceStatus => { w with ep0 := .statusTest }
  | .cancelLock => if w.ioHolds then w else { w with ep0 := .cancelTest }
  | .cancelTest => { w with ep0 := .cancelStore w.transferring }
  | .cancelStore transferring =>
    { w with cancelReq := if transferring then 2 else 0, ep0 := .cancelUnlock }
  | .cancelUnlock => { w with ep0 := .idle }
  | .statusTest =>
    if w.cancelReq ≠ 2 then { w with ep0 := .statusRead } else { w with ep0 := .statusLock }
  | .statusRead =>
    if w.transferring then { w with ep0 := .idle } else { w with ep0 := .statusClear }
  | .statusClear => { w with cancelReq := 0, ep0 := .idle }
  | .statusLock => if w.ioHolds then w else { w with ep0 := .statusTestAgain }
  | .statusTestAgain =>
    if w.cancelReq = 2 then { w with ep0 := .statusStore } else { w with ep0 := .statusUnlock }
  | .statusStore => { w with cancelReq := 1, ep0 := .statusUnlock }
  | .statusUnlock => { w with ep0 := .idle }

-- The moves before the next step of the io thread.
def interleave (w : Threads σ) : Threads σ :=
  let moved := (w.moves 0).foldl ep0Step w
  { moved with moves := fun n => w.moves (n + 1) }

-- The ep0 thread goes on until it has left the mutex.
def leaveRegion : Nat → Threads σ → Threads σ
  | 0, w => w
  | fuel + 1, w => if w.ep0.inRegion then leaveRegion fuel (w.ep0Step .cancel) else w

-- The steps of the io thread. It waits for the mutex.
def handle (os : Os σ) : Handler Cmd Cmd.Ans (Threads σ)
  | .act .getCancelReq, w => (w.interleave.cancelReq != 0, w.interleave)
  | .act .clearCancelReq, w => ((), { w.interleave with cancelReq := 0 })
  | .act .lockCancelMutex, w => (true, { w.interleave.leaveRegion 3 with ioHolds := true })
  | .act .unlockCancelMutex, w => (true, { w.interleave with ioHolds := false })
  | c, w =>
    ((World.handle os c w.interleave.world).1,
      { w.interleave with world := (World.handle os c w.interleave.world).2 })

theorem ep0Step_same (w : Threads σ) (request : MtpRequest) :
    (w.ep0Step request).world = w.world ∧ (w.ep0Step request).ioHolds = w.ioHolds := by
  unfold ep0Step
  grind

-- With nothing to cancel, the ep0 thread sets no `cancel_req`.
def Settled (w : Threads σ) : Prop :=
  w.cancelReq = 0 ∧ w.ep0.setsCancelReq = false

theorem settled_ep0Step {w : Threads σ} (ht : w.transferring = false) (hs : w.Settled)
    (request : MtpRequest) : (w.ep0Step request).Settled := by
  obtain ⟨hreq, hstore⟩ := hs
  unfold ep0Step
  cases hep0 : w.ep0 with
  | idle => cases request <;> exact ⟨hreq, rfl⟩
  | cancelStore transferring =>
      cases transferring with
      | true => simp [hep0, Ep0.setsCancelReq] at hstore
      | false => exact ⟨rfl, rfl⟩
  | statusStore => simp [hep0, Ep0.setsCancelReq] at hstore
  | cancelLock => by_cases hh : w.ioHolds = true <;>
    simp [Settled, Ep0.setsCancelReq, hreq, hh, hep0]
  | statusLock => by_cases hh : w.ioHolds = true <;>
    simp [Settled, Ep0.setsCancelReq, hreq, hh, hep0]
  | _ => simp [Settled, Ep0.setsCancelReq, hreq, ht]

-- Outside the mutex, the ep0 thread does not get it.
theorem free_ep0Step {w : Threads σ} (hh : w.ioHolds = true) (hf : w.ep0.inRegion = false)
    (request : MtpRequest) : (w.ep0Step request).ep0.inRegion = false := by
  unfold ep0Step
  cases hep0 : w.ep0 with
  | idle => cases request <;> rfl
  | cancelLock => simp [hh, hep0, Ep0.inRegion]
  | statusLock => simp [hh, hep0, Ep0.inRegion]
  | statusTest => grind [Ep0.inRegion]
  | statusRead => grind [Ep0.inRegion]
  | statusClear => rfl
  | _ => simp [hep0, Ep0.inRegion] at hf

-- What every step of the ep0 thread keeps is kept while it goes on.
theorem foldl_ep0Step {I : Threads σ → Prop} (hI : ∀ w request, I w → I (w.ep0Step request))
    (requests : List MtpRequest) {w : Threads σ} (hw : I w) : I (requests.foldl ep0Step w) := by
  induction requests generalizing w with
  | nil => exact hw
  | cons request requests ih => exact ih (hI w request hw)

theorem leaveRegion_keeps {I : Threads σ → Prop} (hI : ∀ w request, I w → I (w.ep0Step request))
    (fuel : Nat) {w : Threads σ} (hw : I w) : I (leaveRegion fuel w) := by
  induction fuel generalizing w with
  | zero => exact hw
  | succ fuel ih =>
      unfold leaveRegion
      split
      · exact ih (hI w .cancel hw)
      · exact hw

theorem interleave_same (w : Threads σ) :
    w.interleave.world = w.world ∧ w.interleave.ioHolds = w.ioHolds :=
  foldl_ep0Step (I := fun w' => w'.world = w.world ∧ w'.ioHolds = w.ioHolds)
    (fun w' request hw => ⟨(ep0Step_same w' request).1.trans hw.1,
      (ep0Step_same w' request).2.trans hw.2⟩) (w.moves 0) ⟨rfl, rfl⟩

theorem interleave_settled {w : Threads σ} (ht : w.transferring = false) (hs : w.Settled) :
    w.interleave.Settled :=
  (foldl_ep0Step (I := fun w => w.transferring = false ∧ w.Settled)
    (fun w request hw => ⟨by rw [transferring, (ep0Step_same w request).1]; exact hw.1,
      settled_ep0Step hw.1 hw.2 request⟩) (w.moves 0) ⟨ht, hs⟩).2

theorem interleave_free {w : Threads σ} (hh : w.ioHolds = true) (hf : w.ep0.inRegion = false) :
    w.interleave.ep0.inRegion = false :=
  (foldl_ep0Step (I := fun w => w.ioHolds = true ∧ w.ep0.inRegion = false)
    (fun w request hw => ⟨(ep0Step_same w request).2.trans hw.1,
      free_ep0Step hw.1 hw.2 request⟩) (w.moves 0) ⟨hh, hf⟩).2

theorem leaveRegion_same (fuel : Nat) (w : Threads σ) :
    (leaveRegion fuel w).world = w.world ∧ (leaveRegion fuel w).ioHolds = w.ioHolds :=
  leaveRegion_keeps (I := fun w' => w'.world = w.world ∧ w'.ioHolds = w.ioHolds)
    (fun w' request hw => ⟨(ep0Step_same w' request).1.trans hw.1,
      (ep0Step_same w' request).2.trans hw.2⟩) fuel ⟨rfl, rfl⟩

-- Three steps lead out of the mutex.
theorem leaveRegion_free (w : Threads σ) : (leaveRegion 3 w).ep0.inRegion = false := by
  cases hep0 : w.ep0 with
  | statusTestAgain =>
      by_cases hreq : w.cancelReq = 2 <;> simp [leaveRegion, ep0Step, Ep0.inRegion, hep0, hreq]
  | _ => simp [leaveRegion, ep0Step, Ep0.inRegion, hep0]

end Threads

-- What is noted about the io thread: whether it is in the data phase of a
-- transfer, which ends with the function at the latest, whether its last test of
-- `cancel_req` is to come after it, and whether a step has gone wrong.
structure Notes where
  inData : Bool
  testing : Bool
  careless : Bool
deriving DecidableEq, Repr

def Notes.mark (notes : Notes) : (c : Cmd) → c.Ans → Notes
  | .setTransferringFileData true, _ => { notes with inData := true, testing := false }
  | .setTransferringFileData false, _ => { notes with inData := false, testing := true }
  | .act .getCancelReq, answer => if answer then notes else { notes with testing := false }
  | .act .clearCancelReq, _ => { notes with testing := false }
  | .act .unlockInotifyMutex, _ => { notes with inData := false }
  | _, _ => notes

-- No read of a file fails, and the last access to `cancel_req` after a transfer,
-- made without the mutex, does not come while the ep0 thread is about to set it.
def careful (os : Os σ) (s : Threads σ × Notes) : Cmd → Bool
  | .act (.read file size) => (os.act (.read file size) s.1.world.os).1.isSome
  | .act .getCancelReq =>
    !(s.2.testing && !s.1.ioHolds && s.1.interleave.cancelReq == 0 &&
      s.1.interleave.ep0.setsCancelReq)
  | .act .clearCancelReq => !(s.2.testing && !s.1.ioHolds && s.1.interleave.ep0.setsCancelReq)
  | _ => true

def Notes.after (os : Os σ) (c : Cmd) (w : Threads σ) (answer : c.Ans) (notes : Notes) : Notes :=
  { notes.mark c answer with careless := notes.careless || !careful os (w, notes) c }

def watch (os : Os σ) : Handler Cmd Cmd.Ans (Threads σ × Notes) :=
  observe (Threads.handle os) (Notes.after os)

def Careless (s : Threads σ × Notes) : Prop := s.2.careless = true

-- No transfer is going on. `held` tells whether the io thread has the mutex.
structure Over (held : Bool) (s : Threads σ × Notes) : Prop where
  transferring : s.1.transferring = false
  inData : s.2.inData = false
  holds : s.1.ioHolds = held
  free : held = true → s.1.ep0.inRegion = false
  settled : s.2.testing = false → s.1.Settled

-- The last test of `cancel_req` has been made, too.
structure Quiet (held : Bool) (s : Threads σ × Notes) : Prop extends Over held s where
  tested : s.2.testing = false

structure Running (s : Threads σ × Notes) : Prop where
  holds : s.1.ioHolds = false
  inData : s.2.inData = true

-- The commands that mark a phase of a transfer.
@[grind =] def Cmd.isMark : Cmd → Bool
  | setTransferringFileData _ | act .lockCancelMutex | act .unlockCancelMutex => true
  | _ => false

section Steps

variable {s : Threads σ × Notes} {c : Cmd} {held : Bool}

theorem Careless.step (h : Careless s) (c : Cmd) : Careless (watch os c s).2 := by
  show (s.2.careless || _) = true
  rw [h]
  rfl

theorem careless_or_careful (os : Os σ) (s : Threads σ × Notes) (c : Cmd) :
    Careless (watch os c s).2 ∨ careful os s c = true := by
  cases hc : careful os s c with
  | true => exact Or.inr rfl
  | false =>
      refine Or.inl ?_
      show (s.2.careless || !careful os s c) = true
      rw [hc]
      exact Bool.or_true _

theorem transferring_step (h : ∀ b, c ≠ .setTransferringFileData b) (w : World σ) :
    (World.handle os c w).2.ctx.transferringFileData = w.ctx.transferringFileData := by
  cases c with
  | setTransferringFileData b => exact absurd rfl (h b)
  | _ => rfl

-- A step of the io thread: the moves of the ep0 thread, and then the command.
theorem watch_step (h : c.isMark = false) :
    (watch os c s).2.1.transferring = s.1.interleave.transferring ∧
      (watch os c s).2.1.ioHolds = s.1.interleave.ioHolds ∧
      (watch os c s).2.1.ep0 = s.1.interleave.ep0 ∧
      ((watch os c s).2.1.cancelReq = s.1.interleave.cancelReq ∨
        c = .act .clearCancelReq ∧ (watch os c s).2.1.cancelReq = 0) := by
  have hset : ∀ b, c ≠ .setTransferringFileData b := by
    rintro b rfl
    cases h
  have hsame := @transferring_step _ os _ hset s.1.interleave.world
  cases c with
  | act a =>
      cases a with
      | lockCancelMutex => cases h
      | unlockCancelMutex => cases h
      | getCancelReq => exact ⟨rfl, rfl, rfl, Or.inl rfl⟩
      | clearCancelReq => exact ⟨rfl, rfl, rfl, Or.inr ⟨rfl, rfl⟩⟩
      | _ => exact ⟨hsame, rfl, rfl, Or.inl rfl⟩
  | _ => exact ⟨hsame, rfl, rfl, Or.inl rfl⟩

-- The test is over after an access to `cancel_req` only.
theorem testing_step (h : c.isMark = false) (htesting : (watch os c s).2.2.testing = false) :
    s.2.testing = false ∨ (c = .act .getCancelReq ∧ s.1.interleave.cancelReq = 0) ∨
      c = .act .clearCancelReq := by
  cases c with
  | setTransferringFileData b => cases h
  | act a =>
      cases a with
      | getCancelReq =>
          by_cases hreq : s.1.interleave.cancelReq = 0
          · exact Or.inr (Or.inl ⟨rfl, hreq⟩)
          · have hanswer : (s.1.interleave.cancelReq != 0) = true := by simpa using hreq
            refine Or.inl ?_
            have hmark : (s.2.mark (.act .getCancelReq) (s.1.interleave.cancelReq != 0)).testing =
                false := htesting
            simpa [Notes.mark, hanswer] using hmark
      | clearCancelReq => exact Or.inr (Or.inr rfl)
      | _ => exact Or.inl htesting
  | _ => exact Or.inl htesting

theorem inData_step (h : c.isMark = false) :
    (watch os c s).2.2.inData = s.2.inData ∨
      c = .act .unlockInotifyMutex ∧ (watch os c s).2.2.inData = false := by
  cases c with
  | setTransferringFileData b => cases h
  | act a =>
      cases a with
      | getCancelReq =>
          refine Or.inl ?_
          show (s.2.mark (.act .getCancelReq) (s.1.interleave.cancelReq != 0)).inData = _
          cases (s.1.interleave.cancelReq != 0) <;> rfl
      | unlockInotifyMutex => exact Or.inr ⟨rfl, rfl⟩
      | _ => exact Or.inl rfl
  | _ => exact Or.inl rfl

theorem Over.step (h : Over held s) (hc : c.isMark = false) (hcareful : careful os s c = true) :
    Over held (watch os c s).2 := by
  obtain ⟨htransferring, hholds, hep0, hreq⟩ := @watch_step _ os s _ hc
  have hworld := s.1.interleave_same
  have hover : s.1.interleave.transferring = false := by
    rw [Threads.transferring, hworld.1]
    exact h.transferring
  have hfree : held = true → s.1.interleave.ep0.inRegion = false := fun hh =>
    Threads.interleave_free (h.holds.trans hh) (h.free hh)
  -- the ep0 thread is not about to set the flag at the last access
  have hsets : s.2.testing = true → c = .act .getCancelReq ∧ s.1.interleave.cancelReq = 0 ∨
      c = .act .clearCancelReq → s.1.interleave.ep0.setsCancelReq = false := by
    intro htesting hlast
    by_contra hset
    have hin := Ep0.inRegion_of_setsCancelReq (Bool.eq_true_of_not_eq_false hset)
    have hheld : held = false := by
      by_contra hne
      rw [hfree (Bool.eq_true_of_not_eq_false hne)] at hin
      cases hin
    rcases hlast with ⟨rfl, hzero⟩ | rfl
    · simp [careful, htesting, h.holds, hheld, hzero] at hcareful
      exact hset hcareful
    · simp [careful, htesting, h.holds, hheld] at hcareful
      exact hset hcareful
  refine ⟨htransferring.trans hover, ?_, hholds.trans (hworld.2.trans h.holds), fun hh => ?_,
    fun hdone => ?_⟩
  · rcases @inData_step _ os s _ hc with heq | ⟨-, heq⟩
    · exact heq.trans h.inData
    · exact heq
  · rw [hep0]
    exact hfree hh
  · have hsettled : s.2.testing = false → s.1.interleave.Settled := fun hno =>
      Threads.interleave_settled h.transferring (h.settled hno)
    have hzero : s.1.interleave.cancelReq = 0 ∨ c = .act .clearCancelReq := by
      rcases testing_step hc hdone with hno | ⟨-, hzero⟩ | hclear
      · exact Or.inl (hsettled hno).1
      · exact Or.inl hzero
      · exact Or.inr hclear
    refine ⟨?_, ?_⟩
    · rcases hreq with heq | ⟨-, heq⟩
      · rw [heq]
        rcases hzero with hzero | rfl
        · exact hzero
        · exact heq.symm.trans rfl
      · exact heq
    · rw [hep0]
      cases htesting : s.2.testing with
      | false => exact (hsettled htesting).2
      | true =>
          rcases testing_step hc hdone with hno | hlast | hclear
          · rw [htesting] at hno
            cases hno
          · exact hsets htesting (Or.inl hlast)
          · exact hsets htesting (Or.inr hclear)

theorem Quiet.step (h : Quiet held s) (hc : c.isMark = false)
    (hcareful : careful os s c = true) : Quiet held (watch os c s).2 := by
  refine ⟨h.toOver.step hc hcareful, ?_⟩
  have htested := h.tested
  cases c with
  | setTransferringFileData b => cases hc
  | act a =>
      cases a with
      | getCancelReq =>
          show (s.2.mark (.act .getCancelReq) (s.1.interleave.cancelReq != 0)).testing = _
          cases (s.1.interleave.cancelReq != 0) with
          | false => rfl
          | true => exact htested
      | clearCancelReq => rfl
      | _ => exact htested
  | _ => exact htested

theorem Running.step (h : Running s) (hc : c.isMark = false)
    (hno : c ≠ .act .unlockInotifyMutex) : Running (watch os c s).2 := by
  obtain ⟨-, hholds, -, -⟩ := @watch_step _ os s _ hc
  refine ⟨hholds.trans (s.1.interleave_same.2.trans h.holds), ?_⟩
  rcases @inData_step _ os s _ hc with heq | ⟨hunlock, -⟩
  · exact heq.trans h.inData
  · exact absurd hunlock hno

end Steps

-- Outside a transfer the flag is not set.
def FlagOk (s : Threads σ × Notes) (_ : Cmd) : Prop :=
  Careless s ∨ (s.2.inData = false → s.1.transferring = false)

-- Nothing keeps a response from being sent.
def ResponseOk (s : Threads σ × Notes) (_ : Cmd) : Prop :=
  Careless s ∨ s.1.interleave.cancelReq = 0

-- The commands of the data phase

@[grind =] def Cmd.isTransfer : Cmd → Bool
  | setTransferringFileData _ | act .lockCancelMutex | act .unlockCancelMutex
  | act .unlockInotifyMutex => false
  | _ => true

theorem isMark_of_isTransfer {c : Cmd} (hc : c.isTransfer = true) :
    c.isMark = false ∧ c ≠ .act .unlockInotifyMutex := by
  cases c with
  | act a => cases a <;> simp_all [Cmd.isTransfer, Cmd.isMark]
  | _ => simp_all [Cmd.isTransfer, Cmd.isMark]

def ReadsSucceed : (c : Cmd) → c.Ans → Prop
  | .act (.read _ _), answer => answer.isSome = true
  | _, _ => True

abbrev Transfers (Q : α → Prop) (prog : M α) : Prop :=
  Runs ReadsSucceed (fun c => c.isTransfer = true) Q prog

theorem transfers_getCtx_bind {Q : α → Prop} {f : MtpCtx → M α}
    (hf : ∀ ctx, Transfers Q (f ctx)) : Transfers Q (M.getCtx >>= f) :=
  ⟨rfl, fun ctx _ => hf ctx⟩

theorem transfers_cmd_bind {Q : α → Prop} {c : Cmd} {f : c.Ans → M α} (hc : c.isTransfer = true)
    (hf : ∀ answer, ReadsSucceed c answer → Transfers Q (f answer)) :
    Transfers Q (M.cmd c >>= f) :=
  ⟨hc, hf⟩

theorem transfers_bind {β : Type} {Q : α → Prop} {Q' : β → Prop} {p : M α} {f : α → M β}
    (hp : Transfers Q p) (hf : ∀ value, Q value → Transfers Q' (f value)) :
    Transfers Q' (p >>= f) :=
  runs_bind hp hf

theorem transfers_entryRead (p : EntryPtr) (offset : Int) (size : Nat) :
    Transfers (fun read => read.isSome = true) (entryRead p offset size) := by
  refine transfers_getCtx_bind fun ctx => ?_
  dsimp only
  split
  · exact transfers_cmd_bind (c := .act (.lseekSet _ _)) rfl fun _ _ => ⟨rfl, fun _ h => h⟩
  · exact rfl

theorem transfers_loadPage (p : EntryPtr) (position : Int) :
    Transfers (fun loaded => loaded = true) (loadPage p position) := by
  refine transfers_getCtx_bind fun ctx => transfers_bind (transfers_entryRead _ _ _)
    fun read hr => ?_
  cases read with
  | none => cases hr
  | some bytes =>
      exact transfers_getCtx_bind fun ctx => transfers_cmd_bind rfl fun _ _ => rfl

theorem transfers_fetchBlock (p : EntryPtr) (position bufIndex : Int) (ofs : Nat)
    (blocksize : Int) :
    Transfers (fun block => block.isSome = true)
      (fetchBlock p position bufIndex ofs blocksize) := by
  unfold fetchBlock
  refine transfers_getCtx_bind fun ctx => ?_
  have hloaded : Transfers (fun loaded => loaded = true) (pure true : M Bool) := rfl
  dsimp only
  split
  all_goals
    refine transfers_bind (by first | exact transfers_loadPage _ _ | exact hloaded)
      fun loaded hl => ?_
    rw [if_pos hl]
    refine transfers_getCtx_bind fun ctx' => ?_
    split
    · split
      · exact rfl
      · exact transfers_cmd_bind rfl fun _ _ => rfl
    · refine transfers_cmd_bind rfl fun _ _ => transfers_bind (transfers_loadPage _ _)
        fun more hm => ?_
      rw [if_pos hm]
      exact transfers_getCtx_bind fun ctx'' => transfers_cmd_bind rfl fun _ _ => rfl

theorem transfers_writeUsb (channel : Endpoint) (bytes : List UInt8) :
    Transfers (fun _ => True) (writeUsb channel bytes) := by
  refine transfers_cmd_bind (c := .act .getCancelReq) rfl fun cancelReq _ => ?_
  split
  · exact trivial
  · exact ⟨rfl, fun _ _ => trivial⟩

theorem transfers_sendBlocks (p : EntryPtr) (offset actualsize : Int) (fuel : Nat)
    (j bufIndex : Int) (ofs : Nat) :
    Transfers (fun sent => sent = true) (sendBlocks p offset actualsize fuel j bufIndex ofs) := by
  induction fuel generalizing j bufIndex ofs with
  | zero => exact rfl
  | succ fuel ih =>
      unfold sendBlocks
      refine transfers_getCtx_bind fun ctx => transfers_bind (transfers_fetchBlock _ _ _ _ _)
        fun block hb => ?_
      cases block with
      | none => cases hb
      | some block =>
          have hnext : ∀ j : Int, Transfers (fun sent => sent = true) (do
              if j < actualsize then
                let cancelReq ← M.act .getCancelReq
                if cancelReq then return true
                else sendBlocks p offset actualsize fuel j block.2 0
              else
                return true) := by
            intro j
            split
            · refine transfers_cmd_bind (c := .act .getCancelReq) rfl fun cancelReq _ => ?_
              split
              · exact rfl
              · exact ih _ _ _
            · exact rfl
          refine transfers_cmd_bind (c := .act .getCancelReq) rfl fun cancelReq _ => ?_
          dsimp only
          split
          · exact transfers_bind (transfers_writeUsb _ _) fun _ _ => hnext _
          · exact hnext _

theorem transfers_writePayload (p : EntryPtr) (file : Int) (bytes : List UInt8) :
    Transfers (fun _ => True) (writePayload p file bytes) :=
  transfers_getCtx_bind fun _ => transfers_cmd_bind (c := .act (.write _ _ _)) rfl fun _ _ =>
    ⟨rfl, fun _ _ => trivial⟩

theorem transfers_receiveBlocks (p : EntryPtr) (file : Int) (fuel : Nat) (sz : Int) :
    Transfers (fun _ => True) (receiveBlocks p file fuel sz) := by
  induction fuel generalizing sz with
  | zero => exact trivial
  | succ fuel ih =>
      unfold receiveBlocks
      refine transfers_getCtx_bind fun ctx => ?_
      split
      · refine transfers_cmd_bind (c := .act .getCancelReq) rfl fun cancelReq _ => ?_
        split
        · exact trivial
        · refine transfers_cmd_bind (c := .act (.readUsb _)) rfl fun read _ => ?_
          split
          · exact transfers_getCtx_bind fun ctx' => transfers_cmd_bind rfl fun _ _ =>
              transfers_bind (transfers_writePayload _ _ _) fun _ _ => ih _
          · exact trivial
      · exact trivial

section Keeps

variable {ok : Threads σ × Notes → Cmd → Prop} {held : Bool}

theorem readsSucceed_of_careful {s : Threads σ × Notes} {c : Cmd}
    (h : careful os s c = true) : ReadsSucceed c (watch os c s).1 := by
  cases c with
  | act a =>
      cases a with
      | read file size =>
          have hanswer : (os.act (.read file size) s.1.interleave.world.os).1.isSome = true := by
            rw [s.1.interleave_same.1]
            exact h
          exact hanswer
      | _ => exact trivial
  | _ => exact trivial

-- In the data phase the program comes to its end, or a step has gone wrong.
theorem valid_running {Q : α → Prop} {prog : M α} (hp : Transfers Q prog) :
    Valid (watch os) FlagOk (fun s => Careless s ∨ Running s) prog
      fun value s => Careless s ∨ Q value ∧ Running s := by
  refine valid_of_runs_unless hp (fun s c hs => ⟨Or.inl hs, hs.step c⟩) fun s c hs hc => ?_
  obtain ⟨hmark, hunlock⟩ := isMark_of_isTransfer hc
  refine ⟨Or.inr fun hno => ?_, ?_⟩
  · rw [hs.inData] at hno
    cases hno
  · rcases careless_or_careful os s c with hbad | hcareful
    · exact Or.inl hbad
    · exact Or.inr ⟨readsSucceed_of_careful hcareful, hs.step hmark hunlock⟩

-- Everything but the marks keeps what holds outside the transfers.
def steadyRole : Role := roleBut fun c => c.isMark = true

theorem steadyRole_keeps {I : Threads σ × Notes → Prop}
    (hok : ∀ s c, Careless s ∨ I s → ok s c)
    (hstep : ∀ s c, I s → c.isMark = false → careful os s c = true → I (watch os c s).2) :
    steadyRole.Keeps (watch os) ok fun s => Careless s ∨ I s := by
  refine roleBut_keeps hok (fun c hc => ?_) fun c s hc hs => ?_
  · cases c with
    | act a => cases a <;> simp_all [Cmd.isMark, Cmd.isBasic, Cmd.isOrdinary, Cmd.isSending,
        Cmd.isPart, Action.isOrdinary]
    | _ => simp_all [Cmd.isMark, Cmd.isBasic, Cmd.isOrdinary, Cmd.isSending, Cmd.isPart]
  · rcases hs with hs | hs
    · exact Or.inl (hs.step c)
    · rcases careless_or_careful os s c with hbad | hcareful
      · exact Or.inl hbad
      · exact Or.inr (hstep s c hs (Bool.eq_false_iff.mpr hc) hcareful)

theorem steadyRole_quiet (held : Bool) (hok : ∀ s c, Careless s ∨ Quiet held s → ok s c) :
    steadyRole.Keeps (watch os) ok fun s => Careless s ∨ Quiet held s :=
  steadyRole_keeps hok fun _ _ hs hc hcareful => hs.step hc hcareful

theorem flagOk_of_over {s : Threads σ × Notes} {c : Cmd} (h : Careless s ∨ Over held s) :
    FlagOk s c :=
  h.imp id fun hs _ => hs.transferring

theorem steadyRole_over (held : Bool) :
    steadyRole.Keeps (watch os) FlagOk fun s => Careless s ∨ Over held s :=
  steadyRole_keeps (fun _ _ => flagOk_of_over) fun _ _ hs hc hcareful => hs.step hc hcareful

theorem responseOk_of_quiet {s : Threads σ × Notes} {c : Cmd} (h : Careless s ∨ Quiet held s) :
    ResponseOk s c :=
  h.imp id fun hs =>
    (Threads.interleave_settled hs.transferring (hs.settled hs.tested)).1

-- The operations without a data phase.
theorem steadyRole_performs {code : Nat} (h : code ≠ MTP_OPERATION_GET_OBJECT ∧
    code ≠ MTP_OPERATION_GET_PARTIAL_OBJECT ∧ code ≠ MTP_OPERATION_GET_PARTIAL_OBJECT_64 ∧
      code ≠ MTP_OPERATION_SEND_OBJECT ∧ code ≠ MTP_OPERATION_SEND_PARTIAL_OBJECT) :
    steadyRole.Performs code := by
  have hfree : ∀ c : Cmd, c.isMark = false → ¬ c.isMark = true := fun c hc => by simp [hc]
  exact {
    opens := fun _ => ⟨fun _ => hfree _ rfl, hfree _ rfl, fun _ _ => hfree _ rfl⟩
    drops := fun _ => ⟨trivial, hfree _ rfl⟩
    lists := fun _ => ⟨trivial, trivial, fun _ _ => hfree _ rfl⟩
    transfers := fun hcode => by
      rcases hcode with heq | heq | heq
      · exact absurd heq h.1
      · exact absurd heq h.2.1
      · exact absurd heq h.2.2.1
    creates := fun _ => ⟨⟨trivial, trivial, trivial, fun _ _ => hfree _ rfl,
      fun _ _ _ => hfree _ rfl⟩, trivial, fun _ => hfree _ rfl, fun _ => hfree _ rfl⟩
    receives := fun hcode => by
      rcases hcode with heq | heq
      · exact absurd heq h.2.2.2.1
      · exact absurd heq h.2.2.2.2
    removes := fun _ => ⟨fun _ => ⟨fun _ _ => Or.inl (hfree _ rfl),
      fun _ => Or.inl (hfree _ rfl), fun _ => Or.inl (hfree _ rfl)⟩, trivial⟩
    renames := fun _ => ⟨trivial, fun _ _ _ => hfree _ rfl, fun _ _ _ => hfree _ rfl,
      fun _ _ => hfree _ rfl⟩
    closes := fun _ => trivial
    truncate := fun _ _ _ _ => hfree _ rfl }

end Keeps

-- A transfer from its beginning to the last test of `cancel_req`.

section Transfer

-- Every program made of the steady parts, between transfers.
theorem Made.quiet {prog : M α} {held : Bool} (hm : Made steadyRole prog) :
    Valid (watch os) FlagOk (fun s => Careless s ∨ Quiet held s) prog
      fun _ s => Careless s ∨ Quiet held s :=
  hm.valid (steadyRole_quiet held fun _ _ hs => flagOk_of_over (hs.imp id Quiet.toOver))

theorem Made.over {prog : M α} {held : Bool} (hm : Made steadyRole prog) :
    Valid (watch os) FlagOk (fun s => Careless s ∨ Over held s) prog
      fun _ s => Careless s ∨ Over held s :=
  hm.valid (steadyRole_over held)

theorem valid_start : Valid (watch os) FlagOk (fun s => Careless s ∨ Quiet false s)
    (M.cmd (.setTransferringFileData true)) fun _ s => Careless s ∨ Running s := by
  refine valid_perform (fun s hs => flagOk_of_over (hs.imp id Quiet.toOver)) fun s hs => ?_
  rcases hs with hs | hs
  · exact Or.inl (hs.step _)
  · exact Or.inr ⟨s.1.interleave_same.2.trans hs.holds, rfl⟩

theorem valid_stop : Valid (watch os) FlagOk (fun s => Careless s ∨ Running s)
    (M.cmd (.setTransferringFileData false)) fun _ s => Careless s ∨ Over false s := by
  refine valid_perform (fun s hs => hs.imp id fun hr hno => ?_) fun s hs => ?_
  · rw [hr.inData] at hno
    cases hno
  · rcases hs with hs | hs
    · exact Or.inl (hs.step _)
    · exact Or.inr ⟨rfl, rfl, s.1.interleave_same.2.trans hs.holds, (fun hh => by cases hh),
        fun hno => by cases hno⟩

-- The io thread gets the mutex when the ep0 thread has left it.
theorem valid_lock : Valid (watch os) FlagOk (fun s => Careless s ∨ Over false s)
    (M.act .lockCancelMutex) fun locked s => locked = true ∧ (Careless s ∨ Over true s) := by
  refine valid_perform (fun s hs => flagOk_of_over hs) fun s hs => ⟨rfl, ?_⟩
  rcases hs with hs | hs
  · exact Or.inl (hs.step _)
  · have hworld : (Threads.leaveRegion 3 s.1.interleave).world = s.1.world :=
      (Threads.leaveRegion_same 3 _).1.trans s.1.interleave_same.1
    have hsettled : s.2.testing = false → (Threads.leaveRegion 3 s.1.interleave).Settled := by
      intro hno
      have hover : s.1.interleave.transferring = false := by
        rw [Threads.transferring, s.1.interleave_same.1]
        exact hs.transferring
      exact (Threads.leaveRegion_keeps (I := fun w => w.transferring = false ∧ w.Settled)
        (fun w request hw => ⟨by rw [Threads.transferring, (w.ep0Step_same request).1]; exact hw.1,
          Threads.settled_ep0Step hw.1 hw.2 request⟩) 3
        ⟨hover, Threads.interleave_settled hs.transferring (hs.settled hno)⟩).2
    refine Or.inr ⟨?_, hs.inData, rfl, fun _ => Threads.leaveRegion_free _, hsettled⟩
    show (Threads.leaveRegion 3 s.1.interleave).world.ctx.transferringFileData = false
    rw [hworld]
    exact hs.transferring

theorem valid_unlock : Valid (watch os) FlagOk (fun s => Careless s ∨ Quiet true s)
    (M.act .unlockCancelMutex) fun _ s => Careless s ∨ Quiet false s := by
  refine valid_perform (fun s hs => flagOk_of_over (hs.imp id Quiet.toOver)) fun s hs => ?_
  rcases hs with hs | hs
  · exact Or.inl (hs.step _)
  · have hsettled := Threads.interleave_settled hs.transferring (hs.settled hs.tested)
    refine Or.inr ⟨⟨?_, hs.inData, rfl, (fun hh => by cases hh), fun _ => hsettled⟩, hs.tested⟩
    show s.1.interleave.world.ctx.transferringFileData = false
    rw [s.1.interleave_same.1]
    exact hs.transferring

-- The last test finds nothing, or the flag is cleared.
theorem valid_test {held : Bool} : Valid (watch os) FlagOk
    (fun s => Careless s ∨ Over held s) (M.act .getCancelReq) fun cancelReq s =>
      Careless s ∨ Over held s ∧ (cancelReq = false → Quiet held s) := by
  refine valid_perform (fun s hs => flagOk_of_over hs) fun s hs => ?_
  rcases hs with hs | hs
  · exact Or.inl (hs.step _)
  · rcases careless_or_careful os s (.act .getCancelReq) with hbad | hcareful
    · exact Or.inl hbad
    · have hover := @Over.step _ os _ (.act .getCancelReq) _ hs rfl hcareful
      refine Or.inr ⟨hover, fun hanswer => ⟨hover, ?_⟩⟩
      show (s.2.mark (.act .getCancelReq) (s.1.interleave.cancelReq != 0)).testing = false
      have hzero : (s.1.interleave.cancelReq != 0) = false := hanswer
      rw [hzero]
      rfl

theorem valid_clear {held : Bool} : Valid (watch os) FlagOk
    (fun s => Careless s ∨ Over held s) (M.act .clearCancelReq) fun _ s =>
      Careless s ∨ Quiet held s := by
  refine valid_perform (fun s hs => flagOk_of_over hs) fun s hs => ?_
  rcases hs with hs | hs
  · exact Or.inl (hs.step _)
  · rcases careless_or_careful os s (.act .clearCancelReq) with hbad | hcareful
    · exact Or.inl hbad
    · exact Or.inr ⟨hs.step rfl hcareful, rfl⟩

theorem quiet_of_test {held : Bool} {s : Threads σ × Notes} {cancelReq : Bool}
    (h : Careless s ∨ Over held s ∧ (cancelReq = false → Quiet held s)) (hno : ¬ cancelReq = true) :
    Careless s ∨ Quiet held s :=
  h.imp id fun hs => hs.2 (Bool.eq_false_iff.mpr hno)

theorem over_of_test {held : Bool} {s : Threads σ × Notes} {cancelReq : Bool}
    (h : Careless s ∨ Over held s ∧ (cancelReq = false → Quiet held s)) :
    Careless s ∨ Over held s :=
  h.imp id And.left

theorem valid_endTransfer (actualsize : Int) :
    Valid (watch os) FlagOk (fun s => Careless s ∨ Over false s) (endTransfer actualsize)
      fun _ s => Careless s ∨ Quiet false s := by
  have hunlock : ∀ result : Int, Valid (watch os) FlagOk (fun s => Careless s ∨ Quiet true s)
      (do
        M.act_ .unlockCancelMutex
        return result) fun _ s => Careless s ∨ Quiet false s := fun result =>
    valid_bind (valid_bind valid_unlock fun _ => valid_ret fun _ hs => hs) fun _ =>
      valid_ret fun _ hs => hs
  refine valid_bind valid_lock fun locked => @valid_of_fact _ _ _ _ _ _ _ _ _ (locked = true)
    (fun s hs => hs.1) fun hlocked => ?_
  rw [if_pos hlocked]
  refine valid_weaken (P := fun s => Careless s ∨ Over true s) ?_ (fun s hs => hs.2)
    fun _ _ hs => hs
  refine valid_bind valid_test fun cancelReq => ?_
  split
  · exact valid_weaken (valid_bind valid_clear fun _ => hunlock (-2))
      (fun s hs => over_of_test hs) fun _ _ hs => hs
  · rename_i hno
    exact valid_weaken (valid_bind (made_checkAndSendUsbZlp _).quiet fun _ => hunlock actualsize)
      (fun s hs => quiet_of_test hs hno) fun _ _ hs => hs

theorem valid_look : Valid (watch os) FlagOk (fun s => Careless s ∨ Quiet false s) M.getCtx
    fun _ s => Careless s ∨ Quiet false s :=
  valid_command (steadyRole_quiet false fun _ _ hs =>
    flagOk_of_over (hs.imp id Quiet.toOver)).look

theorem valid_sendFileData (p : EntryPtr) (offset maxsize : Int) :
    Valid (watch os) FlagOk (fun s => Careless s ∨ Quiet false s) (sendFileData p offset maxsize)
      fun _ s => Careless s ∨ Quiet false s := by
  have hclose : Made steadyRole (entryClose (some p)) := .entryClose trivial _
  have hopen : Made steadyRole (entryOpen p .readOnly) := .entryOpen trivial _ _
  have hbuffer : ∀ buffer, Made steadyRole (M.cmd (.setWrbuffer buffer)) := fun _ =>
    made_cmd _ (Or.inl rfl)
  unfold sendFileData
  refine valid_bind made_allocReadFileBuffer.quiet fun memory => ?_
  split
  · refine valid_bind valid_look fun ctx => valid_bind (hbuffer _).quiet fun _ =>
      valid_bind hopen.quiet fun file => ?_
    split
    · refine valid_bind valid_start fun _ =>
        valid_bind (valid_running (transfers_sendBlocks _ _ _ _ _ _ _)) fun sent => ?_
      split
      · refine valid_weaken (P := fun s => Careless s ∨ Running s) ?_
          (fun s hs => hs.imp id And.right) fun _ _ hs => hs
        exact valid_bind valid_stop fun _ => valid_bind hclose.over fun _ => valid_endTransfer _
      · rename_i hfailed
        exact valid_ret fun s hs => Or.inl (hs.resolve_right fun hr => hfailed hr.1)
    · exact valid_ret fun _ hs => hs
  · exact valid_ret fun _ hs => hs

theorem valid_endReceive (isPartial : Bool) (p : EntryPtr) (file : Int) :
    Valid (watch os) FlagOk (fun s => Careless s ∨ Running s) (endReceive isPartial p file)
      fun _ s => Careless s ∨ Quiet false s := by
  have hsize : Transfers (fun _ => True) (do
      let fileSize ← M.act (.lseekEnd file)
      M.db_ (.setSize p fileSize)) :=
    transfers_cmd_bind (c := .act (.lseekEnd _)) rfl fun _ _ =>
      transfers_cmd_bind (c := .db (.setSize _ _)) rfl fun _ _ => trivial
  have hend : Valid (watch os) FlagOk (fun s => Careless s ∨ Over false s) (do
      if ← M.act .getCancelReq then
        M.act .clearCancelReq
        return false
      else
        return true) fun _ s => Careless s ∨ Quiet false s := by
    refine valid_bind valid_test fun cancelReq => ?_
    split
    · exact valid_weaken (valid_bind valid_clear fun _ => valid_ret fun _ hs => hs)
        (fun s hs => over_of_test hs) fun _ _ hs => hs
    · rename_i hno
      exact valid_ret fun s hs => quiet_of_test hs hno
  have hrest : Valid (watch os) FlagOk (fun s => Careless s ∨ Running s) (do
      M.cmd (.setTransferringFileData false)
      if isPartial then
        pure ()
      else
        entryClose (some p)
      if ← M.act .getCancelReq then
        M.act .clearCancelReq
        return false
      else
        return true) fun _ s => Careless s ∨ Quiet false s := by
    refine valid_bind valid_stop fun _ => ?_
    dsimp only
    split
    · exact hend
    · exact valid_bind (Made.entryClose trivial _).over fun _ => hend
  have heq : endReceive isPartial p file = (do
      let fileSize ← M.act (.lseekEnd file)
      M.db_ (.setSize p fileSize)) >>= fun _ => (do
      M.cmd (.setTransferringFileData false)
      if isPartial then
        pure ()
      else
        entryClose (some p)
      if ← M.act .getCancelReq then
        M.act .clearCancelReq
        return false
      else
        return true) := rfl
  rw [heq]
  exact valid_bind (valid_weaken (valid_running hsize) (fun _ hs => hs)
    fun _ _ hs => hs.imp id And.right) fun _ => hrest

theorem valid_receiveObject (hdr : Buffer) (size : Nat) (isPartial : Bool) (p : EntryPtr)
    (file : Int) :
    Valid (watch os) FlagOk (fun s => Careless s ∨ Quiet false s)
      (receiveObject hdr size isPartial p file) fun _ s => Careless s ∨ Quiet false s := by
  have hrunning : ∀ {β : Type} {prog : M β}, Transfers (fun _ => True) prog →
      Valid (watch os) FlagOk (fun s => Careless s ∨ Running s) prog
        fun _ s => Careless s ∨ Running s := fun hp =>
    valid_weaken (valid_running hp) (fun _ hs => hs) fun _ _ hs => hs.imp id And.right
  have hlook : Valid (watch os) FlagOk (fun s => Careless s ∨ Running s) M.getCtx
      fun _ s => Careless s ∨ Running s := hrunning ⟨rfl, fun _ _ => trivial⟩
  have hseek : ∀ offset, Valid (watch os) FlagOk (fun s => Careless s ∨ Running s)
      (M.act (.lseekSet file offset)) fun _ s => Careless s ∨ Running s := fun _ =>
    hrunning ⟨rfl, fun _ _ => trivial⟩
  have hbacklog : Valid (watch os) FlagOk (fun s => Careless s ∨ Running s) (M.query .usbBacklog)
      fun _ s => Careless s ∨ Running s := hrunning ⟨rfl, fun _ _ => trivial⟩
  have hend : ∀ next : Int, Valid (watch os) FlagOk (fun s => Careless s ∨ Running s) (do
      let backlog ← M.query .usbBacklog
      receiveBlocks p file (backlog + 1) next
      endReceive isPartial p file) fun _ s => Careless s ∨ Quiet false s := fun next =>
    valid_bind hbacklog fun _ => valid_bind (hrunning (transfers_receiveBlocks _ _ _ _)) fun _ =>
      valid_endReceive isPartial p file
  unfold receiveObject
  refine valid_bind valid_start fun _ => valid_bind hlook fun ctx =>
    valid_bind (hseek _) fun _ => ?_
  dsimp only
  split
  · exact valid_bind (hrunning (transfers_writePayload _ _ _)) fun _ =>
      valid_bind hlook fun _ => hend _
  · exact valid_bind hlook fun _ => hend _

end Transfer

-- The requests

section Requests

variable {op : M Response}

-- What requests keep: no transfer is going on before and after them.
abbrev KeepsQuiet (os : Os σ) (prog : M α) : Prop :=
  Valid (watch os) FlagOk (fun s => Careless s ∨ Quiet false s) prog
    fun _ s => Careless s ∨ Quiet false s

theorem keepsQuiet_inSession (hop : KeepsQuiet os op) : KeepsQuiet os (inSession op) := by
  refine valid_bind valid_look fun ctx => ?_
  split
  · exact hop
  · exact valid_ret fun _ hs => hs

theorem keepsQuiet_act (a : Action) (ha : a.isOrdinary = true) : KeepsQuiet os (M.act a) :=
  (made_act a (Or.inl ha)).quiet

theorem keepsQuiet_underMutex (hop : KeepsQuiet os op) : KeepsQuiet os (underMutex op) := by
  refine valid_bind (keepsQuiet_act _ rfl) fun locked => ?_
  split
  · exact valid_bind hop fun response =>
      valid_bind (made_act_ .unlockInotifyMutex (Or.inl rfl)).quiet fun _ =>
        valid_ret fun _ hs => hs
  · exact valid_ret fun _ hs => hs

theorem keepsQuiet_mtpOpGetObject (hdr : Buffer) : KeepsQuiet os (mtpOpGetObject hdr) := by
  refine keepsQuiet_inSession (keepsQuiet_underMutex (valid_bind valid_look fun ctx => ?_))
  split
  · refine valid_bind valid_look fun ctx => ?_
    split
    · exact valid_ret fun _ hs => hs
    · refine valid_bind (made_startData hdr).quiet fun started => ?_
      split
      · refine valid_bind (valid_sendFileData _ _ _) fun actualsize => ?_
        split_ifs
        all_goals exact valid_ret fun _ hs => hs
      · exact valid_ret fun _ hs => hs
  · exact valid_ret fun _ hs => hs

theorem keepsQuiet_mtpOpGetPartialObject (hdr : Buffer) :
    KeepsQuiet os (mtpOpGetPartialObject hdr) := by
  refine keepsQuiet_inSession (keepsQuiet_underMutex ?_)
  dsimp only
  split
  all_goals
    refine valid_bind valid_look fun ctx => ?_
    split
    · exact valid_ret fun _ hs => hs
    · refine valid_bind (made_startData hdr).quiet fun started => ?_
      split
      · refine valid_bind (valid_sendFileData _ _ _) fun actualsize => ?_
        split_ifs
        all_goals exact valid_ret fun _ hs => hs
      · exact valid_ret fun _ hs => hs
    · exact valid_ret fun _ hs => hs

theorem keepsQuiet_sendObjectPhase (hdr : Buffer) (size : Nat) :
    KeepsQuiet os (sendObjectPhase hdr size) := by
  have hopen : ∀ p flags, Made steadyRole (entryOpen p flags) := fun _ _ => .entryOpen trivial _ _
  have hlatch : ∀ handle size offset, Made steadyRole
    (M.cmd (.setSendObjInfo handle size offset)) :=
    fun _ _ _ => made_cmd _ (Or.inr (fun h => by cases h))
  have hdata : KeepsQuiet os (sendObjectData hdr size) := by
    refine valid_bind valid_look fun ctx => ?_
    dsimp only
    split
    · split
      · exact valid_ret fun _ hs => hs
      · refine valid_bind (hopen _ _).quiet fun file => ?_
        split
        · refine valid_bind (valid_receiveObject _ _ _ _ _) fun received => ?_
          split
          · exact valid_ret fun _ hs => hs
          · exact valid_ret fun _ hs => hs
        · exact valid_ret fun _ hs => hs
    · exact valid_ret fun _ hs => hs
  have hrest : KeepsQuiet os (sendObjectRest hdr size) := by
    refine valid_bind valid_look fun ctx => ?_
    split
    · exact valid_ret fun _ hs => hs
    split
    · exact hdata
    split
    · split
      · exact valid_ret fun _ hs => hs
      · exact valid_ret fun _ hs => hs
    · exact valid_ret fun _ hs => hs
  unfold sendObjectPhase
  dsimp only
  split
  · exact valid_bind (hlatch _ _ _).quiet fun _ => hrest
  · exact hrest

theorem keepsQuiet_mtpOpSendObject (hdr : Buffer) (size : Nat) :
    KeepsQuiet os (mtpOpSendObject hdr size) := by
  refine keepsQuiet_inSession (valid_bind (keepsQuiet_act _ rfl) fun locked => ?_)
  split
  · refine valid_bind (keepsQuiet_sendObjectPhase hdr size) fun phase => ?_
    split
    exact valid_bind (keepsQuiet_act _ rfl) fun _ => valid_ret fun _ hs => hs
  · exact valid_ret fun _ hs => hs

theorem keepsQuiet_performOperation (hdr : Buffer) (rawsize : Nat) :
    KeepsQuiet os (performOperation hdr rawsize) := by
  have hop : ∀ {op : Buffer → Nat → M Response}, operations.lookup (hdrCode hdr) = some op →
      KeepsQuiet os (op hdr rawsize) → KeepsQuiet os (performOperation hdr rawsize) := by
    intro op h hk
    rwa [performOperation_eq h]
  by_cases hget : hdrCode hdr = MTP_OPERATION_GET_OBJECT
  · exact hop (by rw [hget]; rfl) (keepsQuiet_mtpOpGetObject hdr)
  by_cases hpart : hdrCode hdr = MTP_OPERATION_GET_PARTIAL_OBJECT
  · exact hop (by rw [hpart]; rfl) (keepsQuiet_mtpOpGetPartialObject hdr)
  by_cases hpart64 : hdrCode hdr = MTP_OPERATION_GET_PARTIAL_OBJECT_64
  · exact hop (by rw [hpart64]; rfl) (keepsQuiet_mtpOpGetPartialObject hdr)
  by_cases hsend : hdrCode hdr = MTP_OPERATION_SEND_OBJECT
  · exact hop (by rw [hsend]; rfl) (keepsQuiet_mtpOpSendObject hdr rawsize)
  by_cases hsendpart : hdrCode hdr = MTP_OPERATION_SEND_PARTIAL_OBJECT
  · exact hop (by rw [hsendpart]; rfl) (keepsQuiet_mtpOpSendObject hdr rawsize)
  · exact (made_performOperation
      (steadyRole_performs ⟨hget, hpart, hpart64, hsend, hsendpart⟩) rawsize).quiet

-- The first part of `mtp_incoming_packet`.
def receivePacket (packet : List UInt8) : M (Buffer × Nat) := do
  let ctx ← M.getCtx
  let received := packet.take ctx.usbRdBufferMaxSize
  let rdbuffer := ctx.rdbuffer.write 0 received
  M.cmd (.setRdbuffer rdbuffer)
  return (rdbuffer, received.length)

theorem mtpIncomingPacket_eq (packet : List UInt8) :
    mtpIncomingPacket packet = (receivePacket packet).bind fun received =>
      if received.2 ≠ 0 then processInPacket received.1 received.2 else .ret () := by
  refine congrArg M.getCtx.bind (funext fun ctx => ?_)
  refine congrArg (M.cmd (.setRdbuffer _)).bind (funext fun _ => ?_)
  have hlength : packet.take ctx.usbRdBufferMaxSize ≠ [] ↔
      (packet.take ctx.usbRdBufferMaxSize).length ≠ 0 := by
    rw [Ne, Ne, List.length_eq_zero_iff]
  exact if_congr hlength rfl rfl

theorem keepsQuiet_receivePacket (packet : List UInt8) : KeepsQuiet os (receivePacket packet) := by
  have hbuffer : ∀ buffer, Made steadyRole (M.cmd (.setRdbuffer buffer)) := fun _ =>
    made_cmd _ (Or.inr (fun h => by cases h))
  exact valid_bind valid_look fun ctx => valid_bind (hbuffer _).quiet fun _ =>
    valid_ret fun _ hs => hs

theorem keepsQuiet_mtpIncomingPacket (packet : List UInt8) :
    KeepsQuiet os (mtpIncomingPacket packet) := by
  rw [mtpIncomingPacket_eq]
  refine valid_bind (keepsQuiet_receivePacket packet) fun received => ?_
  split
  · exact valid_bind (keepsQuiet_performOperation _ _) fun response =>
      (made_sendResponse _ response).quiet
  · exact valid_ret fun _ hs => hs

theorem keepsQuiet_event (event : Event σ) : KeepsQuiet os event.program := by
  have hfree : ∀ c : Cmd, c.isMark = false → ¬ c.isMark = true := fun c hc => by simp [hc]
  cases event with
  | packet bytes => exact keepsQuiet_mtpIncomingPacket bytes
  | inotify event => exact (made_inotifyThread trivial (fun _ => hfree _ rfl) event).quiet
  | message text =>
      have hsteady := @made_msgqueueThread steadyRole
        ⟨fun _ _ => hfree _ rfl, fun _ => hfree _ rfl, fun _ _ => hfree _ rfl⟩ text
      exact hsteady.quiet
  | outside change => exact valid_ret fun _ hs => hs

end Requests

-- Whole runs

def Threads.step (os : Os σ) (s : Threads σ × Notes) : Event σ → Threads σ × Notes
  | .outside change => ({ s.1 with world := { s.1.world with os := change s.1.world.os } }, s.2)
  | event => (exec (watch os) event.program s).2

-- No step of the event goes wrong.
def CarefulEvent (os : Os σ) (s : Threads σ × Notes) (event : Event σ) : Prop :=
  ∀ step ∈ trace (watch os) event.program s, careful os step.1 step.2 = true

-- Outside the data phase `transferring_file_data` is 0, and `cancel_req` is 0
-- where the response to a request is sent.
def NoResidue (os : Os σ) (s : Threads σ × Notes) (event : Event σ) : Prop :=
  (∀ step ∈ trace (watch os) event.program s,
      step.1.2.inData = false → step.1.1.transferring = false) ∧
    ∀ packet, event = .packet packet →
      let received := exec (watch os) (receivePacket packet) s
      let performed := exec (watch os) (performOperation received.1.1 received.1.2) received.2
      received.1.2 ≠ 0 →
        ∀ step ∈ trace (watch os) (sendResponse received.1.1 performed.1) performed.2,
          step.1.1.interleave.cancelReq = 0

-- Between requests, with nothing noted.
structure AtRest (s : Threads σ × Notes) : Prop where
  transferring : s.1.transferring = false
  cancelReq : s.1.cancelReq = 0
  ep0 : s.1.ep0.setsCancelReq = false
  holds : s.1.ioHolds = false
  notes : s.2 = ⟨false, false, false⟩

section Run

variable {s : Threads σ × Notes}

theorem careless_trace {prog : M α} (h : Safe (watch os) (fun s c => careful os s c = true) prog s)
    (hs : ¬ Careless s) : (∀ step ∈ trace (watch os) prog s, ¬ Careless step.1) ∧
      ¬ Careless (exec (watch os) prog s).2 := by
  have hstep : ∀ (s : Threads σ × Notes) c, ¬ Careless s → careful os s c = true →
      ¬ Careless (watch os c s).2 := by
    intro s c hno hc hbad
    have hmark : (s.2.careless || !careful os s c) = true := hbad
    rw [hc, Bool.eq_false_iff.mpr hno] at hmark
    cases hmark
  exact ⟨trace_keeps hstep prog s h hs, exec_keeps hstep prog s h hs⟩

theorem noResidue_of_careful (hq : Quiet false s) (hs : ¬ Careless s) (event : Event σ)
    (hc : CarefulEvent os s event) :
    NoResidue os s event ∧ Quiet false (Threads.step os s event) ∧
      ¬ Careless (Threads.step os s event) := by
  obtain ⟨hsteps, hend⟩ := careless_trace hc hs
  obtain ⟨hflag, hquiet⟩ := @keepsQuiet_event _ os event s (Or.inr hq)
  refine ⟨⟨fun step hm => (hflag step hm).resolve_left (hsteps step hm), ?_⟩, ?_⟩
  · rintro packet rfl received performed hne step hm
    have hcareful : Safe (watch os) (fun s c => careful os s c = true)
        (mtpIncomingPacket packet) s := hc
    rw [mtpIncomingPacket_eq, safe_bind, if_pos hne] at hcareful
    obtain ⟨hsafe, hsafe'⟩ := hcareful
    obtain ⟨hsafe', hsafe''⟩ := (safe_bind _ _ _).mp hsafe'
    have hno := (careless_trace hsafe hs).2
    have hno' := (careless_trace hsafe' hno).2
    have hq' := (@keepsQuiet_receivePacket _ os packet s (Or.inr hq)).2
    have hq'' := (@keepsQuiet_performOperation _ os received.1.1 received.1.2 received.2 hq').2
    have hresponse := ((made_sendResponse received.1.1 performed.1).valid
      (@steadyRole_quiet _ os ResponseOk false fun _ _ h => responseOk_of_quiet h)
      performed.2 hq'').1
    exact (hresponse step hm).resolve_left ((careless_trace hsafe'' hno').1 step hm)
  · cases event with
    | outside change => exact ⟨⟨⟨hq.transferring, hq.inData, hq.holds, hq.free, hq.settled⟩,
      hq.tested⟩, hs⟩
    | packet bytes => exact ⟨hquiet.resolve_left hend, hend⟩
    | inotify event => exact ⟨hquiet.resolve_left hend, hend⟩
    | message text => exact ⟨hquiet.resolve_left hend, hend⟩

-- As long as no step goes wrong, a run of requests leaves neither flag behind,
-- whatever the ep0 thread does in between.
theorem cancellation_leaves_no_residue (os : Os σ) (s : Threads σ × Notes) (h : AtRest s)
    (events : List (Event σ)) (hc : Allowed (Threads.step os) (CarefulEvent os) s events) :
    Allowed (Threads.step os) (NoResidue os) s events := by
  have hno : ¬ Careless s := fun hbad => by
    have hnotes : s.2.careless = true := hbad
    rw [h.notes] at hnotes
    cases hnotes
  have hq : Quiet false s :=
    ⟨⟨h.transferring, by rw [h.notes], h.holds, (fun hh => by cases hh),
      fun _ => ⟨h.cancelReq, h.ep0⟩⟩, by rw [h.notes]⟩
  clear h
  induction events generalizing s with
  | nil => trivial
  | cons event events ih =>
      obtain ⟨hresidue, hq', hno'⟩ := noResidue_of_careful hq hno event hc.1
      exact ⟨hresidue, ih _ hc.2 hno' hq'⟩

end Run

section Samples

instance (os : Os σ) (s : Threads σ × Notes) (event : Event σ) :
    Decidable (CarefulEvent os s event) :=
  inferInstanceAs (Decidable (∀ step ∈ trace (watch os) event.program s,
    careful os step.1 step.2 = true))

def getObject (handle : Nat) : Event MemSystem :=
  .packet (commandPacket MTP_OPERATION_GET_OBJECT [handle])

-- The threads between two requests.
def threadsAt (world : World MemSystem) (moves : Nat → List MtpRequest) :
    Threads MemSystem × Notes :=
  (⟨world, 0, .idle, false, moves⟩, ⟨false, false, false⟩)

-- The file "/a/f" is listed.
def withFile : World MemSystem :=
  run (World.step memOs) twoStorages [openSession, getObjectHandles FIRST_STORAGE_ID 0]

-- The host cancels all the time, while "/a/f" is sent and after it.
theorem cancellation_leaves_no_residue_sample :
    Allowed (Threads.step memOs) (NoResidue memOs) (threadsAt withFile fun _ => [.cancel])
      [getObject 1, getObjectHandles FIRST_STORAGE_ID 0] :=
  cancellation_leaves_no_residue memOs (threadsAt withFile fun _ => [.cancel])
    ⟨by decide +kernel, rfl, rfl, rfl, rfl⟩ [getObject 1, getObjectHandles FIRST_STORAGE_ID 0]
    (by decide +kernel)

-- The system in memory, where reading a file fails.
def brokenOs : Os MemSystem where
  query q sys := sys.query q
  act a sys :=
    match a with
    | .read _ _ => (none, sys)
    | a => sys.act a

-- A new file "/a/g" that the host is about to send.
def withNewFile : World MemSystem :=
  run (World.step memOs) withFile (sendObjectInfo FIRST_STORAGE_ID 0 0x3000 [0x67] ++
    [.packet (commandPacket MTP_OPERATION_SEND_OBJECT [])])

-- A request to cancel that has read `transferring_file_data` before SendObject
-- takes it back, and sets `cancel_req` after SendObject has tested it.
def lateCancel (n : Nat) : List MtpRequest :=
  if n = 28 then [.cancel, .cancel, .cancel] else if n = 33 then [.cancel] else []

-- `transferring_file_data` is left by a failed read, and `cancel_req` by a late
-- request to cancel: the response of SendObject is not sent.
theorem residue_of_failed_read_and_late_cancel :
    ¬ NoResidue brokenOs (threadsAt withFile fun _ => []) (getObject 1) ∧
      ¬ NoResidue memOs (threadsAt withNewFile lateCancel)
        (.packet (dataPacket MTP_OPERATION_SEND_OBJECT [1, 2, 3])) := by
  refine ⟨fun h => ?_, fun h => ?_⟩
  · have hflag := h.1
    revert hflag
    decide +kernel
  · have hresponse := h.2 _ rfl
    revert hresponse
    decide +kernel

end Samples

end Umtp
