import Umtp.Lib.Runs
import Mathlib.Data.List.Basic
import Mathlib.Logic.Function.Basic

namespace Umtp

open Lib

-- usb_gadget.c

-- EP_DESCRIPTOR_IN, EP_DESCRIPTOR_OUT and EP_DESCRIPTOR_INT_IN
inductive EpDescriptor where
  | epIn | epOut | epIntIn
deriving DecidableEq, Repr

def EP_DESCRIPTORS : List EpDescriptor := [.epIn, .epOut, .epIntIn]

-- How the file of an endpoint opens: not at all, or with a descriptor that takes
-- its configuration or does not.
inductive EpOpening where
  | fails
  | opens (fd : Int) (written : Bool)
deriving DecidableEq, Repr

-- What becomes of the endpoint files in `init_eps`.
structure EpSetup where
  ffsMode : Bool
  opening : EpDescriptor → EpOpening

-- `openFds` are the descriptors of endpoints that are open, and `ioThreads` counts
-- the threads that are created and not joined.
structure UsbGadget where
  epHandles : EpDescriptor → Int
  stop : Bool
  threadNotStarted : Bool
  openFds : List Int
  ioThreads : Nat

namespace EpOpening

-- FunctionFS has no configuration written to the endpoint.
def sets (ffsMode : Bool) : EpOpening → Bool
  | fails => false
  | opens _ written => ffsMode || written

def isOpen : EpOpening → Bool
  | fails => false
  | opens _ _ => true

-- Descriptor 0 is taken, by the USB device at the latest.
def Sound (opening : EpOpening) : Prop :=
  ∀ fd written, opening = opens fd written → 0 < fd

end EpOpening

namespace EpSetup

variable (setup : EpSetup)

-- Open endpoints have different descriptors.
def Sound : Prop :=
  (∀ ep, (setup.opening ep).Sound) ∧
    ∀ ep ep' fd written written', setup.opening ep = .opens fd written →
      setup.opening ep' = .opens fd written' → ep = ep'

-- What the set-up of the endpoints stops at.
def failureFrom (eps : List EpDescriptor) : Option EpOpening :=
  (eps.map setup.opening).find? fun opening => !opening.sets setup.ffsMode

def failure : Option EpOpening := setup.failureFrom EP_DESCRIPTORS

def opensIn : Bool := (setup.opening .epIn).isOpen

end EpSetup

-- SET_CONFIGURATION to CONFIG_VALUE or FUNCTIONFS_ENABLE, with what becomes of the
-- files and of `pthread_create`; SET_CONFIGURATION to 0; GADGETFS_DISCONNECT; and
-- FUNCTIONFS_DISABLE.
inductive GadgetEvent where
  | enable (setup : EpSetup) (created : Bool)
  | deconfigure
  | disconnect
  | disable

namespace GadgetEvent

def setup : GadgetEvent → Option EpSetup
  | enable setup _ => some setup
  | _ => none

def Sound (event : GadgetEvent) : Prop :=
  ∀ setup, event.setup = some setup → setup.Sound

end GadgetEvent

-- The first set-up that opens the IN endpoint.
def firstSetup (events : List GadgetEvent) : Option EpSetup :=
  (events.filterMap GadgetEvent.setup).find? EpSetup.opensIn

namespace UsbGadget

-- What `init_usb_mtp_gadget` leaves.
def init : UsbGadget := ⟨fun _ => -1, false, true, [], 0⟩

-- The handle stays when its descriptor is closed again.
def initEp (ffsMode : Bool) (gadget : UsbGadget) (ep : EpDescriptor) :
    EpOpening → Bool × UsbGadget
  | .fails => (false, gadget)
  | .opens fd written =>
    let opened := { gadget with epHandles := Function.update gadget.epHandles ep fd }
    if ffsMode || written then (true, { opened with openFds := fd :: gadget.openFds })
    else (false, opened)

def initEpsFrom (setup : EpSetup) : List EpDescriptor → UsbGadget → Bool × UsbGadget
  | [], gadget => (true, gadget)
  | ep :: rest, gadget =>
    let tried := gadget.initEp setup.ffsMode ep (setup.opening ep)
    if tried.1 then initEpsFrom setup rest tried.2 else tried

def initEps (setup : EpSetup) (gadget : UsbGadget) : Bool × UsbGadget :=
  initEpsFrom setup EP_DESCRIPTORS gadget

def startThread (created : Bool) (gadget : UsbGadget) : UsbGadget :=
  if gadget.threadNotStarted && created then
    { gadget with threadNotStarted := false, ioThreads := gadget.ioThreads + 1 }
  else gadget

def joinThread (gadget : UsbGadget) : UsbGadget :=
  if gadget.threadNotStarted then gadget
  else { gadget with threadNotStarted := true, ioThreads := gadget.ioThreads - 1 }

-- The endpoints are set up when the handle of the first is not.
def enable (setup : EpSetup) (created : Bool) (gadget : UsbGadget) : UsbGadget :=
  let tried := if gadget.epHandles .epIn ≤ 0 then gadget.initEps setup else (true, gadget)
  if tried.1 then { tried.2 with stop := false }.startThread created else tried.2

def step (gadget : UsbGadget) : GadgetEvent → UsbGadget
  | .enable setup created => gadget.enable setup created
  | .deconfigure => { gadget with stop := true }
  | .disconnect => { gadget with stop := true }.joinThread
  | .disable => { { gadget with stop := true }.joinThread with stop := false }

def after (events : List GadgetEvent) : UsbGadget := run step init events

-- The handles that `deinit_usb_mtp_gadget` closes.
def closings (gadget : UsbGadget) : List Int :=
  (EP_DESCRIPTORS.map gadget.epHandles).filter fun fd => 0 ≤ fd

def deinit (gadget : UsbGadget) : UsbGadget :=
  { gadget with
    stop := true
    openFds := gadget.openFds.filter fun fd => fd ∉ gadget.closings }.joinThread

-- Every endpoint has an open descriptor.
def Served (gadget : UsbGadget) : Prop :=
  ∀ ep, gadget.epHandles ep ∈ gadget.openFds

-- No descriptor is closed a second time.
def ClosesOpen (gadget : UsbGadget) : Prop :=
  ∀ fd ∈ gadget.closings, fd ∈ gadget.openFds

-- One thread at most, and the gadget knows.
def CountsThread (gadget : UsbGadget) : Prop :=
  gadget.ioThreads = if gadget.threadNotStarted = true then 0 else 1

-- Nothing is opened or started yet.
structure Untouched (gadget : UsbGadget) : Prop where
  handles : ∀ ep, gadget.epHandles ep = -1
  closed : gadget.openFds = []
  idle : gadget.threadNotStarted = true
  noThread : gadget.ioThreads = 0

-- What a set-up that stops at `failure` leaves.
structure Settled (failure : Option EpOpening) (gadget : UsbGadget) : Prop where
  served : gadget.Served ↔ failure = none
  closes : gadget.ClosesOpen ↔ failure = none ∨ failure = some .fails
  kept : ∀ fd ∈ gadget.openFds, fd ∈ gadget.closings

section Threads

variable {gadget : UsbGadget}

theorem startThread_same (created : Bool) :
    (gadget.startThread created).epHandles = gadget.epHandles ∧
      (gadget.startThread created).openFds = gadget.openFds := by
  unfold startThread
  split <;> exact ⟨rfl, rfl⟩

theorem joinThread_same :
    gadget.joinThread.epHandles = gadget.epHandles ∧
      gadget.joinThread.openFds = gadget.openFds := by
  unfold joinThread
  split <;> exact ⟨rfl, rfl⟩

theorem CountsThread.startThread (hc : gadget.CountsThread) (created : Bool) :
    (gadget.startThread created).CountsThread := by
  unfold CountsThread UsbGadget.startThread at *
  cases hidle : gadget.threadNotStarted <;> cases created <;> simp_all

theorem CountsThread.joinThread (hc : gadget.CountsThread) :
    gadget.joinThread.CountsThread ∧ gadget.joinThread.ioThreads = 0 := by
  unfold CountsThread UsbGadget.joinThread at *
  cases hidle : gadget.threadNotStarted <;> simp_all

end Threads

section Endpoints

variable {setup : EpSetup} {gadget : UsbGadget} {eps : List EpDescriptor}

theorem initEp_threads (ffsMode : Bool) (ep : EpDescriptor) (opening : EpOpening) :
    (gadget.initEp ffsMode ep opening).2.threadNotStarted = gadget.threadNotStarted ∧
      (gadget.initEp ffsMode ep opening).2.ioThreads = gadget.ioThreads := by
  unfold initEp
  split
  · exact ⟨rfl, rfl⟩
  · dsimp only
    split <;> exact ⟨rfl, rfl⟩

theorem initEpsFrom_threads (eps : List EpDescriptor) (gadget : UsbGadget) :
    (initEpsFrom setup eps gadget).2.threadNotStarted = gadget.threadNotStarted ∧
      (initEpsFrom setup eps gadget).2.ioThreads = gadget.ioThreads := by
  induction eps generalizing gadget with
  | nil => exact ⟨rfl, rfl⟩
  | cons ep rest ih =>
      have hep := @initEp_threads gadget setup.ffsMode ep (setup.opening ep)
      rw [initEpsFrom]
      split
      · exact ⟨(ih _).1.trans hep.1, (ih _).2.trans hep.2⟩
      · exact hep

theorem initEp_pos {ffsMode : Bool} {ep : EpDescriptor} {opening : EpOpening}
    (hs : opening.Sound) (hin : ep = .epIn ∧ opening.isOpen = true ∨ 0 < gadget.epHandles .epIn) :
    0 < (gadget.initEp ffsMode ep opening).2.epHandles .epIn := by
  cases opening with
  | fails => exact hin.resolve_left fun h => Bool.false_ne_true h.2
  | opens fd written =>
      have hpos : 0 < Function.update gadget.epHandles ep fd .epIn := by
        by_cases hep : ep = .epIn
        · rw [hep, Function.update_self]
          exact hs fd written rfl
        · rw [Function.update_of_ne (Ne.symm hep)]
          exact hin.resolve_left fun h => hep h.1
      unfold initEp
      dsimp only
      split <;> exact hpos

theorem initEpsFrom_pos (hs : setup.Sound) (hpos : 0 < gadget.epHandles .epIn) :
    0 < (initEpsFrom setup eps gadget).2.epHandles .epIn := by
  induction eps generalizing gadget with
  | nil => exact hpos
  | cons ep rest ih =>
      have hep : 0 < (gadget.initEp setup.ffsMode ep (setup.opening ep)).2.epHandles .epIn :=
        initEp_pos (hs.1 ep) (.inr hpos)
      rw [initEpsFrom]
      split
      · exact ih hep
      · exact hep

-- The endpoints that are not left are open, and no other.
structure Done (setup : EpSetup) (eps : List EpDescriptor) (gadget : UsbGadget) : Prop where
  left : ∀ ep ∈ eps, gadget.epHandles ep = -1
  opened : ∀ ep, ep ∉ eps → gadget.epHandles ep ∈ gadget.openFds
  handled : ∀ fd ∈ gadget.openFds, 0 < fd ∧ ∃ ep, ep ∉ eps ∧ gadget.epHandles ep = fd ∧
    ∃ written, setup.opening ep = .opens fd written

theorem mem_closings {fd : Int} :
    fd ∈ gadget.closings ↔ 0 ≤ fd ∧ ∃ ep, gadget.epHandles ep = fd := by
  rw [closings, List.mem_filter, List.mem_map]
  constructor
  · rintro ⟨⟨ep, -, hep⟩, hpos⟩
    exact ⟨of_decide_eq_true hpos, ep, hep⟩
  · rintro ⟨hpos, ep, hep⟩
    exact ⟨⟨ep, by cases ep <;> decide, hep⟩, decide_eq_true hpos⟩

theorem closesOpen_iff :
    gadget.ClosesOpen ↔ ∀ ep, 0 ≤ gadget.epHandles ep → gadget.epHandles ep ∈ gadget.openFds := by
  constructor
  · intro h ep hpos
    exact h _ (mem_closings.mpr ⟨hpos, ep, rfl⟩)
  · intro h fd hfd
    obtain ⟨hpos, ep, rfl⟩ := mem_closings.mp hfd
    exact h ep hpos

namespace Done

variable {ep : EpDescriptor} {rest : List EpDescriptor} {fd : Int} {written : Bool}

theorem kept (hd : Done setup eps gadget) : ∀ fd ∈ gadget.openFds, fd ∈ gadget.closings := by
  intro fd hfd
  obtain ⟨hpos, ep, -, hep, -⟩ := hd.handled fd hfd
  exact mem_closings.mpr ⟨Int.le_of_lt hpos, ep, hep⟩

-- The handle of an endpoint that does not open stays -1.
theorem settled_fails (hd : Done setup eps gadget) (hep : ep ∈ eps) :
    Settled (some .fails) gadget := by
  refine ⟨iff_of_false ?_ (by simp), iff_of_true ?_ (.inr rfl), hd.kept⟩
  · intro hserved
    have hpos := (hd.handled _ (hserved ep)).1
    rw [hd.left ep hep] at hpos
    omega
  · rw [closesOpen_iff]
    intro ep' hpos
    refine hd.opened ep' fun hleft => ?_
    rw [hd.left ep' hleft] at hpos
    omega

theorem fresh (hs : setup.Sound) (hd : Done setup (ep :: rest) gadget)
    (hopening : setup.opening ep = .opens fd written) : fd ∉ gadget.openFds := by
  intro hfd
  obtain ⟨-, ep', hdone, -, written', hopening'⟩ := hd.handled fd hfd
  rw [hs.2 ep' ep fd written' written hopening' hopening] at hdone
  exact hdone List.mem_cons_self

theorem handle_update {ep' : EpDescriptor} (hdone : ep' ∉ ep :: rest) :
    Function.update gadget.epHandles ep fd ep' = gadget.epHandles ep' := by
  refine Function.update_of_ne ?_ _ _
  rintro rfl
  exact hdone List.mem_cons_self

-- The next endpoint opens.
theorem next (hs : setup.Sound) (hd : Done setup (ep :: rest) gadget) (hnew : ep ∉ rest)
    (hopening : setup.opening ep = .opens fd written) :
    Done setup rest { gadget with
      epHandles := Function.update gadget.epHandles ep fd
      openFds := fd :: gadget.openFds } := by
  refine ⟨fun ep' hleft => ?_, fun ep' hdone => ?_, fun fd' hfd => ?_⟩
  · have hne : ep' ≠ ep := ne_of_mem_of_not_mem hleft hnew
    exact (Function.update_of_ne hne _ _).trans (hd.left ep' (List.mem_cons_of_mem _ hleft))
  · by_cases hep : ep' = ep
    · rw [hep]
      exact List.mem_cons.mpr (.inl (Function.update_self _ _ _))
    · have hold : ep' ∉ ep :: rest := by simp [hep, hdone]
      refine List.mem_cons_of_mem _ ?_
      change Function.update gadget.epHandles ep fd ep' ∈ gadget.openFds
      rw [handle_update hold]
      exact hd.opened ep' hold
  · rcases List.mem_cons.mp hfd with rfl | hfd
    · exact ⟨hs.1 ep _ written hopening, ep, hnew, Function.update_self _ _ _, written, hopening⟩
    · obtain ⟨hpos, ep', hdone, hep', hopened⟩ := hd.handled fd' hfd
      exact ⟨hpos, ep', fun h => hdone (List.mem_cons_of_mem _ h),
        (handle_update hdone).trans hep', hopened⟩

-- The handle of an endpoint that is closed again is not -1.
theorem settled_refused (hs : setup.Sound) (hd : Done setup (ep :: rest) gadget)
    (hopening : setup.opening ep = .opens fd written) :
    Settled (some (.opens fd written)) { gadget with
      epHandles := Function.update gadget.epHandles ep fd } := by
  have hpos := hs.1 ep fd written hopening
  have hfresh := hd.fresh hs hopening
  have hself : Function.update gadget.epHandles ep fd ep = fd := Function.update_self _ _ _
  refine ⟨iff_of_false ?_ (by simp), iff_of_false ?_ (by simp), fun fd' hfd => ?_⟩
  · intro hserved
    exact hfresh (hself ▸ hserved ep)
  · rw [closesOpen_iff]
    intro h
    have hle : 0 ≤ Function.update gadget.epHandles ep fd ep := by
      rw [hself]
      exact Int.le_of_lt hpos
    exact hfresh (hself ▸ h ep hle)
  · obtain ⟨hpos', ep', hdone, hep', -⟩ := hd.handled fd' hfd
    exact mem_closings.mpr ⟨Int.le_of_lt hpos', ep', (handle_update hdone).trans hep'⟩

end Done

-- By induction on the endpoints that are left.
theorem settled_initEpsFrom (hs : setup.Sound) (hnodup : eps.Nodup) (hd : Done setup eps gadget) :
    Settled (setup.failureFrom eps) (initEpsFrom setup eps gadget).2 := by
  induction eps generalizing gadget with
  | nil =>
      have hserved : gadget.Served := fun ep => hd.opened ep List.not_mem_nil
      exact ⟨iff_of_true hserved rfl,
        iff_of_true (closesOpen_iff.mpr fun ep _ => hserved ep) (.inl rfl), hd.kept⟩
  | cons ep rest ih =>
      obtain ⟨hnew, hrest⟩ := List.nodup_cons.mp hnodup
      cases hopening : setup.opening ep with
      | fails =>
          have htried : initEpsFrom setup (ep :: rest) gadget = (false, gadget) := by
            simp [initEpsFrom, hopening, initEp]
          have hfail : setup.failureFrom (ep :: rest) = some .fails := by
            simp [EpSetup.failureFrom, hopening, EpOpening.sets]
          rw [htried, hfail]
          exact hd.settled_fails List.mem_cons_self
      | opens fd written =>
          cases hsets : setup.ffsMode || written with
          | true =>
              have htried : initEpsFrom setup (ep :: rest) gadget =
                  initEpsFrom setup rest { gadget with
                    epHandles := Function.update gadget.epHandles ep fd
                    openFds := fd :: gadget.openFds } := by
                simp [initEpsFrom, hopening, initEp, hsets]
              have hfail : setup.failureFrom (ep :: rest) = setup.failureFrom rest := by
                simp [EpSetup.failureFrom, hopening, EpOpening.sets, hsets]
              rw [htried, hfail]
              exact ih hrest (hd.next hs hnew hopening)
          | false =>
              have htried : initEpsFrom setup (ep :: rest) gadget = (false, { gadget with
                  epHandles := Function.update gadget.epHandles ep fd }) := by
                simp [initEpsFrom, hopening, initEp, hsets]
              have hfail : setup.failureFrom (ep :: rest) = some (.opens fd written) := by
                simp [EpSetup.failureFrom, hopening, EpOpening.sets, hsets]
              rw [htried, hfail]
              exact hd.settled_refused hs hopening

end Endpoints

section Runs

variable {setup : EpSetup} {gadget : UsbGadget}

-- The endpoints are set up, and for good.
structure SetUpBy (setup : EpSetup) (gadget : UsbGadget) : Prop where
  opened : 0 < gadget.epHandles .epIn
  settled : Settled setup.failure gadget

theorem Settled.congr {failure : Option EpOpening} {gadget' : UsbGadget}
    (h : Settled failure gadget) (hhandles : gadget'.epHandles = gadget.epHandles)
    (hfds : gadget'.openFds = gadget.openFds) : Settled failure gadget' := by
  obtain ⟨served, closes, kept⟩ := h
  have hclosings : gadget'.closings = gadget.closings := by
    rw [closings, closings, hhandles]
  exact ⟨by rwa [Served, hhandles, hfds], by rwa [ClosesOpen, hclosings, hfds],
    by rwa [hclosings, hfds]⟩

theorem setUp_initEps (hs : setup.Sound) (hu : gadget.Untouched) (hin : setup.opensIn = true) :
    (gadget.initEps setup).2.SetUpBy setup := by
  constructor
  · have hep : 0 < (gadget.initEp setup.ffsMode .epIn (setup.opening .epIn)).2.epHandles .epIn :=
      initEp_pos (hs.1 .epIn) (.inl ⟨rfl, hin⟩)
    rw [initEps, EP_DESCRIPTORS, initEpsFrom]
    split
    · exact initEpsFrom_pos hs hep
    · exact hep
  · refine settled_initEpsFrom hs (by decide) ⟨fun ep _ => hu.handles ep, fun ep hep => ?_, ?_⟩
    · exact absurd (by cases ep <;> decide) hep
    · rw [hu.closed]
      exact fun fd hfd => absurd hfd List.not_mem_nil

theorem initEps_of_not_opensIn (hin : setup.opensIn = false) :
    gadget.initEps setup = (false, gadget) := by
  have hfails : setup.opening .epIn = .fails := by
    rw [EpSetup.opensIn] at hin
    cases hopening : setup.opening .epIn with
    | fails => rfl
    | opens fd written => simp [hopening, EpOpening.isOpen] at hin
  simp [initEps, EP_DESCRIPTORS, initEpsFrom, hfails, initEp]

theorem counts_step (hc : gadget.CountsThread) (event : GadgetEvent) :
    (gadget.step event).CountsThread := by
  cases event with
  | enable setup created =>
      have hsame := @initEpsFrom_threads setup EP_DESCRIPTORS gadget
      have htried : (if gadget.epHandles .epIn ≤ 0 then gadget.initEps setup
          else (true, gadget)).2.CountsThread := by
        split
        · rw [CountsThread, initEps, hsame.1, hsame.2]
          exact hc
        · exact hc
      rw [step, enable]
      generalize (if gadget.epHandles .epIn ≤ 0 then gadget.initEps setup
        else (true, gadget)) = tried at htried
      split
      · exact @CountsThread.startThread { tried.2 with stop := false } htried created
      · exact htried
  | deconfigure => exact hc
  | disconnect => exact (@CountsThread.joinThread { gadget with stop := true } hc).1
  | disable => exact (@CountsThread.joinThread { gadget with stop := true } hc).1

theorem untouched_step (hu : gadget.Untouched) {event : GadgetEvent}
    (hin : ∀ setup, event.setup = some setup → setup.opensIn = false) :
    (gadget.step event).Untouched := by
  obtain ⟨handles, closed, idle, noThread⟩ := hu
  cases event with
  | enable setup created =>
      have hle : gadget.epHandles .epIn ≤ 0 := by
        rw [handles]
        decide
      have htried : gadget.step (.enable setup created) = gadget := by
        rw [step, enable, if_pos hle, initEps_of_not_opensIn (hin setup rfl)]
        rfl
      rw [htried]
      exact ⟨handles, closed, idle, noThread⟩
  | deconfigure => exact ⟨handles, closed, idle, noThread⟩
  | disconnect =>
      rw [step, UsbGadget.joinThread, if_pos idle]
      exact ⟨handles, closed, idle, noThread⟩
  | disable =>
      rw [step, UsbGadget.joinThread, if_pos idle]
      exact ⟨handles, closed, idle, noThread⟩

theorem setUp_first (hs : setup.Sound) (hu : gadget.Untouched) (hin : setup.opensIn = true)
    (created : Bool) : (gadget.step (.enable setup created)).SetUpBy setup := by
  obtain ⟨hopened, hsettled⟩ := setUp_initEps hs hu hin
  have hle : gadget.epHandles .epIn ≤ 0 := by
    rw [hu.handles]
    decide
  rw [step, enable, if_pos hle]
  split
  · obtain ⟨hhandles, hfds⟩ :=
      @startThread_same { (gadget.initEps setup).2 with stop := false } created
    exact ⟨by rwa [hhandles], hsettled.congr hhandles hfds⟩
  · exact ⟨hopened, hsettled⟩

-- No event sets the endpoints up again.
theorem setUp_step (hset : gadget.SetUpBy setup) (event : GadgetEvent) :
    (gadget.step event).SetUpBy setup := by
  obtain ⟨hopened, hsettled⟩ := hset
  have hsame : (gadget.step event).epHandles = gadget.epHandles ∧
      (gadget.step event).openFds = gadget.openFds := by
    cases event with
    | enable setup' created =>
        rw [step, enable, if_neg (Int.not_le.mpr hopened)]
        exact @startThread_same { gadget with stop := false } created
    | deconfigure => exact ⟨rfl, rfl⟩
    | disconnect => exact @joinThread_same { gadget with stop := true }
    | disable => exact @joinThread_same { gadget with stop := true }
  exact ⟨by rwa [hsame.1], hsettled.congr hsame.1 hsame.2⟩

theorem thread_enable (hset : gadget.SetUpBy setup) (hc : gadget.CountsThread)
    (setup' : EpSetup) : (gadget.step (.enable setup' true)).ioThreads = 1 := by
  have hstarts : gadget.step (.enable setup' true) =
      { gadget with stop := false }.startThread true := by
    rw [step, enable, if_neg (Int.not_le.mpr hset.opened)]
    rfl
  unfold CountsThread at hc
  rw [hstarts, UsbGadget.startThread]
  cases hidle : gadget.threadNotStarted with
  | true =>
      rw [hidle, if_pos rfl] at hc
      simp [hc]
  | false =>
      rw [hidle, if_neg Bool.false_ne_true] at hc
      simp [hc]

theorem setUp_run (hset : gadget.SetUpBy setup) (events : List GadgetEvent) :
    (run step gadget events).SetUpBy setup := by
  induction events generalizing gadget with
  | nil => exact hset
  | cons event rest ih => exact ih (setUp_step hset event)

theorem counts_run (hc : gadget.CountsThread) (events : List GadgetEvent) :
    (run step gadget events).CountsThread := by
  induction events generalizing gadget with
  | nil => exact hc
  | cons event rest ih => exact ih (counts_step hc event)

-- Until a set-up opens the IN endpoint nothing is touched, and this one decides.
theorem setUp_by_first (hu : gadget.Untouched) {events : List GadgetEvent}
    (hsound : ∀ event ∈ events, event.Sound) :
    (firstSetup events = none → (run step gadget events).Untouched) ∧
      ∀ setup, firstSetup events = some setup → (run step gadget events).SetUpBy setup := by
  induction events generalizing gadget with
  | nil => exact ⟨fun _ => hu, fun setup h => by cases h⟩
  | cons event rest ih =>
      have hrest := fun event h => hsound event (List.mem_cons_of_mem _ h)
      rw [run_cons]
      cases hevent : event.setup with
      | none =>
          have hfirst : firstSetup (event :: rest) = firstSetup rest := by
            rw [firstSetup, List.filterMap_cons_none hevent, firstSetup]
          rw [hfirst]
          exact ih (untouched_step hu fun setup h => by rw [hevent] at h; cases h) hrest
      | some setup =>
          have hfirst : firstSetup (event :: rest) =
              if setup.opensIn = true then some setup else firstSetup rest := by
            rw [firstSetup, List.filterMap_cons_some hevent, List.find?_cons, firstSetup]
            cases setup.opensIn <;> rfl
          rw [hfirst]
          cases hin : setup.opensIn with
          | true =>
              have hset : (gadget.step event).SetUpBy setup := by
                cases event with
                | enable setup' created =>
                    cases hevent
                    exact setUp_first (hsound _ List.mem_cons_self _ rfl) hu hin created
                | _ => cases hevent
              rw [if_pos rfl]
              refine ⟨fun h => absurd h (Option.some_ne_none _), fun setup' h => ?_⟩
              rw [← Option.some.inj h]
              exact setUp_run hset rest
          | false =>
              rw [if_neg Bool.false_ne_true]
              refine ih (untouched_step hu fun setup' h => ?_) hrest
              rw [hevent] at h
              rw [← Option.some.inj h]
              exact hin

theorem untouched_init : init.Untouched := ⟨fun _ => rfl, rfl, rfl, rfl⟩

theorem deinit_threads (hc : gadget.CountsThread) : gadget.deinit.ioThreads = 0 :=
  (@CountsThread.joinThread { gadget with
    stop := true
    openFds := gadget.openFds.filter fun fd => fd ∉ gadget.closings } hc).2

theorem deinit_keeps_none (hkept : ∀ fd ∈ gadget.openFds, fd ∈ gadget.closings) :
    gadget.deinit.openFds = [] := by
  have hfds : gadget.deinit.openFds =
      gadget.openFds.filter fun fd => fd ∉ gadget.closings := joinThread_same.2
  rw [hfds, List.filter_eq_nil_iff]
  intro fd hfd
  simpa using hkept fd hfd

end Runs

end UsbGadget

-- From the start of a gadget to its end, whatever the events and the outcomes of the
-- calls: one thread at most, none before the IN endpoint is open, and nothing is left
-- open. The first set-up that opens the IN endpoint is the last one. Every configuration
-- after it has a thread, but the endpoints are served only if it completed, and if it
-- stopped at a write a descriptor is closed twice.
theorem endpoints_set_up_once (events : List GadgetEvent)
    (hsound : ∀ event ∈ events, event.Sound) :
    (UsbGadget.after events).CountsThread ∧
    (UsbGadget.after events).deinit.ioThreads = 0 ∧
    (UsbGadget.after events).deinit.openFds = [] ∧
    (firstSetup events = none →
      (UsbGadget.after events).ioThreads = 0 ∧ (UsbGadget.after events).closings = []) ∧
    ∀ setup, firstSetup events = some setup →
      ((UsbGadget.after events).Served ↔ setup.failure = none) ∧
      ((UsbGadget.after events).ClosesOpen ↔
        setup.failure = none ∨ setup.failure = some .fails) ∧
      ∀ setup', (UsbGadget.after (events ++ [.enable setup' true])).ioThreads = 1 := by
  have hnone : firstSetup events = none → (UsbGadget.after events).Untouched :=
    (UsbGadget.setUp_by_first UsbGadget.untouched_init hsound).1
  have hsome : ∀ setup, firstSetup events = some setup →
      (UsbGadget.after events).SetUpBy setup :=
    (UsbGadget.setUp_by_first UsbGadget.untouched_init hsound).2
  have hcounts : (UsbGadget.after events).CountsThread :=
    @UsbGadget.counts_run .init rfl events
  have hkept : ∀ fd ∈ (UsbGadget.after events).openFds,
      fd ∈ (UsbGadget.after events).closings := by
    cases hfirst : firstSetup events with
    | none =>
        rw [(hnone hfirst).closed]
        exact fun fd hfd => absurd hfd List.not_mem_nil
    | some setup => exact (hsome setup hfirst).settled.kept
  refine ⟨hcounts, ?_, UsbGadget.deinit_keeps_none hkept, fun hfirst => ?_, fun setup hfirst => ?_⟩
  · exact UsbGadget.deinit_threads hcounts
  · obtain ⟨handles, -, -, noThread⟩ := hnone hfirst
    refine ⟨noThread, List.eq_nil_iff_forall_not_mem.mpr fun fd hfd => ?_⟩
    obtain ⟨hpos, ep, hep⟩ := UsbGadget.mem_closings.mp hfd
    rw [handles] at hep
    omega
  · obtain ⟨-, hserved, hcloses, -⟩ := hsome setup hfirst
    refine ⟨hserved, hcloses, fun setup' => ?_⟩
    rw [UsbGadget.after, run_append]
    exact UsbGadget.thread_enable (hsome setup hfirst) hcounts setup'

-- The OUT endpoint does not take its configuration.
def refusedSetup : EpSetup where
  ffsMode := false
  opening
    | .epIn => .opens 5 true
    | .epOut => .opens 6 false
    | .epIntIn => .opens 7 true

theorem refusedSetup_sound : refusedSetup.Sound := by
  constructor
  · intro ep fd written h
    cases ep <;> cases h <;> decide
  · intro ep ep' fd written written' h h'
    cases ep <;> cases ep' <;> cases h <;> cases h' <;> rfl

-- The host tries again, and the io thread runs without the OUT endpoint.
theorem endpoints_set_up_once_sample :
    ¬(UsbGadget.after [.enable refusedSetup true]).Served ∧
      ¬(UsbGadget.after [.enable refusedSetup true]).ClosesOpen ∧
      (UsbGadget.after [.enable refusedSetup true, .enable refusedSetup true]).ioThreads = 1 := by
  have hsound : ∀ event ∈ [GadgetEvent.enable refusedSetup true], event.Sound := by
    intro event hevent setup hsetup
    rw [List.mem_singleton.mp hevent] at hsetup
    rw [← Option.some.inj hsetup]
    exact refusedSetup_sound
  obtain ⟨-, -, -, -, hsome⟩ := endpoints_set_up_once [.enable refusedSetup true] hsound
  obtain ⟨hserved, hcloses, hthread⟩ := hsome refusedSetup rfl
  have hfailure : refusedSetup.failure = some (.opens 6 false) := by decide
  rw [hfailure] at hserved hcloses
  refine ⟨fun h => ?_, fun h => ?_, hthread refusedSetup⟩
  · exact absurd (hserved.mp h) (by decide)
  · exact absurd (hcloses.mp h) (by decide)

end Umtp
