import Umtp.Answers
import Umtp.Encoding
import Umtp.Streaming

namespace Umtp

open Lib Lib.Prog Handles

section Blocks

variable {σ α : Type} {os : Os σ} {p : EntryPtr} {maxsize : Nat} {bufIndex : Int}
  {waiting sent : List UInt8}

-- There is no request to cancel.
def NotCancelled (os : Os σ) (s : World σ × Stream) : Cmd → Prop
  | .act .getCancelReq => (os.act .getCancelReq s.1.os).1 = false
  | _ => True

-- What every system does without a request to cancel.
abbrev Flows (os : Os σ) (P : World σ × Stream → Prop) (prog : M α)
    (Q : α → World σ × Stream → Prop) : Prop :=
  Ensures (stream os) (NotCancelled os) P prog Q

-- No read failed so far.
structure Flowing (maxsize : Nat) (waiting sent : List UInt8) (s : World σ × Stream) : Prop where
  room : s.1.ctx.usbWrBufferMaxSize = maxsize
  waiting : s.1.ctx.wrbuffer.read 0 waiting.length = waiting
  sent : s.2.sent = sent
  failed : s.2.failed = false

-- A read failed, and nothing more was sent.
def Stopped (sent : List UInt8) (s : World σ × Stream) : Prop :=
  s.2.sent = sent ∧ s.2.failed = true

theorem flows_getCtx_bind {P : World σ × Stream → Prop} {f : MtpCtx → M α}
    {Q : α → World σ × Stream → Prop}
    (hf : ∀ ctx, Flows os (fun s => P s ∧ s.1.ctx = ctx) (f ctx) Q) :
    Flows os P (M.getCtx >>= f) Q :=
  ensures_bind (ensures_perform fun _ hs _ => ⟨hs, rfl⟩) hf

theorem flows_entryRead (position : Int) (size : Nat) :
    Flows os (Flowing maxsize waiting sent) (entryRead p position size) fun got s =>
      got = none ∧ Stopped sent s ∨ got.isSome = true ∧ Flowing maxsize waiting sent s := by
  unfold entryRead
  refine flows_getCtx_bind fun ctx => ?_
  dsimp only
  split
  · have hseek : Flows os (fun s => Flowing maxsize waiting sent s ∧ s.1.ctx = ctx)
        (M.act (.lseekSet (ctx.entry p).fileDescriptor position)) fun _ s =>
          Flowing maxsize waiting sent s :=
      ensures_perform fun _ hs _ => ⟨hs.1.room, hs.1.waiting, hs.1.sent, hs.1.failed⟩
    refine ensures_bind hseek fun _ => ensures_perform fun s hs _ => ?_
    have hnote : (stream os (.act (.read (ctx.entry p).fileDescriptor size)) s).2.2.failed =
        (s.2.failed || (os.act (.read (ctx.entry p).fileDescriptor size) s.1.os).1.isNone) := rfl
    rw [hs.failed, Bool.false_or] at hnote
    cases hgot : (os.act (.read (ctx.entry p).fileDescriptor size) s.1.os).1 with
    | none => exact Or.inl ⟨hgot, hs.sent, hnote.trans (by rw [hgot]; rfl)⟩
    | some bytes =>
        refine Or.inr ⟨?_, hs.room, hs.waiting, hs.sent, hnote.trans (by rw [hgot]; rfl)⟩
        have hsome : (stream os (.act (.read (ctx.entry p).fileDescriptor size)) s).1 =
          some bytes :=
          hgot
        rw [hsome]
        rfl
  · exact ensures_ret fun _ hs => Or.inr ⟨rfl, hs.1⟩

theorem flows_loadPage (position : Int) :
    Flows os (Flowing maxsize waiting sent) (loadPage p position) fun loaded s =>
      loaded = false ∧ Stopped sent s ∨ loaded = true ∧ Flowing maxsize waiting sent s := by
  unfold loadPage
  refine flows_getCtx_bind fun ctx => ensures_bind (ensures_weaken (flows_entryRead _ _)
    (fun _ hs => hs.1) fun _ _ hs => hs) fun got => ?_
  cases got with
  | none => exact ensures_ret fun s hs => Or.inl ⟨rfl, by simpa using hs⟩
  | some bytes =>
      refine flows_getCtx_bind fun ctx' => ensures_bind (ensures_perform
        (Q := fun _ s => Flowing maxsize waiting sent s) fun s hs _ => ?_) fun _ =>
          ensures_ret fun s hs => Or.inr ⟨rfl, hs⟩
      have hflow : Flowing maxsize waiting sent s := by simpa using hs.1
      exact ⟨hflow.room, hflow.waiting, hflow.sent, hflow.failed⟩

theorem Flowing.forget {s : World σ × Stream} (hs : Flowing maxsize waiting sent s) :
    Flowing maxsize [] sent s :=
  ⟨hs.room, rfl, hs.sent, hs.failed⟩

-- What waits is not touched by a write behind it.
theorem flows_setWrbuffer {ctx : MtpCtx} {start : Nat} (hstart : waiting.length ≤ start)
    (bytes : List UInt8) :
    Flows os (fun s => Flowing maxsize waiting sent s ∧ s.1.ctx = ctx)
      (M.cmd (.setWrbuffer (ctx.wrbuffer.write start bytes))) fun _ s =>
        Flowing maxsize waiting sent s := by
  refine ensures_perform fun s hs _ => ?_
  obtain ⟨hs, rfl⟩ := hs
  refine ⟨hs.room, ?_, hs.sent, hs.failed⟩
  exact (Buffer.read_write_of_le _ _ (by omega)).trans hs.waiting

-- What a block is: the bytes that wait and as many more as the block is long.
def IsBlock (waiting : List UInt8) (blocksize : Int) (got : Option (List UInt8 × Int)) : Prop :=
  ∃ block page, got = some (waiting ++ block, page) ∧ block.length = blocksize.toNat

theorem isBlock_of_read {buffer : Buffer} (hwaiting : buffer.read 0 waiting.length = waiting)
    (blocksize page : Int) :
    IsBlock waiting blocksize
      (some (buffer.read 0 (waiting.length + blocksize.toNat), page)) := by
  refine ⟨buffer.read waiting.length blocksize.toNat, page, ?_, Buffer.length_read _ _ _⟩
  rw [Buffer.read_add, hwaiting, Nat.zero_add]

theorem flows_takeBlock (cacheSize : Nat) (page position blocksize : Int) :
    Flows os (Flowing maxsize waiting sent)
      (takeBlock p cacheSize page position waiting.length blocksize) fun got s =>
        got = none ∧ Stopped sent s ∨ IsBlock waiting blocksize got ∧ Flowing maxsize []
        sent s := by
  unfold takeBlock
  refine flows_getCtx_bind fun ctx => ?_
  have hfacts : ∀ s : World σ × Stream, Flowing maxsize waiting sent s ∧ s.1.ctx = ctx →
      ctx.wrbuffer.read 0 waiting.length = waiting := fun s hs => hs.2 ▸ hs.1.waiting
  refine ensures_of_fact hfacts fun hwaiting => ?_
  dsimp only
  split
  · split
    · rename_i hnone
      have hblock : IsBlock waiting blocksize (some (ctx.cache.read
          (pageIndex cacheSize position).toNat blocksize.toNat, page)) := by
        rw [List.length_eq_zero_iff.mp hnone]
        exact ⟨_, page, rfl, Buffer.length_read _ _ _⟩
      exact ensures_ret fun s hs => Or.inr ⟨hblock, hs.1.forget⟩
    · refine ensures_bind (flows_setWrbuffer (Nat.le_refl _) _) fun _ => ensures_ret fun s hs =>
        Or.inr ⟨isBlock_of_read ?_ _ _, hs.forget⟩
      rw [Buffer.read_write_of_le _ _ (by omega), hwaiting]
  · refine ensures_bind (flows_setWrbuffer (Nat.le_refl _) _) fun _ =>
      ensures_bind (flows_loadPage _) fun loaded => ensures_or ?_ ?_
    · refine ensures_of_fact (fun s hs => hs.1) fun hloaded => ?_
      rw [hloaded]
      exact ensures_ret fun s hs => Or.inl ⟨rfl, hs.2⟩
    · refine ensures_of_fact (fun s hs => hs.1) fun hloaded => ?_
      rw [if_pos hloaded]
      refine flows_getCtx_bind fun ctx' => ?_
      have hfacts' : ∀ s : World σ × Stream, (loaded = true ∧ Flowing maxsize waiting sent s) ∧
          s.1.ctx = ctx' → ctx'.wrbuffer.read 0 waiting.length = waiting :=
        fun s hs => hs.2 ▸ hs.1.2.waiting
      refine ensures_of_fact hfacts' fun hwaiting' => ?_
      refine ensures_bind (ensures_weaken (flows_setWrbuffer (Nat.le_add_right _ _) _)
        (fun s hs => ⟨hs.1.2, hs.2⟩) fun _ _ hs => hs) fun _ => ensures_ret fun s hs =>
          Or.inr ⟨isBlock_of_read ?_ _ _, hs.forget⟩
      rw [Buffer.read_write_of_le _ _ (by omega), hwaiting']

theorem flows_fetchBlock (position blocksize : Int) :
    Flows os (Flowing maxsize waiting sent)
      (fetchBlock p position bufIndex waiting.length blocksize) fun got s =>
        got = none ∧ Stopped sent s ∨ IsBlock waiting blocksize got ∧ Flowing maxsize []
        sent s := by
  rw [fetchBlock_eq]
  refine flows_getCtx_bind fun ctx => ?_
  have hrest : ∀ loaded : Bool, Flows os (fun s =>
      loaded = false ∧ Stopped sent s ∨ loaded = true ∧ Flowing maxsize waiting sent s)
      (if loaded then takeBlock p ctx.readFileBufferSize
      (pageOffset ctx.readFileBufferSize position)
        position waiting.length blocksize else return none) fun got s =>
          got = none ∧ Stopped sent s ∨
            IsBlock waiting blocksize got ∧ Flowing maxsize [] sent s := by
    intro loaded
    cases loaded with
    | false => exact ensures_ret fun s hs => Or.inl ⟨rfl, by simpa using hs⟩
    | true =>
        exact ensures_weaken (flows_takeBlock _ _ _ _) (fun s hs => by simpa using hs)
          fun _ _ hs => hs
  dsimp only
  split
  · exact ensures_bind (ensures_weaken (flows_loadPage _) (fun _ hs => hs.1) fun _ _ hs => hs) hrest
  · have hkept : Flows os (fun s => Flowing maxsize waiting sent s ∧ s.1.ctx = ctx)
        (pure true : M Bool) fun loaded s =>
          loaded = false ∧ Stopped sent s ∨ loaded = true ∧ Flowing maxsize waiting sent s :=
      ensures_ret fun s hs => Or.inr ⟨rfl, hs.1⟩
    exact ensures_bind hkept hrest

theorem flows_getCancelReq :
    Flows os (Flowing maxsize waiting sent) (M.act .getCancelReq) fun cancelReq s =>
      cancelReq = false ∧ Flowing maxsize waiting sent s :=
  ensures_perform fun _ hs hok => ⟨hok, ⟨hs.room, hs.waiting, hs.sent, hs.failed⟩⟩

theorem flows_writeUsb (bytes : List UInt8) :
    Flows os (Flowing maxsize waiting sent) (writeUsb .bulkIn bytes) fun _ s =>
      Flowing maxsize waiting (sent ++ bytes) s := by
  refine ensures_bind flows_getCancelReq fun cancelReq => ?_
  refine ensures_of_fact (fun s hs => hs.1) fun hcancel => ?_
  rw [hcancel]
  refine ensures_perform fun s hs _ => ?_
  have hsent : s.2.sent ++ bytes = sent ++ bytes := by rw [hs.2.sent]
  exact ⟨hs.2.room, hs.2.waiting, hsent, hs.2.failed⟩

-- The outcome of the blocks from `j` on: all of them are sent, or a read fails
-- before that.
def Outcome (waiting sent : List UInt8) (len : Nat) (done : Bool) (s : World σ × Stream) : Prop :=
  (done = true ∧ s.2.failed = false ∧
      ∃ payload, payload.length = len ∧ s.2.sent = sent ++ waiting ++ payload) ∨
    done = false ∧ s.2.failed = true ∧ s.2.sent.length < sent.length + waiting.length + len ∧
      (s.2.sent = sent ∨ sent ++ waiting <+: s.2.sent)

theorem flows_aside {P : Stream → Prop} {prog : M α} (hp : Uses AnyAnswer Cmd.IsAside prog) :
    Flows os (fun s => P s.2) prog fun _ s => P s.2 :=
  ensures_weaken (ensures_of_runs (I := fun s => P s.2) hp fun s c hs hc _ =>
    ⟨trivial, by rw [stream_aside hc]; exact hs⟩) (fun _ hs => hs) fun _ _ hs => hs.2

-- What comes after a block that was sent.
theorem Outcome.before {bytes : List UInt8} {len rest : Nat} {done : Bool} {s : World σ × Stream}
    (h : Outcome [] (sent ++ (waiting ++ bytes)) rest done s) (hlen : len = bytes.length + rest) :
    Outcome waiting sent len done s := by
  rcases h with ⟨hdone, hfailed, payload, hpayload, hsent⟩ | ⟨hdone, hfailed, hsent, hfront⟩
  · refine Or.inl ⟨hdone, hfailed, bytes ++ payload, by simp; omega, ?_⟩
    rw [hsent]
    simp only [List.append_nil, List.append_assoc]
  · have hstart : sent ++ waiting <+: sent ++ (waiting ++ bytes) :=
      ⟨bytes, List.append_assoc sent waiting bytes⟩
    refine Or.inr ⟨hdone, hfailed, ?_, Or.inr ?_⟩
    · simp only [List.length_append, List.length_nil] at hsent
      omega
    · rcases hfront with hfront | hfront
      · exact hfront ▸ hstart
      · exact hstart.trans (by simpa using hfront)

theorem flows_sendBlocks {offset n : Int} {fuel : Nat} {j : Int} (hj : j ≤ n ∨ j = 0)
    (hfuel : (n - j).toNat < fuel) (hroom : waiting.length < maxsize)
    (hsome : 0 < waiting.length + (n - j).toNat) :
    Flows os (Flowing maxsize waiting sent)
      (sendBlocks p offset n fuel j bufIndex waiting.length)
      (Outcome waiting sent (n - j).toNat) := by
  induction fuel generalizing j bufIndex waiting sent with
  | zero => omega
  | succ fuel ih =>
      unfold sendBlocks
      refine flows_getCtx_bind fun ctx => ?_
      have hfacts : ∀ s : World σ × Stream, Flowing maxsize waiting sent s ∧ s.1.ctx = ctx →
          ctx.usbWrBufferMaxSize = maxsize := fun s hs => hs.2 ▸ hs.1.room
      refine ensures_of_fact hfacts fun hsize => ?_
      dsimp only
      rw [hsize]
      obtain ⟨block, hblock, hcases⟩ : ∃ block : Int,
          (if j + ((maxsize : Int) - waiting.length) < n
            then (maxsize : Int) - waiting.length else n - j) = block ∧
          (j + block = n ∨ 0 < block ∧ j + block < n) := by
        split
        · exact ⟨(maxsize : Int) - waiting.length, rfl, by omega⟩
        · exact ⟨n - j, rfl, by omega⟩
      rw [hblock]
      refine ensures_bind (ensures_weaken (flows_fetchBlock _ _) (fun _ hs => hs.1)
        fun _ _ hs => hs) fun got => ensures_or ?_ ?_
      · refine ensures_of_fact (fun s hs => hs.1) fun hgot => ?_
        rw [hgot]
        have hclose : Flows os (fun s => Stopped sent s) (entryClose (some p)) fun _ s =>
            Stopped sent s :=
          flows_aside (P := fun flow => flow.sent = sent ∧ flow.failed = true) (aside_entryClose _)
        refine ensures_bind (ensures_weaken hclose (fun _ hs => hs.2) fun _ _ hs => hs) fun _ =>
          ensures_ret fun s hs => Or.inr ⟨rfl, hs.2, ?_, Or.inl hs.1⟩
        rw [hs.1]
        omega
      · refine ensures_of_fact (fun s hs => hs.1) fun hgot => ?_
        obtain ⟨bytes, page, rfl, hbytes⟩ := hgot
        have hnext : ∀ _ : Unit, Flows os (Flowing maxsize [] (sent ++ (waiting ++ bytes))) (do
            let j := j + block
            if j < n then
              let cancelReq ← M.act .getCancelReq
              if cancelReq then return true else sendBlocks p offset n fuel j page 0
            else
              return true) (Outcome waiting sent (n - j).toNat) := by
          intro _
          dsimp only
          split
          · rename_i hmore
            refine ensures_bind flows_getCancelReq fun cancelReq => ?_
            refine ensures_of_fact (fun s hs => hs.1) fun hcancel => ?_
            rw [hcancel]
            refine ensures_weaken (ih (by omega) (by omega) (by simp; omega) (by simp; omega))
              (fun _ hs => hs.2) fun done s hs => hs.before (by omega)
          · refine ensures_ret fun s hs => Or.inl ⟨rfl, hs.failed, bytes, by omega, ?_⟩
            rw [hs.sent, List.append_assoc]
        refine ensures_bind (ensures_weaken flows_getCancelReq (fun s hs => hs.2)
          fun _ _ hs => hs) fun cancelReq => ?_
        refine ensures_of_fact (fun s hs => hs.1) fun hcancel => ?_
        rw [hcancel]
        exact ensures_bind (ensures_weaken (flows_writeUsb _) (fun _ hs => hs.2)
          fun _ _ hs => hs) hnext

-- A packet of length zero adds nothing.
theorem flows_checkAndSendUsbZlp {P : Stream → Prop}
    (hP : ∀ flow, P flow → P { flow with sent := flow.sent ++ [] }) (size : Int) :
    Flows os (fun s => P s.2) (checkAndSendUsbZlp size) fun _ s => P s.2 := by
  have hcancel : Flows os (fun s => P s.2) (M.act .getCancelReq) fun cancelReq s =>
      cancelReq = false ∧ P s.2 := ensures_perform fun _ hs hok => ⟨hok, hs⟩
  refine flows_getCtx_bind fun ctx => ?_
  split
  · refine ensures_bind (ensures_weaken hcancel (fun _ hs => hs.1) fun _ _ hs => hs)
      fun cancelReq => ?_
    refine ensures_of_fact (fun s hs => hs.1) fun hno => ?_
    rw [hno]
    exact ensures_perform fun s hs _ => hP _ hs.2
  · exact ensures_ret fun _ hs => hs.1

-- The transfer is not cancelled.
theorem flows_endTransfer {P : Stream → Prop}
    (hP : ∀ flow, P flow → P { flow with sent := flow.sent ++ [] }) (actualsize : Int) :
    Flows os (fun s => P s.2) (endTransfer actualsize) fun result s =>
      result = actualsize ∧ P s.2 := by
  have hcancel : Flows os (fun s => P s.2) (M.act .getCancelReq) fun cancelReq s =>
      cancelReq = false ∧ P s.2 := ensures_perform fun _ hs hok => ⟨hok, hs⟩
  refine ensures_bind (flows_aside (uses_act_of trivial)) fun locked => ?_
  split
  · refine ensures_bind hcancel fun cancelReq => ?_
    refine ensures_of_fact (fun s hs => hs.1) fun hno => ?_
    rw [hno]
    exact ensures_weaken (ensures_bind (flows_checkAndSendUsbZlp hP _) fun _ =>
      ensures_bind (flows_aside (uses_bind (uses_act_of trivial) fun _ => uses_pure _)) fun _ =>
        ensures_ret fun _ hs => ⟨rfl, hs⟩) (fun _ hs => hs.2) fun _ _ hs => hs
  · exact ensures_ret fun _ hs => ⟨rfl, hs⟩

-- The header and as many bytes as it announces.
def AllSent (header : List UInt8) (n : Int) (flow : Stream) : Prop :=
  flow.failed = false ∧ ∃ payload, payload.length = n.toNat ∧ flow.sent = header ++ payload

-- The outcome of a transfer.
def Transferred (header : List UInt8) (n result : Int) (flow : Stream) : Prop :=
  result = n ∧ AllSent header n flow ∨
    result = -1 ∧ flow.failed = true ∧ flow.sent.length < header.length + n.toNat ∧
      (flow.sent = [] ∨ header <+: flow.sent)

theorem flows_transferFile {offset n : Int} {header : List UInt8}
    (hheader : header.length = MTP_HEADER_SIZE) (hroom : header.length < maxsize) :
    Flows os (Flowing maxsize header []) (transferFile p offset n) fun result s =>
      Transferred header n result s.2 := by
  have hstart : Flows os (Flowing maxsize header []) (M.cmd (.setTransferringFileData true))
      fun _ s => Flowing maxsize header [] s :=
    ensures_perform fun _ hs _ => ⟨hs.room, hs.waiting, hs.sent, hs.failed⟩
  have hpos : 0 < header.length := by
    rw [hheader]
    decide
  have hblocks : Flows os (Flowing maxsize header [])
      (sendBlocks p offset n (blockFuel n) 0 (-1) header.length)
      (Outcome header [] (n - 0).toNat) :=
    flows_sendBlocks (Or.inr rfl) (by rw [blockFuel]; omega) hroom (by omega)
  rw [Int.sub_zero] at hblocks
  have hcmd : Uses AnyAnswer Cmd.IsAside (M.cmd (.setTransferringFileData false)) :=
    uses_cmd trivial
  unfold transferFile
  rw [← hheader]
  refine ensures_bind hstart fun _ => ensures_bind hblocks fun done => ensures_or ?_ ?_
  · refine ensures_of_fact (fun s hs => hs.1) fun hdone => ?_
    rw [hdone]
    have hend : Flows os (fun s => AllSent header n s.2) (endTransfer n) fun result s =>
        result = n ∧ AllSent header n s.2 :=
      flows_endTransfer (fun flow hflow => by rwa [List.append_nil]) n
    have hclose : Flows os (fun s => AllSent header n s.2) (entryClose (some p)) fun _ s =>
        AllSent header n s.2 := flows_aside (aside_entryClose _)
    have hclear : Flows os (fun s => AllSent header n s.2)
        (M.cmd (.setTransferringFileData false)) fun _ s => AllSent header n s.2 :=
      flows_aside hcmd
    refine ensures_weaken (ensures_bind hclear fun _ => ensures_bind hclose fun _ => hend)
      (fun s hs => ?_) fun result s hs => Or.inl hs
    simpa [AllSent] using hs.2
  · refine ensures_of_fact (fun s hs => hs.1) fun hdone => ?_
    rw [hdone]
    exact ensures_ret fun s hs => Or.inr ⟨rfl, hs.2.1, by simpa using hs.2.2⟩

end Blocks

section Requests

variable {σ : Type} {os : Os σ} {p : EntryPtr} {offset maxsize : Int} {s : World σ × Stream}

-- The read cache is allocated, or can be.
def CacheReady (os : Os σ) (w : World σ) : Prop :=
  w.ctx.readFileBuffer.isSome = true ∨ (os.act .malloc w.os).1 = true

-- The file opens for a read.
def FileOpens (os : Os σ) (p : EntryPtr) (offset maxsize : Int) (w : World σ) : Prop :=
  (exec (World.handle os) (openToSend p offset maxsize) w).1 ≠ -1

theorem alloc_iff_cacheReady :
    (exec (stream os) allocReadFileBuffer s).1 = true ↔ CacheReady os s.1 := by
  have hctx : (exec (stream os) M.getCtx s) = (s.1.ctx, s) := rfl
  unfold allocReadFileBuffer CacheReady
  rw [bind_eq, exec_bind, hctx]
  dsimp only
  split
  · rename_i hnone
    have hsome : s.1.ctx.readFileBuffer.isSome = false := by simpa using hnone
    rw [bind_eq, exec_bind, hsome]
    have hmalloc : (exec (stream os) (M.act .malloc) s).1 = (os.act .malloc s.1.os).1 := rfl
    rw [hmalloc]
    split
    · rename_i hmem
      rw [hmem]
      simp [exec_bind]
    · rename_i hmem
      rw [Bool.not_eq_true] at hmem
      rw [hmem]
      simp
  · rename_i hsome
    have hsome : s.1.ctx.readFileBuffer.isSome = true := by
      rw [Option.isSome_iff_ne_none]
      simpa using hsome
    rw [hsome]
    simp

theorem cacheReady_of_fileOpens (hopen : FileOpens os p offset maxsize s.1) :
    CacheReady os s.1 :=
  alloc_iff_cacheReady.mp (alloc_of_openToSend hopen)

-- The outcomes of `sendFileData`: there is no memory, the file does not open, or
-- the transfer starts.
def FileOutcome (os : Os σ) (p : EntryPtr) (offset maxsize : Int) (w : World σ) (result : Int)
    (flow : Stream) : Prop :=
  let n := actualSize (w.ctx.entry p).size offset maxsize
  (¬CacheReady os w ∧ result = 0 ∧ flow = noStream) ∨
    (CacheReady os w ∧ ¬FileOpens os p offset maxsize w ∧ result = -1 ∧ flow = noStream) ∨
    FileOpens os p offset maxsize w ∧ Transferred (dataHeader w.ctx n) n result flow

-- Nothing is read or sent before the file is open.
theorem flow_openToSend (hready : CacheReady os s.1) :
    (exec (stream os) (openToSend p offset maxsize) s).2.2 = s.2 := by
  obtain ⟨buffer, -, hstream⟩ := @exec_allocReadFileBuffer _ os s
  have haside := @ensures_of_runs _ _ _ _ (stream os) (fun _ _ => True) _ _ (fun s' => s'.2 = s.2) _
    _ (isAside_opens.entryOpen p .readOnly) fun s' c hs' hc _ =>
      ⟨trivial, (stream_aside hc s').trans hs'⟩
  rw [exec_openToSend (alloc_iff_cacheReady.mpr hready)]
  exact (haside _ (by rw [putLength, hstream]) (fun _ _ => trivial)).2

theorem flows_unopened (hready : CacheReady os s.1) (hfile : ¬FileOpens os p offset maxsize s.1) :
    Flows os (· = s) (sendFileData p offset maxsize) fun result s' =>
      result = -1 ∧ s'.2 = s.2 := by
  have hmem := alloc_iff_cacheReady.mpr hready
  have hopen := @exec_openToSend _ _ p offset maxsize _ hmem
  have hclosed : (exec (stream os) (openToSend p offset maxsize) s).1 = -1 := by
    rw [(exec_stream _ _).1]
    exact not_not.mp hfile
  unfold sendFileData
  refine ensures_bind_at ?_
  rw [hmem]
  refine ensures_bind_at ?_
  have hget : ∀ s' : World σ × Stream, exec (stream os) M.getCtx s' = (s'.1.ctx, s') := fun _ => rfl
  rw [hget]
  refine ensures_bind_at ?_
  refine ensures_bind_at ?_
  have hput : ∀ s' : World σ × Stream, (exec (stream os) (M.cmd (.setWrbuffer
      (poke32 s'.1.ctx.usbWrBufferMaxSize
        (containerLength (actualSize (s'.1.ctx.entry p).size offset maxsize))
          (s'.1.ctx.wrbuffer, 0)).1)) s').2 = putLength p offset maxsize s' := fun _ => rfl
  rw [hput, ← hopen, hclosed, if_neg (by simp)]
  refine ensures_ret fun s' hs' => ⟨rfl, ?_⟩
  rw [hs']
  exact flow_openToSend hready

theorem flows_sendFileData (hroom : MTP_HEADER_SIZE < s.1.ctx.usbWrBufferMaxSize)
    (hflow : s.2 = noStream) :
    Flows os (· = s) (sendFileData p offset maxsize) fun result s' =>
      FileOutcome os p offset maxsize s.1 result s'.2 := by
  by_cases hopen : FileOpens os p offset maxsize s.1
  · obtain ⟨n, hn⟩ : ∃ n, n = actualSize (s.1.ctx.entry p).size offset maxsize := ⟨_, rfl⟩
    have hheader : (poke32 s.1.ctx.usbWrBufferMaxSize (containerLength
        (actualSize (s.1.ctx.entry p).size offset maxsize)) (s.1.ctx.wrbuffer, 0)).1.read 0
          (dataHeader s.1.ctx n).length = dataHeader s.1.ctx n := by
      rw [← hn]
      exact read_dataHeader s.1.ctx n hroom
    have hlen := length_dataHeader s.1.ctx n
    obtain ⟨hprepared, -⟩ := prepared_openToSend hheader hopen
    have htransfer : Flows os (Flowing s.1.ctx.usbWrBufferMaxSize (dataHeader s.1.ctx n) [])
        (transferFile p offset n) fun result s' =>
          Transferred (dataHeader s.1.ctx n) n result s'.2 :=
      flows_transferFile hlen (by rw [hlen]; exact hroom)
    refine ensures_sendFileData hopen ?_
    rw [← hn]
    refine ensures_weaken htransfer ?_ fun _ _ hs => Or.inr (Or.inr ⟨hopen, by rwa [← hn]⟩)
    rintro _ rfl
    refine ⟨hprepared.room, hprepared.waiting, ?_, ?_⟩
    · rw [hprepared.sent, hflow]
      rfl
    · rw [flow_openToSend (cacheReady_of_fileOpens hopen), hflow]
      rfl
  · by_cases hready : CacheReady os s.1
    · exact ensures_weaken (flows_unopened hready hopen) (fun _ hs => hs)
        fun _ _ hs => Or.inr (Or.inl ⟨hready, hopen, hs.1, hs.2.trans hflow⟩)
    · have hmem : (exec (stream os) allocReadFileBuffer s).1 = false := by
        rwa [← Bool.not_eq_true, alloc_iff_cacheReady]
      obtain ⟨buffer, -, hstream⟩ := @exec_allocReadFileBuffer _ os s
      refine ensures_bind_at ?_
      rw [hmem]
      refine ensures_ret fun s' hs' => Or.inl ⟨hready, rfl, ?_⟩
      rw [hs', hstream, hflow]

end Requests

-- GetObject asks for a whole file, GetPartialObject and GetPartialObject64 for a
-- part of one.
def readObject (whole : Bool) (hdr : Buffer) : M Response :=
  if whole then mtpOpGetObject hdr else mtpOpGetPartialObject hdr

-- What is asked for: the entry, the offset and the largest number of bytes.
def MtpCtx.fileRequest (ctx : MtpCtx) (whole : Bool) (hdr : Buffer) :
    Option (EntryPtr × Int × Int) :=
  (ctx.getEntryByHandle (param hdr 0)).map fun p =>
    if whole then
      (p, 0, (ctx.entry p).size)
    else if hdrCode hdr = MTP_OPERATION_GET_PARTIAL_OBJECT_64 then
      (p, toInt64 (peek64 hdr (MTP_HEADER_SIZE + 4) 8), toInt32 (param hdr 3))
    else
      (p, (param hdr 1 : Int), toInt32 (param hdr 2))

-- The response code for a result of `sendFileData`.
def fileReply (whole : Bool) (result : Int) : Nat :=
  if 0 ≤ result then MTP_RESPONSE_OK
  else if result = -2 then MTP_RESPONSE_NO_RESPONSE
  else if whole then MTP_RESPONSE_INCOMPLETE_TRANSFER
  else MTP_RESPONSE_OK

-- The parameter that comes with it.
def fileParams (whole : Bool) (result : Int) : List Nat :=
  if whole = false ∧ 0 ≤ result then [u32 result] else []

-- A response is sent, and it is not OK.
def IsErrorCode (code : Nat) : Prop := code ≠ MTP_RESPONSE_OK ∧ code ≠ MTP_RESPONSE_NO_RESPONSE

instance (code : Nat) : Decidable (IsErrorCode code) := inferInstanceAs (Decidable (_ ∧ _))

section Replies

variable {σ : Type} {os : Os σ} {w : World σ} {whole : Bool} {hdr : Buffer} {p : EntryPtr}
  {offset maxsize : Int}

-- The state the file is sent in: the mutex is held, and the header of the
-- container is in the write buffer.
def dataPhase (os : Os σ) (hdr : Buffer) (w : World σ) : World σ :=
  ⟨{ w.ctx with wrbuffer := (buildResponse (hdrTxId hdr) MTP_CONTAINER_TYPE_DATA (hdrCode hdr)
      w.ctx.wrbuffer w.ctx.usbWrBufferMaxSize []).1 }, (os.act .lockInotifyMutex w.os).2⟩

-- The request is not refused.
structure Reaches (os : Os σ) (whole : Bool) (hdr : Buffer) (w : World σ) (p : EntryPtr)
    (offset maxsize : Int) : Prop where
  session : w.ctx.fsDb.isSome = true
  locked : (os.act .lockInotifyMutex w.os).1 = true
  request : w.ctx.fileRequest whole hdr = some (p, offset, maxsize)
  access : w.ctx.checkHandleAccess (some p) (param hdr 0) false = none
  room : MTP_HEADER_SIZE < w.ctx.usbWrBufferMaxSize

-- The reply and what was sent before it.
def Replied (os : Os σ) (whole : Bool) (hdr : Buffer) (w : World σ) (response : Response)
    (flow : Stream) : Prop :=
  (∃ p offset maxsize result, Reaches os whole hdr w p offset maxsize ∧
      FileOutcome os p offset maxsize (dataPhase os hdr w) result flow ∧
      response = (fileReply whole result, fileParams whole result)) ∨
    (∀ p offset maxsize, ¬Reaches os whole hdr w p offset maxsize) ∧ IsErrorCode response.1 ∧
      flow = noStream

theorem MtpCtx.checkHandleAccess_isError {ctx : MtpCtx} {entry : Option EntryPtr} {handle : Nat}
    {wraccess : Bool} {code : Nat} (h : ctx.checkHandleAccess entry handle wraccess = some code) :
    IsErrorCode code := by
  have hcodes : ∀ code ∈ accessRefusals, IsErrorCode code := by decide
  exact hcodes code (checkHandleAccess_codes h)

-- A header fits or overruns the buffer.
theorem buildResponse_eq (txId type status : Nat) (buffer : Buffer) (maxsize : Nat) :
    buildResponse txId type status buffer maxsize [] =
      if MTP_HEADER_SIZE < maxsize then
        (buffer.write 0 (packetHeader MTP_HEADER_SIZE type status txId), (MTP_HEADER_SIZE : Int))
      else (buffer, -1) := by
  have hlen := length_packetHeader (MTP_HEADER_SIZE + ([] : List UInt8).length) type status txId
  rw [buildResponse, if_pos rfl, pokeArray, if_neg (by decide), List.nil_append, pokeBytes,
    if_neg (by simp), hlen]
  by_cases hroom : MTP_HEADER_SIZE < maxsize
  · rw [if_neg (by omega), if_pos hroom]
    rfl
  · rw [if_pos (by omega), if_neg hroom]

theorem exec_startData (s : World σ × Stream) :
    exec (stream os) (startData hdr) s =
      (decide (MTP_HEADER_SIZE < s.1.ctx.usbWrBufferMaxSize),
        ⟨{ s.1.ctx with wrbuffer := (buildResponse (hdrTxId hdr) MTP_CONTAINER_TYPE_DATA
          (hdrCode hdr) s.1.ctx.wrbuffer s.1.ctx.usbWrBufferMaxSize []).1 }, s.1.os⟩, s.2) := by
  have hfits : (0 ≤ (buildResponse (hdrTxId hdr) MTP_CONTAINER_TYPE_DATA (hdrCode hdr)
      s.1.ctx.wrbuffer s.1.ctx.usbWrBufferMaxSize []).2) ↔
        MTP_HEADER_SIZE < s.1.ctx.usbWrBufferMaxSize := by
    rw [buildResponse_eq]
    split
    · rename_i hroom
      exact ⟨fun _ => hroom, fun _ => by simp⟩
    · rename_i hroom
      exact ⟨fun h => by simp at h, fun h => absurd h hroom⟩
  exact Prod.ext (decide_eq_decide.mpr hfits) rfl

theorem flows_dataPhase {rest : Int → M Response}
    (hrest : ∀ result, rest result = .ret (fileReply whole result, fileParams whole result))
    (hreach : MTP_HEADER_SIZE < w.ctx.usbWrBufferMaxSize →
      Reaches os whole hdr w p offset maxsize)
    (hrefused : ¬MTP_HEADER_SIZE < w.ctx.usbWrBufferMaxSize →
      ∀ p offset maxsize, ¬Reaches os whole hdr w p offset maxsize) :
    Flows os (· = (⟨w.ctx, (os.act .lockInotifyMutex w.os).2⟩, noStream)) (do
      if ← startData hdr then
        let actualsize ← sendFileData p offset maxsize
        rest actualsize
      else
        return (MTP_RESPONSE_GENERAL_ERROR, [])) fun response s =>
          Replied os whole hdr w response s.2 := by
  refine ensures_bind_at ?_
  rw [exec_startData]
  dsimp only
  split
  · rename_i hroom
    have hroom : MTP_HEADER_SIZE < w.ctx.usbWrBufferMaxSize := by simpa using hroom
    have hsend : Flows os (· = (dataPhase os hdr w, noStream)) (sendFileData p offset maxsize)
        fun result s => FileOutcome os p offset maxsize (dataPhase os hdr w) result s.2 :=
      flows_sendFileData hroom rfl
    refine ensures_bind hsend fun result => ?_
    rw [hrest]
    exact ensures_ret fun s hs => Or.inl ⟨p, offset, maxsize, result, hreach hroom, hs, rfl⟩
  · rename_i hroom
    have hroom : ¬MTP_HEADER_SIZE < w.ctx.usbWrBufferMaxSize := by simpa using hroom
    refine ensures_ret fun s hs => Or.inr ⟨hrefused hroom, ?_, ?_⟩
    · exact (by decide : IsErrorCode MTP_RESPONSE_GENERAL_ERROR)
    · rw [hs]

-- The context is that of the state it is read in.
theorem flows_getCtx_at {β : Type} {w : World σ} {stream : Stream} {f : MtpCtx → M β}
    {Q : β → World σ × Stream → Prop} (hf : Flows os (· = (w, stream)) (f w.ctx) Q) :
    Flows os (· = (w, stream)) (M.getCtx.bind f) Q := ensures_bind_at hf

-- Without a session or the mutex the request is refused.
theorem flows_guarded {op : M Response}
    (hop : w.ctx.fsDb.isSome = true → (os.act .lockInotifyMutex w.os).1 = true →
      Flows os (· = (⟨w.ctx, (os.act .lockInotifyMutex w.os).2⟩, noStream)) op
        fun response s => Replied os whole hdr w response s.2) :
    Flows os (· = (w, noStream)) (inSession (underMutex op)) fun response s =>
      Replied os whole hdr w response s.2 := by
  refine ensures_bind_at ?_
  change Flows os (· = (w, noStream)) (if w.ctx.fsDb.isSome then underMutex op
    else return (MTP_RESPONSE_SESSION_NOT_OPEN, [])) _
  split
  · rename_i hsession
    refine ensures_bind_at ?_
    change Flows os (· = (⟨w.ctx, (os.act .lockInotifyMutex w.os).2⟩, noStream))
      (if (os.act .lockInotifyMutex w.os).1 then _ else _) _
    split
    · rename_i hlock
      have hunlock : ∀ response : Response, Flows os (fun s : World σ × Stream =>
          Replied os whole hdr w response s.2) (do
            M.act_ .unlockInotifyMutex
            return response) fun response s => Replied os whole hdr w response s.2 :=
        fun response w' hs _ => hs
      exact ensures_bind (hop hsession hlock) hunlock
    · rename_i hlock
      refine ensures_ret fun s hs => Or.inr ⟨fun _ _ _ h => hlock h.locked, ?_, by rw [hs]⟩
      exact (by decide : IsErrorCode MTP_RESPONSE_GENERAL_ERROR)
  · rename_i hsession
    refine ensures_ret fun s hs => Or.inr ⟨fun _ _ _ h => hsession h.session, ?_, by rw [hs]⟩
    exact (by decide : IsErrorCode MTP_RESPONSE_SESSION_NOT_OPEN)

theorem flows_readObject :
    Flows os (· = (w, noStream)) (readObject whole hdr) fun response s =>
      Replied os whole hdr w response s.2 := by
  have hrefused : ∀ {code : Nat}, IsErrorCode code →
      (∀ p offset maxsize, ¬Reaches os whole hdr w p offset maxsize) →
      Flows os (· = (⟨w.ctx, (os.act .lockInotifyMutex w.os).2⟩, noStream))
        (.ret (code, []) : M Response) fun response s =>
          Replied os whole hdr w response s.2 :=
    fun hcode hreach => ensures_ret fun s hs => Or.inr ⟨hreach, hcode, by rw [hs]⟩
  unfold readObject
  cases whole with
  | true =>
      refine flows_guarded fun hsession hlock => flows_getCtx_at ?_
      dsimp only
      have hrequest : w.ctx.fileRequest true hdr = (w.ctx.getEntryByHandle (param hdr 0)).map
          fun p => (p, 0, (w.ctx.entry p).size) := rfl
      split
      · rename_i p hentry
        rw [hentry, Option.map_some] at hrequest
        refine flows_getCtx_at ?_
        dsimp only
        split
        · rename_i code haccess
          refine hrefused (MtpCtx.checkHandleAccess_isError haccess) fun _ _ _ h => ?_
          have hsame := Option.some_inj.mp (hrequest.symm.trans h.request)
          cases hsame
          rw [h.access] at haccess
          cases haccess
        · rename_i haccess
          refine flows_dataPhase (fun result => ?_)
            (fun hroom => ⟨hsession, hlock, hrequest, haccess, hroom⟩)
            fun hroom _ _ _ h => hroom h.room
          by_cases hdone : 0 ≤ result
          · simp [fileReply, fileParams, hdone]
          · by_cases hcancelled : result = -2
            · simp [fileReply, fileParams, hcancelled]
            · simp [fileReply, fileParams, hdone, hcancelled]
      · rename_i hentry
        refine hrefused (by decide : IsErrorCode MTP_RESPONSE_INVALID_OBJECT_HANDLE)
          fun _ _ _ h => ?_
        rw [hentry] at hrequest
        cases hrequest.symm.trans h.request
  | false =>
      have hrequest : w.ctx.fileRequest false hdr = (w.ctx.getEntryByHandle (param hdr 0)).map
          fun p => (p, if hdrCode hdr = MTP_OPERATION_GET_PARTIAL_OBJECT_64 then
            (toInt64 (peek64 hdr (MTP_HEADER_SIZE + 4) 8), toInt32 (param hdr 3))
          else ((param hdr 1 : Int), toInt32 (param hdr 2))) := by
        rw [MtpCtx.fileRequest]
        refine congrArg (Option.map · _) (funext fun p => ?_)
        exact (apply_ite (Prod.mk p) _ _ _).symm
      change Flows os _ (inSession (underMutex _)) _
      refine flows_guarded fun hsession hlock => ?_
      generalize (if hdrCode hdr = MTP_OPERATION_GET_PARTIAL_OBJECT_64 then
        (toInt64 (peek64 hdr (MTP_HEADER_SIZE + 4) 8), toInt32 (param hdr 3))
        else ((param hdr 1 : Int), toInt32 (param hdr 2))) = range at hrequest ⊢
      obtain ⟨offset, maxsize⟩ := range
      refine flows_getCtx_at ?_
      dsimp only
      split
      · rename_i code haccess
        refine hrefused (MtpCtx.checkHandleAccess_isError haccess) fun p _ _ h => ?_
        have hrequested := hrequest.symm.trans h.request
        cases hentry : w.ctx.getEntryByHandle (param hdr 0) with
        | none =>
            rw [hentry] at hrequested
            cases hrequested
        | some p =>
            rw [hentry] at hrequested haccess
            cases hrequested
            rw [h.access] at haccess
            cases haccess
      · rename_i p haccess hentry
        rw [hentry] at hrequest haccess
        refine flows_dataPhase (fun result => ?_)
          (fun hroom => ⟨hsession, hlock, hrequest, haccess, hroom⟩)
          fun hroom _ _ _ h => hroom h.room
        by_cases hdone : 0 ≤ result
        · simp [fileReply, fileParams, hdone]
        · by_cases hcancelled : result = -2
          · simp [fileReply, fileParams, hcancelled]
          · simp [fileReply, fileParams, hdone, hcancelled]
      · rename_i haccess hentry
        rw [hentry] at hrequest
        refine hrefused (by decide : IsErrorCode MTP_RESPONSE_INVALID_OBJECT_HANDLE)
          fun _ _ _ h => ?_
        cases hrequest.symm.trans h.request

theorem dataHeader_dataPhase (hroom : MTP_HEADER_SIZE < w.ctx.usbWrBufferMaxSize) (n : Int) :
    dataHeader (dataPhase os hdr w).ctx n = packetHeader (containerLength n)
      MTP_CONTAINER_TYPE_DATA (hdrCode hdr) (hdrTxId hdr) := by
  obtain ⟨rest, hrest⟩ : ∃ rest, rest = littleEndian 2 MTP_CONTAINER_TYPE_DATA ++
      littleEndian 2 (hdrCode hdr) ++ littleEndian 4 (hdrTxId hdr) := ⟨_, rfl⟩
  have hsplit : ∀ length, packetHeader length MTP_CONTAINER_TYPE_DATA (hdrCode hdr) (hdrTxId hdr) =
      littleEndian 4 length ++ rest := by
    intro length
    rw [hrest, packetHeader, List.append_assoc, List.append_assoc, List.append_assoc]
  have hlen : rest.length = 8 := by
    rw [hrest, List.length_append, List.length_append]
    simp only [length_littleEndian]
  have hbehind := Buffer.read_write_self w.ctx.wrbuffer 0 (littleEndian 4 MTP_HEADER_SIZE ++ rest)
  rw [List.length_append, length_littleEndian, hlen, Buffer.read_add] at hbehind
  have hread := (List.append_inj hbehind (by rw [Buffer.length_read, length_littleEndian])).2
  rw [dataHeader, dataPhase, buildResponse_eq, if_pos hroom, hsplit, hsplit, hread]

end Replies

-- One data container with as many bytes as announced.
def IsDataContainer (hdr : Buffer) (n : Nat) (sent : List UInt8) : Prop :=
  ∃ payload, payload.length = n ∧ sent = packetHeader (min (MTP_HEADER_SIZE + n) 0xFFFFFFFF)
    MTP_CONTAINER_TYPE_DATA (hdrCode hdr) (hdrTxId hdr) ++ payload

-- The number of bytes that there are, and at most the number asked for.
def exactSize (fileSize offset maxsize : Int) : Nat :=
  (max 0 (min maxsize (fileSize - offset))).toNat

-- What was sent is the part of the file that is asked for.
def MtpCtx.FileSent (ctx : MtpCtx) (whole : Bool) (hdr : Buffer) (sent : List UInt8) : Prop :=
  match ctx.fileRequest whole hdr with
  | some (p, offset, maxsize) =>
    IsDataContainer hdr (exactSize (ctx.entry p).size offset maxsize) sent
  | none => False

-- OK stands for a container that was sent, and everything else gets an error.
def Truthful (code : Nat) (sent : Prop) : Prop :=
  (code = MTP_RESPONSE_OK ↔ sent) ∧ (¬sent → IsErrorCode code)

-- What a file is not sent for, although the response is no error.
structure Answerable {σ : Type} (os : Os σ) (whole : Bool) (w : World σ) (p : EntryPtr)
    (offset maxsize : Int) (failed : Bool) : Prop where
  cache : CacheReady os w
  opens : whole = false → FileOpens os p offset maxsize w
  reads : whole = false → failed = false
  length : whole = false →
    0 ≤ maxsize ∧ offset + maxsize < 2 ^ 63 ∨ (w.ctx.entry p).size ≤ offset

theorem containerLength_lt (n : Int) : containerLength n < 2 ^ 32 := by
  rw [containerLength]
  split
  · decide
  · rw [u32]
    omega

-- A negative length is not the one of an empty container.
theorem containerLength_of_neg {n : Int} (hn : n < 0) (hlow : -(2 ^ 63) ≤ n) :
    containerLength n ≠ MTP_HEADER_SIZE := by
  have hheader : MTP_HEADER_SIZE = 12 := rfl
  rw [containerLength, u32, hheader]
  split
  · decide
  · omega

section Truth

variable {σ : Type} {os : Os σ} {w : World σ} {whole : Bool} {hdr : Buffer} {p : EntryPtr}
  {offset maxsize : Int}

theorem toInt32_bounds (n : Nat) : -(2 ^ 31) ≤ toInt32 n ∧ toInt32 n < 2 ^ 31 := by
  have hle := BitVec.le_toInt (BitVec.ofNat 32 n)
  have hlt : (BitVec.ofNat 32 n).toInt < 2 ^ (32 - 1) := BitVec.toInt_lt
  rw [toInt32]
  omega

theorem Reaches.found (h : Reaches os whole hdr w p offset maxsize) :
    w.ctx.getEntryByHandle (param hdr 0) = some p := by
  have hrequest := h.request
  rw [MtpCtx.fileRequest, Option.map_eq_some_iff] at hrequest
  obtain ⟨p', hentry, hparams⟩ := hrequest
  have hsame : p' = p := by
    have hfirst := congrArg Prod.fst hparams
    split at hfirst
    · exact hfirst
    split at hfirst
    · exact hfirst
    · exact hfirst
  rw [hentry, hsame]

theorem toInt64_bounds (n : Nat) : -(2 ^ 63) ≤ toInt64 n ∧ toInt64 n < 2 ^ 63 := by
  have hle := BitVec.le_toInt (BitVec.ofNat 64 n)
  have hlt : (BitVec.ofNat 64 n).toInt < 2 ^ (64 - 1) := BitVec.toInt_lt
  rw [toInt64]
  omega

-- A whole file is asked for by its size, and a part by an int.
theorem Reaches.range (h : Reaches os whole hdr w p offset maxsize) :
    (whole = true ∧ offset = 0 ∧ maxsize = (w.ctx.entry p).size) ∨
      whole = false ∧ -(2 ^ 63) ≤ offset ∧ offset < 2 ^ 63 ∧
        -(2 ^ 31) ≤ maxsize ∧ maxsize < 2 ^ 31 := by
  have hrequest := h.request
  rw [MtpCtx.fileRequest, Option.map_eq_some_iff] at hrequest
  obtain ⟨p', -, hparams⟩ := hrequest
  cases whole with
  | true =>
      simp only [if_true, Prod.mk.injEq] at hparams
      obtain ⟨rfl, rfl, rfl⟩ := hparams
      exact Or.inl ⟨rfl, rfl, rfl⟩
  | false =>
      refine Or.inr ⟨rfl, ?_⟩
      simp only [Bool.false_eq_true, if_false] at hparams
      split at hparams
      · simp only [Prod.mk.injEq] at hparams
        obtain ⟨-, rfl, rfl⟩ := hparams
        have h64 := toInt64_bounds (peek64 hdr (MTP_HEADER_SIZE + 4) 8)
        have h32 := toInt32_bounds (param hdr 3)
        omega
      · simp only [Prod.mk.injEq] at hparams
        obtain ⟨-, rfl, rfl⟩ := hparams
        have hparam : param hdr 1 < 2 ^ 32 := peekBytes_lt hdr _ 4
        have h32 := toInt32_bounds (param hdr 2)
        omega

theorem actualSize_bounds {fileSize offset maxsize : Int} (hsize : fileSize < 2 ^ 63)
    (hlow : -(2 ^ 63) ≤ offset) (hmax : maxsize < 2 ^ 63)
    (hmin : fileSize ≤ offset ∨ -(2 ^ 63) ≤ maxsize) :
    -(2 ^ 63) ≤ actualSize fileSize offset maxsize ∧
      actualSize fileSize offset maxsize < 2 ^ 63 := by
  rw [actualSize]
  split
  · omega
  split
  · have hdiff := @wrapInt64_cases (fileSize - offset) (by omega) (by omega)
    omega
  · omega

theorem actualSize_eq_exactSize_iff {fileSize offset maxsize : Int} (hsize : fileSize < 2 ^ 63)
    (hlow : -(2 ^ 63) ≤ offset) (hmax : maxsize < 2 ^ 63)
    (hmin : fileSize ≤ offset ∨ -(2 ^ 63) ≤ maxsize) :
    actualSize fileSize offset maxsize = exactSize fileSize offset maxsize ↔
      0 ≤ maxsize ∧ offset + maxsize < 2 ^ 63 ∨ fileSize ≤ offset := by
  rw [actualSize, exactSize]
  by_cases hbehind : fileSize ≤ offset
  · rw [if_pos hbehind]
    omega
  · rw [if_neg hbehind]
    have hsum := @wrapInt64_cases (offset + maxsize) (by omega) (by omega)
    split
    · have hdiff := @wrapInt64_cases (fileSize - offset) (by omega) (by omega)
      omega
    · omega

-- The container is complete exactly when the length is the right one.
theorem Reaches.fileSent_iff (h : Reaches os whole hdr w p offset maxsize) {sent : List UInt8} :
    w.ctx.FileSent whole hdr sent ↔
      IsDataContainer hdr (exactSize (w.ctx.entry p).size offset maxsize) sent := by
  rw [MtpCtx.FileSent, h.request]

theorem IsDataContainer.length {n : Nat} {sent : List UInt8} (h : IsDataContainer hdr n sent) :
    sent.length = MTP_HEADER_SIZE + n := by
  obtain ⟨payload, hpayload, rfl⟩ := h
  rw [List.length_append, length_packetHeader, hpayload]

theorem header_of_isDataContainer (hroom : MTP_HEADER_SIZE < w.ctx.usbWrBufferMaxSize) {n : Int}
    {m : Nat} {sent : List UInt8} (h : IsDataContainer hdr m sent)
    (hfront : dataHeader (dataPhase os hdr w).ctx n <+: sent) :
    containerLength n = min (MTP_HEADER_SIZE + m) 0xFFFFFFFF := by
  obtain ⟨payload, -, rfl⟩ := h
  obtain ⟨rest, hrest⟩ := hfront
  rw [dataHeader_dataPhase hroom] at hrest
  have hheader := (List.append_inj hrest (by simp only [length_packetHeader])).1
  rw [packetHeader, packetHeader, List.append_assoc, List.append_assoc, List.append_assoc,
    List.append_assoc] at hheader
  have hlength := (List.append_inj hheader (by simp only [length_littleEndian])).1
  have hlt : min (MTP_HEADER_SIZE + m) 0xFFFFFFFF < 2 ^ 32 := by omega
  exact littleEndian_inj (containerLength_lt n) hlt hlength

theorem isDataContainer_iff (hroom : MTP_HEADER_SIZE < w.ctx.usbWrBufferMaxSize) {n : Int}
    (hlow : -(2 ^ 63) ≤ n) (hhigh : n < 2 ^ 63) {flow : Stream}
    (hsent : AllSent (dataHeader (dataPhase os hdr w).ctx n) n flow) {m : Nat} :
    IsDataContainer hdr m flow.sent ↔ n = m := by
  obtain ⟨-, payload, hpayload, hflow⟩ := hsent
  constructor
  · intro h
    have hlen := h.length
    rw [hflow, List.length_append, length_dataHeader, hpayload] at hlen
    have hheader := header_of_isDataContainer hroom h ⟨payload, hflow.symm⟩
    by_contra hne
    have hneg : n < 0 := by omega
    have hzero : m = 0 := by omega
    exact containerLength_of_neg hneg hlow (by rw [hheader, hzero]; decide)
  · rintro rfl
    rw [hflow, dataHeader_dataPhase hroom, containerLength_eq (by omega)]
    exact ⟨payload, by rw [hpayload]; rfl, rfl⟩

theorem truthful_of_sent {code : Nat} {sent : Prop} (hsent : sent) :
    Truthful code sent ↔ code = MTP_RESPONSE_OK :=
  ⟨fun h => h.1.mpr hsent, fun h => ⟨iff_of_true h hsent, fun hno => absurd hsent hno⟩⟩

theorem truthful_of_not_sent {code : Nat} {sent : Prop} (hsent : ¬sent) :
    Truthful code sent ↔ IsErrorCode code :=
  ⟨fun h => h.2 hsent, fun h => ⟨iff_of_false h.1 hsent, fun _ => h⟩⟩

theorem isErrorCode_fileReply {result : Int} (hneg : result < 0) (hresult : result ≠ -2) :
    IsErrorCode (fileReply whole result) ↔ whole = true := by
  rw [fileReply, if_neg (by omega), if_neg hresult]
  cases whole <;> decide

-- What the reply to a part is, it is no error.
theorem not_isErrorCode_fileReply {result : Int} : ¬IsErrorCode (fileReply false result) := by
  rw [fileReply]
  split
  · decide
  split
  · decide
  · decide

-- A transfer that starts.
theorem Reaches.truthful_of_transferred (hreach : Reaches os whole hdr w p offset maxsize)
    (hsize : (w.ctx.entry p).size < 2 ^ 63) {result : Int} {flow : Stream}
    (hopen : FileOpens os p offset maxsize (dataPhase os hdr w))
    (htransfer : Transferred (dataHeader (dataPhase os hdr w).ctx
      (actualSize (w.ctx.entry p).size offset maxsize))
        (actualSize (w.ctx.entry p).size offset maxsize) result flow) :
    Truthful (fileReply whole result) (w.ctx.FileSent whole hdr flow.sent) ↔
      Answerable os whole (dataPhase os hdr w) p offset maxsize flow.failed := by
  have hrange := hreach.range
  have hbounds := @actualSize_bounds (w.ctx.entry p).size offset maxsize hsize (by omega)
    (by omega) (by omega)
  have hexact := @actualSize_eq_exactSize_iff (w.ctx.entry p).size offset maxsize hsize (by omega)
    (by omega) (by omega)
  have hpart : whole = true → actualSize (w.ctx.entry p).size offset maxsize =
      exactSize (w.ctx.entry p).size offset maxsize := fun hwhole => by
    rw [hexact]
    rcases hrange with hrange | hrange
    · omega
    · rw [hrange.1] at hwhole
      cases hwhole
  have hcache := cacheReady_of_fileOpens (s := (dataPhase os hdr w, noStream)) hopen
  have hsmall : whole = false → exactSize (w.ctx.entry p).size offset maxsize < 2 ^ 31 := by
    intro hwhole
    rw [exactSize]
    rcases hrange with hrange | hrange
    · rw [hrange.1] at hwhole
      cases hwhole
    · omega
  rw [hreach.fileSent_iff]
  have hlength : Answerable os whole (dataPhase os hdr w) p offset maxsize flow.failed →
      actualSize (w.ctx.entry p).size offset maxsize =
        exactSize (w.ctx.entry p).size offset maxsize := fun h => by
    cases whole with
    | true => exact hpart rfl
    | false => exact hexact.mpr (h.length rfl)
  generalize exactSize (w.ctx.entry p).size offset maxsize = m at *
  generalize actualSize (w.ctx.entry p).size offset maxsize = n at *
  rcases htransfer with ⟨rfl, hsent⟩ | ⟨rfl, hfailed, hshort, hfront⟩
  · have hcontainer := @isDataContainer_iff _ os _ hdr hreach.room _ hbounds.1 hbounds.2 _ hsent m
    by_cases heq : result = m
    · rw [truthful_of_sent (hcontainer.mpr heq), fileReply, if_pos (by omega)]
      exact iff_of_true rfl ⟨hcache, fun _ => hopen, fun _ => hsent.1, fun _ => hexact.mp heq⟩
    · rw [truthful_of_not_sent (mt hcontainer.mp heq)]
      have hfalse : whole = false := by
        by_contra hwhole
        exact heq (hpart (by simpa using hwhole))
      subst hfalse
      exact iff_of_false not_isErrorCode_fileReply fun h => heq (hlength h)
  · have hunsent : ¬IsDataContainer hdr m flow.sent := fun h => by
      have hlen := h.length
      rw [hlen, length_dataHeader] at hshort
      have hfront := hfront.resolve_left fun hempty => by
        rw [hempty] at hlen
        have hnone : 0 = 12 + m := hlen
        omega
      have hheader := header_of_isDataContainer hreach.room h hfront
      have hfalse : whole = false := by
        by_contra hwhole
        have hn := hpart (by simpa using hwhole)
        omega
      have hlt := hsmall hfalse
      have hcount : n = n.toNat := by omega
      have htwelve : MTP_HEADER_SIZE = 12 := rfl
      rw [hcount, containerLength_eq (by omega)] at hheader
      omega
    rw [truthful_of_not_sent hunsent, isErrorCode_fileReply (by decide) (by decide)]
    constructor
    · rintro rfl
      exact ⟨hcache, fun h => (by cases h), fun h => (by cases h), fun h => (by cases h)⟩
    · intro h
      by_contra hpart
      rw [h.reads (by simpa using hpart)] at hfailed
      cases hfailed

-- OK and the container go together exactly when the read cache can be allocated
-- and, for a part of a file, the file opens, no read of it fails and the length
-- asked for is no negative number and ends in the range of an offset.
theorem file_read_truthful_iff (os : Os σ) (w : World σ) (whole : Bool) (hdr : Buffer)
    (_hpacket : 0 < w.ctx.maxPacketSize)
    (hsize : ∀ p ∈ w.ctx.getEntryByHandle (param hdr 0), (w.ctx.entry p).size < 2 ^ 63)
    (hcancel : Safe (stream os) (NotCancelled os) (readObject whole hdr) (w, noStream)) :
    Truthful (exec (stream os) (readObject whole hdr) (w, noStream)).1.1
        (w.ctx.FileSent whole hdr
          (exec (stream os) (readObject whole hdr) (w, noStream)).2.2.sent) ↔
      ∀ p offset maxsize, Reaches os whole hdr w p offset maxsize →
        Answerable os whole (dataPhase os hdr w) p offset maxsize
          (exec (stream os) (readObject whole hdr) (w, noStream)).2.2.failed := by
  have hreplied := @flows_readObject _ os w whole hdr _ rfl hcancel
  generalize exec (stream os) (readObject whole hdr) (w, noStream) = run at hreplied ⊢
  obtain ⟨response, w', flow⟩ := run
  dsimp only at hreplied ⊢
  have hempty : ∀ n, ¬IsDataContainer hdr n noStream.sent := fun n h => by
    have hlen : 0 = 12 + n := h.length
    omega
  rcases hreplied with ⟨p, offset, maxsize, result, hreach, houtcome, rfl⟩ |
      ⟨hrefused, herror, hflow⟩
  · have hone : (∀ p offset maxsize, Reaches os whole hdr w p offset maxsize →
        Answerable os whole (dataPhase os hdr w) p offset maxsize flow.failed) ↔
          Answerable os whole (dataPhase os hdr w) p offset maxsize flow.failed := by
      refine ⟨fun h => h p offset maxsize hreach, fun h p' offset' maxsize' hreach' => ?_⟩
      cases Option.some_inj.mp (hreach.request.symm.trans hreach'.request)
      exact h
    rw [hone]
    rcases houtcome with ⟨hready, hresult, hflow⟩ | ⟨hready, hopen, hresult, hflow⟩ |
        ⟨hopen, htransfer⟩
    · rw [truthful_of_not_sent (by rw [hreach.fileSent_iff, hflow]; exact hempty _), hresult]
      exact iff_of_false (fun h => h.1 rfl) fun h => hready h.cache
    · rw [truthful_of_not_sent (by rw [hreach.fileSent_iff, hflow]; exact hempty _), hresult,
        isErrorCode_fileReply (by decide) (by decide)]
      constructor
      · rintro rfl
        exact ⟨hready, fun h => (by cases h), fun h => (by cases h), fun h => (by cases h)⟩
      · intro h
        by_contra hpart
        exact hopen (h.opens (by simpa using hpart))
    · exact hreach.truthful_of_transferred (hsize p hreach.found) hopen htransfer
  · have hunsent : ¬w.ctx.FileSent whole hdr flow.sent := by
      rw [hflow, MtpCtx.FileSent]
      split
      · exact hempty _
      · exact fun h => h
    rw [truthful_of_not_sent hunsent]
    exact iff_of_true herror fun p offset maxsize h => absurd h (hrefused p offset maxsize)

end Truth

section Samples

instance {σ : Type} (os : Os σ) (s : World σ × Stream) (c : Cmd) :
    Decidable (NotCancelled os s c) := by
  cases c with
  | act a =>
      cases a with
      | getCancelReq => exact inferInstanceAs (Decidable (_ = _))
      | _ => exact inferInstanceAs (Decidable True)
  | _ => exact inferInstanceAs (Decidable True)

-- The request for ten bytes of the first object, and the request for all of it.
def partRequest : Buffer :=
  Buffer.write (fun _ => 0) 0 (commandPacket MTP_OPERATION_GET_PARTIAL_OBJECT [1, 0, 10])

def wholeRequest : Buffer :=
  Buffer.write (fun _ => 0) 0 (commandPacket MTP_OPERATION_GET_OBJECT [1])

theorem file_read_truthful_iff_sample :
    Truthful (exec (stream memOs) (readObject false partRequest) (listedFile, noStream)).1.1
        (listedFile.ctx.FileSent false partRequest
          (exec (stream memOs) (readObject false partRequest) (listedFile, noStream)).2.2.sent) ↔
      ∀ p offset maxsize, Reaches memOs false partRequest listedFile p offset maxsize →
        Answerable memOs false (dataPhase memOs partRequest listedFile) p offset maxsize
          (exec (stream memOs) (readObject false partRequest) (listedFile, noStream)).2.2.failed :=
  file_read_truthful_iff memOs listedFile false partRequest (by decide +kernel)
    (by decide +kernel) fun step hm => by
      revert step
      decide +kernel

-- The file is removed by another program.
def vanishedFile : World MemSystem :=
  run (World.step memOs) listedFile [.outside fun sys =>
    { sys with nodes := sys.nodes.filter fun entry => entry.1 != A_ROOT ++ SLASH :: F_NAME }]

-- No memory is left.
def noMemoryOs : Os MemSystem where
  query q sys := sys.query q
  act a sys :=
    match a with
    | .malloc => (false, sys)
    | a => sys.act a

-- A part of the removed file, and a file for which there is no memory, are
-- answered with OK, and nothing is sent.
theorem file_read_untruthful :
    ¬Truthful (exec (stream memOs) (readObject false partRequest) (vanishedFile, noStream)).1.1
        (vanishedFile.ctx.FileSent false partRequest
          (exec (stream memOs) (readObject false partRequest) (vanishedFile, noStream)).2.2.sent) ∧
      ¬Truthful (exec (stream noMemoryOs) (readObject true wholeRequest) (listedFile, noStream)).1.1
        (listedFile.ctx.FileSent true wholeRequest
          (exec (stream noMemoryOs) (readObject true wholeRequest)
            (listedFile, noStream)).2.2.sent) := by
  have hunsent : ∀ (w : World MemSystem) whole hdr, ¬w.ctx.FileSent whole hdr [] := by
    intro w whole hdr hsent
    rw [MtpCtx.FileSent] at hsent
    split at hsent
    · have hlen : 0 = 12 + _ := hsent.length
      omega
    · exact hsent
  have hpart : (exec (stream memOs) (readObject false partRequest) (vanishedFile, noStream)).1.1 =
        MTP_RESPONSE_OK ∧
      (exec (stream memOs) (readObject false partRequest) (vanishedFile, noStream)).2.2.sent =
        [] := by
    decide +kernel
  have hwhole : (exec (stream noMemoryOs) (readObject true wholeRequest)
        (listedFile, noStream)).1.1 = MTP_RESPONSE_OK ∧
      (exec (stream noMemoryOs) (readObject true wholeRequest) (listedFile, noStream)).2.2.sent =
        [] := by
    decide +kernel
  rw [hpart.1, hpart.2, hwhole.1, hwhole.2]
  exact ⟨fun h => hunsent _ _ _ (h.1.mp rfl), fun h => hunsent _ _ _ (h.1.mp rfl)⟩

end Samples

end Umtp
