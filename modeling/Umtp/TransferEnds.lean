import Umtp.FileReads

namespace Umtp

open Lib Lib.Prog Handles

def zeroPacket : Cmd := .act (.writeUsb .bulkIn [])

section Blocks

variable {σ α : Type} {p : EntryPtr} {room packet : Nat} {size : Int}

-- The commands of a file transfer before its end. No packet is empty, and the
-- cancel mutex stays locked.
def Cmd.BeforeEnd : Cmd → Prop
  | .getCtx | .query _ | .setWrbuffer _ | .setReadFileBuffer _ | .setTransferringFileData _
  | .db (.setFileDescriptor _ _) => True
  | .act .unlockCancelMutex => False
  | .act (.writeUsb _ bytes) => bytes ≠ []
  | .act _ => True
  | _ => False

theorem beforeEnd_opens : Opens Cmd.BeforeEnd where
  getCtx := trivial
  query _ := trivial
  malloc := trivial
  openFile _ _ _ := trivial
  setfsuid _ := trivial
  setfsgid _ := trivial
  setFileDescriptor _ _ := trivial

-- What stays as it is during the transfer.
def MtpCtx.Sized (p : EntryPtr) (room packet : Nat) (size : Int) (ctx : MtpCtx) : Prop :=
  ctx.usbWrBufferMaxSize = room ∧ ctx.maxPacketSize = packet ∧ (ctx.entry p).size = size

-- There is no request to cancel, the mutex is free, and no read fails.
def Undisturbed (os : Os σ) (w : World σ) : Cmd → Prop
  | .act .getCancelReq => (os.act .getCancelReq w.os).1 = false
  | .act .lockCancelMutex => (os.act .lockCancelMutex w.os).1 = true
  | .act (.read file len) => (os.act (.read file len) w.os).1.isSome = true
  | _ => True

def SteadyAnswer (p : EntryPtr) (room packet : Nat) (size : Int) : (c : Cmd) → c.Ans → Prop
  | .getCtx, ctx => ctx.Sized p room packet size
  | .act .getCancelReq, cancelReq => cancelReq = false
  | .act .lockCancelMutex, locked => locked = true
  | .act (.read _ _), got => got.isSome = true
  | _, _ => True

theorem steady_handle {os : Os σ} {w : World σ} {c : Cmd} (hw : w.ctx.Sized p room packet size)
    (hc : c.BeforeEnd) (hok : Undisturbed os w c) :
    SteadyAnswer p room packet size c (World.handle os c w).1 ∧
      (World.handle os c w).2.ctx.Sized p room packet size := by
  cases c with
  | getCtx => exact ⟨hw, hw⟩
  | db op =>
      cases op with
      | setFileDescriptor q file =>
          refine ⟨trivial, hw.1, hw.2.1, ?_⟩
          rw [← hw.2.2]
          show ((w.ctx.applyDb (.setFileDescriptor q file)).db.pool p).size = (w.ctx.db.pool p).size
          rcases w.ctx.applyDb_cases (.setFileDescriptor q file) with heq | heq
          · rw [heq]
          · rw [heq]
            exact @FsHandlesDb.setEntry_keeps_key w.ctx.db _ FsEntry.size q
              { w.ctx.db.pool q with fileDescriptor := file } rfl p
      | _ => exact hc.elim
  | act a =>
      cases a with
      | getCancelReq => exact ⟨hok, hw⟩
      | lockCancelMutex => exact ⟨hok, hw⟩
      | read file len => exact ⟨hok, hw⟩
      | _ => exact ⟨trivial, hw⟩
  | _ => first | exact hc.elim | exact ⟨trivial, hw⟩

-- A part of a transfer before its end, and what is known of its value.
abbrev Continues (p : EntryPtr) (room packet : Nat) (size : Int) (Q : α → Prop) (prog : M α) :
    Prop :=
  Runs (SteadyAnswer p room packet size) Cmd.BeforeEnd Q prog

theorem continues_of_uses {prog : M α} (hp : Uses AnyAnswer Cmd.BeforeEnd prog) :
    Continues p room packet size (fun _ => True) prog :=
  runs_weaken hp (fun _ hs => hs) (fun _ _ _ => trivial) fun _ _ => trivial

theorem continues_getCtx_bind {Q : α → Prop} {f : MtpCtx → M α}
    (hf : ∀ ctx : MtpCtx, ctx.Sized p room packet size → Continues p room packet size Q (f ctx)) :
    Continues p room packet size Q (M.getCtx >>= f) :=
  ⟨trivial, hf⟩

theorem continues_entryRead (position : Int) (len : Nat) :
    Continues p room packet size (fun got => got.isSome = true) (entryRead p position len) := by
  refine continues_getCtx_bind fun ctx _ => ?_
  dsimp only
  split
  · exact ⟨trivial, fun _ _ => ⟨trivial, fun _ hgot => hgot⟩⟩
  · exact rfl

theorem continues_loadPage (position : Int) :
    Continues p room packet size (· = true) (loadPage p position) := by
  refine continues_getCtx_bind fun ctx _ => runs_bind (continues_entryRead _ _) fun got hgot => ?_
  cases got with
  | none => cases hgot
  | some bytes => exact continues_getCtx_bind fun ctx _ => ⟨trivial, fun _ _ => rfl⟩

theorem continues_setWrbuffer (buffer : Buffer) :
    Continues p room packet size (fun _ => True) (M.cmd (.setWrbuffer buffer)) :=
  continues_of_uses (uses_cmd trivial)

-- A block is sent with its length, behind the bytes that wait.
def IsSized (len : Nat) (got : Option (List UInt8 × Int)) : Prop :=
  ∃ bytes page, got = some (bytes, page) ∧ bytes.length = len

theorem continues_takeBlock (cacheSize : Nat) (page position blocksize : Int) (ofs : Nat) :
    Continues p room packet size (IsSized (ofs + blocksize.toNat))
      (takeBlock p cacheSize page position ofs blocksize) := by
  refine continues_getCtx_bind fun ctx _ => ?_
  dsimp only
  split
  · split
    · rename_i hofs
      exact ⟨_, _, rfl, by rw [Buffer.length_read]; omega⟩
    · exact runs_bind (continues_setWrbuffer _) fun _ _ => ⟨_, _, rfl, Buffer.length_read _ _ _⟩
  · refine runs_bind (continues_setWrbuffer _) fun _ _ =>
      runs_bind (continues_loadPage _) fun more hmore => ?_
    rw [hmore, if_pos rfl]
    exact continues_getCtx_bind fun ctx _ => runs_bind (continues_setWrbuffer _) fun _ _ =>
      ⟨_, _, rfl, Buffer.length_read _ _ _⟩

theorem continues_fetchBlock (position bufIndex : Int) (ofs : Nat) (blocksize : Int) :
    Continues p room packet size (IsSized (ofs + blocksize.toNat))
      (fetchBlock p position bufIndex ofs blocksize) := by
  rw [fetchBlock_eq]
  refine continues_getCtx_bind fun ctx _ => ?_
  dsimp only
  split
  · refine runs_bind (continues_loadPage _) fun loaded hloaded => ?_
    rw [hloaded]
    exact continues_takeBlock _ _ _ _ _
  · exact continues_takeBlock _ _ _ _ _

theorem continues_entryClose (entry : Option EntryPtr) :
    Continues p room packet size (fun _ => True) (entryClose entry) := by
  have hset : ∀ {q : EntryPtr} (_ : Unit), Uses AnyAnswer Cmd.BeforeEnd
      (M.db_ (.setFileDescriptor q (-1))) := fun _ => uses_db_ trivial
  apply continues_of_uses
  unfold entryClose
  split
  · refine beforeEnd_opens.getCtx_bind fun ctx => ?_
    dsimp only
    split
    · split
      · exact uses_bind (uses_act_of trivial) fun _ => uses_bind (uses_act_of trivial) hset
      · exact uses_bind (uses_act_of trivial) hset
    · exact hset ()
  · exact uses_pure _

theorem continues_writeUsb {bytes : List UInt8} (h : bytes ≠ []) :
    Continues p room packet size (fun _ => True) (writeUsb .bulkIn bytes) := by
  apply continues_of_uses
  refine uses_bind (uses_act_of trivial) fun cancelReq => ?_
  split
  · exact uses_pure _
  · exact uses_act_of h

-- The induction is on the fuel: the first block comes with the header, and each
-- later one has a byte or more.
theorem continues_sendBlocks {offset n : Int} (fuel : Nat) {j bufIndex : Int} {ofs : Nat}
    (hroom : ofs < room) (hsome : 0 < ofs ∨ j < n) :
    Continues p room packet size (· = true) (sendBlocks p offset n fuel j bufIndex ofs) := by
  induction fuel generalizing j bufIndex ofs with
  | zero => exact rfl
  | succ fuel ih =>
      unfold sendBlocks
      have hcancel : Continues p room packet size (· = false) (M.act .getCancelReq) :=
        ⟨trivial, fun _ hanswer => hanswer⟩
      refine continues_getCtx_bind fun ctx hctx => ?_
      dsimp only
      rw [hctx.1]
      obtain ⟨block, hblock, hpos⟩ : ∃ block : Int,
          (if j + ((room : Int) - ofs) < n then (room : Int) - ofs else n - j) = block ∧
            0 < ofs + block.toNat := by
        split
        · exact ⟨(room : Int) - ofs, rfl, by omega⟩
        · exact ⟨n - j, rfl, by omega⟩
      rw [hblock]
      refine runs_bind (continues_fetchBlock _ _ _ _) fun got hgot => ?_
      obtain ⟨bytes, page, rfl, hlen⟩ := hgot
      have hne : bytes ≠ [] := by
        rintro rfl
        simp at hlen
        omega
      refine runs_bind hcancel fun cancelReq hno => ?_
      rw [hno]
      refine runs_bind (continues_writeUsb hne) fun _ _ => ?_
      split
      · rename_i hmore
        refine runs_bind hcancel fun cancelReq hno => ?_
        rw [hno]
        exact ih (by omega) (Or.inr hmore)
      · exact rfl

theorem continues_allocReadFileBuffer :
    Continues p room packet size (fun _ => True) allocReadFileBuffer := by
  refine continues_of_uses (beforeEnd_opens.getCtx_bind fun ctx => ?_)
  split
  · refine uses_bind (uses_act_of trivial) fun memory => ?_
    split
    · exact uses_bind (uses_cmd trivial) fun _ => uses_pure _
    · exact uses_pure _
  · exact uses_pure _

end Blocks

section Ends

variable {σ α β : Type} {os : Os σ} {p : EntryPtr} {room packet : Nat} {size : Int}
  {needed : Prop} {w : World σ}

-- The last packet is empty exactly when that is needed, and no other one is.
def EndsBy (os : Os σ) (needed : Prop) (prog : M α) (w : World σ) : Prop :=
  Safe (World.handle os) (Undisturbed os) prog w →
    (Issues (World.handle os) zeroPacket prog w ↔ needed)

theorem endsBy_bind {Q : α → Prop} {prog : M α} {f : α → M β}
    (hp : Continues p room packet size Q prog) (hw : w.ctx.Sized p room packet size)
    (hf : ∀ value, value = (exec (World.handle os) prog w).1 → Q value →
      ∀ w', w' = (exec (World.handle os) prog w).2 → w'.ctx.Sized p room packet size →
        EndsBy os needed (f value) w') :
    EndsBy os needed (prog >>= f) w := by
  intro hs
  obtain ⟨hsp, hsf⟩ := (safe_bind _ _ _).mp hs
  have hstep : ∀ (w : World σ) c, w.ctx.Sized p room packet size → c.BeforeEnd →
      Undisturbed os w c → SteadyAnswer p room packet size c (World.handle os c w).1 ∧
        (World.handle os c w).2.ctx.Sized p room packet size :=
    fun _ _ hi hc hok => steady_handle hi hc hok
  have hend := ensures_of_runs hp hstep w hw hsp
  have hzero : ¬Issues (World.handle os) zeroPacket prog w :=
    not_issues_of_safe (safe_of_runs hp hstep hw hsp) fun _ h => h rfl
  rw [bind_eq, issues_bind, or_iff_right hzero]
  exact hf _ rfl hend.1 _ rfl hend.2 hsf

-- What the daemon tests.
def SendsZlp (packet : Nat) (total : Int) : Prop :=
  packet ≤ u32 total ∧ u32 total % packet = 0

theorem endsBy_checkAndSendUsbZlp {total : Int} (hw : w.ctx.Sized p room packet size) :
    EndsBy os (SendsZlp packet total) (checkAndSendUsbZlp total) w := by
  have hget : Continues p room packet size (fun ctx => ctx.Sized p room packet size) M.getCtx :=
    ⟨trivial, fun _ hctx => hctx⟩
  refine endsBy_bind hget hw fun ctx _ hctx w' _ hw' => ?_
  rw [hctx.2.1]
  by_cases hneeded : packet ≤ u32 total ∧ u32 total % packet = 0
  · rw [if_pos hneeded]
    have hcancel : Continues p room packet size (· = false) (M.act .getCancelReq) :=
      ⟨trivial, fun _ hanswer => hanswer⟩
    refine endsBy_bind hcancel hw' fun cancelReq _ hno w'' _ _ _ => ?_
    rw [hno]
    exact iff_of_true ((issues_perform _ _).mpr rfl) hneeded
  · rw [if_neg hneeded]
    exact fun _ => iff_of_false (not_issues_ret _ _) hneeded

theorem endsBy_endTransfer (n : Int) (hw : w.ctx.Sized p room packet size) :
    EndsBy os (SendsZlp packet (MTP_HEADER_SIZE + n)) (endTransfer n) w := by
  have hlock : Continues p room packet size (· = true) (M.act .lockCancelMutex) :=
    ⟨trivial, fun _ hanswer => hanswer⟩
  have hcancel : Continues p room packet size (· = false) (M.act .getCancelReq) :=
    ⟨trivial, fun _ hanswer => hanswer⟩
  refine endsBy_bind hlock hw fun locked _ hlocked w1 _ hw1 => ?_
  rw [hlocked]
  refine endsBy_bind hcancel hw1 fun cancelReq _ hno w2 _ hw2 hs => ?_
  rw [hno] at hs ⊢
  have hend : ∀ w' : World σ, ¬Issues (World.handle os) zeroPacket
      (M.act_ .unlockCancelMutex >>= fun _ => return n) w' := by
    rintro w' ⟨v, hv⟩
    simp [M.act_, M.act, zeroPacket] at hv
  rw [if_neg Bool.false_ne_true] at hs ⊢
  rw [bind_eq, issues_bind, or_iff_left (hend _)]
  exact endsBy_checkAndSendUsbZlp hw2 ((safe_bind _ _ _).mp hs).1

theorem endsBy_transferFile (offset n : Int) (hroom : MTP_HEADER_SIZE < room)
    (hw : w.ctx.Sized p room packet size) :
    EndsBy os (SendsZlp packet (MTP_HEADER_SIZE + n)) (transferFile p offset n) w := by
  have hcmd : ∀ transferring, Continues p room packet size (fun _ => True)
      (M.cmd (.setTransferringFileData transferring)) :=
    fun _ => continues_of_uses (uses_cmd trivial)
  refine endsBy_bind (hcmd true) hw fun _ _ _ w1 _ hw1 => ?_
  refine endsBy_bind (continues_sendBlocks _ hroom (Or.inl (by decide))) hw1
    fun done _ hdone w2 _ hw2 => ?_
  rw [hdone]
  refine endsBy_bind (hcmd false) hw2 fun _ _ _ w3 _ hw3 => ?_
  exact endsBy_bind (continues_entryClose _) hw3 fun _ _ _ w4 _ hw4 => endsBy_endTransfer n hw4

theorem endsBy_sendFileData {offset maxsize : Int} (hroom : MTP_HEADER_SIZE < room)
    (hw : w.ctx.Sized p room packet size) (hopen : FileOpens os p offset maxsize w) :
    EndsBy os (SendsZlp packet (MTP_HEADER_SIZE + actualSize size offset maxsize))
      (sendFileData p offset maxsize) w := by
  have hget : Continues p room packet size (fun ctx => ctx.Sized p room packet size) M.getCtx :=
    ⟨trivial, fun _ hctx => hctx⟩
  have hput : ∀ buffer, Continues p room packet size (fun _ => True)
    (M.cmd (.setWrbuffer buffer)) :=
    fun _ => continues_of_uses (uses_cmd trivial)
  have hfile : Continues p room packet size (fun _ => True) (entryOpen p .readOnly) :=
    continues_of_uses (beforeEnd_opens.entryOpen p .readOnly)
  unfold FileOpens openToSend at hopen
  rw [bind_eq, exec_bind] at hopen
  refine endsBy_bind continues_allocReadFileBuffer hw fun ready hready _ w1 hw1 hsized1 => ?_
  rw [← hready, ← hw1] at hopen
  cases ready with
  | false => exact absurd rfl hopen
  | true =>
      rw [if_pos rfl, bind_eq, exec_bind] at hopen
      rw [if_pos rfl]
      refine endsBy_bind hget hsized1 fun ctx hctx hknown w2 hw2 hsized2 => ?_
      rw [← hctx, ← hw2, bind_eq, exec_bind] at hopen
      dsimp only
      refine endsBy_bind (hput _) hsized2 fun _ _ _ w3 hw3 hsized3 => ?_
      rw [← hw3] at hopen
      refine endsBy_bind hfile hsized3 fun file hopened _ w4 _ hsized4 => ?_
      rw [← hopened] at hopen
      rw [if_pos hopen, hknown.2.2]
      exact endsBy_transferFile offset _ hroom hsized4

-- A container of `total` bytes fills its last packet.
def NeedsZlp (packet total : Nat) : Prop := packet ∣ total ∧ packet ≤ total

instance (packet total : Nat) : Decidable (NeedsZlp packet total) :=
  inferInstanceAs (Decidable (_ ∧ _))

-- What the low 32 bits tell is true of the whole length: the packet size divides
-- the others (there may be none) and the low bits are not all zero, or it
-- divides neither the length nor low bits that are not zero.
def LowBitsTell (packet total : Nat) : Prop :=
  packet ∣ total / 2 ^ 32 * 2 ^ 32 ∧ total % 2 ^ 32 ≠ 0 ∨
    ¬packet ∣ total ∧ (total % 2 ^ 32 = 0 ∨ ¬packet ∣ total % 2 ^ 32)

theorem sendsZlp_iff {total : Nat} (hpacket : 0 < packet) :
    SendsZlp packet total ↔ packet ∣ total % 2 ^ 32 ∧ total % 2 ^ 32 ≠ 0 := by
  have hlow : u32 total = total % 2 ^ 32 := by
    rw [u32]
    omega
  rw [SendsZlp, hlow]
  constructor
  · rintro ⟨hle, hmod⟩
    exact ⟨Nat.dvd_of_mod_eq_zero hmod, by omega⟩
  · rintro ⟨hdvd, hne⟩
    exact ⟨Nat.le_of_dvd (by omega) hdvd, Nat.mod_eq_zero_of_dvd hdvd⟩

theorem dvd_low_iff {high low : Nat} :
    (packet ∣ low ∧ low ≠ 0 ↔ packet ∣ high + low) ↔
      packet ∣ high ∧ low ≠ 0 ∨ ¬packet ∣ high + low ∧ (low = 0 ∨ ¬packet ∣ low) := by
  by_cases hhigh : packet ∣ high
  · rw [Nat.dvd_add_right hhigh]
    by_cases hzero : low = 0
    · simp [hzero]
    · simp [hzero, hhigh]
  · have hnot : packet ∣ low → ¬packet ∣ high + low := fun hlow hall =>
      hhigh ((Nat.dvd_add_left hlow).mp hall)
    by_cases hlow : packet ∣ low
    · by_cases hzero : low = 0
      · simp [hzero, hhigh]
      · simp [hlow, hzero, hhigh, hnot hlow]
    · simp [hlow, hhigh]

theorem sendsZlp_iff_needsZlp {total : Nat} (hpacket : 0 < packet) (htotal : 0 < total) :
    (SendsZlp packet total ↔ NeedsZlp packet total) ↔ LowBitsTell packet total := by
  have hneeds : NeedsZlp packet total ↔ packet ∣ total :=
    ⟨fun h => h.1, fun h => ⟨h, Nat.le_of_dvd htotal h⟩⟩
  have hsplit : total / 2 ^ 32 * 2 ^ 32 + total % 2 ^ 32 = total := by omega
  have hlow := @dvd_low_iff packet (total / 2 ^ 32 * 2 ^ 32) (total % 2 ^ 32)
  rw [hsplit] at hlow
  rw [sendsZlp_iff hpacket, hneeds, hlow, LowBitsTell]

-- A transfer without disturbance ends with an empty packet as it should exactly
-- when the low 32 bits of its length tell that.
theorem zero_packet_iff (os : Os σ) (w : World σ) (p : EntryPtr) (offset maxsize : Int) (n : Nat)
    (hn : actualSize (w.ctx.entry p).size offset maxsize = n) (hpacket : 0 < w.ctx.maxPacketSize)
    (hroom : MTP_HEADER_SIZE < w.ctx.usbWrBufferMaxSize) (hopen : FileOpens os p offset maxsize w)
    (hrun : Safe (World.handle os) (Undisturbed os) (sendFileData p offset maxsize) w) :
    (Issues (World.handle os) zeroPacket (sendFileData p offset maxsize) w ↔
        NeedsZlp w.ctx.maxPacketSize (MTP_HEADER_SIZE + n)) ↔
      LowBitsTell w.ctx.maxPacketSize (MTP_HEADER_SIZE + n) := by
  have hends := endsBy_sendFileData hroom ⟨rfl, rfl, rfl⟩ hopen hrun
  have htotal : (MTP_HEADER_SIZE : Int) + n = ((MTP_HEADER_SIZE + n : Nat) : Int) := by omega
  have hpos : 0 < MTP_HEADER_SIZE + n := Nat.add_pos_left (by decide) n
  rw [hends, hn, htotal, sendsZlp_iff_needsZlp hpacket hpos]

end Ends

section Samples

instance {σ : Type} (os : Os σ) (w : World σ) (c : Cmd) : Decidable (Undisturbed os w c) := by
  induction c using Cmd.casesOn with
  | act a =>
      induction a using Action.casesOn with
      | getCancelReq => exact instDecidableEqBool _ _
      | lockCancelMutex => exact instDecidableEqBool _ _
      | read file len => exact instDecidableEqBool _ _
      | _ => exact instDecidableTrue
  | _ => exact instDecidableTrue

instance {σ : Type} (os : Os σ) (p : EntryPtr) (offset maxsize : Int) (w : World σ) :
    Decidable (FileOpens os p offset maxsize w) :=
  inferInstanceAs (Decidable (_ ≠ _))

theorem zero_packet_iff_sample :
    (Issues (World.handle memOs) zeroPacket (sendFileData fileEntry 0 10) listedFile ↔
        NeedsZlp 512 (MTP_HEADER_SIZE + 3)) ↔ LowBitsTell 512 (MTP_HEADER_SIZE + 3) := by
  have hrun : ∀ step ∈ trace (World.handle memOs) (sendFileData fileEntry 0 10) listedFile,
      Undisturbed memOs step.1 step.2 := by decide +kernel
  exact zero_packet_iff memOs listedFile fileEntry 0 10 3 (by decide +kernel) (by decide +kernel)
    (by decide +kernel) (by decide +kernel) hrun

-- Files hold zeros, and nothing is ever cancelled.
def zerosOs : Os MemSystem where
  query q sys := sys.query q
  act a sys :=
    match a with
    | .getCancelReq => (false, sys)
    | .read _ size => (some (List.replicate size 0), sys)
    | a => sys.act a

-- The file is as large as the length of its container is 4 GiB.
def hugeFile : World MemSystem :=
  ⟨listedFile.ctx.applyDb (.setSize fileEntry (2 ^ 32 - 12)), listedFile.os⟩

-- The low 32 bits of its length are zero, and the packet is missing.
theorem zero_packet_missing :
    ¬(Issues (World.handle zerosOs) zeroPacket (sendFileData fileEntry 0 (2 ^ 32 - 12)) hugeFile ↔
      NeedsZlp 512 (MTP_HEADER_SIZE + (2 ^ 32 - 12))) := by
  have hquiet : ∀ (w : World MemSystem) (c : Cmd), Undisturbed zerosOs w c := by
    intro w c
    cases c with
    | act a => cases a <;> trivial
    | _ => trivial
  have hends := @endsBy_sendFileData _ zerosOs fileEntry _ _ _ hugeFile 0 (2 ^ 32 - 12)
    (by decide +kernel) ⟨rfl, rfl, rfl⟩ (by decide +kernel) fun step _ => hquiet step.1 step.2
  have hpacket : hugeFile.ctx.maxPacketSize = 512 := rfl
  have hlength : (MTP_HEADER_SIZE : Int) + actualSize (hugeFile.ctx.entry fileEntry).size 0
      (2 ^ 32 - 12) = ((2 ^ 32 : Nat) : Int) := by decide +kernel
  rw [hends, hpacket, hlength, sendsZlp_iff (by decide)]
  decide

end Samples

end Umtp
