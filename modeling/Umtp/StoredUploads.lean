import Umtp.Reassembly
import Umtp.Reachable

namespace Umtp

open Lib Lib.Prog Handles

section Operation

variable {σ : Type} {os : Os σ} {seeks : Int → Bool} {hdr : Buffer} {size : Nat}

-- The reply waits for the mutex only.
theorem Uploaded.unlocked {s s' : World σ × Intake} {response : Response} (os' : σ)
    (h : Uploaded os seeks hdr size s response s') :
    Uploaded os seeks hdr size s response (⟨s'.1.ctx, os'⟩, s'.2) := by
  rcases h with ⟨p, opened, haccepts, hopened, hbehind, htaken, hok⟩ | ⟨hno, hcode, hkept⟩
  · exact Or.inl ⟨p, opened, haccepts, hopened, hbehind, htaken, hok⟩
  · exact Or.inr ⟨hno, hcode, hkept⟩

-- The phase runs in the state the mutex is locked in.
theorem uploads_sendObjectPhase {s : World σ × Intake} (hsession : s.1.ctx.fsDb.isSome = true)
    (hlock : (os.act .lockInotifyMutex s.1.os).1 = true)
    (hsize : size ≤ s.1.ctx.usbRdBufferMaxSize) :
    Takes os seeks (· = (intake os seeks (.act .lockInotifyMutex) s).2) (sendObjectPhase hdr size)
      fun out s' => Uploaded os seeks hdr size s (out.1, []) s' := by
  by_cases hdata : hdrOperation hdr = MTP_CONTAINER_TYPE_DATA
  · refine takes_sendObjectPhase hdata (fun hnone => ?_) fun hhandle => ?_
    · refine Or.inr ⟨fun p haccepts => haccepts.handle hnone, ?_, fun _ => rfl⟩
      change MTP_RESPONSE_INVALID_OBJECT_HANDLE ≠ MTP_RESPONSE_OK
      decide
    · refine ensures_weaken (@takes_sendObjectData _ os seeks hdr size
        (intake os seeks (.act .lockInotifyMutex) s).2 hsession hsize) (fun _ hs => hs) ?_
      rintro out s' (⟨p, opened, hfound, haccess, hopens, hopened, hbehind, htaken, hout⟩ |
        ⟨hno, hcode, hkept⟩)
      · refine Or.inl ⟨p, opened, ?_, hopened, hbehind, htaken, ?_⟩
        · exact ⟨hsession, hlock, hhandle, hdata, hfound, haccess, hopens⟩
        · rw [hout]
      · refine Or.inr ⟨fun p haccepts => ?_, hcode, hkept⟩
        exact haccepts.opens (hno p haccepts.found haccepts.access)
  · refine ensures_weaken (takes_otherPhase hdata) (fun _ hs => hs) ?_
    rintro out s' ⟨hcode, hsame⟩
    refine Or.inr ⟨fun p haccepts => hdata haccepts.data, hcode, fun _ => ?_⟩
    rw [hsame]
    rfl

theorem takes_mtpOpSendObject {s : World σ × Intake}
    (hsize : size ≤ s.1.ctx.usbRdBufferMaxSize) :
    Takes os seeks (· = s) (mtpOpSendObject hdr size) (Uploaded os seeks hdr size s) := by
  refine takes_getCtx_at ?_
  by_cases hsession : s.1.ctx.fsDb.isSome = true
  · rw [if_pos hsession]
    refine ensures_bind_at ?_
    have hanswer : (exec (intake os seeks) (M.act .lockInotifyMutex) s).1 =
        (os.act .lockInotifyMutex s.1.os).1 := rfl
    rw [hanswer]
    cases hlock : (os.act .lockInotifyMutex s.1.os).1 with
    | false =>
        refine ensures_ret fun s' hs => Or.inr ⟨fun p haccepts => ?_, ?_, fun _ => ?_⟩
        · have hlocked := haccepts.locked
          rw [hlock] at hlocked
          cases hlocked
        · change MTP_RESPONSE_GENERAL_ERROR ≠ MTP_RESPONSE_OK
          decide
        · rw [hs]
          rfl
    | true =>
        refine ensures_bind (uploads_sendObjectPhase hsession hlock hsize) fun out => ?_
        have hunlock : Takes os seeks (fun s' => Uploaded os seeks hdr size s (out.1, []) s')
            (M.act .unlockInotifyMutex) fun unlocked s' =>
              unlocked = true ∧ Uploaded os seeks hdr size s (out.1, []) s' :=
          ensures_perform fun s' hs hok => ⟨hok, hs.unlocked _⟩
        refine ensures_bind hunlock fun unlocked => ?_
        refine ensures_of_fact (fun s' hs => hs.1) fun htrue => ensures_ret fun s' hs => ?_
        rw [if_pos (Or.inl htrue)]
        exact hs.2
  · rw [if_neg hsession]
    refine ensures_ret fun s' hs => Or.inr ⟨fun p haccepts => ?_, ?_, fun _ => ?_⟩
    · exact hsession haccepts.session
    · change MTP_RESPONSE_SESSION_NOT_OPEN ≠ MTP_RESPONSE_OK
      decide
    · rw [hs]

end Operation

-- What the host sends of a container behind its first read, and what is read of it:
-- full reads and a shorter one. A read that fails ends them early.
inductive Arrives (maxsize : Nat) : (sent : List (List UInt8)) →
    (reads later : List (Option (List UInt8))) → Prop where
  | last {block : List UInt8} {later : List (Option (List UInt8))}
      (hshort : block.length < maxsize) : Arrives maxsize [block] (some block :: later) later
  | full {block : List UInt8} {sent : List (List UInt8)}
      {reads later : List (Option (List UInt8))} (hfull : block.length = maxsize)
      (hrest : Arrives maxsize sent reads later) :
      Arrives maxsize (block :: sent) (some block :: reads) later
  | fails {sent : List (List UInt8)} {later : List (Option (List UInt8))} :
      Arrives maxsize sent (none :: later) later

-- The loop reads a front of what is sent, and nothing of what comes later.
theorem Arrives.readBlocks {maxsize : Nat} {sent : List (List UInt8)}
    {reads later : List (Option (List UInt8))} (h : Arrives maxsize sent reads later) :
    ∃ blocks, blocks <+: sent ∧ readBlocks maxsize reads = (blocks, later) := by
  induction h with
  | @last block later hshort =>
      refine ⟨[block], List.prefix_refl _, ?_⟩
      rw [Umtp.readBlocks, if_neg (by omega)]
  | @full block sent reads later hfull hrest ih =>
      obtain ⟨blocks, hfront, hblocks⟩ := ih
      refine ⟨block :: blocks, (List.prefix_cons_inj block).mpr hfront, ?_⟩
      rw [Umtp.readBlocks, if_pos hfull, hblocks]
  | fails => exact ⟨[], List.nil_prefix, rfl⟩

-- The bytes of a front that is written in part are all bytes when nothing is
-- missing in the front, and every write takes its piece whole.
theorem taken_eq_whole_iff {takes : List Int} {pieces whole : List (List UInt8)}
    (hfront : pieces <+: whole) :
    taken takes pieces = whole.flatten ↔
      pieces.flatten = whole.flatten ∧ TakesWhole takes pieces := by
  obtain ⟨missing, rfl⟩ := hfront
  have hle := length_taken_le takes pieces
  rw [List.flatten_append]
  constructor
  · intro h
    have hlen := congrArg List.length h
    rw [List.length_append] at hlen
    have hnone : missing.flatten = [] := List.length_eq_zero_iff.mp (by omega)
    rw [hnone, List.append_nil] at h ⊢
    exact ⟨rfl, taken_eq_iff.mp h⟩
  · rintro ⟨hall, htakes⟩
    rw [← hall]
    exact taken_eq_iff.mpr htakes

section Containers

variable {σ : Type} {os : Os σ} {seeks : Int → Bool} {hdr : Buffer} {size : Nat} {p : EntryPtr}
  {sent : List (List UInt8)} {later : List (Option (List UInt8))}

def isPartial (hdr : Buffer) : Bool := hdrCode hdr = MTP_OPERATION_SEND_PARTIAL_OBJECT

-- The payload of a container whose first read has `size` bytes.
def containerPayload (hdr : Buffer) (size : Nat) (sent : List (List UInt8)) : List UInt8 :=
  firstPayload hdr size ++ sent.flatten

-- A container as a host sends it: one that fills the first read goes on in others,
-- and a partial write is as long as it was announced.
structure Container (ctx : MtpCtx) (hdr : Buffer) (size : Nat) (sent : List (List UInt8))
    (reads later : List (Option (List UInt8))) : Prop where
  room : size ≤ ctx.usbRdBufferMaxSize
  full : size = ctx.usbRdBufferMaxSize → Arrives ctx.usbRdBufferMaxSize sent reads later
  short : size < ctx.usbRdBufferMaxSize → sent = [] ∧ reads = later
  announced : isPartial hdr = true →
    ctx.sendObjInfoSize = (containerPayload hdr size sent).length

-- The pieces that are written of it.
def MtpCtx.uploadPieces (ctx : MtpCtx) (hdr : Buffer) (size : Nat)
    (reads : List (Option (List UInt8))) : List (List UInt8) :=
  firstPieces hdr size ++ (ctx.uploadBlocks (isPartial hdr) size reads).1

-- All of it is read, and every write takes its piece whole.
def StoresWhole (ctx : MtpCtx) (hdr : Buffer) (size : Nat) (sent : List (List UInt8))
    (g : Intake) : Prop :=
  (ctx.uploadPieces hdr size g.reads).flatten = containerPayload hdr size sent ∧
    TakesWhole g.takes (ctx.uploadPieces hdr size g.reads)

theorem Container.pieces {ctx : MtpCtx} {reads : List (Option (List UInt8))}
    (h : Container ctx hdr size sent reads later) :
    ctx.uploadPieces hdr size reads <+: firstPieces hdr size ++ sent ∧
      (ctx.uploadBlocks (isPartial hdr) size reads).2 = later := by
  rw [MtpCtx.uploadPieces, MtpCtx.uploadBlocks]
  by_cases hfull : size = ctx.usbRdBufferMaxSize
  · obtain ⟨blocks, hfront, hblocks⟩ := (h.full hfull).readBlocks
    have hon : ctx.ReadsOn (isPartial hdr) size := Or.inl hfull
    rw [if_pos hon, hblocks]
    exact ⟨(List.prefix_append_right_inj _).mpr hfront, rfl⟩
  · obtain ⟨rfl, rfl⟩ := h.short (Nat.lt_of_le_of_ne h.room hfull)
    have hnot : ¬ctx.ReadsOn (isPartial hdr) size := by
      rintro (heq | ⟨hpart, hmore⟩)
      · exact hfull heq
      · refine hmore ((h.announced hpart).trans ?_)
        rw [containerPayload, List.flatten_nil, List.append_nil, firstPayload,
          Buffer.length_read]
    rw [if_neg hnot]
    exact ⟨List.prefix_refl _, rfl⟩

theorem Container.taken_iff {ctx : MtpCtx} {g : Intake}
    (h : Container ctx hdr size sent g.reads later) :
    taken g.takes (ctx.uploadPieces hdr size g.reads) = containerPayload hdr size sent ↔
      StoresWhole ctx hdr size sent g := by
  have hpayload : containerPayload hdr size sent = (firstPieces hdr size ++ sent).flatten := by
    rw [containerPayload, List.flatten_append, firstPieces_flatten]
  rw [StoresWhole, hpayload]
  exact taken_eq_whole_iff h.pieces.1

theorem Unchanged.uploadBlocks {ctx ctx' : MtpCtx} (h : Unchanged ctx ctx') (isPartial : Bool)
    (size : Nat) (reads : List (Option (List UInt8))) :
    ctx'.uploadBlocks isPartial size reads = ctx.uploadBlocks isPartial size reads := by
  have hiff : ctx'.ReadsOn isPartial size ↔ ctx.ReadsOn isPartial size := by
    rw [MtpCtx.ReadsOn, MtpCtx.ReadsOn, h.room, h.info]
  rw [MtpCtx.uploadBlocks, MtpCtx.uploadBlocks, h.room]
  by_cases hon : ctx.ReadsOn isPartial size
  · rw [if_pos hon, if_pos (hiff.mpr hon)]
  · rw [if_neg hon, if_neg fun h' => hon (hiff.mp h')]

-- What an upload is put to: the file behind the descriptor, from the position on.
def uploadStart (seeks : Int → Bool) (hdr : Buffer) (p : EntryPtr) (s : World σ × Intake) :
    Intake :=
  seekTo seeks s.1.ctx.sendObjInfoOffset
    (if 0 < (s.1.ctx.entry p).fileDescriptor then s.2 else s.2.opened (uploadFlags hdr))

-- The end of an upload that was accepted.
structure Stored (os : Os σ) (seeks : Int → Bool) (hdr : Buffer) (size : Nat) (p : EntryPtr)
    (s s' : World σ × Intake) : Prop where
  written : s'.2.written =
    s.2.written ++ taken s.2.takes (s.1.ctx.uploadPieces hdr size s.2.reads)
  reads : s'.2.reads = (s.1.ctx.uploadBlocks (isPartial hdr) size s.2.reads).2
  entrySize : (s'.1.ctx.entry p).size = s'.2.content.length
  content : 0 < uploadFile os hdr s.1 p →
    s'.2.content = patch 0 (uploadStart seeks hdr p s).content (uploadStart seeks hdr p s).position
      (taken s.2.takes (s.1.ctx.uploadPieces hdr size s.2.reads))

theorem seekTo_same (offset : Int) (g : Intake) :
    (seekTo seeks offset g).takes = g.takes ∧ (seekTo seeks offset g).written = g.written ∧
      (seekTo seeks offset g).content = g.content := by
  rw [seekTo]
  split
  · exact ⟨rfl, rfl, rfl⟩
  · exact ⟨rfl, rfl, rfl⟩

theorem Uploaded.stored {s s' : World σ × Intake} {response : Response}
    (h : Uploaded os seeks hdr size s response s') (hok : response.1 = MTP_RESPONSE_OK) :
    ∃ p, AcceptsUpload os hdr s.1 p ∧ Stored os seeks hdr size p s s' := by
  rcases h with ⟨p, opened, haccepts, hopened, hbehind, htaken, -⟩ | ⟨-, hcode, -⟩
  · obtain ⟨hctx, hreads, htakes, hwritten, -⟩ := hopened
    obtain ⟨g', hputs, hlater, hend, hsize⟩ := htaken
    obtain ⟨htakes', hwritten', -⟩ :=
      @seekTo_same seeks opened.1.ctx.sendObjInfoOffset opened.2
    have hpieces : firstPieces hdr size ++
        (opened.1.ctx.uploadBlocks (isPartial hdr) size opened.2.reads).1 =
          s.1.ctx.uploadPieces hdr size s.2.reads := by
      rw [MtpCtx.uploadPieces, hctx.uploadBlocks, hreads]
    have hlast : s'.2.content = g'.content ∧ s'.2.written = g'.written ∧ s'.2.reads = g'.reads := by
      rw [hend]
      exact ⟨rfl, rfl, rfl⟩
    refine ⟨p, haccepts, ?_, ?_, ?_, fun hfile => ?_⟩
    · rw [hlast.2.1, hputs.written, hwritten', htakes', hwritten, htakes]
      exact congrArg (s.2.written ++ taken s.2.takes ·) hpieces
    · rw [hlast.2.2, hlater, hctx.uploadBlocks, hreads]
      rfl
    · rw [hsize, hlast.1]
    · have hstart : seekTo seeks opened.1.ctx.sendObjInfoOffset opened.2 =
          uploadStart seeks hdr p s := by
        rw [uploadStart, hctx.offset, hbehind haccepts.session hfile]
      rw [hlast.1, hputs.content, htakes', htakes, hstart]
      exact congrArg (fun pieces => patch 0 (uploadStart seeks hdr p s).content
        (uploadStart seeks hdr p s).position (taken s.2.takes pieces)) hpieces
  · exact absurd hok hcode

theorem Uploaded.ok_iff {s s' : World σ × Intake} {response : Response}
    (h : Uploaded os seeks hdr size s response s') :
    response.1 = MTP_RESPONSE_OK ↔ ∃ p, AcceptsUpload os hdr s.1 p := by
  rcases h with ⟨p, opened, haccepts, -, -, -, hok⟩ | ⟨hno, hcode, -⟩
  · exact iff_of_true hok ⟨p, haccepts⟩
  · exact iff_of_false hcode fun ⟨p, haccepts⟩ => hno p haccepts

-- An upload is answered with OK when it is accepted, whatever became of its data. So
-- the data of what is answered with OK is in the file when an accepted upload is read
-- and written whole, and only then.
theorem upload_stored_iff (os : Os σ) (seeks : Int → Bool) (hdr : Buffer) (size : Nat)
    (s : World σ × Intake) (hcontainer : Container s.1.ctx hdr size sent s.2.reads later)
    (hsafe : Safe (intake os seeks) (Delivers os) (mtpOpSendObject hdr size) s) :
    let out := exec (intake os seeks) (mtpOpSendObject hdr size) s
    (out.1.1 = MTP_RESPONSE_OK ↔ ∃ p, AcceptsUpload os hdr s.1 p) ∧
      ((out.1.1 = MTP_RESPONSE_OK →
          out.2.2.written = s.2.written ++ containerPayload hdr size sent) ↔
        ((∃ p, AcceptsUpload os hdr s.1 p) → StoresWhole s.1.ctx hdr size sent s.2)) := by
  have hup := takes_mtpOpSendObject hcontainer.room s rfl hsafe
  refine ⟨hup.ok_iff, ?_⟩
  have hwhole : (exec (intake os seeks) (mtpOpSendObject hdr size) s).1.1 = MTP_RESPONSE_OK →
      ((exec (intake os seeks) (mtpOpSendObject hdr size) s).2.2.written =
        s.2.written ++ containerPayload hdr size sent ↔
          StoresWhole s.1.ctx hdr size sent s.2) := by
    intro hok
    obtain ⟨p, -, hstored⟩ := hup.stored hok
    rw [hstored.written, List.append_cancel_left_eq]
    exact hcontainer.taken_iff
  rw [← hup.ok_iff]
  exact forall_congr' hwhole

-- A whole object goes to a file that is opened for it. The reads of the container are
-- taken and no more, and the file is the payload when nothing is lost on the way.
theorem upload_reassembled (os : Os σ) (seeks : Int → Bool) (hdr : Buffer) (size : Nat)
    (s : World σ × Intake) (p : EntryPtr)
    (hcontainer : Container s.1.ctx hdr size sent s.2.reads later)
    (haccepts : AcceptsUpload os hdr s.1 p)
    (hwhole : hdrCode hdr ≠ MTP_OPERATION_SEND_PARTIAL_OBJECT)
    (hclosed : (s.1.ctx.entry p).fileDescriptor ≤ 0)
    (hfile : 0 < uploadFile os hdr s.1 p) (hoffset : s.1.ctx.sendObjInfoOffset = 0)
    (hsafe : Safe (intake os seeks) (Delivers os) (mtpOpSendObject hdr size) s) :
    let out := exec (intake os seeks) (mtpOpSendObject hdr size) s
    out.1.1 = MTP_RESPONSE_OK ∧ out.2.2.reads = later ∧
      (out.2.1.ctx.entry p).size = out.2.2.content.length ∧
      (out.2.2.content = containerPayload hdr size sent ↔
        StoresWhole s.1.ctx hdr size sent s.2) := by
  have hup := takes_mtpOpSendObject hcontainer.room s rfl hsafe
  have hok := hup.ok_iff.mpr ⟨p, haccepts⟩
  obtain ⟨p', haccepts', hstored⟩ := hup.stored hok
  obtain rfl : p' = p := Option.some.inj (haccepts'.found.symm.trans haccepts.found)
  have hstart : (uploadStart seeks hdr p' s).content = [] ∧
      (uploadStart seeks hdr p' s).position = 0 := by
    have hflags : uploadFlags hdr = .createTruncate := if_neg hwhole
    rw [uploadStart, if_neg (by omega), hflags, hoffset, seekTo]
    split
    · exact ⟨rfl, rfl⟩
    · exact ⟨rfl, rfl⟩
  refine ⟨hok, hstored.reads.trans hcontainer.pieces.2, hstored.entrySize, ?_⟩
  rw [hstored.content hfile, hstart.1, hstart.2, patch_empty]
  exact hcontainer.taken_iff

-- Where a partial write goes: to its offset, or to where the file is when lseek does
-- not accept it.
def partialPosition (seeks : Int → Bool) (p : EntryPtr) (s : World σ × Intake) : Nat :=
  if seeks s.1.ctx.sendObjInfoOffset then s.1.ctx.sendObjInfoOffset.toNat
  else if 0 < (s.1.ctx.entry p).fileDescriptor then s.2.position
  else 0

-- A partial write that is stored whole changes the bytes of its range only. What was
-- not in the file before it is zero.
theorem partial_write_in_range (os : Os σ) (seeks : Int → Bool) (hdr : Buffer) (size : Nat)
    (s : World σ × Intake) (p : EntryPtr)
    (hcontainer : Container s.1.ctx hdr size sent s.2.reads later)
    (haccepts : AcceptsUpload os hdr s.1 p)
    (hpart : hdrCode hdr = MTP_OPERATION_SEND_PARTIAL_OBJECT)
    (hfile : 0 < uploadFile os hdr s.1 p)
    (hstores : StoresWhole s.1.ctx hdr size sent s.2)
    (hsafe : Safe (intake os seeks) (Delivers os) (mtpOpSendObject hdr size) s) :
    let out := exec (intake os seeks) (mtpOpSendObject hdr size) s
    let payload := containerPayload hdr size sent
    let position := partialPosition seeks p s
    out.1.1 = MTP_RESPONSE_OK ∧ out.2.2.reads = later ∧
      (out.2.1.ctx.entry p).size = out.2.2.content.length ∧
      ∀ i, out.2.2.content[i]? =
        if position ≤ i ∧ i < position + payload.length then payload[i - position]?
        else if i < s.2.content.length then s.2.content[i]?
        else if i < position ∧ payload ≠ [] then some 0 else none := by
  have hup := takes_mtpOpSendObject hcontainer.room s rfl hsafe
  have hok := hup.ok_iff.mpr ⟨p, haccepts⟩
  obtain ⟨p', haccepts', hstored⟩ := hup.stored hok
  obtain rfl : p' = p := Option.some.inj (haccepts'.found.symm.trans haccepts.found)
  have hstart : (uploadStart seeks hdr p' s).content = s.2.content ∧
      (uploadStart seeks hdr p' s).position = partialPosition seeks p' s := by
    have hflags : uploadFlags hdr = .readWrite := if_pos hpart
    rw [uploadStart, partialPosition, hflags, seekTo]
    split <;> split <;> exact ⟨rfl, rfl⟩
  have hcontent : (exec (intake os seeks) (mtpOpSendObject hdr size) s).2.2.content =
      patch 0 s.2.content (partialPosition seeks p' s) (containerPayload hdr size sent) := by
    rw [hstored.content hfile, hstart.1, hstart.2, hcontainer.taken_iff.mpr hstores]
  refine ⟨hok, hstored.reads.trans hcontainer.pieces.2, hstored.entrySize, fun i => ?_⟩
  rw [hcontent]
  exact getElem?_patch' 0 s.2.content (partialPosition seeks p' s) _ i

end Containers

section Samples

instance {σ : Type} (os : Os σ) (s : World σ × Intake) (c : Cmd) : Decidable (Delivers os s c) := by
  induction c using Cmd.casesOn with
  | act a =>
      induction a using Action.casesOn with
      | getCancelReq => exact instDecidableEqBool _ _
      | unlockInotifyMutex => exact instDecidableEqBool _ _
      | readUsb maxsize => exact Option.instDecidableEq _ _
      | write storageId file bytes => exact Option.instDecidableEq _ _
      | lseekEnd file => exact Int.instDecidableEq _ _
      | _ => exact instDecidableTrue
  | query q =>
      induction q using Query.casesOn with
      | usbBacklog => exact Nat.decLe _ _
      | _ => exact instDecidableTrue
  | _ => exact instDecidableTrue

-- Reads of 16 bytes: 4 bytes of payload come with the header, 18 behind it.
def hostBlocks : List (List UInt8) := [List.replicate 16 7, [8, 9]]

def uploadPacket (code : Nat) : Buffer :=
  Buffer.write (fun _ => 0) 0 (dataPacket code [5, 5, 5, 5])

-- The file "/a/f" is written next.
def uploading (offset : Int) : World MemSystem × Intake :=
  ({ listedFile with
      ctx := { listedFile.ctx with
        usbRdBufferMaxSize := 16
        sendObjInfoHandle := 1
        sendObjInfoSize := 22
        sendObjInfoOffset := offset }
      os := { listedFile.os with host := hostBlocks } },
    ⟨hostBlocks.map some, [4, 16, 2], [], [1, 2, 3], 0⟩)

theorem uploading_container (code : Nat) (offset : Int) :
    Container (uploading offset).1.ctx (uploadPacket code) 16 hostBlocks
      (uploading offset).2.reads [] where
  room := Nat.le_refl _
  full _ := Arrives.full rfl (Arrives.last (show 2 < 16 by decide))
  short h := absurd h (Nat.lt_irrefl _)
  announced _ := by
    rw [containerPayload, firstPayload, List.length_append, Buffer.length_read]
    rfl

theorem upload_stored_iff_sample :
    let s := uploading 0
    let hdr := uploadPacket MTP_OPERATION_SEND_OBJECT
    let out := exec (intake memOs fun offset => 0 ≤ offset) (mtpOpSendObject hdr 16) s
    (out.1.1 = MTP_RESPONSE_OK ↔ ∃ p, AcceptsUpload memOs hdr s.1 p) ∧
      ((out.1.1 = MTP_RESPONSE_OK →
          out.2.2.written = s.2.written ++ containerPayload hdr 16 hostBlocks) ↔
        ((∃ p, AcceptsUpload memOs hdr s.1 p) → StoresWhole s.1.ctx hdr 16 hostBlocks s.2)) :=
  upload_stored_iff memOs (fun offset => 0 ≤ offset) (uploadPacket MTP_OPERATION_SEND_OBJECT) 16
    (uploading 0) (uploading_container _ _) fun step hm => by
      revert step
      decide +kernel

theorem upload_reassembled_sample :
    let s := uploading 0
    let hdr := uploadPacket MTP_OPERATION_SEND_OBJECT
    let out := exec (intake memOs fun offset => 0 ≤ offset) (mtpOpSendObject hdr 16) s
    out.1.1 = MTP_RESPONSE_OK ∧ out.2.2.reads = [] ∧
      (out.2.1.ctx.entry fileEntry).size = out.2.2.content.length ∧
      (out.2.2.content = containerPayload hdr 16 hostBlocks ↔
        StoresWhole s.1.ctx hdr 16 hostBlocks s.2) := by
  have hfacts : (uploading 0).1.ctx.fsDb.isSome = true ∧
      (memOs.act .lockInotifyMutex (uploading 0).1.os).1 = true ∧
      (uploading 0).1.ctx.sendObjInfoHandle ≠ NO_HANDLE ∧
      hdrOperation (uploadPacket MTP_OPERATION_SEND_OBJECT) = MTP_CONTAINER_TYPE_DATA ∧
      (uploading 0).1.ctx.getEntryByHandle (uploading 0).1.ctx.sendObjInfoHandle =
        some fileEntry ∧
      (uploading 0).1.ctx.checkHandleAccess (some fileEntry) 0 true = none ∧
      uploadFile memOs (uploadPacket MTP_OPERATION_SEND_OBJECT) (uploading 0).1 fileEntry = 1 ∧
      ((uploading 0).1.ctx.entry fileEntry).fileDescriptor ≤ 0 := by
    decide +kernel
  obtain ⟨hsession, hlocked, hhandle, hdata, hfound, haccess, hopens, hclosed⟩ := hfacts
  refine upload_reassembled memOs (fun offset => 0 ≤ offset)
    (uploadPacket MTP_OPERATION_SEND_OBJECT) 16 (uploading 0) fileEntry
    (uploading_container _ _) ⟨hsession, hlocked, hhandle, hdata, hfound, haccess, by omega⟩
    (by decide +kernel) hclosed (by omega) rfl fun step hm => ?_
  revert step
  decide +kernel

-- The bytes are put behind the end of the file.
theorem partial_write_in_range_sample :
    let s := uploading 5
    let out := exec (intake memOs fun offset => 0 ≤ offset)
      (mtpOpSendObject (uploadPacket MTP_OPERATION_SEND_PARTIAL_OBJECT) 16) s
    let payload := containerPayload (uploadPacket MTP_OPERATION_SEND_PARTIAL_OBJECT) 16 hostBlocks
    let position := partialPosition (fun offset => 0 ≤ offset) fileEntry s
    out.1.1 = MTP_RESPONSE_OK ∧ out.2.2.reads = [] ∧
      (out.2.1.ctx.entry fileEntry).size = out.2.2.content.length ∧
      ∀ i, out.2.2.content[i]? =
        if position ≤ i ∧ i < position + payload.length then payload[i - position]?
        else if i < s.2.content.length then s.2.content[i]?
        else if i < position ∧ payload ≠ [] then some 0 else none := by
  have hfacts : (uploading 5).1.ctx.fsDb.isSome = true ∧
      (memOs.act .lockInotifyMutex (uploading 5).1.os).1 = true ∧
      (uploading 5).1.ctx.sendObjInfoHandle ≠ NO_HANDLE ∧
      hdrOperation (uploadPacket MTP_OPERATION_SEND_PARTIAL_OBJECT) = MTP_CONTAINER_TYPE_DATA ∧
      (uploading 5).1.ctx.getEntryByHandle (uploading 5).1.ctx.sendObjInfoHandle =
        some fileEntry ∧
      (uploading 5).1.ctx.checkHandleAccess (some fileEntry) 0 true = none ∧
      uploadFile memOs (uploadPacket MTP_OPERATION_SEND_PARTIAL_OBJECT) (uploading 5).1
        fileEntry = 1 := by
    decide +kernel
  have hpieces : (uploading 5).1.ctx.uploadPieces
      (uploadPacket MTP_OPERATION_SEND_PARTIAL_OBJECT) 16 (uploading 5).2.reads =
        [[5, 5, 5, 5], List.replicate 16 7, [8, 9]] := by
    decide +kernel
  obtain ⟨hsession, hlocked, hhandle, hdata, hfound, haccess, hopens⟩ := hfacts
  refine partial_write_in_range memOs (fun offset => 0 ≤ offset)
    (uploadPacket MTP_OPERATION_SEND_PARTIAL_OBJECT) 16 (uploading 5) fileEntry
    (uploading_container _ _) ⟨hsession, hlocked, hhandle, hdata, hfound, haccess, by omega⟩
    (by decide +kernel) (by omega) ?_ fun step hm => ?_
  · rw [StoresWhole, hpieces]
    exact ⟨by decide +kernel, by decide, by decide, by decide, trivial⟩
  · revert step
    decide +kernel

end Samples

end Umtp
