import Umtp.Answers
import Umtp.MemOs
import Umtp.SameRequests

namespace Umtp

open Lib Lib.Prog Handles Text

variable {σ : Type} {os : Os σ} {w : World σ} {hdr hdr' : Buffer} {bytes : List UInt8}

-- What has been received is the same in all buffers.
theorem read_received (buffer buffer' : Buffer) {index len : Nat}
    (h : ∀ i < len, index + i < bytes.length) :
    (buffer.write 0 bytes).read index len = (buffer'.write 0 bytes).read index len := by
  refine List.map_congr_left fun i hi => ?_
  have hlt := h i (List.mem_range.mp hi)
  simp only [Buffer.write, Nat.zero_le, Nat.zero_add, Nat.sub_zero, true_and]
  rw [if_pos hlt, if_pos hlt]

theorem peek_received (buffer buffer' : Buffer) {index typesize : Nat}
    (h : index + typesize ≤ bytes.length) :
    peek (buffer.write 0 bytes) index typesize = peek (buffer'.write 0 bytes) index typesize := by
  have hbytes := List.map_inj_left.mp (@read_received bytes buffer buffer' index typesize
    fun i hi => by omega)
  rw [peek, peek, peekBytes, peekBytes, List.map_congr_left fun i hi => by rw [hbytes i hi]]

theorem param_received (buffer buffer' : Buffer) {i : Nat}
    (h : MTP_HEADER_SIZE + (i + 1) * 4 ≤ bytes.length) :
    param (buffer.write 0 bytes) i = param (buffer'.write 0 bytes) i :=
  peek_received buffer buffer' (by omega)

-- Behind what has been received stands what was in the buffer.
theorem write_stale (buffer : Buffer) {i : Nat} (h : bytes.length ≤ i) :
    buffer.write 0 bytes i = buffer i := by
  simp only [Buffer.write]
  rw [if_neg (by omega)]

-- What is read the same whatever the buffers held has been received.
theorem received_peek {index len : Nat} (h : ∀ buffer buffer' : Buffer,
      peek (buffer.write 0 bytes) index (len + 1) = peek (buffer'.write 0 bytes) index (len + 1)) :
    index + len < bytes.length := by
  rw [← Nat.not_le]
  intro hshort
  obtain ⟨one, hone⟩ : ∃ one : Buffer, one = fun j => if j = index + len then 1 else 0 := ⟨_, rfl⟩
  have hbefore : peekBytes (one.write 0 bytes) index len =
      peekBytes (Buffer.write (fun _ => 0) 0 bytes) index len := by
    refine congrArg List.sum (List.map_congr_left fun j hj => ?_)
    have hlt := List.mem_range.mp hj
    by_cases hreceived : index + j < bytes.length
    · simp only [Buffer.write]
      rw [if_pos (by omega), if_pos (by omega)]
    · have hother : one (index + j) = 0 := by
        rw [hone]
        exact if_neg (by omega)
      rw [write_stale one (by omega), write_stale _ (by omega), hother]
  have hlast : one.write 0 bytes (index + len) = 1 := by
    rw [write_stale one hshort, hone]
    exact if_pos rfl
  have hpeek := h one fun _ => 0
  rw [peek, peek, peekBytes_succ, peekBytes_succ, hbefore, hlast, write_stale _ hshort] at hpeek
  have htop := Nat.add_left_cancel hpeek
  rw [UInt8.toNat_one, UInt8.toNat_zero, Nat.one_mul, Nat.zero_mul] at htop
  exact absurd htop (Nat.two_pow_pos _).ne'

theorem received_param {i : Nat} (h : ∀ buffer buffer' : Buffer,
      param (buffer.write 0 bytes) i = param (buffer'.write 0 bytes) i) :
    MTP_HEADER_SIZE + (i + 1) * 4 ≤ bytes.length := by
  have hlast := @received_peek bytes (MTP_HEADER_SIZE + i * 4) 3 h
  omega

-- A command that is taken in silence is answered with nothing.
theorem silent_response (h : w.IsSilent os hdr) (size : Nat) :
    (exec (World.handle os) (performOperation hdr size) w).1 = (MTP_RESPONSE_NO_RESPONSE, []) := by
  obtain ⟨hcode, hoperation, hs, hl, hexpected, haccess, hunlocked⟩ := h
  have hlookup : operations.lookup MTP_OPERATION_SEND_OBJECT = some mtpOpSendObject := rfl
  have hnopart : ¬(hdrCode hdr = MTP_OPERATION_SEND_PARTIAL_OBJECT ∧
      hdrOperation hdr = MTP_CONTAINER_TYPE_COMMAND) := by
    rw [hcode]
    exact fun hpart => absurd hpart.1 (by decide)
  have hphase : exec (World.handle os) (sendObjectPhase hdr size) (w.locked os) =
      ((MTP_RESPONSE_NO_RESPONSE, false), w.locked os) := by
    have hctx : (w.locked os).ctx.sendObjInfoHandle = w.ctx.sendObjInfoHandle := rfl
    have hcheck : (w.locked os).ctx.checkHandleAccess = w.ctx.checkHandleAccess := rfl
    have hcommand : ¬MTP_CONTAINER_TYPE_COMMAND = MTP_CONTAINER_TYPE_DATA := by decide
    rw [sendObjectPhase, if_neg hnopart]
    show exec (World.handle os) (sendObjectRest hdr size) (w.locked os) = _
    rw [sendObjectRest, exec_getCtx_bind, hctx, if_neg hexpected, hoperation, if_neg hcommand,
      if_pos rfl, hcheck, haccess]
    rfl
  rw [performOperation, hcode, hlookup]
  dsimp only
  rw [World.GetsMutex] at hl
  rw [World.locked] at hphase hunlocked
  rw [mtpOpSendObject, inSession, exec_getCtx_bind, if_pos hs, exec_act_bind, hl, if_pos rfl,
    bind_eq, exec_bind, hphase]
  dsimp only
  rw [exec_act_bind, hunlocked]
  rfl

theorem alike_processInPacket {size : Nat}
    (hread : hdr.read MTP_HEADER_SIZE ((size : Int) - MTP_HEADER_SIZE).toNat =
      hdr'.read MTP_HEADER_SIZE ((size : Int) - MTP_HEADER_SIZE).toNat)
    (h : w.SameRequest os hdr hdr') :
    Alike os (· = w) (processInPacket hdr size) (processInPacket hdr' size) := by
  refine alike_at_bind (alike_performOperation hread h) ?_
  rcases h.answer with htx | hsilent
  · have hsame : sendResponse hdr = sendResponse hdr' := by
      funext response
      rw [sendResponse, sendResponse, htx]
    rw [← hsame]
    exact (made_sendResponse hdr _).alike_at
  · rw [silent_response hsilent]
    exact alike_ret ()

-- The answer to a packet, and the state after it, whatever the read buffers held.
def World.IgnoresStale (os : Os σ) (w : World σ) (packet : List UInt8) : Prop :=
  ∀ buffer buffer2 : Buffer,
    actions os (mtpIncomingPacket packet) ⟨w.ctx.withBuffers buffer buffer2, w.os⟩ =
        actions os (mtpIncomingPacket packet) w ∧
      (World.step os w (.packet packet)).Like
        (World.step os ⟨w.ctx.withBuffers buffer buffer2, w.os⟩ (.packet packet))

theorem ignoresStale_of_same {packet : List UInt8}
    (h : packet.take w.ctx.usbRdBufferMaxSize = [] ∨ ∀ buffer buffer' : Buffer, w.SameRequest os
      (buffer.write 0 (packet.take w.ctx.usbRdBufferMaxSize))
      (buffer'.write 0 (packet.take w.ctx.usbRdBufferMaxSize))) : w.IgnoresStale os packet := by
  intro buffer buffer2
  have hrun : Alike os (· = w) (mtpIncomingPacket packet) (mtpIncomingPacket packet) := by
    refine alike_at_getCtx fun first second => ?_
    refine alike_at_bind (alike_setRdbuffer _ _) ?_
    show Alike os _ (if packet.take w.ctx.usbRdBufferMaxSize ≠ [] then _ else _)
      (if packet.take w.ctx.usbRdBufferMaxSize ≠ [] then _ else _)
    by_cases hempty : packet.take w.ctx.usbRdBufferMaxSize = []
    · rw [if_neg (fun hne => hne hempty), if_neg (fun hne => hne hempty)]
      exact alike_ret ()
    · rw [if_pos hempty, if_pos hempty]
      refine alike_processInPacket (read_received _ _ fun i hi => by omega) ?_
      exact (h.resolve_left hempty w.ctx.rdbuffer first).withBuffers _ _
  obtain ⟨-, hlike, hacts⟩ := hrun w _ rfl (World.Like.of_buffers w buffer buffer2)
  exact ⟨hacts, hlike⟩

-- What shows how a packet was read

section Outcome

variable {size : Nat}

-- The state in which a packet is worked on.
def World.working (w : World σ) (hdr : Buffer) : World σ :=
  ⟨{ w.ctx with rdbuffer := hdr }, w.os⟩

theorem World.Like.symm_trans {w w' w'' : World σ} (h : w.Like w') (h' : w.Like w'') :
    w'.Like w'' := by
  obtain ⟨⟨_, _, hctx⟩, hos⟩ := h
  obtain ⟨⟨buffer, buffer2, hctx'⟩, hos'⟩ := h'
  refine ⟨⟨buffer, buffer2, ?_⟩, hos'.trans hos.symm⟩
  rw [hctx, hctx']
  rfl

theorem processed_like {packet : List UInt8} (h : w.IgnoresStale os packet)
    (hne : packet.take w.ctx.usbRdBufferMaxSize ≠ []) (buffer buffer' : Buffer) :
    let bytes := packet.take w.ctx.usbRdBufferMaxSize
    let process := fun hdr : Buffer => processInPacket hdr bytes.length
    let run := fun hdr => exec (World.handle os) (process hdr) (w.working hdr)
    (run (buffer.write 0 bytes)).2.Like (run (buffer'.write 0 bytes)).2 ∧
      actions os (process (buffer'.write 0 bytes)) (w.working (buffer'.write 0 bytes)) =
        actions os (process (buffer.write 0 bytes)) (w.working (buffer.write 0 bytes)) := by
  intro bytes process run
  have hstep : ∀ buffer : Buffer,
      exec (World.handle os) (mtpIncomingPacket packet)
          ⟨w.ctx.withBuffers buffer w.ctx.rdbuffer2, w.os⟩ = run (buffer.write 0 bytes) ∧
        actions os (mtpIncomingPacket packet) ⟨w.ctx.withBuffers buffer w.ctx.rdbuffer2, w.os⟩ =
          actions os (process (buffer.write 0 bytes)) (w.working (buffer.write 0 bytes)) := by
    intro buffer
    have hwork : mtpIncomingPacket packet = M.getCtx.bind fun ctx =>
        (M.cmd (.setRdbuffer (ctx.rdbuffer.write 0 (packet.take ctx.usbRdBufferMaxSize)))).bind
          fun _ => if packet.take ctx.usbRdBufferMaxSize ≠ [] then
            processInPacket (ctx.rdbuffer.write 0 (packet.take ctx.usbRdBufferMaxSize))
              (packet.take ctx.usbRdBufferMaxSize).length
          else .ret () := rfl
    have hwork' : (if bytes ≠ [] then process (buffer.write 0 bytes) else .ret ()) =
        process (buffer.write 0 bytes) := if_pos hne
    rw [hwork]
    refine ⟨?_, ?_⟩
    · exact congrArg (fun prog => exec (World.handle os) prog (w.working (buffer.write 0 bytes)))
        hwork'
    · exact congrArg (fun prog => actions os prog (w.working (buffer.write 0 bytes))) hwork'
  obtain ⟨hrun, hacts⟩ := hstep buffer
  obtain ⟨hrun', hacts'⟩ := hstep buffer'
  obtain ⟨hacts₁, hlike⟩ := h buffer w.ctx.rdbuffer2
  obtain ⟨hacts₂, hlike'⟩ := h buffer' w.ctx.rdbuffer2
  refine ⟨?_, ?_⟩
  · rw [← hrun, ← hrun']
    exact hlike.symm_trans hlike'
  · rw [← hacts, ← hacts', hacts₁, hacts₂]

theorem sendResponse_ctx (hdr : Buffer) (response : Response) (w : World σ) :
    (exec (World.handle os) (sendResponse hdr response) w).2.ctx =
      { w.ctx with wrbuffer :=
          if response.1 ≠ MTP_RESPONSE_NO_RESPONSE then
            (buildResponse (hdrTxId hdr) MTP_CONTAINER_TYPE_RESPONSE response.1 w.ctx.wrbuffer
              w.ctx.usbWrBufferMaxSize (response.2.flatMap (littleEndian 4))).1
          else
            w.ctx.wrbuffer } := by
  have hwrite : ∀ (channel : Endpoint) (sent : List UInt8) (w : World σ),
      (exec (World.handle os) (writeUsb channel sent) w).2.ctx = w.ctx := by
    intro channel sent w
    rw [writeUsb, exec_act_bind]
    split
    · rfl
    · rfl
  rw [sendResponse]
  split
  · rw [exec_getCtx_bind]
    dsimp only
    rw [bind_eq, exec_bind]
    split
    · rw [hwrite]
      rfl
    · rfl
  · rfl

-- Both responses are in the write buffers, and these are the same.
theorem same_response {v v' : World σ} {response response' : Response}
    (hroom : MTP_HEADER_SIZE < v.ctx.usbWrBufferMaxSize)
    (hroom' : MTP_HEADER_SIZE < v'.ctx.usbWrBufferMaxSize)
    (hlike : (exec (World.handle os) (sendResponse hdr response) v).2.Like
      (exec (World.handle os) (sendResponse hdr' response') v').2)
    (hanswered : response.1 ≠ MTP_RESPONSE_NO_RESPONSE)
    (hanswered' : response'.1 ≠ MTP_RESPONSE_NO_RESPONSE) :
    response.1 % 2 ^ 16 = response'.1 % 2 ^ 16 ∧ hdrTxId hdr = hdrTxId hdr' := by
  obtain ⟨buffer, buffer2, hctx⟩ := hlike.ctx
  have hbuffers := congrArg MtpCtx.wrbuffer hctx
  rw [sendResponse_ctx, sendResponse_ctx] at hbuffers
  change (if response'.1 ≠ MTP_RESPONSE_NO_RESPONSE then _ else _) =
    if response.1 ≠ MTP_RESPONSE_NO_RESPONSE then _ else _ at hbuffers
  rw [if_pos hanswered, if_pos hanswered'] at hbuffers
  have hheader := congrArg (Buffer.read · 0 MTP_HEADER_SIZE) hbuffers
  rw [read_buildResponse hroom', read_buildResponse hroom, packetHeader, packetHeader] at hheader
  obtain ⟨hfront, htx⟩ := List.append_inj hheader (by simp only [List.length_append,
    length_littleEndian])
  obtain ⟨-, hcode⟩ := List.append_inj hfront (by simp only [List.length_append,
    length_littleEndian])
  exact ⟨(littleEndian_inj_mod.mp hcode).symm,
    littleEndian_inj (peekBytes_lt _ _ _) (peekBytes_lt _ _ _) htx.symm⟩

def World.responseTo (os : Os σ) (w : World σ) (hdr : Buffer) (size : Nat) : Response :=
  (exec (World.handle os) (performOperation hdr size) (w.working hdr)).1

-- The state in which the response is sent.
def World.worked (os : Os σ) (w : World σ) (hdr : Buffer) (size : Nat) : World σ :=
  (exec (World.handle os) (performOperation hdr size) (w.working hdr)).2

theorem responseTo_eq {code : Nat} (hcode : hdrCode hdr = code) {op : Buffer → Nat → M Response}
    (hop : operations.lookup code = some op) :
    w.responseTo os hdr size = (exec (World.handle os) (op hdr size) (w.working hdr)).1 := by
  rw [World.responseTo, performOperation, hcode, hop]

theorem worked_eq {code : Nat} (hcode : hdrCode hdr = code) {op : Buffer → Nat → M Response}
    (hop : operations.lookup code = some op) :
    w.worked os hdr size = (exec (World.handle os) (op hdr size) (w.working hdr)).2 := by
  rw [World.worked, performOperation, hcode, hop]

-- Two packets that a daemon takes for one: the same is answered, and what is kept
-- for later is the same.
structure World.TakesForOne (os : Os σ) (w : World σ) (size : Nat) (hdr hdr' : Buffer) : Prop where
  answer : IsResponseCode (w.responseTo os hdr size).1 →
    IsResponseCode (w.responseTo os hdr' size).1 →
    (w.responseTo os hdr size).1 = (w.responseTo os hdr' size).1 ∧ hdrTxId hdr = hdrTxId hdr'
  session : (w.worked os hdr size).ctx.sessionId = (w.worked os hdr' size).ctx.sessionId
  object : (w.worked os hdr size).ctx.sendObjInfoHandle =
      (w.worked os hdr' size).ctx.sendObjInfoHandle ∧
    (w.worked os hdr size).ctx.sendObjInfoSize = (w.worked os hdr' size).ctx.sendObjInfoSize ∧
    (w.worked os hdr size).ctx.sendObjInfoOffset = (w.worked os hdr' size).ctx.sendObjInfoOffset
  property : (w.worked os hdr size).ctx.setObjectPropValueHandle =
      (w.worked os hdr' size).ctx.setObjectPropValueHandle ∧
    (w.worked os hdr size).ctx.setObjectPropValuePropCode =
      (w.worked os hdr' size).ctx.setObjectPropValuePropCode

theorem takesForOne_of_ignoresStale {packet : List UInt8} (h : w.IgnoresStale os packet)
    (hne : packet.take w.ctx.usbRdBufferMaxSize ≠ [])
    (hroom : MTP_HEADER_SIZE < w.ctx.usbWrBufferMaxSize) (buffer buffer' : Buffer) :
    w.TakesForOne os (packet.take w.ctx.usbRdBufferMaxSize).length
      (buffer.write 0 (packet.take w.ctx.usbRdBufferMaxSize))
      (buffer'.write 0 (packet.take w.ctx.usbRdBufferMaxSize)) := by
  obtain ⟨hlike, -⟩ := processed_like h hne buffer buffer'
  generalize buffer.write 0 (packet.take w.ctx.usbRdBufferMaxSize) = hdr at hlike ⊢
  generalize buffer'.write 0 (packet.take w.ctx.usbRdBufferMaxSize) = hdr' at hlike ⊢
  generalize (packet.take w.ctx.usbRdBufferMaxSize).length = size at hlike ⊢
  have hwork : ∀ hdr : Buffer, exec (World.handle os) (processInPacket hdr size) (w.working hdr) =
      exec (World.handle os) (sendResponse hdr (w.responseTo os hdr size))
        (w.worked os hdr size) := by
    intro hdr
    rw [processInPacket, bind_eq, exec_bind]
    rfl
  dsimp only at hlike
  rw [hwork, hwork] at hlike
  have hsize : ∀ hdr : Buffer, MTP_HEADER_SIZE < (w.worked os hdr size).ctx.usbWrBufferMaxSize := by
    intro hdr
    rw [World.worked, usbWrBufferMaxSize_exec]
    exact hroom
  obtain ⟨_, _, hctx⟩ := hlike.ctx
  have hkept : ∀ {β : Type} (field : MtpCtx → β), (∀ ctx wrbuffer rdbuffer rdbuffer2,
      field { ctx with wrbuffer := wrbuffer, rdbuffer := rdbuffer, rdbuffer2 := rdbuffer2 } =
        field ctx) → field (w.worked os hdr size).ctx = field (w.worked os hdr' size).ctx := by
    intro β field hfield
    have hsent : ∀ hdr : Buffer, field (exec (World.handle os) (sendResponse hdr
        (w.responseTo os hdr size)) (w.worked os hdr size)).2.ctx =
          field (w.worked os hdr size).ctx := by
      intro hdr
      rw [sendResponse_ctx]
      exact hfield _ _ _ _
    rw [← hsent hdr, ← hsent hdr', hctx]
    exact (hfield _ _ _ _).symm
  refine ⟨fun hans hans' => ?_, hkept _ fun _ _ _ _ => rfl, ?_, ?_⟩
  · obtain ⟨hcode, htx⟩ := same_response (hsize hdr) (hsize hdr') hlike (Nat.ne_of_lt hans)
      (Nat.ne_of_lt hans')
    have hbound : MTP_RESPONSE_NO_RESPONSE < 2 ^ 16 := by decide
    rw [Nat.mod_eq_of_lt (Nat.lt_trans hans hbound), Nat.mod_eq_of_lt (Nat.lt_trans hans' hbound)]
      at hcode
    exact ⟨hcode, htx⟩
  · exact ⟨hkept _ fun _ _ _ _ => rfl, hkept _ fun _ _ _ _ => rfl, hkept _ fun _ _ _ _ => rfl⟩
  · exact ⟨hkept _ fun _ _ _ _ => rfl, hkept _ fun _ _ _ _ => rfl⟩

theorem not_supported {size : Nat} (h : hdrCode hdr < 2 ^ 8) :
    w.responseTo os hdr size = (MTP_RESPONSE_OPERATION_NOT_SUPPORTED, []) := by
  have hcodes : ∀ code ∈ operations.map Prod.fst, 2 ^ 8 ≤ code := by decide
  have hnone : operations.lookup (hdrCode hdr) = none := by
    refine List.lookup_eq_none_iff.mpr fun row hrow => ?_
    have hle := hcodes row.1 (List.mem_map_of_mem hrow)
    exact bne_iff_ne.mpr (by omega)
  rw [World.responseTo, performOperation, hnone]
  rfl

-- Without its code a packet could ask for nothing, with one transaction or another.
theorem received_code (h : ∀ buffer buffer' : Buffer,
      w.TakesForOne os bytes.length (buffer.write 0 bytes) (buffer'.write 0 bytes)) :
    8 ≤ bytes.length := by
  rw [← Nat.not_lt]
  intro hshort
  have hcode : ∀ buffer : Buffer, buffer 7 = 0 → hdrCode (buffer.write 0 bytes) < 2 ^ 8 := by
    intro buffer hbuffer
    have hhigh : buffer.write 0 bytes (6 + 1) = 0 := (write_stale buffer (by omega)).trans hbuffer
    rw [hdrCode, peek, peekBytes_succ, hhigh, UInt8.toNat_zero, Nat.zero_mul, Nat.add_zero]
    exact peekBytes_lt _ 6 1
  have htx : ∀ buffer : Buffer, hdrTxId (buffer.write 0 bytes) = peek buffer 8 4 := by
    intro buffer
    rw [hdrTxId, peek, peek, peekBytes, peekBytes]
    refine congrArg List.sum (List.map_congr_left fun i _ => ?_)
    rw [write_stale buffer (by omega)]
  have hone := h (fun _ => 0) fun i => if i < 8 then 0 else 1
  have hans : ∀ buffer : Buffer, buffer 7 = 0 →
      w.responseTo os (buffer.write 0 bytes) bytes.length =
        (MTP_RESPONSE_OPERATION_NOT_SUPPORTED, []) := fun buffer hbuffer =>
    not_supported (hcode buffer hbuffer)
  have hsame := hone.answer (by rw [hans _ rfl]; decide) (by rw [hans _ rfl]; decide)
  rw [htx, htx] at hsame
  exact absurd hsame.2 (by decide)

-- What the codes of the answers tell of the state

theorem locked_response {body : M Response} (hs : w.ctx.fsDb.isSome = true) (hl : w.GetsMutex os) :
    (exec (World.handle os) (inSession (underMutex body)) w).1 =
      (exec (World.handle os) body (w.locked os)).1 := by
  rw [World.GetsMutex] at hl
  rw [inSession, exec_getCtx_bind, if_pos hs, underMutex, exec_act_bind, hl, if_pos rfl, bind_eq,
    exec_bind]
  rfl

theorem known_of_code (hdr : Buffer) {op : EntryPtr → M Response} (hs : w.ctx.fsDb.isSome = true)
    (hl : w.GetsMutex os) (hop : ∀ p, Answers os (· ≠ MTP_RESPONSE_INVALID_OBJECT_HANDLE) (op p)) :
    (exec (World.handle os) (aboutEntry hdr op) w).1.1 ≠ MTP_RESPONSE_INVALID_OBJECT_HANDLE ↔
      w.ctx.HasObject (param hdr 0) := by
  have hlocked : (w.locked os).ctx = w.ctx := rfl
  rw [aboutEntry, locked_response hs hl, exec_getCtx_bind, MtpCtx.HasObject, hlocked]
  cases hp : w.ctx.getEntryByHandle (param hdr 0) with
  | some p => exact ⟨fun _ => rfl, fun _ => hop p _⟩
  | none => exact ⟨fun hne => absurd rfl hne, fun hsome => by cases hsome⟩

theorem sameAccess_of_code {code : Nat}
    (h : TellsAccess (w.ctx.checkHandleAccess none (param hdr 0) true) code)
    (h' : TellsAccess (w.ctx.checkHandleAccess none (param hdr' 0) true) code) :
    w.ctx.SameAccess hdr hdr' true := by
  have hother : ∀ {handle : Nat} {refusal : Nat},
      w.ctx.checkHandleAccess none handle true = some refusal →
        ¬(refusal = MTP_RESPONSE_OK ∨ refusal = MTP_RESPONSE_OBJECT_WRITE_PROTECTED) := by
    intro handle refusal hrefusal
    have hcodes : ∀ code ∈ accessRefusals,
        ¬(code = MTP_RESPONSE_OK ∨ code = MTP_RESPONSE_OBJECT_WRITE_PROTECTED) := by decide
    exact hcodes refusal (MtpCtx.checkHandleAccess_codes hrefusal)
  rw [MtpCtx.SameAccess]
  cases hcheck : w.ctx.checkHandleAccess none (param hdr 0) true with
  | some refusal =>
      cases hcheck' : w.ctx.checkHandleAccess none (param hdr' 0) true with
      | some refusal' => rw [← h.refused refusal hcheck, ← h'.refused refusal' hcheck']
      | none =>
          have hgranted := h'.granted hcheck'
          rw [h.refused refusal hcheck] at hgranted
          exact absurd hgranted (hother hcheck)
  | none =>
      cases hcheck' : w.ctx.checkHandleAccess none (param hdr' 0) true with
      | some refusal' =>
          have hgranted := h.granted hcheck
          rw [h'.refused refusal' hcheck'] at hgranted
          exact absurd hgranted (hother hcheck')
      | none => rfl

-- What the answers under the mutex tell of two requests, by operation
def lockedAnswers : List (Nat × (MtpCtx → Buffer → Buffer → Prop)) :=
  [(MTP_OPERATION_GET_OBJECT_INFO, MtpCtx.SameKnown),
    (MTP_OPERATION_GET_OBJECT_PROP_VALUE, MtpCtx.SameKnown),
    (MTP_OPERATION_GET_OBJECT_REFERENCES, MtpCtx.SameKnown),
    (MTP_OPERATION_GET_OBJECT_PROP_LIST, fun ctx hdr hdr' =>
      (asksForGroup hdr ↔ asksForGroup hdr') ∧ (¬asksForGroup hdr → ctx.SameKnown hdr hdr')),
    (MTP_OPERATION_SEND_PARTIAL_OBJECT, fun _ => MtpCtx.SamePlace),
    (MTP_OPERATION_DELETE_OBJECT, fun ctx hdr hdr' => ctx.SameAccess hdr hdr' true),
    (MTP_OPERATION_BEGIN_EDIT_OBJECT, fun ctx hdr hdr' => ctx.SameAccess hdr hdr' true),
    (MTP_OPERATION_END_EDIT_OBJECT, fun ctx hdr hdr' => ctx.SameAccess hdr hdr' true)]

-- What is told of two packets that a daemon takes for one.
structure World.SameAnswer (os : Os σ) (w : World σ) (hdr hdr' : Buffer) : Prop where
  code : hdrCode hdr = hdrCode hdr'
  operation : hdrOperation hdr = hdrOperation hdr'
  answer : w.ctx.fsDb.isSome = false ∨ hdrCode hdr ∉ unansweredCodes → hdrTxId hdr = hdrTxId hdr'
  opening : hdrCode hdr = MTP_OPERATION_OPEN_SESSION → w.ctx.SameSession hdr hdr'
  storage : hdrCode hdr = MTP_OPERATION_GET_STORAGE_INFO → w.ctx.fsDb.isSome = true →
    (w.ctx.mtpGetStorageRoot (param hdr 0)).isSome = (w.ctx.mtpGetStorageRoot (param hdr' 0)).isSome
  property : hdrCode hdr = MTP_OPERATION_SET_OBJECT_PROP_VALUE → w.ctx.fsDb.isSome = true →
    hdrOperation hdr = MTP_CONTAINER_TYPE_COMMAND →
      param hdr 0 = param hdr' 0 ∧ param hdr 1 = param hdr' 1
  locked : w.ctx.fsDb.isSome = true → w.GetsMutex os →
    ∀ same, lockedAnswers.lookup (hdrCode hdr) = some same → same w.ctx hdr hdr'

theorem openSession_code (os : Os σ) (hdr : Buffer) (w : World σ) :
    (exec (World.handle os) (mtpOpOpenSession hdr) w).1.1 = MTP_RESPONSE_INVALID_PARAMETER ↔
      param hdr 0 = 0 := by
  obtain ⟨hzero, hother⟩ := code_openSession os hdr w
  refine ⟨fun hcode => ?_, hzero⟩
  by_contra hid
  have hm := hother hid
  rw [hcode] at hm
  revert hm
  decide

theorem sessionId_allocRootEntries (slots : List (Fin MAX_STORAGE_NB)) (w : World σ) :
    (exec (World.handle os) (allocRootEntries slots) w).2.ctx.sessionId = w.ctx.sessionId := by
  induction slots generalizing w with
  | nil => rfl
  | cons i rest ih =>
      rw [allocRootEntries, exec_getCtx_bind]
      split
      · rw [exec_act_bind]
        split
        · exact ih _
        · rfl
      · rfl

theorem openSession_session (hs : w.ctx.fsDb.isSome = false) (hzero : param hdr 0 ≠ 0) :
    (exec (World.handle os) (mtpOpOpenSession hdr) w).2.ctx.sessionId = param hdr 0 := by
  rw [mtpOpOpenSession, exec_getCtx_bind, if_neg hzero, if_neg (by rw [hs]; decide), bind_eq,
    exec_bind, exec_act_bind]
  split
  · rw [bind_eq, exec_bind, sessionId_allocRootEntries]
    rfl
  · rfl

theorem sameSession_of_one (hone : w.TakesForOne os size hdr hdr')
    (hcode : hdrCode hdr = MTP_OPERATION_OPEN_SESSION)
    (hcode' : hdrCode hdr' = MTP_OPERATION_OPEN_SESSION) : w.ctx.SameSession hdr hdr' := by
  have hanswer := hone.answer
  have hsession := hone.session
  have hlookup : operations.lookup MTP_OPERATION_OPEN_SESSION =
      some fun hdr _ => mtpOpOpenSession hdr := rfl
  rw [responseTo_eq hcode hlookup, responseTo_eq hcode' hlookup] at hanswer
  rw [worked_eq hcode hlookup, worked_eq hcode' hlookup] at hsession
  have hsame := (hanswer (answers_mtpOpOpenSession _) (answers_mtpOpOpenSession _)).1
  have hzero : param hdr 0 = 0 ↔ param hdr' 0 = 0 := by
    rw [← openSession_code os hdr (w.working hdr), hsame, openSession_code]
  refine ⟨hzero, fun hs => ?_⟩
  by_cases hz : param hdr 0 = 0
  · rw [hz, hzero.mp hz]
  · have hz' : param hdr' 0 ≠ 0 := fun hz' => hz (hzero.mpr hz')
    rw [openSession_session (w := w.working hdr) hs hz,
      openSession_session (w := w.working hdr') hs hz'] at hsession
    exact hsession

-- The commands that leave their parameters for the data that follow

theorem kept_property (os : Os σ) (hs : w.ctx.fsDb.isSome = true)
    (hcommand : hdrOperation hdr = MTP_CONTAINER_TYPE_COMMAND) :
    (exec (World.handle os) (mtpOpSetObjectPropValue hdr) w).2.ctx.setObjectPropValueHandle =
        param hdr 0 ∧
      (exec (World.handle os) (mtpOpSetObjectPropValue hdr) w).2.ctx.setObjectPropValuePropCode =
        param hdr 1 := by
  rw [mtpOpSetObjectPropValue, inSession, exec_getCtx_bind, if_pos hs, if_pos hcommand]
  exact ⟨rfl, rfl⟩

theorem kept_object (hs : w.ctx.fsDb.isSome = true) (hl : w.GetsMutex os)
    (hcode : hdrCode hdr = MTP_OPERATION_SEND_PARTIAL_OBJECT)
    (hcommand : hdrOperation hdr = MTP_CONTAINER_TYPE_COMMAND) :
    (exec (World.handle os) (mtpOpSendObject hdr size) w).2.ctx =
      { w.ctx with
        sendObjInfoHandle := param hdr 0
        sendObjInfoSize := param hdr 3
        sendObjInfoOffset := toInt64 (peek64 hdr (MTP_HEADER_SIZE + 4) 8) } := by
  have hdata : ¬MTP_CONTAINER_TYPE_COMMAND = MTP_CONTAINER_TYPE_DATA := by decide
  have hrest : ∀ w : World σ, (exec (World.handle os) (sendObjectRest hdr size) w).2 = w := by
    intro w
    rw [sendObjectRest, exec_getCtx_bind]
    split
    · rfl
    · rw [hcommand, if_neg hdata]
      split
      · rfl
      · rfl
  have hphase : (exec (World.handle os) (sendObjectPhase hdr size) (w.locked os)).2.ctx =
      { w.ctx with
        sendObjInfoHandle := param hdr 0
        sendObjInfoSize := param hdr 3
        sendObjInfoOffset := toInt64 (peek64 hdr (MTP_HEADER_SIZE + 4) 8) } := by
    rw [sendObjectPhase, if_pos ⟨hcode, hcommand⟩, bind_eq, exec_bind, hrest]
    rfl
  rw [World.GetsMutex] at hl
  rw [World.locked] at hphase
  rw [mtpOpSendObject, inSession, exec_getCtx_bind, if_pos hs, exec_act_bind, hl, if_pos rfl,
    bind_eq, exec_bind]
  rcases hout : exec (World.handle os) (sendObjectPhase hdr size) _ with ⟨⟨code, ended⟩, v⟩
  rw [hout] at hphase
  exact hphase

-- What is told of two packets that a daemon takes for one

theorem answer_header (hone : w.TakesForOne os size hdr hdr') (hcode : hdrCode hdr = hdrCode hdr')
    (h : w.ctx.fsDb.isSome = false ∨ hdrCode hdr ∉ unansweredCodes) :
    hdrTxId hdr = hdrTxId hdr' :=
  (hone.answer (isResponseCode_response (w := w.working hdr) h)
    (isResponseCode_response (w := w.working hdr') (hcode ▸ h))).2

theorem answer_code (hone : w.TakesForOne os size hdr hdr') {code : Nat}
    (hcode : hdrCode hdr = code) (hcode' : hdrCode hdr' = code) {op : Buffer → Nat → M Response}
    (hop : operations.lookup code = some op) (hanswered : code ∉ unansweredCodes) :
    (exec (World.handle os) (op hdr size) (w.working hdr)).1.1 =
      (exec (World.handle os) (op hdr' size) (w.working hdr')).1.1 := by
  have hsame := hone.answer
    (isResponseCode_response (w := w.working hdr) (Or.inr (hcode ▸ hanswered)))
    (isResponseCode_response (w := w.working hdr') (Or.inr (hcode' ▸ hanswered)))
  rw [responseTo_eq hcode hop, responseTo_eq hcode' hop] at hsame
  exact hsame.1

theorem sameKnown_of_code {op op' : EntryPtr → M Response} (hs : w.ctx.fsDb.isSome = true)
    (hl : w.GetsMutex os) (hop : ∀ p, Answers os (· ≠ MTP_RESPONSE_INVALID_OBJECT_HANDLE) (op p))
    (hop' : ∀ p, Answers os (· ≠ MTP_RESPONSE_INVALID_OBJECT_HANDLE) (op' p))
    (hsame : (exec (World.handle os) (aboutEntry hdr op) (w.working hdr)).1.1 =
      (exec (World.handle os) (aboutEntry hdr' op') (w.working hdr')).1.1) :
    w.ctx.SameKnown hdr hdr' := by
  have hknown := known_of_code (w := w.working hdr) hdr hs hl hop
  rw [hsame, known_of_code (w := w.working hdr') hdr' hs hl hop'] at hknown
  exact hknown.symm

theorem answers_known (build : Buffer → Int → M Poked) :
    Answers os (· ≠ MTP_RESPONSE_INVALID_OBJECT_HANDLE) (sendDataset hdr none build) := by
  refine answers_sendDataset (by decide) (by decide) (fun code hcode => ?_) build
  cases hcode

theorem sameAccess_of_told {body body' : M Response} (hs : w.ctx.fsDb.isSome = true)
    (hl : w.GetsMutex os)
    (h : ∀ w : World σ, TellsAccess (w.ctx.checkHandleAccess none (param hdr 0) true)
      (exec (World.handle os) body w).1.1)
    (h' : ∀ w : World σ, TellsAccess (w.ctx.checkHandleAccess none (param hdr' 0) true)
      (exec (World.handle os) body' w).1.1)
    (hsame : (exec (World.handle os) (inSession (underMutex body)) (w.working hdr)).1.1 =
      (exec (World.handle os) (inSession (underMutex body')) (w.working hdr')).1.1) :
    w.ctx.SameAccess hdr hdr' true := by
  rw [locked_response (w := w.working hdr) hs hl, locked_response (w := w.working hdr') hs hl]
    at hsame
  have htell := h ((w.working hdr).locked os)
  rw [hsame] at htell
  exact sameAccess_of_code htell (h' ((w.working hdr').locked os))

theorem propList_code (hdr : Buffer) (hs : w.ctx.fsDb.isSome = true) (hl : w.GetsMutex os) :
    ((exec (World.handle os) (mtpOpGetObjectPropList hdr) w).1.1 =
        MTP_RESPONSE_PARAMETER_NOT_SUPPORTED ↔ asksForGroup hdr) ∧
      (¬asksForGroup hdr → ((exec (World.handle os) (mtpOpGetObjectPropList hdr) w).1.1 ≠
        MTP_RESPONSE_INVALID_OBJECT_HANDLE ↔ w.ctx.HasObject (param hdr 0))) := by
  rw [mtpOpGetObjectPropList, locked_response hs hl, exec_getCtx_bind, asksForGroup,
    MtpCtx.HasObject]
  have hlocked : (w.locked os).ctx = w.ctx := rfl
  by_cases hgroup : param hdr 2 = 0 ∧ param hdr 3 = 0
  · rw [if_pos hgroup]
    exact ⟨⟨fun _ => hgroup, fun _ => rfl⟩, fun hno => absurd hgroup hno⟩
  · rw [if_neg hgroup, hlocked]
    cases hp : w.ctx.getEntryByHandle (param hdr 0) with
    | some p =>
        have hdataset : Answers os (fun code => code ≠ MTP_RESPONSE_PARAMETER_NOT_SUPPORTED ∧
            code ≠ MTP_RESPONSE_INVALID_OBJECT_HANDLE) (sendDataset hdr none fun buffer maxsize =>
              buildObjectproplistDataset buffer maxsize p (param hdr 0) (param hdr 2)) :=
          answers_sendDataset (by decide) (by decide)
            (fun code (hcode : none = some code) => by cases hcode) _
        have hcode := hdataset (w.locked os)
        exact ⟨⟨fun h => absurd h hcode.1, fun h => absurd h hgroup⟩,
          fun _ => ⟨fun _ => rfl, fun _ => hcode.2⟩⟩
    | none =>
        refine ⟨⟨fun h => ?_, fun h => absurd h hgroup⟩,
          fun _ => ⟨fun h => absurd rfl h, fun h => by cases h⟩⟩
        exact absurd h (by decide : MTP_RESPONSE_INVALID_OBJECT_HANDLE ≠ _)

theorem sameAnswer_locked (hone : w.TakesForOne os size hdr hdr')
    (heq : hdrCode hdr = hdrCode hdr') (hoperation : hdrOperation hdr = hdrOperation hdr')
    (hs : w.ctx.fsDb.isSome = true) (hl : w.GetsMutex os)
    {same : MtpCtx → Buffer → Buffer → Prop}
    (hsame : lockedAnswers.lookup (hdrCode hdr) = some same) : same w.ctx hdr hdr' := by
  have hcode' : ∀ {code : Nat}, hdrCode hdr = code → hdrCode hdr' = code := fun hcode =>
    heq.symm.trans hcode
  have hcodes : ∀ {code : Nat} {op : Buffer → Nat → M Response}, hdrCode hdr = code →
      operations.lookup code = some op → code ∉ unansweredCodes →
        (exec (World.handle os) (op hdr size) (w.working hdr)).1.1 =
          (exec (World.handle os) (op hdr' size) (w.working hdr')).1.1 :=
    fun hcode hop hanswered => answer_code hone hcode (hcode' hcode) hop hanswered
  have hm := mem_of_lookup hsame
  simp only [lockedAnswers, List.mem_cons, Prod.mk.injEq, List.not_mem_nil, or_false] at hm
  rcases hm with ⟨hcode, rfl⟩ | ⟨hcode, rfl⟩ | ⟨hcode, rfl⟩ | ⟨hcode, rfl⟩ | ⟨hcode, rfl⟩ |
    ⟨hcode, rfl⟩ | ⟨hcode, rfl⟩ | ⟨hcode, rfl⟩
  · exact sameKnown_of_code hs hl (fun _ => answers_known _) (fun _ => answers_known _)
      (hcodes hcode rfl (by decide))
  · exact sameKnown_of_code hs hl (fun _ => answers_known _) (fun _ => answers_known _)
      (hcodes hcode rfl (by decide))
  · exact sameKnown_of_code hs hl (fun _ => answers_known _) (fun _ => answers_known _)
      (hcodes hcode rfl (by decide))
  · have hlist := hcodes hcode rfl (by decide)
    obtain ⟨hgroup, hknown⟩ := propList_code (w := w.working hdr) hdr hs hl
    obtain ⟨hgroup', hknown'⟩ := propList_code (w := w.working hdr') hdr' hs hl
    rw [hlist] at hgroup hknown
    refine ⟨hgroup.symm.trans hgroup', fun hno => ?_⟩
    exact (hknown hno).symm.trans (hknown' fun h' => hno (hgroup.mp (hgroup'.mpr h')))
  · intro hcommand
    obtain ⟨hhandle, hsize, hoffset⟩ := hone.object
    rw [worked_eq hcode rfl, worked_eq (hcode' hcode) rfl,
      kept_object (w := w.working hdr) hs hl hcode hcommand,
      kept_object (w := w.working hdr') hs hl (hcode' hcode) (hoperation ▸ hcommand)]
      at hhandle hsize hoffset
    exact ⟨hhandle, Int.ofNat_inj.mp hsize, hoffset⟩
  · exact sameAccess_of_told hs hl access_deleteObject access_deleteObject
      (hcodes hcode rfl (by decide))
  · exact sameAccess_of_told hs hl access_beginEdit access_beginEdit (hcodes hcode rfl (by decide))
  · exact sameAccess_of_told hs hl access_endEdit access_endEdit (hcodes hcode rfl (by decide))

theorem storageInfo_code (os : Os σ) (hdr : Buffer) (hs : w.ctx.fsDb.isSome = true) :
    (exec (World.handle os) (mtpOpGetStorageInfo hdr) w).1.1 ≠ MTP_RESPONSE_INVALID_STORAGE_ID ↔
      (w.ctx.mtpGetStorageRoot (param hdr 0)).isSome = true := by
  rw [mtpOpGetStorageInfo, inSession, exec_getCtx_bind, if_pos hs, exec_getCtx_bind]
  by_cases hroot : (w.ctx.mtpGetStorageRoot (param hdr 0)).isSome = true
  · rw [if_pos hroot]
    refine ⟨fun _ => hroot, fun _ => ?_⟩
    refine answers_sendDataset (Q := fun code => code ≠ MTP_RESPONSE_INVALID_STORAGE_ID)
      (by decide) (by decide) (fun code (hcode : none = some code) => by cases hcode) _ w
  · rw [if_neg hroot]
    exact ⟨fun h => absurd rfl h, fun h => absurd h hroot⟩

theorem sameAnswer_of_one (hone : w.TakesForOne os size hdr hdr')
    (hcode : hdrCode hdr = hdrCode hdr') (hoperation : hdrOperation hdr = hdrOperation hdr') :
    w.SameAnswer os hdr hdr' where
  code := hcode
  operation := hoperation
  answer := answer_header hone hcode
  opening hopen := sameSession_of_one hone hopen (hcode.symm.trans hopen)
  storage hinfo hs := by
    have hsame := answer_code hone hinfo (hcode.symm.trans hinfo) rfl (by decide)
    have hknown := storageInfo_code (w := w.working hdr) os hdr hs
    rw [hsame, storageInfo_code (w := w.working hdr') os hdr' hs] at hknown
    exact Bool.eq_iff_iff.mpr hknown.symm
  property hset hs hcommand := by
    obtain ⟨hhandle, hpropCode⟩ := hone.property
    obtain ⟨hkept, hkept'⟩ := kept_property (w := w.working hdr) os hs hcommand
    rw [worked_eq hset rfl, worked_eq (hcode.symm.trans hset) rfl] at hhandle hpropCode
    have hother := kept_property (w := w.working hdr') os hs (hoperation ▸ hcommand)
    rw [← hkept, ← hkept', ← hother.1, ← hother.2]
    exact ⟨hhandle, hpropCode⟩
  locked hs hl _ hsame := sameAnswer_locked hone hcode hoperation hs hl hsame

-- The requests of which the answer tells all that was looked at
def toldCodes : List Nat :=
  [MTP_OPERATION_OPEN_SESSION, MTP_OPERATION_CLOSE_SESSION, MTP_OPERATION_GET_DEVICE_INFO,
    MTP_OPERATION_GET_STORAGE_IDS, MTP_OPERATION_GET_OBJECT_REFERENCES,
    MTP_OPERATION_BEGIN_EDIT_OBJECT]

-- The requests that are refused when no object has the handle
def objectCodes : List Nat :=
  [MTP_OPERATION_GET_OBJECT_INFO, MTP_OPERATION_GET_OBJECT_PROP_VALUE,
    MTP_OPERATION_GET_OBJECT_PROP_LIST]

-- The answer tells the rest where the request is refused or only kept for later.
inductive World.IsTold (os : Os σ) (w : World σ) (hdr : Buffer) : Prop
  | closed (hs : w.ctx.fsDb.isSome = false)
  | unknown (hnone : operations.lookup (hdrCode hdr) = none)
  | told (hm : hdrCode hdr ∈ toldCodes)
  | busy (hbusy : ¬w.GetsMutex os) (hm : hdrCode hdr ∉ sessionRequests.map Prod.fst)
      (hanswered : hdrCode hdr ∉ unansweredCodes)
  | noObject (hm : hdrCode hdr ∈ objectCodes) (hnone : ¬w.ctx.HasObject (param hdr 0))
  | group (hcode : hdrCode hdr = MTP_OPERATION_GET_OBJECT_PROP_LIST) (hgroup : asksForGroup hdr)
  | noAccess (hcode : hdrCode hdr = MTP_OPERATION_DELETE_OBJECT)
      (hrefused : ¬w.ctx.Grants hdr true)
  | noStorage (hcode : hdrCode hdr = MTP_OPERATION_GET_STORAGE_INFO)
      (hnone : ¬(w.ctx.mtpGetStorageRoot (param hdr 0)).isSome = true)
  | property (hcode : hdrCode hdr = MTP_OPERATION_SET_OBJECT_PROP_VALUE)
      (hcommand : hdrOperation hdr = MTP_CONTAINER_TYPE_COMMAND)
  | place (hcode : hdrCode hdr = MTP_OPERATION_SEND_PARTIAL_OBJECT)
      (hcommand : hdrOperation hdr = MTP_CONTAINER_TYPE_COMMAND) (hl : w.GetsMutex os)

theorem listed_of_lookup {rows : List (Nat × (MtpCtx → Buffer → Buffer → Prop))} {code : Nat} {same}
    (hrow : rows.lookup code = some same) : code ∈ rows.map Prod.fst :=
  List.mem_map_of_mem (mem_of_lookup hrow)

theorem World.SameAnswer.request (h : w.SameAnswer os hdr hdr') (htx : hdrTxId hdr = hdrTxId hdr')
    (htold : w.IsTold os hdr) : w.SameRequest os hdr hdr' := by
  have hlocked : ∀ {code : Nat} {asked : MtpCtx → Buffer → Buffer → Prop}, hdrCode hdr = code →
      sessionRequests.lookup code = none → code ≠ MTP_OPERATION_SEND_OBJECT_INFO →
      lockedRequests.lookup code = some asked →
      (w.ctx.fsDb.isSome = true → w.GetsMutex os → asked w.ctx hdr hdr') →
        w.SameRequest os hdr hdr' := by
    rintro code asked hcode hsession hinfo hrow hasked
    refine ⟨h.code, h.operation, Or.inl htx, h.opening, fun _ same hlookup => ?_,
      fun hs hl same hlookup => ?_, fun hdata => absurd (hcode.symm.trans hdata) hinfo⟩
    · rw [hcode, hsession] at hlookup
      cases hlookup
    · rw [hcode, hrow] at hlookup
      obtain rfl := Option.some.inj hlookup
      exact hasked hs hl
  cases htold with
  | closed hclosed =>
      have hno : w.ctx.fsDb.isSome ≠ true := by
        rw [hclosed]
        decide
      exact ⟨h.code, h.operation, Or.inl htx, h.opening, fun hs => absurd hs hno,
        fun hs => absurd hs hno, fun _ hs => absurd hs hno⟩
  | unknown hnone =>
      have hunknown : ∀ {codes : List Nat}, (∀ code ∈ codes, operations.lookup code ≠ none) →
          hdrCode hdr ∉ codes := fun hcodes hm => hcodes _ hm hnone
      refine ⟨h.code, h.operation, Or.inl htx, h.opening,
        fun _ same hrow => absurd (listed_of_lookup hrow) (hunknown (by decide)),
        fun _ _ same hrow => absurd (listed_of_lookup hrow) (hunknown (by decide)), fun hinfo => ?_⟩
      rw [hinfo] at hnone
      cases hnone
  | told hm =>
      have hinfo : MTP_OPERATION_SEND_OBJECT_INFO ∉ toldCodes := by decide
      refine ⟨h.code, h.operation, Or.inl htx, h.opening, fun _ same hrow => ?_,
        fun hs hl same hrow => ?_, fun hcode => absurd (hcode ▸ hm) hinfo⟩
      all_goals simp only [toldCodes, List.mem_cons, List.not_mem_nil, or_false] at hm
      · rcases hm with hcode | hcode | hcode | hcode | hcode | hcode
        all_goals
          rw [hcode] at hrow
          cases hrow
      · have htells := h.locked hs hl
        rcases hm with hcode | hcode | hcode | hcode | hcode | hcode
        all_goals rw [hcode] at hrow htells
        case inr.inr.inr.inr.inl => exact htells same hrow
        case inr.inr.inr.inr.inr => exact htells same hrow
        all_goals cases hrow
  | busy hbusy hm hanswered =>
      exact ⟨h.code, h.operation, Or.inl htx, h.opening,
        fun _ same hrow => absurd (listed_of_lookup hrow) hm, fun _ hl => absurd hl hbusy,
        fun _ _ hl => absurd hl hbusy⟩
  | noObject hm hnone =>
      simp only [objectCodes, List.mem_cons, List.not_mem_nil, or_false] at hm
      rcases hm with hcode | hcode | hcode
      · refine hlocked hcode rfl (by decide) rfl fun hs hl => ?_
        have hknown : w.ctx.SameKnown hdr hdr' := h.locked hs hl _ (by rw [hcode]; rfl)
        exact Or.inr ⟨hnone, fun hsome => hnone (hknown.mpr hsome)⟩
      · refine hlocked hcode rfl (by decide) rfl fun hs hl => ?_
        have hknown : w.ctx.SameKnown hdr hdr' := h.locked hs hl _ (by rw [hcode]; rfl)
        exact ⟨Or.inr ⟨hnone, fun hsome => hnone (hknown.mpr hsome)⟩,
          fun hsome => absurd hsome hnone⟩
      · refine hlocked hcode rfl (by decide) rfl fun hs hl => ?_
        obtain ⟨hgroup, hknown⟩ := h.locked hs hl _ (by rw [hcode]; rfl)
        refine ⟨hgroup, fun hno => ⟨Or.inr ⟨hnone, fun hsome => ?_⟩,
          fun hsome => absurd hsome hnone⟩⟩
        exact hnone ((hknown hno).mpr hsome)
  | group hcode hgroup =>
      refine hlocked hcode rfl (by decide) rfl fun hs hl => ?_
      obtain ⟨hgroups, -⟩ := h.locked hs hl _ (by rw [hcode]; rfl)
      exact ⟨hgroups, fun hno => absurd hgroup hno⟩
  | noAccess hcode hrefused =>
      refine hlocked hcode rfl (by decide) rfl fun hs hl => ?_
      have haccess : w.ctx.SameAccess hdr hdr' true := h.locked hs hl _ (by rw [hcode]; rfl)
      exact ⟨haccess, fun hgrants => absurd hgrants hrefused⟩
  | noStorage hcode hnone =>
      refine ⟨h.code, h.operation, Or.inl htx, h.opening, fun hs same hrow => ?_,
        fun _ _ same hrow => ?_, fun hinfo => ?_⟩
      · rw [hcode] at hrow
        cases hrow
        exact Or.inr ⟨hnone, fun hsome => hnone ((h.storage hcode hs).trans hsome)⟩
      · rw [hcode] at hrow
        cases hrow
      · rw [hcode] at hinfo
        cases hinfo
  | property hcode hcommand =>
      refine ⟨h.code, h.operation, Or.inl htx, h.opening, fun hs same hrow => ?_,
        fun _ _ same hrow => ?_, fun hinfo => ?_⟩
      · rw [hcode] at hrow
        cases hrow
        refine ⟨fun _ => h.property hcode hs hcommand, fun hdata => ?_⟩
        rw [hcommand] at hdata
        cases hdata
      · rw [hcode] at hrow
        cases hrow
      · rw [hcode] at hinfo
        cases hinfo
  | place hcode hcommand hl =>
      exact hlocked hcode rfl (by decide) rfl fun hs hl => h.locked hs hl _ (by rw [hcode]; rfl)

-- Packets that are taken for one are told together.
theorem World.IsTold.congr (htold : w.IsTold os hdr) (h : w.SameAnswer os hdr hdr') :
    w.IsTold os hdr' := by
  by_cases hs : w.ctx.fsDb.isSome = false
  · exact .closed hs
  rw [Bool.not_eq_false] at hs
  have hcode := h.code
  -- Under the mutex the answer tells, and without it nothing is looked at.
  have hlocked : hdrCode hdr ∉ sessionRequests.map Prod.fst → hdrCode hdr ∉ unansweredCodes →
      (w.GetsMutex os → w.IsTold os hdr') → w.IsTold os hdr' := by
    intro hsession hanswered htells
    by_cases hl : w.GetsMutex os
    · exact htells hl
    · exact .busy hl (hcode ▸ hsession) (hcode ▸ hanswered)
  cases htold with
  | closed hclosed => exact .closed hclosed
  | unknown hnone => exact .unknown (hcode ▸ hnone)
  | told hm => exact .told (hcode ▸ hm)
  | busy hbusy hm hanswered => exact .busy hbusy (hcode ▸ hm) (hcode ▸ hanswered)
  | noObject hm hnone =>
      have hfree : ∀ code ∈ objectCodes, code ∉ sessionRequests.map Prod.fst ∧
          code ∉ unansweredCodes := by decide
      refine hlocked (hfree _ hm).1 (hfree _ hm).2 fun hl => ?_
      have hm' := hcode ▸ hm
      simp only [objectCodes, List.mem_cons, List.not_mem_nil, or_false] at hm
      rcases hm with hinfo | hvalue | hlist
      · have hknown : w.ctx.SameKnown hdr hdr' := h.locked hs hl _ (by rw [hinfo]; rfl)
        exact .noObject hm' fun hsome => hnone (hknown.mpr hsome)
      · have hknown : w.ctx.SameKnown hdr hdr' := h.locked hs hl _ (by rw [hvalue]; rfl)
        exact .noObject hm' fun hsome => hnone (hknown.mpr hsome)
      · obtain ⟨hgroup, hknown⟩ := h.locked hs hl _ (by rw [hlist]; rfl)
        by_cases hasks : asksForGroup hdr
        · exact .group (hcode ▸ hlist) (hgroup.mp hasks)
        · exact .noObject hm' fun hsome => hnone ((hknown hasks).mpr hsome)
  | group hlist hgroup =>
      refine hlocked (by rw [hlist]; decide) (by rw [hlist]; decide) fun hl => ?_
      obtain ⟨hgroups, -⟩ := h.locked hs hl _ (by rw [hlist]; rfl)
      exact .group (hcode ▸ hlist) (hgroups.mp hgroup)
  | noAccess hdelete hrefused =>
      refine hlocked (by rw [hdelete]; decide) (by rw [hdelete]; decide) fun hl => ?_
      have haccess : w.ctx.SameAccess hdr hdr' true := h.locked hs hl _ (by rw [hdelete]; rfl)
      exact .noAccess (hcode ▸ hdelete) fun hgrants => hrefused (haccess.trans hgrants)
  | noStorage hinfo hnone =>
      exact .noStorage (hcode ▸ hinfo) fun hsome => hnone ((h.storage hinfo hs).trans hsome)
  | property hset hcommand => exact .property (hcode ▸ hset) (h.operation ▸ hcommand)
  | place hsend hcommand hl => exact .place (hcode ▸ hsend) (h.operation ▸ hcommand) hl

-- The transaction of a request that is told has been received.
theorem received_txId (h : ∀ buffer buffer' : Buffer,
      w.SameAnswer os (buffer.write 0 bytes) (buffer'.write 0 bytes)) (buffer buffer' : Buffer)
    (htold : w.IsTold os (buffer.write 0 bytes)) :
    hdrTxId (buffer.write 0 bytes) = hdrTxId (buffer'.write 0 bytes) := by
  have hanswer := (h buffer buffer').answer
  have hcodes : ∀ {code : Nat}, hdrCode (buffer.write 0 bytes) = code → ∀ buffer : Buffer,
      hdrCode (buffer.write 0 bytes) = code := fun hcode other =>
    (h buffer other).code.symm.trans hcode
  have hcommands : hdrOperation (buffer.write 0 bytes) = MTP_CONTAINER_TYPE_COMMAND →
      ∀ buffer : Buffer, hdrOperation (buffer.write 0 bytes) = MTP_CONTAINER_TYPE_COMMAND :=
    fun hcommand other => (h buffer other).operation.symm.trans hcommand
  by_cases hs : w.ctx.fsDb.isSome = false
  · exact hanswer (Or.inl hs)
  rw [Bool.not_eq_false] at hs
  cases htold with
  | closed hclosed => exact hanswer (Or.inl hclosed)
  | unknown hnone =>
      have hknown : ∀ code ∈ unansweredCodes, operations.lookup code ≠ none := by decide
      exact hanswer (Or.inr fun hm => hknown _ hm hnone)
  | told hm =>
      have hanswered : ∀ code ∈ toldCodes, code ∉ unansweredCodes := by decide
      exact hanswer (Or.inr (hanswered _ hm))
  | busy _ _ hanswered => exact hanswer (Or.inr hanswered)
  | noObject hm =>
      have hanswered : ∀ code ∈ objectCodes, code ∉ unansweredCodes := by decide
      exact hanswer (Or.inr (hanswered _ hm))
  | group hcode | noAccess hcode | noStorage hcode =>
      exact hanswer (Or.inr (by rw [hcode]; decide))
  | property hcode hcommand =>
      have hlen := @received_param bytes 1 fun buffer buffer' =>
        ((h buffer buffer').property (hcodes hcode buffer) hs (hcommands hcommand buffer)).2
      exact peek_received _ _ (Nat.le_trans (by decide) hlen)
  | place hcode hcommand hl =>
      have hplace : ∀ buffer buffer' : Buffer,
          MtpCtx.SamePlace (buffer.write 0 bytes) (buffer'.write 0 bytes) := fun buffer buffer' =>
        (h buffer buffer').locked hs hl _ (by rw [hcodes hcode]; rfl)
      have hlen := @received_param bytes 0 fun buffer buffer' =>
        (hplace buffer buffer' (hcommands hcommand buffer)).1
      exact peek_received _ _ (Nat.le_trans (by decide) hlen)

end Outcome

section Samples

def getObjectInfo (handle : Nat) : Event MemSystem :=
  .packet (commandPacket MTP_OPERATION_GET_OBJECT_INFO [handle])

def deleteRequest (params : List Nat) : List UInt8 :=
  commandPacket MTP_OPERATION_DELETE_OBJECT params

-- The host has asked for the information of "/a/f".
def askedForFile : World MemSystem :=
  run (World.step memOs) twoStorages
    [openSession, getObjectHandles FIRST_STORAGE_ID 0, getObjectInfo 1]

-- The same state with other bytes in the read buffers.
def withOthers : World MemSystem :=
  ⟨askedForFile.ctx.withBuffers (fun _ => 7) (fun _ => 7), askedForFile.os⟩

end Samples

end Umtp
