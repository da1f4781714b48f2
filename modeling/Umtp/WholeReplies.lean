import Umtp.Listings

namespace Umtp

open Lib Lib.Prog Handles

-- The folder that is asked for: its entry, its path and its handle.
def askedFolder (ctx : MtpCtx) (hdr : Buffer) (root : CString) :
    M (Option (Option EntryPtr × CString × Nat)) :=
  if param hdr 2 ≠ 0 ∧ param hdr 2 ≠ NO_HANDLE then
    match ctx.getEntryByHandle (param hdr 2) with
    | some p => do
      let path ← entryPath p
      return path.map fun path => (some p, path, param hdr 2)
    | none => return none
  else
    return some (ctx.getEntryByHandleAndStorageid 0 (param hdr 0), root, 0)

section Listings

variable {σ : Type} {os : Os σ}

theorem isQuiet_askedFolder (ctx : MtpCtx) (hdr : Buffer) (root : CString) :
    Uses AnyAnswer Cmd.IsQuiet (askedFolder ctx hdr root) := by
  unfold askedFolder
  split
  · cases ctx.getEntryByHandle (param hdr 2) with
    | none => exact uses_pure _
    | some p => exact uses_bind (isQuiet_scansFolders.entryPath p) fun _ => uses_pure _
  · exact uses_pure _

-- The entries of the list are different ones whatever is done to the database.
theorem slots_exec {α : Type} (prog : M α) {w : World σ} (hs : Slots w.ctx.db) :
    Slots (exec (World.handle os) prog w).2.ctx.db := by
  have hstep : ∀ (v : World σ) (c : Cmd), Slots v.ctx.db →
      Slots (World.handle os c v).2.ctx.db := by
    intro v c hv
    have hdb : ∀ op : DbOp, Slots (v.ctx.applyDb op).db := by
      intro op
      rcases v.ctx.applyDb_cases op with hop | hop
      · rw [hop]
        exact hv
      · rw [hop]
        exact DbOp.slots_step hv op
    cases c with
    | db op => exact hdb op
    | flagDeleted site p => exact hdb (.setDeleted p)
    | initFsDb => exact Slots.init
    | dropFsDb => exact Slots.init
    | _ => exact hv
  exact exec_keeps (fun v c hv (_ : True) => hstep v c hv) prog w (fun _ _ => trivial) hs

-- A listing is complete exactly when the packet size leaves room for a handle in
-- the write buffer or the whole array does not reach its end, and when the length
-- of the container can be announced.
theorem listing_complete_iff (os : Os σ) (w w0 w1 : World σ) (hdr : Buffer) (root : CString)
    (entry : Option EntryPtr) (path : CString) (parent n : Nat)
    (_hnonzero : 0 < w.ctx.maxPacketSize) (hsession : w.ctx.fsDb.isSome = true)
    (hlock : (os.act .lockInotifyMutex w.os).1 = true)
    (hslots : Slots w.ctx.db)
    (hroot : w.ctx.mtpGetStorageRoot (param hdr 0) = some root)
    (hfolder : exec (World.handle os) (askedFolder (dataPhase os hdr w).ctx hdr root)
      (dataPhase os hdr w) = (some (entry, path, parent), w0))
    (hscan : exec (World.handle os) (listFolder entry path parent (param hdr 0)) w0 =
      (some n, w1))
    (hsize : 512 ∣ w.ctx.usbWrBufferMaxSize) (hpos : 0 < w.ctx.usbWrBufferMaxSize)
    (hpacket : w.ctx.maxPacketSize ≤ w.ctx.usbWrBufferMaxSize)
    (hcancel : Safe (stream os) (NotCancelled os) (mtpOpGetObjectHandles hdr) (w, noStream)) :
    ((exec (stream os) (mtpOpGetObjectHandles hdr) (w, noStream)).1 = (MTP_RESPONSE_OK, []) ∧
      (w1.ctx.childrenOf parent (param hdr 0)).Nodup ∧
      IsHandlesContainer hdr
        ((w1.ctx.childrenOf parent (param hdr 0)).map fun p => (w1.ctx.entry p).handle)
        (exec (stream os) (mtpOpGetObjectHandles hdr) (w, noStream)).2.2.sent) ↔
      (w.ctx.maxPacketSize + 4 ≤ w.ctx.usbWrBufferMaxSize ∨
          16 + 4 * (w1.ctx.childrenOf parent (param hdr 0)).length <
            w.ctx.usbWrBufferMaxSize) ∧
        16 + 4 * (w1.ctx.childrenOf parent (param hdr 0)).length < 2 ^ 32 := by
  have hroom : MTP_HEADER_SIZE < w.ctx.usbWrBufferMaxSize := by
    have htwelve : MTP_HEADER_SIZE = 12 := rfl
    have := Nat.le_of_dvd hpos hsize
    omega
  have hcounted : Counted parent (param hdr 0) n w1 := by
    have h := @always_listFolder _ os parent (param hdr 0) entry path w0 trivial fun _ _ => trivial
    rw [hscan] at h
    exact h n rfl
  have hnodup : (w1.ctx.childrenOf parent (param hdr 0)).Nodup := by
    have hslots1 : Slots w1.ctx.db := by
      have h0 := @slots_exec _ os _ (askedFolder (dataPhase os hdr w).ctx hdr root)
        (dataPhase os hdr w) hslots
      rw [hfolder] at h0
      have h1 := @slots_exec _ os _ (listFolder entry path parent (param hdr 0)) w0 h0
      rw [hscan] at h1
      exact h1
    exact hslots1.nodup.filter _
  obtain ⟨handles, hhandles⟩ : ∃ handles, handles =
      (w1.ctx.childrenOf parent (param hdr 0)).map fun p => (w1.ctx.entry p).handle := ⟨_, rfl⟩
  have hlen : handles.length = n := by rw [hhandles, List.length_map, hcounted.count]
  have hsent : Flows os (· = (w, noStream)) (mtpOpGetObjectHandles hdr) fun response s =>
      Listed hdr w.ctx.usbWrBufferMaxSize w.ctx.maxPacketSize handles response s.2 := by
    have hbuffers := @exec_quiet _ _ os _ (isQuiet_askedFolder (dataPhase os hdr w).ctx hdr root)
      (dataPhase os hdr w, noStream)
    have hask := @exec_stream _ os _ (askedFolder (dataPhase os hdr w).ctx hdr root)
      (dataPhase os hdr w, noStream)
    have hbuffers' := @exec_quiet _ _ os _
      (isQuiet_scansFolders.listFolder entry path parent (param hdr 0)) (w0, noStream)
    have hlist := @exec_stream _ os _ (listFolder entry path parent (param hdr 0))
      (w0, noStream)
    rw [hfolder] at hask
    rw [hscan] at hlist
    have hasked : exec (stream os) (askedFolder (dataPhase os hdr w).ctx hdr root)
        (dataPhase os hdr w, noStream) = (some (entry, path, parent), (w0, noStream)) :=
      Prod.ext hask.1 (Prod.ext hask.2 hbuffers.2)
    have hlistening : exec (stream os) (listFolder entry path parent (param hdr 0))
        (w0, noStream) = (some n, (w1, noStream)) :=
      Prod.ext hlist.1 (Prod.ext hlist.2 hbuffers'.2)
    rw [hasked] at hbuffers
    rw [hlistening] at hbuffers'
    have hlisted : Flows os (· = (w0, noStream))
        (listFolder entry path parent (param hdr 0) >>= answerHandles) fun response s =>
            Listed hdr w.ctx.usbWrBufferMaxSize w.ctx.maxPacketSize handles response s.2 := by
      refine ensures_bind_at ?_
      rw [hlistening]
      refine ensures_weaken (flows_sendHandleArray_iff (by omega) (by omega) hpacket hlen) ?_
        fun _ _ hs => hs
      rintro _ rfl
      have hbuffer : w1.ctx.wrbuffer = (dataPhase os hdr w).ctx.wrbuffer :=
        hbuffers'.1.wrbuffer.trans hbuffers.1.wrbuffer
      refine ⟨hbuffers'.1.room.trans hbuffers.1.room, hbuffers'.1.packet.trans hbuffers.1.packet,
        ?_, ?_, rfl⟩
      · rw [hhandles]
        exact congrArg _ hcounted.unfound
      · change w1.ctx.wrbuffer.read 0 _ = _
        rw [hbuffer, dataPhase, buildResponse_eq, if_pos hroom]
        exact Buffer.read_write_self _ _ _
    refine ensures_bind_at ?_
    change Flows os (· = (w, noStream)) (if w.ctx.fsDb.isSome then _ else _) _
    rw [if_pos hsession]
    refine ensures_bind_at ?_
    change Flows os (· = (⟨w.ctx, (os.act .lockInotifyMutex w.os).2⟩, noStream))
      (if (os.act .lockInotifyMutex w.os).1 then _ else _) _
    rw [if_pos hlock]
    have hunlock : ∀ response : Response, Flows os (fun s : World σ × Stream =>
        Listed hdr w.ctx.usbWrBufferMaxSize w.ctx.maxPacketSize handles response s.2) (do
          M.act_ .unlockInotifyMutex
          return response) fun response s =>
            Listed hdr w.ctx.usbWrBufferMaxSize w.ctx.maxPacketSize handles response s.2 :=
      fun response w' hs _ => hs
    refine ensures_bind ?_ hunlock
    refine ensures_bind_at ?_
    rw [exec_startData]
    dsimp only
    rw [if_pos (by simpa using hroom)]
    refine flows_getCtx_at (w := dataPhase os hdr w) ?_
    have hroot' : (dataPhase os hdr w).ctx.mtpGetStorageRoot (param hdr 0) = some root := hroot
    rw [hroot']
    dsimp only
    unfold askedFolder at hasked
    by_cases hparent : param hdr 2 ≠ 0 ∧ param hdr 2 ≠ NO_HANDLE
    · rw [if_pos hparent] at hasked ⊢
      cases hfound : (dataPhase os hdr w).ctx.getEntryByHandle (param hdr 2) with
      | none =>
          rw [hfound] at hasked
          cases hasked
      | some p =>
          rw [hfound] at hasked
          dsimp only at hasked ⊢
          rw [bind_eq, exec_bind] at hasked
          refine ensures_bind_at ?_
          generalize exec (stream os) (entryPath p) (dataPhase os hdr w, noStream) = built
            at hasked ⊢
          obtain ⟨built, s⟩ := built
          cases built with
          | none => cases hasked
          | some path' =>
              simp only [pure_eq, exec_ret, Option.map_some, Prod.mk.injEq, Option.some.injEq]
                at hasked
              obtain ⟨⟨rfl, rfl, rfl⟩, rfl⟩ := hasked
              exact hlisted
    · rw [if_neg hparent] at hasked ⊢
      simp only [pure_eq, exec_ret, Prod.mk.injEq, Option.some.injEq] at hasked
      obtain ⟨⟨rfl, rfl, rfl⟩, rfl, -⟩ := hasked
      exact hlisted
  have hreplied := hsent _ rfl hcancel
  generalize exec (stream os) (mtpOpGetObjectHandles hdr) (w, noStream) = run at hreplied ⊢
  rw [← hhandles, hcounted.count]
  rw [Listed, hlen] at hreplied
  rw [IsHandlesContainer, hlen]
  rcases hreplied with ⟨hfit, hcode, hbytes⟩ | ⟨hover, hcode⟩
  · rw [hcode, hbytes]
    exact ⟨fun h => ⟨hfit, h.2.2.1⟩, fun h => ⟨rfl, hnodup, h.2, rfl⟩⟩
  · rw [hcode]
    exact iff_of_false (fun h => absurd h.1 (by decide)) fun h => hover h.1

end Listings

section Samples

def handlesRequest : Buffer :=
  Buffer.write (fun _ => 0) 0
    (commandPacket MTP_OPERATION_GET_OBJECT_HANDLES [FIRST_STORAGE_ID, 0, 0])

-- A session over the storage "/a" with the file "f", before it is listed.
def openedStore : World MemSystem := run (World.step memOs) smallBuffers [openSession]

theorem slots_openedStore : Slots openedStore.ctx.db :=
  @slots_exec _ memOs _ openSession.program smallBuffers Slots.init

-- The storage is found, and then scanned.
def foundStore : Option (Option EntryPtr × CString × Nat) × World MemSystem :=
  exec (World.handle memOs)
    (askedFolder (dataPhase memOs handlesRequest openedStore).ctx handlesRequest A_ROOT)
    (dataPhase memOs handlesRequest openedStore)

def storeEntry : Option EntryPtr :=
  openedStore.ctx.getEntryByHandleAndStorageid 0 FIRST_STORAGE_ID

def scannedStore : Option Nat × World MemSystem :=
  exec (World.handle memOs) (listFolder storeEntry A_ROOT 0 (param handlesRequest 0)) foundStore.2

theorem listing_complete_iff_sample :
    ((exec (stream memOs) (mtpOpGetObjectHandles handlesRequest) (openedStore, noStream)).1 =
        (MTP_RESPONSE_OK, []) ∧
      (scannedStore.2.ctx.childrenOf 0 (param handlesRequest 0)).Nodup ∧
      IsHandlesContainer handlesRequest
        ((scannedStore.2.ctx.childrenOf 0 (param handlesRequest 0)).map fun p =>
          (scannedStore.2.ctx.entry p).handle)
        (exec (stream memOs) (mtpOpGetObjectHandles handlesRequest)
          (openedStore, noStream)).2.2.sent) ↔
      (openedStore.ctx.maxPacketSize + 4 ≤ openedStore.ctx.usbWrBufferMaxSize ∨
          16 + 4 * (scannedStore.2.ctx.childrenOf 0 (param handlesRequest 0)).length <
            openedStore.ctx.usbWrBufferMaxSize) ∧
        16 + 4 * (scannedStore.2.ctx.childrenOf 0 (param handlesRequest 0)).length < 2 ^ 32 :=
  listing_complete_iff memOs openedStore foundStore.2 scannedStore.2 handlesRequest A_ROOT
    storeEntry A_ROOT 0 1 (by decide +kernel) (by decide +kernel) (by decide +kernel)
    slots_openedStore (by decide +kernel) (Prod.ext (by decide +kernel) rfl)
    (Prod.ext (by decide +kernel) rfl) (by decide +kernel) (by decide +kernel) (by decide +kernel)
    fun step hm => by
      revert step
      decide +kernel

-- A folder with 124 files.
def manyNames : List CString :=
  (List.range 124).map fun i => [UInt8.ofNat (0x41 + i / 16), UInt8.ofNat (0x41 + i % 16)]

def manyFilesOs : Os MemSystem where
  query q sys :=
    match q with
    | .stat64 _ => some ⟨false, 0, 0⟩
    | .opendir _ => some manyNames
    | q => sys.query q
  act a sys := sys.act a

-- With buffers of 512 bytes it cannot be listed.
theorem listing_overruns :
    openedStore.ctx.usbWrBufferMaxSize = 512 ∧ openedStore.ctx.maxPacketSize = 512 ∧
      (exec (stream manyFilesOs) (mtpOpGetObjectHandles handlesRequest)
        (openedStore, noStream)).1 ≠ (MTP_RESPONSE_OK, []) := by
  decide +kernel

end Samples

end Umtp
