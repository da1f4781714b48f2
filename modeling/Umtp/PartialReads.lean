import Umtp.FileReads

namespace Umtp

open Lib Lib.Prog Handles

-- A turn of the loop of `sendBlocks`: `j` bytes are sent, `ofs` wait in the write
-- buffer, and `blocksize` are put behind them.
structure Turn where
  j : Int
  ofs : Nat
  blocksize : Int
deriving DecidableEq, Repr

def turns (maxsize : Nat) (actualsize : Int) : Nat → (j : Int) → (ofs : Nat) → List Turn
  | 0, _, _ => []
  | fuel + 1, j, ofs =>
    let room := (maxsize : Int) - ofs
    let blocksize := if j + room < actualsize then room else actualsize - j
    ⟨j, ofs, blocksize⟩ ::
      if j + blocksize < actualsize then turns maxsize actualsize fuel (j + blocksize) 0 else []

-- The loop, with its turns given.
def sendTurns (p : EntryPtr) (offset : Int) : List Turn → (bufIndex : Int) → M Bool
  | [], _ => return true
  | turn :: rest, bufIndex => do
    match ← fetchBlock p (offset + turn.j) bufIndex turn.ofs turn.blocksize with
    | some (bytes, bufIndex) =>
      let cancelReq ← M.act .getCancelReq
      if !cancelReq then
        writeUsb .bulkIn bytes
      if rest ≠ [] then
        let cancelReq ← M.act .getCancelReq
        if cancelReq then return true else sendTurns p offset rest bufIndex
      else
        return true
    | none =>
      entryClose (some p)
      return false

namespace Turn

variable (turn : Turn) (maxsize cacheSize : Nat) (offset : Int)

-- The lengths given to memcpy and to write_usb, each with the bytes there are from
-- where it starts in its buffer.
def lengths : List (Int × Int) :=
  let index := pageIndex cacheSize (offset + turn.j)
  let room := (maxsize : Int) - turn.ofs
  if index + turn.blocksize < cacheSize then
    if turn.ofs = 0 then
      [(turn.blocksize, cacheSize - index)]
    else
      [(turn.blocksize, room), (turn.blocksize, cacheSize - index),
        (turn.ofs + turn.blocksize, maxsize)]
  else
    let firstPartSize := turn.blocksize - (index + turn.blocksize - cacheSize)
    [(firstPartSize, room), (firstPartSize, cacheSize - index),
      (turn.blocksize - firstPartSize, room - firstPartSize),
      (turn.blocksize - firstPartSize, cacheSize), (turn.ofs + turn.blocksize, maxsize)]

def InRange : Prop :=
  ∀ length ∈ turn.lengths maxsize cacheSize offset, 0 ≤ length.1 ∧ length.1 ≤ length.2

-- The block does not reach over more than two pages of the read cache.
def InTwoPages : Prop :=
  pageIndex cacheSize (offset + turn.j) + turn.blocksize ≤ 2 * cacheSize

instance : Decidable (turn.InRange maxsize cacheSize offset) :=
  inferInstanceAs (Decidable (∀ length ∈ _, _ ∧ _))

instance : Decidable (turn.InTwoPages cacheSize offset) :=
  inferInstanceAs (Decidable (_ ≤ _))

end Turn

section Turns

variable {σ : Type} {os : Os σ} {p : EntryPtr} {maxsize cacheSize : Nat} {offset n : Int}

-- The loop makes the turns described, whatever the system does.
theorem exec_sendBlocks (fuel : Nat) {j : Int} {ofs : Nat} (bufIndex : Int) {w : World σ}
    (hroom : ofs < w.ctx.usbWrBufferMaxSize) (hfuel : (n - j).toNat < fuel) :
    exec (World.handle os) (sendBlocks p offset n fuel j bufIndex ofs) w =
      exec (World.handle os)
        (sendTurns p offset (turns w.ctx.usbWrBufferMaxSize n fuel j ofs) bufIndex) w := by
  induction fuel generalizing j ofs bufIndex w with
  | zero => omega
  | succ fuel ih =>
      rw [sendBlocks, exec_getCtx_bind]
      dsimp only [turns]
      obtain ⟨block, hblock⟩ : ∃ block : Int,
          block = (if j + ((w.ctx.usbWrBufferMaxSize : Int) - ofs) < n
            then (w.ctx.usbWrBufferMaxSize : Int) - ofs else n - j) := ⟨_, rfl⟩
      have hpos : j + block < n → 0 < block := by
        rw [hblock]
        split <;> omega
      rw [← hblock, sendTurns]
      have hsize := @usbWrBufferMaxSize_exec σ _ os
        (fetchBlock p (offset + j) bufIndex ofs block) w
      have hbind : ∀ f : Option (List UInt8 × Int) → M Bool,
          exec (World.handle os) (fetchBlock p (offset + j) bufIndex ofs block >>= f) w =
            exec (World.handle os)
              (f (exec (World.handle os) (fetchBlock p (offset + j) bufIndex ofs block) w).1)
              (exec (World.handle os) (fetchBlock p (offset + j) bufIndex ofs block) w).2 :=
        fun f => exec_bind _ _ f w
      rw [hbind, hbind]
      generalize exec (World.handle os) (fetchBlock p (offset + j) bufIndex ofs block) w = fetched
        at hsize ⊢
      obtain ⟨got, w1⟩ := fetched
      cases got with
      | none => rfl
      | some found =>
          obtain ⟨bytes, page⟩ := found
          have hrest : ∀ v : World σ, v.ctx.usbWrBufferMaxSize = w.ctx.usbWrBufferMaxSize →
              exec (World.handle os) (if j + block < n then do
                let cancelReq ← M.act .getCancelReq
                if cancelReq then return true
                else sendBlocks p offset n fuel (j + block) page 0
              else return true) v =
                exec (World.handle os) (if (if j + block < n then
                    turns w.ctx.usbWrBufferMaxSize n fuel (j + block) 0 else []) ≠ [] then do
                  let cancelReq ← M.act .getCancelReq
                  if cancelReq then return true
                  else sendTurns p offset (if j + block < n then
                    turns w.ctx.usbWrBufferMaxSize n fuel (j + block) 0 else []) page
                else return true) v := by
            intro v hv
            by_cases hmore : j + block < n
            · have hne : turns w.ctx.usbWrBufferMaxSize n fuel (j + block) 0 ≠ [] := by
                cases fuel with
                | zero => omega
                | succ fuel => exact List.cons_ne_nil _ _
              simp only [if_pos hmore]
              rw [if_pos hne, exec_act_bind, exec_act_bind]
              split
              · rfl
              · have hnext := @ih (j + block) 0 page ⟨v.ctx, (os.act .getCancelReq v.os).2⟩
                  (by rw [hv]; omega) (by have := hpos hmore; omega)
                rw [hnext, hv]
            · simp [if_neg hmore]
          dsimp only
          rw [exec_act_bind, exec_act_bind]
          split
          · simp only [bind_eq, exec_bind (World.handle os) (writeUsb .bulkIn bytes)]
            exact hrest _ ((usbWrBufferMaxSize_exec _ _).trans hsize)
          · exact hrest _ hsize

theorem pageIndex_bounds (hpos : 0 < cacheSize) (hint : cacheSize < 2 ^ 31) (position : Int) :
    0 ≤ pageIndex cacheSize position ∧ pageIndex cacheSize position < cacheSize := by
  have hmask : (cacheSize : Int) - 1 = ((cacheSize - 1 : Nat) : Int) := by omega
  have hmod : (cacheSize - 1) % 2 ^ 64 = cacheSize - 1 := Nat.mod_eq_of_lt (by omega)
  have hle : (BitVec.ofInt 64 position &&& BitVec.ofNat 64 (cacheSize - 1)).toNat ≤
      cacheSize - 1 := by
    rw [BitVec.toNat_and, BitVec.toNat_ofNat, hmod]
    exact Nat.and_le_right
  rw [pageIndex, andInt64, hmask, BitVec.ofInt_natCast, BitVec.toInt_eq_toNat_of_lt (by omega)]
  omega

-- `takeBlock` with the lengths of its calls of memcpy and write_usb given.
def copyBlock (p : EntryPtr) (cacheSize : Nat) (page position : Int) (ofs : Nat) :
    List Int → M (Option (List UInt8 × Int))
  | [sent] => do
    let ctx ← M.getCtx
    return some (ctx.cache.read (pageIndex cacheSize position).toNat sent.toNat, page)
  | [written, _, sent] => do
    let ctx ← M.getCtx
    let wrbuffer := ctx.wrbuffer.write ofs
      (ctx.cache.read (pageIndex cacheSize position).toNat written.toNat)
    M.cmd (.setWrbuffer wrbuffer)
    return some (wrbuffer.read 0 sent.toNat, page)
  | [written, _, more, _, sent] => do
    let ctx ← M.getCtx
    M.cmd (.setWrbuffer (ctx.wrbuffer.write ofs
      (ctx.cache.read (pageIndex cacheSize position).toNat written.toNat)))
    if ← loadPage p (page + cacheSize) then
      let ctx ← M.getCtx
      let wrbuffer := ctx.wrbuffer.write (ofs + written.toNat) (ctx.cache.read 0 more.toNat)
      M.cmd (.setWrbuffer wrbuffer)
      return some (wrbuffer.read 0 sent.toNat, page + cacheSize)
    else
      return none
  | _ => return none

-- The lengths of a turn are those that its block is copied with.
theorem Turn.takeBlock_eq (turn : Turn) (maxsize cacheSize : Nat) (offset page : Int)
    (hblock : 0 ≤ turn.blocksize) :
    takeBlock p cacheSize page (offset + turn.j) turn.ofs turn.blocksize =
      copyBlock p cacheSize page (offset + turn.j) turn.ofs
        ((turn.lengths maxsize cacheSize offset).map Prod.fst) := by
  have hsent : ((turn.ofs : Int) + turn.blocksize).toNat = turn.ofs + turn.blocksize.toNat := by
    omega
  unfold takeBlock Turn.lengths
  by_cases hpage : pageIndex cacheSize (offset + turn.j) + turn.blocksize < cacheSize
  · simp only [if_pos hpage]
    by_cases hofs : turn.ofs = 0
    · simp only [if_pos hofs]
      rfl
    · simp only [if_neg hofs, List.map_cons, List.map_nil, copyBlock, hsent]
  · simp only [if_neg hpage, List.map_cons, List.map_nil, copyBlock, hsent]

-- The turns of a length that is not negative keep to the write buffer.
theorem turns_fit (fuel : Nat) {j : Int} {ofs : Nat} (hj : j ≤ n)
    (hofs : ofs < maxsize) :
    ∀ turn ∈ turns maxsize n fuel j ofs,
      0 ≤ turn.blocksize ∧ turn.ofs + turn.blocksize ≤ maxsize := by
  induction fuel generalizing j ofs with
  | zero => exact fun turn hm => absurd hm List.not_mem_nil
  | succ fuel ih =>
      intro turn hm
      rw [turns] at hm
      obtain ⟨block, hblock⟩ : ∃ block : Int,
          block = (if j + ((maxsize : Int) - ofs) < n then (maxsize : Int) - ofs else n - j) :=
        ⟨_, rfl⟩
      have hfit : 0 ≤ block ∧ ofs + block ≤ maxsize := by
        rw [hblock]
        split <;> omega
      rw [← hblock] at hm
      rcases List.mem_cons.mp hm with rfl | hm
      · exact hfit
      · split at hm
        · rename_i hmore
          exact ih (by omega) (by omega) turn hm
        · exact absurd hm List.not_mem_nil

-- A block in the write buffer is copied in range exactly when it lies in two
-- pages.
theorem Turn.inRange_iff {turn : Turn} (hpos : 0 < cacheSize) (hint : cacheSize < 2 ^ 31)
    (hblock : 0 ≤ turn.blocksize) (hfits : turn.ofs + turn.blocksize ≤ maxsize) :
    turn.InRange maxsize cacheSize offset ↔ turn.InTwoPages cacheSize offset := by
  obtain ⟨hlow, hhigh⟩ := pageIndex_bounds hpos hint (offset + turn.j)
  rw [Turn.InRange, Turn.InTwoPages, Turn.lengths]
  generalize pageIndex cacheSize (offset + turn.j) = index at *
  dsimp only
  split
  · split
    · simp only [List.forall_mem_singleton]
      omega
    · simp only [List.forall_mem_cons, List.not_mem_nil, false_implies, implies_true, and_true]
      omega
  · simp only [List.forall_mem_cons, List.not_mem_nil, false_implies, implies_true, and_true]
    omega

-- It does when the cache is as large as the write buffer.
theorem Turn.inTwoPages_of_le {turn : Turn} (hpos : 0 < cacheSize) (hint : cacheSize < 2 ^ 31)
    (hfits : turn.ofs + turn.blocksize ≤ maxsize) (hcache : maxsize ≤ cacheSize) :
    turn.InTwoPages cacheSize offset := by
  have hindex := pageIndex_bounds hpos hint (offset + turn.j)
  rw [Turn.InTwoPages]
  omega

end Turns

-- What a partial read asks for, as the protocol counts it.
def askedOffset (hdr : Buffer) : Nat :=
  if hdrCode hdr = MTP_OPERATION_GET_PARTIAL_OBJECT_64 then peek64 hdr (MTP_HEADER_SIZE + 4) 8
  else param hdr 1

def askedMaxsize (hdr : Buffer) : Nat :=
  if hdrCode hdr = MTP_OPERATION_GET_PARTIAL_OBJECT_64 then param hdr 3 else param hdr 2

def clampedSize (fileSize offset maxsize : Nat) : Nat :=
  if fileSize ≤ offset then 0 else min maxsize (fileSize - offset)

-- The payload and the first parameter of the response have the length.
def PartSent (n : Nat) (response : Response) (sent : List UInt8) : Prop :=
  sent.length - MTP_HEADER_SIZE = n ∧ response.2.head? = some n

-- The numbers that are the same with a sign as without one, as far as it matters:
-- nothing is asked for, or the offset has no sign and lies behind the file, or
-- the maximum size has none either and their sum has none.
def Unsigned (fileSize offset maxsize : Nat) : Prop :=
  maxsize = 0 ∨ offset < 2 ^ 63 ∧
    (fileSize ≤ offset ∨ maxsize < 2 ^ 31 ∧ offset + maxsize < 2 ^ 63)

instance (n : Nat) (response : Response) (sent : List UInt8) :
    Decidable (PartSent n response sent) :=
  inferInstanceAs (Decidable (_ ∧ _))

section Parts

variable {σ : Type} {os : Os σ} {w : World σ} {hdr : Buffer} {p : EntryPtr} {offset maxsize : Int}

theorem toInt64_cases {n : Nat} (hn : n < 2 ^ 64) :
    n < 2 ^ 63 ∧ toInt64 n = n ∨ 2 ^ 63 ≤ n ∧ toInt64 n = n - 2 ^ 64 := by
  rw [toInt64, BitVec.toInt_eq_toNat_cond, BitVec.toNat_ofNat, Nat.mod_eq_of_lt hn]
  split <;> omega

theorem toInt32_cases {n : Nat} (hn : n < 2 ^ 32) :
    n < 2 ^ 31 ∧ toInt32 n = n ∨ 2 ^ 31 ≤ n ∧ toInt32 n = n - 2 ^ 32 := by
  rw [toInt32, BitVec.toInt_eq_toNat_cond, BitVec.toNat_ofNat, Nat.mod_eq_of_lt hn]
  split <;> omega

theorem Reaches.asked (h : Reaches os false hdr w p offset maxsize) :
    (askedOffset hdr < 2 ^ 63 ∧ offset = askedOffset hdr ∨
      2 ^ 63 ≤ askedOffset hdr ∧ askedOffset hdr < 2 ^ 64 ∧ offset = askedOffset hdr - 2 ^ 64) ∧
    (askedMaxsize hdr < 2 ^ 31 ∧ maxsize = askedMaxsize hdr ∨
      2 ^ 31 ≤ askedMaxsize hdr ∧ askedMaxsize hdr < 2 ^ 32 ∧
        maxsize = askedMaxsize hdr - 2 ^ 32) := by
  have hrequest := h.request
  rw [MtpCtx.fileRequest, Option.map_eq_some_iff] at hrequest
  obtain ⟨p', -, hparams⟩ := hrequest
  rw [askedOffset, askedMaxsize]
  have h64 : peek64 hdr (MTP_HEADER_SIZE + 4) 8 < 2 ^ 64 := peekBytes_lt hdr _ 8
  have hparam : ∀ i, param hdr i < 2 ^ 32 := fun i => peekBytes_lt hdr _ 4
  have hone := hparam 1
  have htwo := hparam 2
  have hthree := hparam 3
  simp only [Bool.false_eq_true, if_false] at hparams
  by_cases hcode : hdrCode hdr = MTP_OPERATION_GET_PARTIAL_OBJECT_64
  · rw [if_pos hcode, Prod.mk.injEq, Prod.mk.injEq] at hparams
    rw [if_pos hcode, if_pos hcode]
    have hoffset := toInt64_cases h64
    have hmaxsize := toInt32_cases hthree
    omega
  · rw [if_neg hcode, Prod.mk.injEq, Prod.mk.injEq] at hparams
    rw [if_neg hcode, if_neg hcode]
    have hmaxsize := toInt32_cases htwo
    omega

-- The size is the one asked for exactly when no sign gets in the way.
theorem Reaches.actualSize_iff (h : Reaches os false hdr w p offset maxsize) {fileSize : Nat}
    (hsize : fileSize < 2 ^ 63) :
    actualSize fileSize offset maxsize =
        clampedSize fileSize (askedOffset hdr) (askedMaxsize hdr) ↔
      Unsigned fileSize (askedOffset hdr) (askedMaxsize hdr) := by
  obtain ⟨hoffset, hmaxsize⟩ := h.asked
  generalize askedOffset hdr = o at *
  generalize askedMaxsize hdr = m at *
  rw [actualSize, clampedSize, Unsigned]
  have hsum := @wrapInt64_cases (offset + maxsize) (by omega) (by omega)
  have hdiff := @wrapInt64_cases (fileSize - offset) (by omega) (by omega)
  by_cases hbehind : (fileSize : Int) ≤ offset
  · rw [if_pos hbehind]
    split <;> omega
  · rw [if_neg hbehind]
    split <;> split <;> omega

-- Every length of the loop is in range when its blocks keep to two pages.
theorem turns_inRange_iff {cacheSize : Nat} {n : Int} {size : Nat}
    (hpos : 0 < cacheSize) (hint : cacheSize < 2 ^ 31) (hn : 0 ≤ n) {ofs fuel : Nat}
    (hroom : ofs < size) :
    (∀ turn ∈ turns size n fuel 0 ofs, turn.InRange size cacheSize offset) ↔
      ∀ turn ∈ turns size n fuel 0 ofs, turn.InTwoPages cacheSize offset := by
  have hiff : ∀ turn ∈ turns size n fuel 0 ofs,
      (turn.InRange size cacheSize offset ↔ turn.InTwoPages cacheSize offset) := by
    intro turn hm
    obtain ⟨hblock, hfits⟩ := turns_fit fuel hn hroom turn hm
    exact Turn.inRange_iff hpos hint hblock hfits
  exact forall₂_congr hiff

-- The response to a part, with what was sent before it.
theorem partSent_iff {n : Nat} {result : Int} (hresult : result < 2 ^ 32) {sent : List UInt8} :
    PartSent n (fileReply false result, fileParams false result) sent ↔
      0 ≤ result ∧ result = n ∧ sent.length - MTP_HEADER_SIZE = n := by
  rw [PartSent, fileParams]
  by_cases hneg : 0 ≤ result
  · rw [if_pos ⟨rfl, hneg⟩, List.head?_cons, Option.some_inj, u32]
    omega
  · rw [if_neg (fun h => hneg h.2), List.head?_nil]
    constructor
    · rintro ⟨-, h⟩
      cases h
    · rintro ⟨h, -⟩
      exact absurd h hneg

theorem clampedSize_le (fileSize offset maxsize : Nat) :
    clampedSize fileSize offset maxsize ≤ maxsize := by
  rw [clampedSize]
  split <;> omega

-- A part is sent and its lengths are in range exactly when the numbers are the
-- same with a sign as without one, each block lies in two pages of the read cache,
-- the file opens and every read of it succeeds; or when nothing is asked for and
-- there is no memory for the cache.
theorem partial_read_clamped_iff (os : Os σ) (w : World σ) (hdr : Buffer) (p : EntryPtr)
    (offset maxsize : Int) (fileSize : Nat) (_hpacket : 0 < w.ctx.maxPacketSize)
    (hreach : Reaches os false hdr w p offset maxsize)
    (hfile : (w.ctx.entry p).size = fileSize) (hsize : fileSize < 2 ^ 63)
    (hpos : 0 < w.ctx.readFileBufferSize) (hint : w.ctx.readFileBufferSize < 2 ^ 31)
    (hcancel : Safe (stream os) (NotCancelled os) (readObject false hdr) (w, noStream)) :
    (PartSent (clampedSize fileSize (askedOffset hdr) (askedMaxsize hdr))
        (exec (stream os) (readObject false hdr) (w, noStream)).1
        (exec (stream os) (readObject false hdr) (w, noStream)).2.2.sent ∧
      (FileOpens os p offset maxsize (dataPhase os hdr w) →
        ∀ turn ∈ turns w.ctx.usbWrBufferMaxSize (actualSize fileSize offset maxsize)
            (blockFuel (actualSize fileSize offset maxsize)) 0 MTP_HEADER_SIZE,
          turn.InRange w.ctx.usbWrBufferMaxSize w.ctx.readFileBufferSize offset)) ↔
      (¬CacheReady os (dataPhase os hdr w) ∧
          clampedSize fileSize (askedOffset hdr) (askedMaxsize hdr) = 0) ∨
        FileOpens os p offset maxsize (dataPhase os hdr w) ∧
        (exec (stream os) (readObject false hdr) (w, noStream)).2.2.failed = false ∧
        Unsigned fileSize (askedOffset hdr) (askedMaxsize hdr) ∧
        ∀ turn ∈ turns w.ctx.usbWrBufferMaxSize
            (clampedSize fileSize (askedOffset hdr) (askedMaxsize hdr))
            (blockFuel (clampedSize fileSize (askedOffset hdr) (askedMaxsize hdr))) 0
            MTP_HEADER_SIZE,
          turn.InTwoPages w.ctx.readFileBufferSize offset := by
  have hreplied := @flows_readObject _ os w false hdr _ rfl hcancel
  generalize exec (stream os) (readObject false hdr) (w, noStream) = run at hreplied ⊢
  obtain ⟨response, w', flow⟩ := run
  dsimp only at hreplied ⊢
  have hexact := hreach.actualSize_iff hsize
  have hclamped := clampedSize_le fileSize (askedOffset hdr) (askedMaxsize hdr)
  obtain ⟨hoffset, hmaxsize⟩ := hreach.asked
  rcases hreplied with ⟨p', offset', maxsize', result, hreach', houtcome, rfl⟩ |
      ⟨hrefused, -, -⟩
  swap
  · exact absurd hreach (hrefused p offset maxsize)
  cases Option.some_inj.mp (hreach.request.symm.trans hreach'.request)
  have hsame : ((dataPhase os hdr w).ctx.entry p).size = fileSize := hfile
  rw [FileOutcome, hsame] at houtcome
  have hlimit : actualSize fileSize offset maxsize < 2 ^ 63 :=
    (actualSize_bounds (by omega) (by omega) (by omega) (by omega)).2
  generalize clampedSize fileSize (askedOffset hdr) (askedMaxsize hdr) = m at *
  rcases houtcome with ⟨hready, hresult, hflow⟩ | ⟨hready, hopen, hresult, hflow⟩ |
      ⟨hopen, htransfer⟩
  · have hopen : ¬FileOpens os p offset maxsize (dataPhase os hdr w) := fun h =>
      hready (cacheReady_of_fileOpens (s := (dataPhase os hdr w, noStream)) h)
    rw [hresult, hflow, partSent_iff (by decide)]
    have hnone : noStream.sent.length = 0 := rfl
    simp only [hopen, hready, false_implies, and_true, false_and, or_false, not_false_iff, true_and,
      hnone]
    omega
  · rw [hresult, partSent_iff (by decide)]
    refine iff_of_false (fun h => absurd h.1.1 (by decide)) ?_
    rintro (h | h)
    · exact h.1 hready
    · exact hopen h.1
  · have hready := cacheReady_of_fileOpens (s := (dataPhase os hdr w, noStream)) hopen
    simp only [hopen, hready, not_true_eq_false, false_and, false_or, true_and, true_implies]
    rcases htransfer with ⟨hresult, hfailed, payload, hpayload, hsent⟩ |
        ⟨hresult, hfailed, -, -⟩
    · rw [hresult, hfailed, ← hexact]
      by_cases heq : actualSize fileSize offset maxsize = m
      · have hlen : flow.sent.length - MTP_HEADER_SIZE = m := by
          rw [hsent, List.length_append, length_dataHeader, hpayload]
          omega
        rw [heq, partSent_iff (by omega),
          turns_inRange_iff hpos hint (by omega) hreach.room]
        simp [hlen]
      · have hunsent : ¬PartSent m (fileReply false (actualSize fileSize offset maxsize),
            fileParams false (actualSize fileSize offset maxsize)) flow.sent := by
          rw [PartSent, hsent, List.length_append, length_dataHeader, hpayload]
          rintro ⟨hlen, hparam⟩
          rw [fileParams] at hparam
          split at hparam
          · omega
          · cases hparam
        simp only [hunsent, heq, false_and, and_false]
    · rw [hresult, hfailed, partSent_iff (by decide)]
      simp only [Bool.true_eq_false, false_and, iff_false]
      omega

end Parts

section Samples

theorem partial_read_clamped_iff_sample :
    (PartSent (clampedSize 3 (askedOffset partRequest) (askedMaxsize partRequest))
        (exec (stream memOs) (readObject false partRequest) (listedFile, noStream)).1
        (exec (stream memOs) (readObject false partRequest) (listedFile, noStream)).2.2.sent ∧
      (FileOpens memOs ⟨1, 1021⟩ 0 10 (dataPhase memOs partRequest listedFile) →
        ∀ turn ∈ turns listedFile.ctx.usbWrBufferMaxSize (actualSize 3 0 10)
            (blockFuel (actualSize 3 0 10)) 0 MTP_HEADER_SIZE,
          turn.InRange listedFile.ctx.usbWrBufferMaxSize listedFile.ctx.readFileBufferSize 0)) ↔
      (¬CacheReady memOs (dataPhase memOs partRequest listedFile) ∧
          clampedSize 3 (askedOffset partRequest) (askedMaxsize partRequest) = 0) ∨
        FileOpens memOs ⟨1, 1021⟩ 0 10 (dataPhase memOs partRequest listedFile) ∧
        (exec (stream memOs) (readObject false partRequest)
          (listedFile, noStream)).2.2.failed = false ∧
        Unsigned 3 (askedOffset partRequest) (askedMaxsize partRequest) ∧
        ∀ turn ∈ turns listedFile.ctx.usbWrBufferMaxSize
            (clampedSize 3 (askedOffset partRequest) (askedMaxsize partRequest))
            (blockFuel (clampedSize 3 (askedOffset partRequest) (askedMaxsize partRequest))) 0
            MTP_HEADER_SIZE,
          turn.InTwoPages listedFile.ctx.readFileBufferSize 0 :=
  partial_read_clamped_iff memOs listedFile partRequest ⟨1, 1021⟩ 0 10 3 (by decide +kernel)
    ⟨by decide +kernel, by decide +kernel, by decide +kernel, by decide +kernel,
      by decide +kernel⟩
    (by decide +kernel) (by decide) (by decide +kernel) (by decide +kernel) fun step hm => by
      revert step
      decide +kernel

-- The request for 2 ^ 31 bytes of the first object, and the one for a byte at its
-- very last offset.
def hugePartRequest : Buffer :=
  Buffer.write (fun _ => 0) 0 (commandPacket MTP_OPERATION_GET_PARTIAL_OBJECT [1, 0, 0x80000000])

def lastByteRequest : Buffer :=
  Buffer.write (fun _ => 0) 0
    (commandPacket MTP_OPERATION_GET_PARTIAL_OBJECT_64 [1, 0xFFFFFFFF, 0xFFFFFFFF, 1])

-- Of a file of three bytes the first request gets none, and has them copied with a
-- negative length, and the second one gets one.
theorem partial_read_unclamped :
    (¬PartSent (clampedSize 3 0 0x80000000)
        (exec (stream memOs) (readObject false hugePartRequest) (listedFile, noStream)).1
        (exec (stream memOs) (readObject false hugePartRequest)
          (listedFile, noStream)).2.2.sent ∧
      (∃ turn ∈ turns listedFile.ctx.usbWrBufferMaxSize (actualSize 3 0 (toInt32 0x80000000))
          (blockFuel (actualSize 3 0 (toInt32 0x80000000))) 0 MTP_HEADER_SIZE,
        ¬turn.InRange listedFile.ctx.usbWrBufferMaxSize listedFile.ctx.readFileBufferSize 0)) ∧
      ¬PartSent (clampedSize 3 (2 ^ 64 - 1) 1)
        (exec (stream memOs) (readObject false lastByteRequest) (listedFile, noStream)).1
        (exec (stream memOs) (readObject false lastByteRequest)
          (listedFile, noStream)).2.2.sent := by
  decide +kernel

end Samples

end Umtp
