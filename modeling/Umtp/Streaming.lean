import Umtp.Bytes
import Umtp.MemOs
import Umtp.Effects.Opening

namespace Umtp

open Lib Lib.Prog Handles

-- Bits

theorem toNat_and_mask {k n : Nat} (hk : k ≤ 62) (hn : n < 2 ^ 63) :
    (BitVec.ofNat 64 n &&& BitVec.ofNat 64 (2 ^ k - 1)).toNat = n % 2 ^ k := by
  have hpow : (2 : Nat) ^ k ≤ 2 ^ 62 := Nat.pow_le_pow_right (by decide) hk
  rw [BitVec.toNat_and, BitVec.toNat_ofNat, BitVec.toNat_ofNat, Nat.mod_eq_of_lt (by omega),
    Nat.mod_eq_of_lt (by omega), Nat.and_two_pow_sub_one_eq_mod]

theorem toNat_and_not_add {w : Nat} (x m : BitVec w) :
    (x &&& ~~~ m).toNat + (x &&& m).toNat = x.toNat := by
  have hdisjoint : (x &&& ~~~ m) &&& (x &&& m) = 0#w := by
    ext i hi
    cases hx : x[i] <;> cases hm : m[i] <;> simp [hx, hm]
  have hunion : (x &&& ~~~ m) ||| (x &&& m) = x := by
    ext i hi
    cases hx : x[i] <;> cases hm : m[i] <;> simp [hx, hm]
  rw [← BitVec.toNat_add_of_and_eq_zero hdisjoint,
    BitVec.add_eq_or_of_and_eq_zero _ _ hdisjoint, hunion]

theorem pageIndex_eq {k n : Nat} (hk : k ≤ 62) (hn : n < 2 ^ 63) :
    pageIndex (2 ^ k) n = (n % 2 ^ k : Nat) := by
  have hpos : 0 < (2 : Nat) ^ k := Nat.two_pow_pos k
  have hmask : ((2 ^ k : Nat) : Int) - 1 = ((2 ^ k - 1 : Nat) : Int) := by omega
  have hle : n % 2 ^ k ≤ n := Nat.mod_le _ _
  have hand := toNat_and_mask hk hn
  rw [pageIndex, andInt64, hmask, BitVec.ofInt_natCast, BitVec.ofInt_natCast,
    BitVec.toInt_eq_toNat_of_lt (by omega), hand]

-- The bits above the index.
theorem pageOffset_eq {k n : Nat} (hk : k ≤ 62) (hn : n < 2 ^ 63) :
    pageOffset (2 ^ k) n = (n - n % 2 ^ k : Nat) := by
  have hpos : 0 < (2 : Nat) ^ k := Nat.two_pow_pos k
  have hmask : -1 - (((2 ^ k : Nat) : Int) - 1) = Int.negSucc (2 ^ k - 1) := by omega
  have hle : n % 2 ^ k ≤ n := Nat.mod_le _ _
  have hx : (BitVec.ofNat 64 n).toNat = n := by
    rw [BitVec.toNat_ofNat]
    exact Nat.mod_eq_of_lt (by omega)
  have hsplit := toNat_and_not_add (BitVec.ofNat 64 n) (BitVec.ofNat 64 (2 ^ k - 1))
  rw [toNat_and_mask hk hn, hx] at hsplit
  generalize n % 2 ^ k = index at hle hsplit ⊢
  rw [pageOffset, andInt64, hmask, BitVec.ofInt_natCast, BitVec.ofInt_negSucc_eq_not_ofNat,
    BitVec.toInt_eq_toNat_of_lt (by omega)]
  omega

-- The bytes of a file from an offset on.
def slice (content : List UInt8) (offset len : Nat) : List UInt8 := (content.drop offset).take len

theorem slice_add (content : List UInt8) (offset len more : Nat) :
    slice content offset (len + more) =
      slice content offset len ++ slice content (offset + len) more := by
  rw [slice, slice, slice, List.take_add, List.drop_drop]

theorem length_slice {content : List UInt8} {offset len : Nat}
    (h : offset + len ≤ content.length ∨ len = 0) : (slice content offset len).length = len := by
  rw [slice, List.length_take, List.length_drop]
  omega

-- The cache holds a page of the file, as far as the file goes.
def Holds (cache : Buffer) (content : List UInt8) (cacheSize page : Nat) : Prop :=
  ∀ i < cacheSize, page + i < content.length → cache i = content.getD (page + i) 0

theorem holds_write (cache : Buffer) (content : List UInt8) (cacheSize page : Nat) :
    Holds (cache.write 0 (slice content page cacheSize)) content cacheSize page := by
  intro i hi hlen
  have hslice : i < (slice content page cacheSize).length := by
    rw [slice, List.length_take, List.length_drop]
    omega
  rw [Buffer.write, if_pos (by omega)]
  simp [slice, hi, List.getD_eq_getElem?_getD]

theorem Holds.read {cache : Buffer} {content : List UInt8} {cacheSize page : Nat}
    (h : Holds cache content cacheSize page) {index len : Nat} (hi : index + len ≤ cacheSize)
    (hlen : page + index + len ≤ content.length ∨ len = 0) :
    cache.read index len = slice content (page + index) len := by
  refine List.ext_getElem (by rw [Buffer.length_read, length_slice hlen]) fun i hread hslice => ?_
  rw [Buffer.length_read] at hread
  have hcache := h (index + i) (by omega) (by omega)
  have hin : page + index + i < content.length := by omega
  simp [Buffer.read, slice, hcache, ← Nat.add_assoc, List.getD_eq_getElem?_getD, hin]

def MtpCtx.cache (ctx : MtpCtx) : Buffer := ctx.readFileBuffer.getD fun _ => 0

-- The part of `fetchBlock` that follows the loading of the first page.
def takeBlock (p : EntryPtr) (cacheSize : Nat) (page position : Int) (ofs : Nat)
    (blocksize : Int) : M (Option (List UInt8 × Int)) := do
  let ctx ← M.getCtx
  let index := pageIndex cacheSize position
  if index + blocksize < cacheSize then
    let block := ctx.cache.read index.toNat blocksize.toNat
    if ofs = 0 then
      return some (block, page)
    else
      let wrbuffer := ctx.wrbuffer.write ofs block
      M.cmd (.setWrbuffer wrbuffer)
      return some (wrbuffer.read 0 (ofs + blocksize.toNat), page)
  else
    let firstPartSize := blocksize - (index + blocksize - cacheSize)
    M.cmd (.setWrbuffer
      (ctx.wrbuffer.write ofs (ctx.cache.read index.toNat firstPartSize.toNat)))
    if ← loadPage p (page + cacheSize) then
      let ctx ← M.getCtx
      let wrbuffer := ctx.wrbuffer.write (ofs + firstPartSize.toNat)
        (ctx.cache.read 0 (blocksize - firstPartSize).toNat)
      M.cmd (.setWrbuffer wrbuffer)
      return some (wrbuffer.read 0 (ofs + blocksize.toNat), page + cacheSize)
    else
      return none

theorem fetchBlock_eq (p : EntryPtr) (position bufIndex : Int) (ofs : Nat) (blocksize : Int) :
    fetchBlock p position bufIndex ofs blocksize = (do
      let ctx ← M.getCtx
      let page := pageOffset ctx.readFileBufferSize position
      let loaded ← if bufIndex ≠ page then loadPage p page else pure true
      if loaded then takeBlock p ctx.readFileBufferSize page position ofs blocksize
      else return none) := rfl

-- The position of the next read, what was sent to the host so far and whether a
-- read failed.
structure Stream where
  position : Int
  sent : List UInt8
  failed : Bool

def noteStream : (c : Cmd) → c.Ans → Stream → Stream
  | .act (.lseekSet _ offset), _, stream => { stream with position := offset }
  | .act (.read _ _), got, stream => { stream with failed := stream.failed || got.isNone }
  | .act (.writeUsb .bulkIn bytes), _, stream => { stream with sent := stream.sent ++ bytes }
  | _, _, stream => stream

def stream {σ : Type} (os : Os σ) : Handler Cmd Cmd.Ans (World σ × Stream) :=
  observe (World.handle os) fun c _ answer => noteStream c answer

-- Nothing was read or sent yet.
def noStream : Stream := ⟨0, [], false⟩

-- There is no request to cancel, and a read gives what the file has left.
def Served {σ : Type} (os : Os σ) (content : List UInt8) (s : World σ × Stream) : Cmd → Prop
  | .act .getCancelReq => (os.act .getCancelReq s.1.os).1 = false
  | .act (.read file size) => (os.act (.read file size) s.1.os).1 =
      some (slice content s.2.position.toNat size)
  | _ => True

-- The open file is being sent: the page in the cache, what waits in the write
-- buffer and what was sent.
structure Sending (content : List UInt8) (p : EntryPtr) (maxsize cacheSize : Nat)
    (bufIndex : Int) (waiting sent : List UInt8) {σ : Type} (s : World σ × Stream) : Prop where
  room : s.1.ctx.usbWrBufferMaxSize = maxsize
  pages : s.1.ctx.readFileBufferSize = cacheSize
  file : (s.1.ctx.entry p).fileDescriptor ≠ -1
  page : bufIndex = -1 ∨
    ∃ page : Nat, bufIndex = page ∧ Holds s.1.ctx.cache content cacheSize page
  waiting : s.1.ctx.wrbuffer.read 0 waiting.length = waiting
  sent : s.2.sent = sent

section Blocks

variable {σ α : Type} {os : Os σ} {content : List UInt8} {p : EntryPtr} {maxsize cacheSize : Nat}
  {bufIndex : Int} {waiting sent : List UInt8}

abbrev Streams (os : Os σ) (content : List UInt8) (P : World σ × Stream → Prop) (prog : M α)
    (Q : α → World σ × Stream → Prop) : Prop :=
  Ensures (stream os) (Served os content) P prog Q

theorem streams_getCtx_bind {P : World σ × Stream → Prop} {f : MtpCtx → M α}
    {Q : α → World σ × Stream → Prop}
    (hf : ∀ ctx, Streams os content (fun s => P s ∧ s.1.ctx = ctx) (f ctx) Q) :
    Streams os content P (M.getCtx >>= f) Q :=
  ensures_bind (ensures_perform fun _ hs _ => ⟨hs, rfl⟩) hf

theorem streams_entryRead (position : Nat) :
    Streams os content (Sending content p maxsize cacheSize bufIndex waiting sent)
      (entryRead p position cacheSize) fun got s =>
        got = some (slice content position cacheSize) ∧
          Sending content p maxsize cacheSize bufIndex waiting sent s := by
  unfold entryRead
  refine streams_getCtx_bind fun ctx => ?_
  have hopen : ∀ s : World σ × Stream, Sending content p maxsize cacheSize bufIndex waiting sent s ∧
      s.1.ctx = ctx → (ctx.entry p).fileDescriptor ≠ -1 := fun s hs => hs.2 ▸ hs.1.file
  refine ensures_of_fact hopen fun hfile => ?_
  dsimp only
  rw [if_pos hfile]
  have hseek : Streams os content (fun s => Sending content p maxsize cacheSize bufIndex waiting
      sent s ∧ s.1.ctx = ctx) (M.act (.lseekSet (ctx.entry p).fileDescriptor position)) fun _ s =>
      Sending content p maxsize cacheSize bufIndex waiting sent s ∧ s.2.position = position :=
    ensures_perform fun _ hs _ =>
      ⟨⟨hs.1.room, hs.1.pages, hs.1.file, hs.1.page, hs.1.waiting, hs.1.sent⟩, rfl⟩
  refine ensures_bind hseek fun _ => ensures_perform fun s hs hread => ?_
  have hgot : (os.act (.read (ctx.entry p).fileDescriptor cacheSize) s.1.os).1 =
      some (slice content s.2.position.toNat cacheSize) := hread
  refine ⟨hgot.trans (by rw [hs.2, Int.toNat_natCast]), ?_⟩
  exact ⟨hs.1.room, hs.1.pages, hs.1.file, hs.1.page, hs.1.waiting, hs.1.sent⟩

theorem streams_loadPage (position : Nat) :
    Streams os content (Sending content p maxsize cacheSize bufIndex waiting sent)
      (loadPage p position) fun loaded s => loaded = true ∧
        Sending content p maxsize cacheSize position waiting sent s := by
  unfold loadPage
  refine streams_getCtx_bind fun ctx => ?_
  have hpages : ∀ s : World σ × Stream, Sending content p maxsize cacheSize bufIndex
    waiting sent s ∧
      s.1.ctx = ctx → ctx.readFileBufferSize = cacheSize := fun s hs => hs.2 ▸ hs.1.pages
  refine ensures_of_fact hpages fun hsize => ?_
  rw [hsize]
  refine ensures_bind (ensures_weaken (streams_entryRead position) (fun _ hs => hs.1)
    fun _ _ hs => hs) fun got => ?_
  refine ensures_of_fact (fun s hs => hs.1) fun hgot => ?_
  rw [hgot]
  refine streams_getCtx_bind fun ctx' => ?_
  refine ensures_bind (ensures_perform fun s hs _ => ?_) fun _ => ensures_ret fun s hs =>
    ⟨rfl, hs⟩
  obtain ⟨⟨-, hs⟩, hctx⟩ := hs
  refine ⟨hs.room, hs.pages, hs.file, Or.inr ⟨position, rfl, ?_⟩, hs.waiting, hs.sent⟩
  exact holds_write _ _ _ _

-- What is put behind the bytes that wait.
theorem Sending.write {s : World σ × Stream}
    (hs : Sending content p maxsize cacheSize bufIndex waiting sent s) (bytes : List UInt8) :
    Sending content p maxsize cacheSize bufIndex (waiting ++ bytes) sent
      (stream os (.setWrbuffer (s.1.ctx.wrbuffer.write waiting.length bytes)) s).2 := by
  refine ⟨hs.room, hs.pages, hs.file, hs.page, ?_, hs.sent⟩
  rw [List.length_append]
  exact Buffer.read_write_behind _ hs.waiting rfl

theorem streams_setWrbuffer {ctx : MtpCtx} (bytes : List UInt8) :
    Streams os content (fun s =>
        Sending content p maxsize cacheSize bufIndex waiting sent s ∧ s.1.ctx = ctx)
      (M.cmd (.setWrbuffer (ctx.wrbuffer.write waiting.length bytes))) fun _ s =>
        Sending content p maxsize cacheSize bufIndex (waiting ++ bytes) sent s := by
  refine ensures_perform fun s hs _ => ?_
  obtain ⟨hs, rfl⟩ := hs
  exact hs.write bytes

-- The page in the cache.
theorem Sending.holds {page : Nat} {s : World σ × Stream}
    (hs : Sending content p maxsize cacheSize page waiting sent s) :
    Holds s.1.ctx.cache content cacheSize page := by
  rcases hs.page with hno | ⟨loaded, heq, hholds⟩
  · omega
  · rwa [Int.natCast_inj.mp heq]

-- The bytes that wait no longer matter.
theorem Sending.forget {s : World σ × Stream}
    (hs : Sending content p maxsize cacheSize bufIndex waiting sent s) :
    Sending content p maxsize cacheSize bufIndex [] sent s :=
  ⟨hs.room, hs.pages, hs.file, hs.page, rfl, hs.sent⟩

variable {k : Nat}

-- A block comes from the page in the cache, or from it and the next one.
theorem streams_takeBlock (hk : k ≤ 62) {page position blocksize : Nat}
    (hpos : position < 2 ^ 63) (hpage : page + position % 2 ^ k = position)
    (hend : position + blocksize ≤ content.length ∨ blocksize = 0) (hroom : blocksize < 2 ^ k) :
    Streams os content (Sending content p maxsize (2 ^ k) page waiting sent)
      (takeBlock p (2 ^ k) page position waiting.length blocksize) fun got s =>
        ∃ page, got = some (waiting ++ slice content position blocksize, page) ∧
          Sending content p maxsize (2 ^ k) page [] sent s := by
  have hindex : position % 2 ^ k < 2 ^ k := Nat.mod_lt _ (Nat.two_pow_pos k)
  unfold takeBlock
  refine streams_getCtx_bind fun ctx => ?_
  have hfacts : ∀ s : World σ × Stream, Sending content p maxsize (2 ^ k) page waiting sent s ∧
      s.1.ctx = ctx → Holds ctx.cache content (2 ^ k) page ∧
        ctx.wrbuffer.read 0 waiting.length = waiting := by
    rintro s ⟨hs, rfl⟩
    exact ⟨hs.holds, hs.waiting⟩
  refine ensures_of_fact hfacts fun ⟨hholds, hwaiting⟩ => ?_
  rw [pageIndex_eq hk hpos]
  generalize position % 2 ^ k = index at hpage hindex ⊢
  simp only [Int.toNat_natCast]
  split
  · rename_i hwithin
    have hblock : ctx.cache.read index blocksize = slice content position blocksize := by
      rw [hholds.read (by omega) (by omega), hpage]
    split
    · rename_i hnone
      have hnil : waiting = [] := List.length_eq_zero_iff.mp hnone
      refine ensures_ret fun s hs => ⟨page, ?_, hs.1.forget⟩
      rw [hnil]
      exact congrArg (fun block => some (block, (page : Int))) hblock
    · refine ensures_bind (streams_setWrbuffer _) fun _ => ensures_ret fun s hs =>
        ⟨page, ?_, hs.forget⟩
      have hread := Buffer.read_write_behind ctx.wrbuffer hwaiting
        (Buffer.length_read ctx.cache index blocksize)
      exact congrArg (fun bytes => some (bytes, (page : Int))) (hread.trans (by rw [hblock]))
  · rename_i hacross
    obtain ⟨first, hfirst⟩ : ∃ first, first = 2 ^ k - index := ⟨_, rfl⟩
    have hsize : (blocksize : Int) - (index + blocksize - (2 ^ k : Nat)) = first := by omega
    rw [hsize]
    simp only [Int.toNat_natCast]
    have hpart : ctx.cache.read index first = slice content position first := by
      rw [hholds.read (by omega) (by omega), hpage]
    have hnext : ((page : Int) + (2 ^ k : Nat)) = (page + 2 ^ k : Nat) := by omega
    have hsecond : ((blocksize : Int) - first) = (blocksize - first : Nat) := by omega
    rw [hnext, hsecond]
    refine ensures_bind (streams_setWrbuffer _) fun _ =>
      ensures_bind (streams_loadPage _) fun loaded => ?_
    refine ensures_of_fact (fun s hs => hs.1) fun hloaded => ?_
    rw [if_pos hloaded]
    refine streams_getCtx_bind fun ctx' => ?_
    obtain ⟨front, hfront⟩ : ∃ front, front = waiting ++ ctx.cache.read index first := ⟨_, rfl⟩
    rw [← hfront]
    have hlen : waiting.length + first = front.length := by
      rw [hfront, List.length_append, Buffer.length_read]
    have hfacts' : ∀ s : World σ × Stream, (loaded = true ∧ Sending content p maxsize (2 ^ k)
        (page + 2 ^ k : Nat) front sent s) ∧ s.1.ctx = ctx' →
          Holds ctx'.cache content (2 ^ k) (page + 2 ^ k) ∧
            ctx'.wrbuffer.read 0 front.length = front := by
      rintro s ⟨⟨-, hs⟩, rfl⟩
      exact ⟨hs.holds, hs.waiting⟩
    refine ensures_of_fact hfacts' fun ⟨hholds', hwaiting'⟩ => ?_
    have hrest : ctx'.cache.read 0 (blocksize - first) =
        slice content (position + first) (blocksize - first) := by
      rw [hholds'.read (by omega) (by omega)]
      congr 1
      omega
    rw [hlen]
    refine ensures_bind (ensures_weaken (streams_setWrbuffer _) (fun s hs => ⟨hs.1.2, hs.2⟩)
      fun _ _ hs => hs) fun _ => ensures_ret fun s hs =>
        ⟨(page + 2 ^ k : Nat), ?_, hs.forget⟩
    have hread := Buffer.read_write_behind ctx'.wrbuffer hwaiting'
      (Buffer.length_read ctx'.cache 0 (blocksize - first))
    have hwhole : front ++ ctx'.cache.read 0 (blocksize - first) =
        waiting ++ slice content position blocksize := by
      rw [hfront, hpart, hrest, List.append_assoc, ← slice_add]
      congr 2
      omega
    have htotal : waiting.length + blocksize = front.length + (blocksize - first) := by omega
    rw [htotal]
    exact congrArg (fun bytes => some (bytes, ((page + 2 ^ k : Nat) : Int))) (hread.trans hwhole)

theorem streams_fetchBlock (hk : k ≤ 62) {position blocksize : Nat} (hpos : position < 2 ^ 63)
    (hend : position + blocksize ≤ content.length ∨ blocksize = 0) (hroom : blocksize < 2 ^ k) :
    Streams os content (Sending content p maxsize (2 ^ k) bufIndex waiting sent)
      (fetchBlock p position bufIndex waiting.length blocksize) fun got s =>
        ∃ page, got = some (waiting ++ slice content position blocksize, page) ∧
          Sending content p maxsize (2 ^ k) page [] sent s := by
  have hle : position % 2 ^ k ≤ position := Nat.mod_le _ _
  rw [fetchBlock_eq]
  refine streams_getCtx_bind fun ctx => ?_
  have hpages : ∀ s : World σ × Stream, Sending content p maxsize (2 ^ k) bufIndex waiting sent s ∧
      s.1.ctx = ctx → ctx.readFileBufferSize = 2 ^ k := fun s hs => hs.2 ▸ hs.1.pages
  refine ensures_of_fact hpages fun hsize => ?_
  dsimp only
  rw [hsize, pageOffset_eq hk hpos]
  obtain ⟨page, hpage⟩ : ∃ page, page = position - position % 2 ^ k := ⟨_, rfl⟩
  rw [← hpage]
  have hrest : ∀ loaded : Bool, Streams os content
      (fun s => loaded = true ∧ Sending content p maxsize (2 ^ k) page waiting sent s)
      (if loaded then takeBlock p (2 ^ k) page position waiting.length blocksize
        else return none)
      fun got s => ∃ page, got = some (waiting ++ slice content position blocksize, page) ∧
        Sending content p maxsize (2 ^ k) page [] sent s := by
    intro loaded
    refine ensures_of_fact (fun s hs => hs.1) fun hloaded => ?_
    rw [if_pos hloaded]
    exact ensures_weaken (streams_takeBlock hk hpos (by omega) hend hroom) (fun _ hs => hs.2)
      fun _ _ hs => hs
  split
  · exact ensures_bind (ensures_weaken (streams_loadPage page) (fun _ hs => hs.1) fun _ _ hs => hs)
      hrest
  · rename_i hloaded
    have hloaded : bufIndex = page := by
      simpa using hloaded
    have hkept : Streams os content (fun s => Sending content p maxsize (2 ^ k) bufIndex waiting
        sent s ∧ s.1.ctx = ctx) (pure true : M Bool) fun loaded s =>
          loaded = true ∧ Sending content p maxsize (2 ^ k) page waiting sent s :=
      ensures_ret fun s hs => ⟨rfl, hloaded ▸ hs.1⟩
    exact ensures_bind hkept hrest

-- Nothing is cancelled.
theorem streams_getCancelReq :
    Streams os content (Sending content p maxsize cacheSize bufIndex waiting sent)
      (M.act .getCancelReq) fun cancelReq s => cancelReq = false ∧
        Sending content p maxsize cacheSize bufIndex waiting sent s :=
  ensures_perform fun _ hs hok =>
    ⟨hok, ⟨hs.room, hs.pages, hs.file, hs.page, hs.waiting, hs.sent⟩⟩

theorem streams_writeUsb (bytes : List UInt8) :
    Streams os content (Sending content p maxsize cacheSize bufIndex waiting sent)
      (writeUsb .bulkIn bytes) fun _ s =>
        Sending content p maxsize cacheSize bufIndex waiting (sent ++ bytes) s := by
  refine ensures_bind streams_getCancelReq fun cancelReq => ?_
  refine ensures_of_fact (fun s hs => hs.1) fun hcancel => ?_
  rw [hcancel]
  refine ensures_perform fun s hs _ => ?_
  have hsent : s.2.sent ++ bytes = sent ++ bytes := by rw [hs.2.sent]
  exact ⟨hs.2.room, hs.2.pages, hs.2.file, hs.2.page, hs.2.waiting, hsent⟩

-- Every turn sends what waits and a block, and all turns together the slice.
theorem streams_sendBlocks (hk : k ≤ 62) (hmax : maxsize < 2 ^ k) {offset n : Nat}
    (hend : offset + n ≤ content.length ∨ n = 0) (hov : offset + n < 2 ^ 63) {fuel j : Nat}
    (hj : j ≤ n) (hfuel : n - j < fuel) (hroom : waiting.length < maxsize) :
    Streams os content (Sending content p maxsize (2 ^ k) bufIndex waiting sent)
      (sendBlocks p offset n fuel j bufIndex waiting.length) fun done s => done = true ∧
        s.2.sent = sent ++ waiting ++ slice content (offset + j) (n - j) := by
  induction fuel generalizing j bufIndex waiting sent with
  | zero => omega
  | succ fuel ih =>
      unfold sendBlocks
      refine streams_getCtx_bind fun ctx => ?_
      have hfacts : ∀ s : World σ × Stream, Sending content p maxsize (2 ^ k) bufIndex waiting
          sent s ∧ s.1.ctx = ctx → ctx.usbWrBufferMaxSize = maxsize := fun s hs => hs.2 ▸ hs.1.room
      refine ensures_of_fact hfacts fun hsize => ?_
      dsimp only
      rw [hsize]
      obtain ⟨block, hblock, hsmall, hcases⟩ : ∃ block : Nat,
          (if (j : Int) + ((maxsize : Int) - waiting.length) < n
            then (maxsize : Int) - waiting.length else (n : Int) - j) = block ∧
          block < 2 ^ k ∧ (j + block = n ∨ 0 < block ∧ j + block < n) := by
        split
        · exact ⟨maxsize - waiting.length, by omega, by omega, by omega⟩
        · exact ⟨n - j, by omega, by omega, by omega⟩
      rw [hblock]
      have hposition : (offset : Int) + j = (offset + j : Nat) := by omega
      rw [hposition]
      refine ensures_bind (ensures_weaken (streams_fetchBlock hk (by omega) (by omega) hsmall)
        (fun _ hs => hs.1) fun _ _ hs => hs) fun got => ?_
      refine ensures_of_exists fun page => ?_
      refine ensures_of_fact (fun s hs => hs.1) fun hgot => ?_
      rw [hgot]
      have hsplit : slice content (offset + j) (n - j) = slice content (offset + j) block ++
          slice content (offset + (j + block)) (n - (j + block)) := by
        rw [← Nat.add_assoc, ← slice_add]
        congr 1
        omega
      have hnext : ∀ _ : Unit, Streams os content (Sending content p maxsize (2 ^ k) page []
          (sent ++ (waiting ++ slice content (offset + j) block))) (do
            let j := (j : Int) + block
            if j < n then
              let cancelReq ← M.act .getCancelReq
              if cancelReq then return true else sendBlocks p offset n fuel j page 0
            else
              return true) fun done s => done = true ∧
                s.2.sent = sent ++ waiting ++ slice content (offset + j) (n - j) := by
        intro _
        dsimp only
        split
        · rename_i hmore
          refine ensures_bind streams_getCancelReq fun cancelReq => ?_
          refine ensures_of_fact (fun s hs => hs.1) fun hcancel => ?_
          rw [hcancel]
          have hj' : (j : Int) + block = (j + block : Nat) := by omega
          rw [hj']
          refine ensures_weaken (ih (by omega) (by omega) (by simp; omega)) (fun _ hs => hs.2)
            fun done s hs => ⟨hs.1, ?_⟩
          rw [hs.2, hsplit]
          simp only [List.append_nil, List.append_assoc]
        · refine ensures_ret fun s hs => ⟨rfl, ?_⟩
          have hlast : n - j = block := by omega
          rw [hs.sent, hlast, List.append_assoc]
      refine ensures_bind (ensures_weaken streams_getCancelReq (fun s hs => hs.2)
        fun _ _ hs => hs) fun cancelReq => ?_
      refine ensures_of_fact (fun s hs => hs.1) fun hcancel => ?_
      rw [hcancel]
      exact ensures_bind (ensures_weaken (streams_writeUsb _) (fun _ hs => hs.2)
        fun _ _ hs => hs) hnext

-- Commands that leave the buffers and what was sent as they are.
def Cmd.IsAside : Cmd → Prop
  | getCtx | query _ | act .malloc | act (.open _ _ _) | act (.setfsuid _) | act (.setfsgid _)
  | act (.fsync _) | act (.close _) | act .lockCancelMutex | act .unlockCancelMutex
  | db (.setFileDescriptor _ _) | setTransferringFileData _ => True
  | _ => False

theorem isAside_opens : Opens Cmd.IsAside where
  getCtx := trivial
  query _ := trivial
  malloc := trivial
  openFile _ _ _ := trivial
  setfsuid _ := trivial
  setfsgid _ := trivial
  setFileDescriptor _ _ := trivial

-- The header of the container waits in the write buffer.
structure Prepared (maxsize cacheSize : Nat) (waiting sent : List UInt8)
    (s : World σ × Stream) : Prop where
  room : s.1.ctx.usbWrBufferMaxSize = maxsize
  pages : s.1.ctx.readFileBufferSize = cacheSize
  waiting : s.1.ctx.wrbuffer.read 0 waiting.length = waiting
  sent : s.2.sent = sent

theorem Prepared.aside {c : Cmd} (hc : c.IsAside) {s : World σ × Stream}
    (hs : Prepared maxsize cacheSize waiting sent s) :
    Prepared maxsize cacheSize waiting sent (stream os c s).2 := by
  cases c with
  | act a => cases a <;> first | exact hc.elim | exact ⟨hs.room, hs.pages, hs.waiting, hs.sent⟩
  | db op => cases op <;> first | exact hc.elim | exact ⟨hs.room, hs.pages, hs.waiting, hs.sent⟩
  | _ => first | exact hc.elim | exact ⟨hs.room, hs.pages, hs.waiting, hs.sent⟩

theorem Prepared.exec {prog : M α} (hp : Uses AnyAnswer Cmd.IsAside prog) {s : World σ × Stream}
    (hs : Prepared maxsize cacheSize waiting sent s) :
    Prepared maxsize cacheSize waiting sent (exec (stream os) prog s).2 := by
  have hv : Valid (stream os) (fun _ _ => True) (Prepared maxsize cacheSize waiting sent) prog
      fun _ s => True ∧ Prepared maxsize cacheSize waiting sent s :=
    valid_of_runs hp fun s c hs hc => ⟨trivial, trivial, hs.aside hc⟩
  exact (hv s hs).2.2

end Blocks

-- `entry_open` answers the descriptor it leaves in the entry.
theorem exec_entryOpen {σ : Type} (os : Os σ) (p : EntryPtr) (flags : OpenFlags) (w : World σ) :
    (exec (World.handle os) (entryOpen p flags) w).1 =
      ((exec (World.handle os) (entryOpen p flags) w).2.ctx.entry p).fileDescriptor := by
  unfold entryOpen
  rw [exec_getCtx_bind]
  split
  · rfl
  · rw [bind_eq, exec_bind]
    dsimp only
    split
    · rw [bind_eq, exec_bind]
      split
      · rw [bind_eq, exec_bind, bind_eq, exec_bind, bind_eq, exec_bind]
        rfl
      · rw [bind_eq, exec_bind]
        rfl
    · rfl

-- The first part of `sendFileData`: the header is completed and the file opened.
-- -1 stands for a failure.
def openToSend (p : EntryPtr) (offset maxsize : Int) : M Int := do
  if ← allocReadFileBuffer then
    let ctx ← M.getCtx
    M.cmd (.setWrbuffer (poke32 ctx.usbWrBufferMaxSize
      (containerLength (actualSize (ctx.entry p).size offset maxsize)) (ctx.wrbuffer, 0)).1)
    entryOpen p .readOnly
  else
    return -1

section Slicing

variable {σ : Type} {os : Os σ} {p : EntryPtr}

theorem exec_stream {α : Type} (prog : M α) (s : World σ × Stream) :
    (exec (stream os) prog s).1 = (exec (World.handle os) prog s.1).1 ∧
      (exec (stream os) prog s).2.1 = (exec (World.handle os) prog s.1).2 :=
  exec_observe _ prog s

-- The size of the read cache and everything else but the cache itself stays.
theorem exec_allocReadFileBuffer (s : World σ × Stream) :
    ∃ buffer, (exec (stream os) allocReadFileBuffer s).2.1.ctx =
        { s.1.ctx with readFileBuffer := buffer } ∧
      (exec (stream os) allocReadFileBuffer s).2.2 = s.2 := by
  have hctx : (exec (stream os) M.getCtx s) = (s.1.ctx, s) := rfl
  unfold allocReadFileBuffer
  rw [bind_eq, exec_bind, hctx]
  dsimp only
  split
  · rw [bind_eq, exec_bind]
    split
    · exact ⟨_, rfl, rfl⟩
    · exact ⟨s.1.ctx.readFileBuffer, rfl, rfl⟩
  · exact ⟨s.1.ctx.readFileBuffer, rfl, rfl⟩

variable {content sent : List UInt8} {α : Type}

theorem stream_aside {c : Cmd} (hc : c.IsAside) (s : World σ × Stream) :
    (stream os c s).2.2 = s.2 := by
  cases c with
  | act a => cases a <;> first | exact hc.elim | rfl
  | _ => first | exact hc.elim | rfl

theorem streams_aside {prog : M α} (hp : Uses AnyAnswer Cmd.IsAside prog) :
    Streams os content (fun s => s.2.sent = sent) prog fun _ s => s.2.sent = sent :=
  ensures_weaken (ensures_of_runs (I := fun s => s.2.sent = sent) hp fun s c hs hc _ =>
    ⟨trivial, by rw [stream_aside hc, hs]⟩) (fun _ hs => hs) fun _ _ hs => hs.2

theorem aside_entryClose (entry : Option EntryPtr) :
    Uses AnyAnswer Cmd.IsAside (entryClose entry) := by
  have hclose : ∀ file, Uses AnyAnswer Cmd.IsAside (M.act (.close file)) :=
    fun _ => uses_act_of trivial
  have hfsync : ∀ file, Uses AnyAnswer Cmd.IsAside (M.act (.fsync file)) :=
    fun _ => uses_act_of trivial
  have hset : ∀ p, Uses AnyAnswer Cmd.IsAside (M.db_ (.setFileDescriptor p (-1))) :=
    fun _ => uses_db_ trivial
  unfold entryClose
  split
  · refine isAside_opens.getCtx_bind fun ctx => ?_
    grind
  · exact uses_pure _

-- A packet of length zero adds nothing.
theorem streams_checkAndSendUsbZlp (size : Int) :
    Streams os content (fun s => s.2.sent = sent) (checkAndSendUsbZlp size) fun _ s =>
      s.2.sent = sent := by
  refine streams_getCtx_bind fun ctx => ?_
  split
  · have hcancel : Streams os content (fun s => s.2.sent = sent ∧ s.1.ctx = ctx)
        (M.act .getCancelReq) fun _ s => s.2.sent = sent := ensures_perform fun _ hs _ => hs.1
    refine ensures_bind hcancel fun cancelReq => ?_
    split
    · exact ensures_ret fun _ hs => hs
    · refine ensures_perform fun s hs _ => ?_
      have hsent : s.2.sent ++ [] = sent := by rw [List.append_nil, hs]
      exact hsent
  · exact ensures_ret fun _ hs => hs.1

theorem streams_endTransfer (actualsize : Int) :
    Streams os content (fun s => s.2.sent = sent) (endTransfer actualsize) fun result s =>
      result = actualsize ∧ s.2.sent = sent := by
  refine ensures_bind (streams_aside (uses_act_of trivial)) fun locked => ?_
  split
  · have hcancel : Streams os content (fun s => s.2.sent = sent) (M.act .getCancelReq)
        fun cancelReq s => cancelReq = false ∧ s.2.sent = sent :=
      ensures_perform fun _ hs hok => ⟨hok, hs⟩
    refine ensures_bind hcancel fun cancelReq => ?_
    refine ensures_of_fact (fun s hs => hs.1) fun hno => ?_
    rw [hno]
    refine ensures_weaken (ensures_bind (streams_checkAndSendUsbZlp _) fun _ =>
      ensures_bind (streams_aside (uses_bind (uses_act_of trivial) fun _ => uses_pure _)) fun _ =>
        ensures_ret fun _ hs => ⟨rfl, hs⟩) (fun _ hs => hs.2) fun _ _ hs => hs
  · exact ensures_ret fun _ hs => ⟨rfl, hs⟩

-- The rest of `sendFileData`: the blocks, the end of the file and the end of the
-- transfer.
def transferFile (p : EntryPtr) (offset actualsize : Int) : M Int := do
  M.cmd (.setTransferringFileData true)
  if ← sendBlocks p offset actualsize (blockFuel actualsize) 0 (-1) MTP_HEADER_SIZE then
    M.cmd (.setTransferringFileData false)
    entryClose (some p)
    endTransfer actualsize
  else
    return -1

theorem streams_transferFile {maxsize k : Nat} (hk : k ≤ 62) (hmax : maxsize < 2 ^ k)
    {offset n : Nat} (hend : offset + n ≤ content.length ∨ n = 0) (hov : offset + n < 2 ^ 63)
    {waiting : List UInt8} (hheader : waiting.length = MTP_HEADER_SIZE)
    (hroom : waiting.length < maxsize) :
    Streams os content (Sending content p maxsize (2 ^ k) (-1) waiting sent)
      (transferFile p offset n) fun result s =>
        result = n ∧ s.2.sent = sent ++ waiting ++ slice content offset n := by
  have hstart : Streams os content (Sending content p maxsize (2 ^ k) (-1) waiting sent)
      (M.cmd (.setTransferringFileData true)) fun _ s =>
        Sending content p maxsize (2 ^ k) (-1) waiting sent s :=
    ensures_perform fun _ hs _ => ⟨hs.room, hs.pages, hs.file, hs.page, hs.waiting, hs.sent⟩
  have hblocks := @streams_sendBlocks _ os _ p _ (-1) _ sent _ hk hmax _ _ hend hov (blockFuel n) 0
    (by omega) (by rw [blockFuel]; omega) hroom
  have hcmd : Uses AnyAnswer Cmd.IsAside (M.cmd (.setTransferringFileData false)) :=
    uses_cmd trivial
  unfold transferFile
  rw [← hheader]
  refine ensures_bind hstart fun _ => ensures_bind hblocks fun done => ?_
  refine ensures_of_fact (fun s hs => hs.1) fun hdone => ?_
  rw [if_pos hdone]
  exact ensures_weaken (ensures_bind (streams_aside hcmd) fun _ =>
    ensures_bind (streams_aside (aside_entryClose _)) fun _ => streams_endTransfer _)
      (fun _ hs => hs.2) fun _ _ hs => hs

-- The length is put in the header, in the state that `allocReadFileBuffer` leaves.
def putLength (p : EntryPtr) (offset maxsize : Int) (s : World σ × Stream) : World σ × Stream :=
  (⟨{ s.1.ctx with wrbuffer := (poke32 s.1.ctx.usbWrBufferMaxSize
    (containerLength (actualSize (s.1.ctx.entry p).size offset maxsize)) (s.1.ctx.wrbuffer, 0)).1 },
    s.1.os⟩, s.2)

variable {offset maxsize : Int} {s : World σ × Stream}

theorem alloc_of_openToSend
    (hopen : (exec (World.handle os) (openToSend p offset maxsize) s.1).1 ≠ -1) :
    (exec (stream os) allocReadFileBuffer s).1 = true := by
  by_contra hno
  refine hopen ?_
  rw [← (exec_stream _ _).1, openToSend, bind_eq, exec_bind, if_neg hno]
  rfl

theorem exec_openToSend (hmem : (exec (stream os) allocReadFileBuffer s).1 = true) :
    exec (stream os) (openToSend p offset maxsize) s = exec (stream os) (entryOpen p .readOnly)
      (putLength p offset maxsize (exec (stream os) allocReadFileBuffer s).2) := by
  rw [openToSend, bind_eq, exec_bind, hmem]
  rfl

-- A file that opens is transferred.
theorem ensures_sendFileData {ok : World σ × Stream → Cmd → Prop}
    {Q : Int → World σ × Stream → Prop}
    (hopen : (exec (World.handle os) (openToSend p offset maxsize) s.1).1 ≠ -1)
    (hrest : Ensures (stream os) ok (· = (exec (stream os) (openToSend p offset maxsize) s).2)
      (transferFile p offset (actualSize (s.1.ctx.entry p).size offset maxsize)) Q) :
    Ensures (stream os) ok (· = s) (sendFileData p offset maxsize) Q := by
  have hmem := alloc_of_openToSend hopen
  obtain ⟨buffer, hctx, -⟩ := @exec_allocReadFileBuffer _ os s
  rw [← (exec_stream _ _).1, exec_openToSend hmem] at hopen
  rw [exec_openToSend hmem] at hrest
  unfold sendFileData
  refine ensures_bind_at ?_
  rw [hmem]
  generalize (exec (stream os) allocReadFileBuffer s).2 = s' at hctx hopen hrest ⊢
  have hentry : (s'.1.ctx.entry p).size = (s.1.ctx.entry p).size := by
    rw [hctx]
    rfl
  refine ensures_bind_at ?_
  have hget : exec (stream os) M.getCtx s' = (s'.1.ctx, s') := rfl
  rw [hget]
  dsimp only
  have hput : exec (stream os) (M.cmd (.setWrbuffer (poke32 s'.1.ctx.usbWrBufferMaxSize
      (containerLength (actualSize (s'.1.ctx.entry p).size offset maxsize))
        (s'.1.ctx.wrbuffer, 0)).1)) s' = ((), putLength p offset maxsize s') := rfl
  refine ensures_bind_at ?_
  rw [hput]
  refine ensures_bind_at ?_
  rw [if_pos hopen, hentry]
  exact hrest

-- The header waits in the write buffer when the file is open.
theorem prepared_openToSend {header : List UInt8}
    (hheader : (poke32 s.1.ctx.usbWrBufferMaxSize (containerLength
      (actualSize (s.1.ctx.entry p).size offset maxsize)) (s.1.ctx.wrbuffer, 0)).1.read 0
        header.length = header)
    (hopen : (exec (World.handle os) (openToSend p offset maxsize) s.1).1 ≠ -1) :
    Prepared s.1.ctx.usbWrBufferMaxSize s.1.ctx.readFileBufferSize header s.2.sent
        (exec (stream os) (openToSend p offset maxsize) s).2 ∧
      ((exec (stream os) (openToSend p offset maxsize) s).2.1.ctx.entry p).fileDescriptor ≠ -1 := by
  have hmem := alloc_of_openToSend hopen
  obtain ⟨buffer, hctx, hstream⟩ := @exec_allocReadFileBuffer _ os s
  have hput : Prepared s.1.ctx.usbWrBufferMaxSize s.1.ctx.readFileBufferSize header s.2.sent
      (putLength p offset maxsize (exec (stream os) allocReadFileBuffer s).2) := by
    refine ⟨?_, ?_, ?_, ?_⟩
    · rw [putLength, hctx]
    · rw [putLength, hctx]
    · rw [putLength, hctx]
      exact hheader
    · rw [putLength, hstream]
  rw [← (exec_stream _ _).1, exec_openToSend hmem] at hopen
  rw [exec_openToSend hmem]
  refine ⟨hput.exec (isAside_opens.entryOpen p .readOnly), ?_⟩
  rwa [(exec_stream _ _).1, exec_entryOpen, ← (exec_stream _ _).2] at hopen

-- A value close to the range of an int64_t, and its place in the range.
theorem wrapInt64_cases {x : Int} (hlow : -(2 ^ 64) ≤ x) (hhigh : x < 2 ^ 64) :
    -(2 ^ 63) ≤ x ∧ x < 2 ^ 63 ∧ wrapInt64 x = x ∨
      2 ^ 63 ≤ x ∧ wrapInt64 x = x - 2 ^ 64 ∨ x < -(2 ^ 63) ∧ wrapInt64 x = x + 2 ^ 64 := by
  rw [wrapInt64, BitVec.toInt_ofInt, Int.bmod_def]
  by_cases hneg : x < 0
  · have hmod : x % ((2 ^ 64 : Nat) : Int) = x + 2 ^ 64 ∨ x = -(2 ^ 64) ∧
        x % ((2 ^ 64 : Nat) : Int) = 0 := by omega
    omega
  · have hmod : x % ((2 ^ 64 : Nat) : Int) = x := Int.emod_eq_of_lt (by omega) (by omega)
    omega

theorem actualSize_eq {fileSize offset maxsize n : Nat} (hn : n = min maxsize (fileSize - offset))
    (hov : offset + maxsize < 2 ^ 63) : actualSize fileSize offset maxsize = n := by
  have hsum := @wrapInt64_cases (offset + maxsize : Int) (by omega) (by omega)
  rw [actualSize]
  split
  · omega
  split
  · have hdiff := @wrapInt64_cases (fileSize - offset : Int) (by omega) (by omega)
    omega
  · omega

theorem containerLength_eq {n : Nat} (hn : n < 2 ^ 63) :
    containerLength n = min (MTP_HEADER_SIZE + n) 0xFFFFFFFF := by
  have hheader : MTP_HEADER_SIZE = 12 := rfl
  have hmod : ((MTP_HEADER_SIZE : Int) + n) % 2 ^ 64 = MTP_HEADER_SIZE + n :=
    Int.emod_eq_of_lt (by omega) (by omega)
  rw [containerLength, hmod, u32]
  split
  · omega
  · have hsmall : ((MTP_HEADER_SIZE : Int) + n) % 2 ^ 32 = MTP_HEADER_SIZE + n :=
      Int.emod_eq_of_lt (by omega) (by omega)
    omega

-- The header as `sendFileData` completes it: its length, and what the caller has
-- put behind it.
def dataHeader (ctx : MtpCtx) (n : Int) : List UInt8 :=
  littleEndian 4 (containerLength n) ++ ctx.wrbuffer.read 4 8

theorem length_dataHeader (ctx : MtpCtx) (n : Int) :
    (dataHeader ctx n).length = MTP_HEADER_SIZE := by
  rw [dataHeader, List.length_append, length_littleEndian, Buffer.length_read]
  rfl

theorem read_dataHeader (ctx : MtpCtx) (n : Int)
    (hroom : MTP_HEADER_SIZE < ctx.usbWrBufferMaxSize) :
    (poke32 ctx.usbWrBufferMaxSize (containerLength n) (ctx.wrbuffer, 0)).1.read 0
      (dataHeader ctx n).length = dataHeader ctx n := by
  have hheader : MTP_HEADER_SIZE = 12 := rfl
  have hlen := length_littleEndian 4 (containerLength n)
  have hpoke : (poke32 ctx.usbWrBufferMaxSize (containerLength n) (ctx.wrbuffer, 0)).1 =
      ctx.wrbuffer.write 0 (littleEndian 4 (containerLength n)) := by
    rw [poke32, pokeBytes, hlen, if_neg (by omega), if_neg (by omega)]
    rfl
  have hself := Buffer.read_write_self ctx.wrbuffer 0 (littleEndian 4 (containerLength n))
  rw [hlen] at hself
  have hsplit : ∀ buffer : Buffer, buffer.read 0 MTP_HEADER_SIZE =
      buffer.read 0 4 ++ buffer.read 4 8 := fun buffer => buffer.read_add 0 4 8
  rw [hpoke, length_dataHeader, hsplit, hself, Buffer.read_write_of_ge _ (by omega)]
  rfl

-- The same for a length that fits 64 bits.
def sentHeader (ctx : MtpCtx) (n : Nat) : List UInt8 :=
  littleEndian 4 (min (MTP_HEADER_SIZE + n) 0xFFFFFFFF) ++ ctx.wrbuffer.read 4 8

theorem dataHeader_eq (ctx : MtpCtx) {n : Nat} (hn : n < 2 ^ 63) :
    dataHeader ctx n = sentHeader ctx n := by
  rw [dataHeader, containerLength_eq hn, sentHeader]

-- What is sent is the header and the bytes of the file from the offset on, no
-- more than asked for and than there are. The header has the length of both, or
-- its largest value.
theorem streaming_is_slicing (os : Os σ) (w : World σ) (p : EntryPtr) (content : List UInt8)
    (offset maxsize : Int) (k : Nat) (_hpacket : 0 < w.ctx.maxPacketSize)
    (hsize : (w.ctx.entry p).size = content.length) (hoffset : 0 ≤ offset)
    (hmaxsize : 0 ≤ maxsize) (hov : offset + maxsize < 2 ^ 63)
    (hwrite : 512 ≤ w.ctx.usbWrBufferMaxSize) (hcache : w.ctx.readFileBufferSize = 2 ^ k)
    (hlarge : w.ctx.usbWrBufferMaxSize < w.ctx.readFileBufferSize)
    (hint : w.ctx.readFileBufferSize < 2 ^ 31)
    (hopen : (exec (World.handle os) (openToSend p offset maxsize) w).1 ≠ -1)
    (hserved : Safe (stream os) (Served os content) (sendFileData p offset maxsize)
      (w, noStream)) :
    let n := (max 0 (min maxsize (content.length - offset))).toNat
    (exec (stream os) (sendFileData p offset maxsize) (w, noStream)).2.2.sent =
        sentHeader w.ctx n ++ slice content offset.toNat n ∧
      (exec (World.handle os) (sendFileData p offset maxsize) w).1 = n := by
  intro n
  obtain ⟨offset, rfl⟩ := Int.eq_ofNat_of_zero_le hoffset
  obtain ⟨maxsize, rfl⟩ := Int.eq_ofNat_of_zero_le hmaxsize
  have hheader : MTP_HEADER_SIZE = 12 := rfl
  have hn : n = min maxsize (content.length - offset) := by omega
  have hsmall : k ≤ 62 := by
    by_contra hbig
    have hpow : 2 ^ 63 ≤ 2 ^ k := Nat.pow_le_pow_right (by decide) (by omega)
    omega
  have hactual : actualSize (w.ctx.entry p).size offset maxsize = n := by
    rw [hsize, actualSize_eq hn (by omega)]
  have hheader : (poke32 w.ctx.usbWrBufferMaxSize (containerLength
      (actualSize (w.ctx.entry p).size offset maxsize)) (w.ctx.wrbuffer, 0)).1.read 0
        (sentHeader w.ctx n).length = sentHeader w.ctx n := by
    rw [hactual, ← dataHeader_eq w.ctx (by omega)]
    exact read_dataHeader w.ctx n (by omega)
  obtain ⟨hprepared, hfile⟩ := @prepared_openToSend _ os _ _ _ ((w, noStream)) _ hheader hopen
  suffices hstream : Streams os content (· = (w, noStream)) (sendFileData p offset maxsize)
      fun result s => result = n ∧ s.2.sent = sentHeader w.ctx n ++ slice content offset n by
    obtain ⟨hresult, hsent⟩ := hstream _ rfl hserved
    exact ⟨hsent, (exec_stream _ _).1.symm.trans hresult⟩
  refine ensures_sendFileData hopen ?_
  rw [hactual]
  have hlen : (sentHeader w.ctx n).length = MTP_HEADER_SIZE := by
    rw [← dataHeader_eq w.ctx (by omega), length_dataHeader]
  have hroom : (sentHeader w.ctx n).length < w.ctx.usbWrBufferMaxSize := by
    rw [hlen]
    omega
  have hsending := @streams_transferFile _ os p content ([]) _ _ hsmall (hcache ▸ hlarge) offset n
    (by omega) (by omega) (sentHeader w.ctx n) hlen hroom
  refine ensures_weaken hsending ?_ fun _ _ hs => hs
  rintro _ rfl
  exact ⟨hprepared.room, hprepared.pages.trans hcache, hfile, Or.inl rfl, hprepared.waiting,
    hprepared.sent⟩

end Slicing

section Samples

instance {σ : Type} (os : Os σ) (content : List UInt8) (s : World σ × Stream) (c : Cmd) :
    Decidable (Served os content s c) := by
  unfold Served
  split <;> infer_instance

-- The sizes of the buffers, in the proportion that the build configuration asks for.
def smallBuffers : World MemSystem :=
  { twoStorages with ctx := { twoStorages.ctx with
      usbWrBufferMaxSize := 512, readFileBufferSize := 1024 } }

-- The file "/a/f" is listed.
def listedFile : World MemSystem :=
  run (World.step memOs) smallBuffers [openSession, getObjectHandles FIRST_STORAGE_ID 0]

def fileEntry : EntryPtr := (listedFile.ctx.getEntryByHandle 1).getD ⟨0, 0⟩

theorem streaming_is_slicing_sample :
    (exec (stream memOs) (sendFileData fileEntry 1 10) (listedFile, noStream)).2.2.sent =
        sentHeader listedFile.ctx 2 ++ [2, 3] ∧
      (exec (World.handle memOs) (sendFileData fileEntry 1 10) listedFile).1 = 2 := by
  have hslicing := streaming_is_slicing memOs listedFile fileEntry [1, 2, 3] 1 10 10
    (by decide +kernel) (by decide +kernel) (by decide) (by decide) (by decide)
    (by decide +kernel) (by decide +kernel) (by decide +kernel) (by decide +kernel)
    (by decide +kernel)
    (fun step hm => by
      revert step
      decide +kernel)
  exact hslicing

end Samples

end Umtp
