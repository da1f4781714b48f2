import Umtp.Lib.Patch
import Umtp.FileReads

namespace Umtp

open Lib Lib.Prog Handles

-- What the next reads of the endpoint give and what the next writes to the file
-- take, and the file that an upload goes to: the bytes put to it, its content and
-- the position in it.
structure Intake where
  reads : List (Option (List UInt8))
  takes : List Int
  written : List UInt8
  content : List UInt8
  position : Nat
deriving DecidableEq

-- `seeks` tells the offsets that lseek accepts. It leaves the position for the
-- others.
def noteIntake (seeks : Int → Bool) : (c : Cmd) → c.Ans → Intake → Intake
  | .act (.open _ _ flags), file, g =>
    if file = -1 then g
    else { g with content := if flags = .createTruncate then [] else g.content, position := 0 }
  | .act (.lseekSet _ offset), _, g =>
    if seeks offset then { g with position := offset.toNat } else g
  | .act (.lseekEnd _), _, g => { g with position := g.content.length }
  | .act (.write _ _ bytes), written, g =>
    let put := bytes.take written.toNat
    { g with
      takes := g.takes.tail
      written := g.written ++ put
      content := patch 0 g.content g.position put
      position := g.position + put.length }
  | .act (.readUsb _), _, g => { g with reads := g.reads.tail }
  | _, _, g => g

def intake {σ : Type} (os : Os σ) (seeks : Int → Bool) : Handler Cmd Cmd.Ans (World σ × Intake) :=
  observe (World.handle os) fun c _ ans g => noteIntake seeks c ans g

-- The reads and the writes are answered in order, there are no more reads than the
-- host still sends, the end of the file is where its content ends, nothing is
-- cancelled and the mutex is released.
def Delivers {σ : Type} (os : Os σ) (s : World σ × Intake) : Cmd → Prop
  | .act .getCancelReq => (os.act .getCancelReq s.1.os).1 = false
  | .act .unlockInotifyMutex => (os.act .unlockInotifyMutex s.1.os).1 = true
  | .act (.readUsb maxsize) => s.2.reads.head? = some (os.act (.readUsb maxsize) s.1.os).1
  | .act (.write storageId file bytes) =>
    s.2.takes.head? = some (os.act (.write storageId file bytes) s.1.os).1
  | .act (.lseekEnd file) => (os.act (.lseekEnd file) s.1.os).1 = s.2.content.length
  | .query .usbBacklog => s.2.reads.countP Option.isSome ≤ os.query .usbBacklog s.1.os
  | _ => True

-- What the writes put of the pieces that they are given, and that this is all.
def taken : (takes : List Int) → (pieces : List (List UInt8)) → List UInt8
  | _, [] => []
  | takes, piece :: pieces => piece.take (takes.headD 0).toNat ++ taken takes.tail pieces

def TakesWhole : (takes : List Int) → (pieces : List (List UInt8)) → Prop
  | _, [] => True
  | takes, piece :: pieces => piece.length ≤ (takes.headD 0).toNat ∧ TakesWhole takes.tail pieces

theorem taken_append (takes : List Int) (pieces more : List (List UInt8)) :
    taken takes (pieces ++ more) = taken takes pieces ++ taken (takes.drop pieces.length) more := by
  induction pieces generalizing takes with
  | nil => rfl
  | cons piece pieces ih =>
      rw [List.cons_append, taken, taken, ih, List.append_assoc, List.length_cons,
        List.drop_tail]

theorem length_taken_le (takes : List Int) (pieces : List (List UInt8)) :
    (taken takes pieces).length ≤ pieces.flatten.length := by
  induction pieces generalizing takes with
  | nil => exact Nat.le_refl _
  | cons piece pieces ih =>
      have hrest := ih takes.tail
      rw [taken, List.flatten_cons, List.length_append, List.length_append, List.length_take]
      omega

-- Nothing is missing when every write takes its piece whole, and only then.
theorem taken_eq_iff {takes : List Int} {pieces : List (List UInt8)} :
    taken takes pieces = pieces.flatten ↔ TakesWhole takes pieces := by
  induction pieces generalizing takes with
  | nil => exact iff_of_true rfl trivial
  | cons piece pieces ih =>
      have hle := length_taken_le takes.tail pieces
      rw [taken, List.flatten_cons, TakesWhole]
      constructor
      · intro h
        have hlen := congrArg List.length h
        rw [List.length_append, List.length_append, List.length_take] at hlen
        have hwhole : piece.length ≤ (takes.headD 0).toNat := by omega
        rw [List.take_of_length_le hwhole] at h
        exact ⟨hwhole, ih.mp (List.append_cancel_left h)⟩
      · rintro ⟨hwhole, hrest⟩
        rw [List.take_of_length_le hwhole, ih.mpr hrest]

-- The pieces were written to the file.
structure Puts (g g' : Intake) (pieces : List (List UInt8)) : Prop where
  takes : g'.takes = g.takes.drop pieces.length
  written : g'.written = g.written ++ taken g.takes pieces
  content : g'.content = patch 0 g.content g.position (taken g.takes pieces)
  position : g'.position = g.position + (taken g.takes pieces).length

theorem Puts.refl (g : Intake) : Puts g g [] :=
  ⟨rfl, (List.append_nil _).symm, rfl, rfl⟩

theorem Puts.trans {g g' g'' : Intake} {pieces more : List (List UInt8)} (h : Puts g g' pieces)
    (h' : Puts g' g'' more) : Puts g g'' (pieces ++ more) := by
  have hboth : taken g.takes (pieces ++ more) = taken g.takes pieces ++ taken g'.takes more := by
    rw [taken_append, h.takes]
  refine ⟨?_, ?_, ?_, ?_⟩
  · rw [h'.takes, h.takes, List.drop_drop, List.length_append]
  · rw [h'.written, h.written, hboth, List.append_assoc]
  · rw [h'.content, h.content, h.position, patch_patch, hboth]
  · rw [h'.position, h.position, hboth, List.length_append, Nat.add_assoc]

-- The blocks that the loop reads, up to the first that is not a full one or fails,
-- and the reads that come later.
def readBlocks (maxsize : Nat) :
    List (Option (List UInt8)) → List (List UInt8) × List (Option (List UInt8))
  | some block :: later =>
    if block.length = maxsize then
      (block :: (readBlocks maxsize later).1, (readBlocks maxsize later).2)
    else ([block], later)
  | none :: later => ([], later)
  | [] => ([], [])

section Blocks

variable {σ α : Type} {os : Os σ} {seeks : Int → Bool} {p : EntryPtr} {file : Int}
  {maxsize : Nat} {g : Intake} {pieces : List (List UInt8)}
  {reads : List (Option (List UInt8))}

-- What every system does that delivers the container.
abbrev Takes (os : Os σ) (seeks : Int → Bool) (P : World σ × Intake → Prop) (prog : M α)
    (Q : α → World σ × Intake → Prop) : Prop :=
  Ensures (intake os seeks) (Delivers os) P prog Q

-- The pieces were put to the file since `g`, and the reads are still to come.
structure Receiving (maxsize : Nat) (g : Intake) (pieces : List (List UInt8))
    (reads : List (Option (List UInt8))) (s : World σ × Intake) : Prop where
  room : s.1.ctx.usbRdBufferMaxSize = maxsize
  session : s.1.ctx.fsDb.isSome = true
  reads : s.2.reads = reads
  puts : Puts g s.2 pieces

theorem takes_getCtx_bind {P : World σ × Intake → Prop} {f : MtpCtx → M α}
    {Q : α → World σ × Intake → Prop}
    (hf : ∀ ctx, Takes os seeks (fun s => P s ∧ s.1.ctx = ctx) (f ctx) Q) :
    Takes os seeks P (M.getCtx >>= f) Q :=
  ensures_bind (ensures_perform fun _ hs _ => ⟨hs, rfl⟩) hf

theorem takes_getCancelReq {P : World σ × Intake → Prop}
    (hP : ∀ s os', P s → P (⟨s.1.ctx, os'⟩, s.2)) :
    Takes os seeks P (M.act .getCancelReq) fun cancelReq s => cancelReq = false ∧ P s :=
  ensures_perform fun s hs hok => ⟨hok, hP s _ hs⟩

-- One write.
theorem puts_write {g : Intake} {written : Int} (htakes : g.takes.head? = some written)
    (storageId : Nat) (file : Int) (piece : List UInt8) :
    Puts g (noteIntake seeks (.act (.write storageId file piece)) written g) [piece] := by
  have hput : taken g.takes [piece] = piece.take written.toNat := by
    rw [taken, taken, List.append_nil, List.headD_eq_head?_getD, htakes]
    rfl
  refine ⟨List.drop_one.symm, ?_, ?_, ?_⟩
  · rw [hput]
    rfl
  · rw [hput]
    rfl
  · rw [hput]
    rfl

theorem takes_writePayload (piece : List UInt8) {n : Int} :
    Takes os seeks (fun s => Receiving maxsize g pieces reads s ∧ s.1.ctx.sendObjInfoSize = n)
      (writePayload p file piece) fun _ s => Receiving maxsize g (pieces ++ [piece]) reads s ∧
        s.1.ctx.sendObjInfoSize = n - piece.length := by
  refine takes_getCtx_bind fun ctx => ?_
  have hwrite : Takes os seeks (fun s => (Receiving maxsize g pieces reads s ∧
      s.1.ctx.sendObjInfoSize = n) ∧ s.1.ctx = ctx)
      (M.act (.write (ctx.entry p).storageId file piece)) fun _ s =>
        Receiving maxsize g (pieces ++ [piece]) reads s ∧ ctx.sendObjInfoSize = n :=
    ensures_perform fun s hs hok => ⟨⟨hs.1.1.room, hs.1.1.session, hs.1.1.reads,
      hs.1.1.puts.trans (@puts_write seeks s.2 _ hok (ctx.entry p).storageId file piece)⟩,
        hs.2 ▸ hs.1.2⟩
  refine ensures_bind hwrite fun _ => ensures_perform fun s hs _ =>
    ⟨⟨hs.1.room, hs.1.session, hs.1.reads, hs.1.puts⟩, ?_⟩
  rw [← hs.2]
  rfl

-- The loop ends behind the first read that is not full.
theorem takes_receiveBlocks {fuel : Nat} {sz : Int} (hfuel : reads.countP Option.isSome < fuel) :
    Takes os seeks (Receiving maxsize g pieces reads) (receiveBlocks p file fuel sz) fun _ s =>
      sz ≠ maxsize ∧ Receiving maxsize g pieces reads s ∨ sz = maxsize ∧
        Receiving maxsize g (pieces ++ (readBlocks maxsize reads).1) (readBlocks maxsize reads).2
          s := by
  induction fuel generalizing sz pieces reads with
  | zero => omega
  | succ fuel ih =>
      refine takes_getCtx_bind fun ctx => ?_
      refine ensures_of_fact (fun s hs => hs.2 ▸ hs.1.room) fun hroom => ?_
      rw [hroom]
      split
      · rename_i hfull
        refine ensures_bind (ensures_weaken (takes_getCancelReq
          (P := Receiving maxsize g pieces reads) fun s os' hs =>
            ⟨hs.room, hs.session, hs.reads, hs.puts⟩) (fun s hs => hs.1) fun _ _ hs => hs)
          fun cancelReq => ?_
        refine ensures_of_fact (fun s hs => hs.1) fun hno => ?_
        rw [hno, if_neg (by decide)]
        have hread : Takes os seeks (fun s => false = false ∧ Receiving maxsize g pieces reads s)
            (M.act (.readUsb maxsize)) fun got s => reads.head? = some got ∧
              Receiving maxsize g pieces reads.tail s := by
          refine ensures_perform fun s hs hok => ?_
          have hhead : s.2.reads.head? = some (os.act (.readUsb maxsize) s.1.os).1 := hok
          have htail : s.2.reads.tail = reads.tail := by rw [hs.2.reads]
          rw [hs.2.reads] at hhead
          have hputs : Puts g (intake os seeks (.act (.readUsb maxsize)) s).2.2 pieces :=
            ⟨hs.2.puts.takes, hs.2.puts.written, hs.2.puts.content, hs.2.puts.position⟩
          exact ⟨hhead, hs.2.room, hs.2.session, htail, hputs⟩
        refine ensures_bind hread fun got => ?_
        refine ensures_of_fact (fun s hs => hs.1) fun hhead => ?_
        obtain ⟨later, rfl⟩ := List.head?_eq_some_iff.mp hhead
        cases got with
        | none =>
            refine ensures_ret fun s hs => Or.inr ⟨hfull, ?_⟩
            rw [readBlocks, List.append_nil]
            exact hs.2
        | some block =>
            have hcount : later.countP Option.isSome < fuel := by
              rw [List.countP_cons_of_pos rfl] at hfuel
              omega
            refine takes_getCtx_bind fun ctx' => ?_
            have hstore : Takes os seeks (fun s => ((some block :: later).head? =
                some (some block) ∧ Receiving maxsize g pieces later s) ∧ s.1.ctx = ctx')
                (M.cmd (.setRdbuffer2 (ctx'.rdbuffer2.write 0 block))) fun _ s =>
                  Receiving maxsize g pieces later s ∧
                    s.1.ctx.sendObjInfoSize = ctx'.sendObjInfoSize :=
              ensures_perform fun s hs _ => ⟨⟨hs.1.2.room, hs.1.2.session, hs.1.2.reads,
                hs.1.2.puts⟩, hs.2 ▸ rfl⟩
            refine ensures_bind hstore fun _ => ensures_bind (takes_writePayload block) fun _ => ?_
            refine ensures_weaken (@ih (pieces ++ [block]) later block.length hcount)
              (fun s hs => hs.1) ?_
            rw [readBlocks]
            rintro _ s (⟨hshort, hs⟩ | ⟨hmore, hs⟩)
            · rw [if_neg (by omega)]
              exact Or.inr ⟨hfull, hs⟩
            · rw [if_pos (by omega)]
              refine Or.inr ⟨hfull, ?_⟩
              rw [List.append_assoc] at hs
              exact hs
      · rename_i hshort
        exact ensures_ret fun s hs => Or.inl ⟨hshort, hs.1⟩

-- What a file is opened and closed with leaves this as it was.
structure Unchanged (ctx ctx' : MtpCtx) : Prop where
  room : ctx'.usbRdBufferMaxSize = ctx.usbRdBufferMaxSize
  session : ctx'.fsDb.isSome = ctx.fsDb.isSome
  info : ctx'.sendObjInfoSize = ctx.sendObjInfoSize
  offset : ctx'.sendObjInfoOffset = ctx.sendObjInfoOffset
  sizes : ∀ q, (ctx'.entry q).size = (ctx.entry q).size

theorem Unchanged.refl (ctx : MtpCtx) : Unchanged ctx ctx :=
  ⟨rfl, rfl, rfl, rfl, fun _ => rfl⟩

theorem Unchanged.trans {ctx ctx' ctx'' : MtpCtx} (h : Unchanged ctx ctx')
    (h' : Unchanged ctx' ctx'') : Unchanged ctx ctx'' :=
  ⟨h'.room.trans h.room, h'.session.trans h.session, h'.info.trans h.info,
    h'.offset.trans h.offset, fun q => (h'.sizes q).trans (h.sizes q)⟩

def Cmd.IsStill : Cmd → Prop
  | getCtx | query _ | act .malloc | act (.setfsuid _) | act (.setfsgid _) | act (.fsync _)
  | act (.close _) | db (.setFileDescriptor _ _) | setTransferringFileData _ => True
  | _ => False

theorem setFileDescriptor_size (ctx : MtpCtx) (p q : EntryPtr) (file : Int) :
    ((ctx.applyDb (.setFileDescriptor p file)).entry q).size = (ctx.entry q).size := by
  rcases ctx.applyDb_cases (.setFileDescriptor p file) with h | h
  · rw [MtpCtx.entry, h]
    rfl
  · rw [MtpCtx.entry, h]
    exact @FsHandlesDb.setEntry_keeps_key ctx.db _ (fun entry => entry.size) p
      { ctx.db.pool p with fileDescriptor := file } rfl q

theorem unchanged_still {c : Cmd} (hc : c.IsStill) (s : World σ × Intake) :
    Unchanged s.1.ctx (intake os seeks c s).2.1.ctx ∧ (intake os seeks c s).2.2 = s.2 := by
  cases c with
  | act a => cases a <;> first | exact hc.elim | exact ⟨Unchanged.refl _, rfl⟩
  | db op =>
      cases op with
      | setFileDescriptor p file =>
          exact ⟨⟨rfl, Option.isSome_map, rfl, rfl, fun q => setFileDescriptor_size _ _ _ _⟩, rfl⟩
      | _ => exact hc.elim
  | _ => first | exact hc.elim | exact ⟨⟨rfl, rfl, rfl, rfl, fun _ => rfl⟩, rfl⟩

theorem still_entryClose (entry : Option EntryPtr) :
    Uses AnyAnswer Cmd.IsStill (entryClose entry) := by
  have hset : ∀ p, Uses AnyAnswer Cmd.IsStill (M.db_ (.setFileDescriptor p (-1))) :=
    fun _ => uses_db_ trivial
  have hclose : ∀ file, Uses AnyAnswer Cmd.IsStill (M.act (.close file)) :=
    fun _ => uses_act_of trivial
  have hfsync : ∀ file, Uses AnyAnswer Cmd.IsStill (M.act (.fsync file)) :=
    fun _ => uses_act_of trivial
  unfold entryClose
  split
  · refine uses_bind (uses_cmd trivial) fun ctx => ?_
    grind
  · exact uses_pure _

-- Nothing that matters changes.
theorem takes_still {prog : M α} {s : World σ × Intake} (hp : Uses AnyAnswer Cmd.IsStill prog) :
    Takes os seeks (fun s' => Unchanged s.1.ctx s'.1.ctx ∧ s'.2 = s.2) prog
      fun _ s' => Unchanged s.1.ctx s'.1.ctx ∧ s'.2 = s.2 := by
  refine ensures_weaken (ensures_of_runs
    (I := fun s' : World σ × Intake => Unchanged s.1.ctx s'.1.ctx ∧ s'.2 = s.2) hp
    fun s' c hs' hc _ => ⟨trivial, ?_⟩) (fun _ hs => hs) fun _ _ hs => hs.2
  obtain ⟨hctx, hnote⟩ := @unchanged_still _ os seeks c hc s'
  exact ⟨hs'.1.trans hctx, hnote.trans hs'.2⟩

-- A file is opened. Only its content and the position in it change, and the
-- content only when it is created.
def OpenedFrom (flags : OpenFlags) (s s' : World σ × Intake) : Prop :=
  Unchanged s.1.ctx s'.1.ctx ∧ s'.2.reads = s.2.reads ∧ s'.2.takes = s.2.takes ∧
    s'.2.written = s.2.written ∧ (flags ≠ .createTruncate → s'.2.content = s.2.content)

theorem OpenedFrom.refl (flags : OpenFlags) (s : World σ × Intake) : OpenedFrom flags s s :=
  ⟨Unchanged.refl _, rfl, rfl, rfl, fun _ => rfl⟩

theorem OpenedFrom.still {flags : OpenFlags} {s s' s'' : World σ × Intake}
    (h : OpenedFrom flags s s') (hctx : Unchanged s'.1.ctx s''.1.ctx) (hnote : s''.2 = s'.2) :
    OpenedFrom flags s s'' := by
  rw [OpenedFrom, hnote]
  exact ⟨h.1.trans hctx, h.2⟩

theorem isStill_identifies : Identifies Cmd.IsStill where
  getCtx := trivial
  query _ := trivial
  malloc := trivial
  setfsuid _ := trivial
  setfsgid _ := trivial

theorem OpenedFrom.takes {flags : OpenFlags} {s : World σ × Intake} {prog : M α}
    (hp : Uses AnyAnswer Cmd.IsStill prog) :
    Takes os seeks (OpenedFrom flags s) prog fun _ s' => OpenedFrom flags s s' :=
  ensures_weaken (ensures_of_runs (I := OpenedFrom flags s) hp fun s' _ hs' hc _ =>
    ⟨trivial, hs'.still (unchanged_still hc s').1 (unchanged_still hc s').2⟩)
    (fun _ hs => hs) fun _ _ hs => hs.2

theorem noteIntake_open (storageId : Nat) (path : CString) (flags : OpenFlags) (file : Int)
    (g : Intake) :
    (noteIntake seeks (.act (.open storageId path flags)) file g).reads = g.reads ∧
      (noteIntake seeks (.act (.open storageId path flags)) file g).takes = g.takes ∧
      (noteIntake seeks (.act (.open storageId path flags)) file g).written = g.written ∧
      (flags ≠ .createTruncate →
        (noteIntake seeks (.act (.open storageId path flags)) file g).content = g.content) := by
  rw [noteIntake]
  split
  · exact ⟨rfl, rfl, rfl, fun _ => rfl⟩
  · exact ⟨rfl, rfl, rfl, fun hflags => if_neg hflags⟩

-- What an entry that is not open is opened with leaves the context as it is.
def Cmd.IsIdle : Cmd → Prop
  | getCtx | query _ | act .malloc | act (.setfsuid _) | act (.setfsgid _) => True
  | _ => False

theorem isIdle_identifies : Identifies Cmd.IsIdle where
  getCtx := trivial
  query _ := trivial
  malloc := trivial
  setfsuid _ := trivial
  setfsgid _ := trivial

theorem idle_step {c : Cmd} (hc : c.IsIdle) (s : World σ × Intake) :
    (intake os seeks c s).2.1.ctx = s.1.ctx ∧ (intake os seeks c s).2.2 = s.2 := by
  cases c with
  | act a => cases a <;> first | exact hc.elim | exact ⟨rfl, rfl⟩
  | _ => first | exact hc.elim | exact ⟨rfl, rfl⟩

theorem takes_idle {ctx : MtpCtx} {prog : M α} (hp : Uses AnyAnswer Cmd.IsIdle prog) :
    Takes os seeks (fun s => s.1.ctx = ctx ∧ s.2 = g) prog
      fun _ s => s.1.ctx = ctx ∧ s.2 = g :=
  ensures_weaken (ensures_of_runs (I := fun s : World σ × Intake => s.1.ctx = ctx ∧ s.2 = g) hp
    fun s _ hs hc _ => ⟨trivial, (idle_step hc s).1.trans hs.1, (idle_step hc s).2.trans hs.2⟩)
    (fun _ hs => hs) fun _ _ hs => hs.2

-- The file behind a descriptor that open gave.
def Intake.opened (g : Intake) (flags : OpenFlags) : Intake :=
  { g with content := if flags = .createTruncate then [] else g.content, position := 0 }

theorem setFileDescriptor_fileDescriptor {ctx : MtpCtx} (hsession : ctx.fsDb.isSome = true)
    (p : EntryPtr) (file : Int) :
    ((ctx.applyDb (.setFileDescriptor p file)).entry p).fileDescriptor = file := by
  obtain ⟨db, hdb⟩ := Option.isSome_iff_exists.mp hsession
  have hnext : (ctx.applyDb (.setFileDescriptor p file)).db =
      DbOp.step db (.setFileDescriptor p file) := by
    rw [MtpCtx.db, MtpCtx.applyDb, hdb]
    rfl
  rw [MtpCtx.entry, hnext]
  exact congrArg FsEntry.fileDescriptor
    (FsHandlesDb.setEntry_pool_self db p { db.pool p with fileDescriptor := file })

-- An entry without a descriptor has its file opened anew. One that was never
-- opened keeps its zero when the file cannot be opened.
theorem takes_entryOpen_closed {flags : OpenFlags} {s : World σ × Intake}
    (hsession : s.1.ctx.fsDb.isSome = true)
    (hclosed : (s.1.ctx.entry p).fileDescriptor ≤ 0) :
    Takes os seeks (· = s) (entryOpen p flags) fun file s' =>
      0 < file → s'.2 = s.2.opened flags := by
  have hnone : Takes os seeks (fun s' => s'.1.ctx = s.1.ctx ∧ s'.2 = s.2) (do
      let ctx ← M.getCtx
      return (ctx.entry p).fileDescriptor) fun file s' => 0 < file → s'.2 = s.2.opened flags := by
    refine takes_getCtx_bind fun ctx => ensures_ret fun s' hs hopen => ?_
    have hfile : (ctx.entry p).fileDescriptor ≤ 0 := by rw [← hs.2, hs.1.1]; exact hclosed
    omega
  refine ensures_bind_at ?_
  change Takes os seeks (· = s) (if 0 < (s.1.ctx.entry p).fileDescriptor then _ else _) _
  rw [if_neg (by omega)]
  have hstart : Takes os seeks (· = s) (entryPath p) fun _ s' =>
      s'.1.ctx = s.1.ctx ∧ s'.2 = s.2 := by
    refine ensures_weaken (takes_idle (isIdle_identifies.entryPath p)) ?_ fun _ _ hs => hs
    rintro _ rfl
    exact ⟨rfl, rfl⟩
  refine ensures_bind hstart fun found => ?_
  cases found with
  | none => exact hnone
  | some path =>
      refine ensures_bind (takes_idle (isIdle_identifies.setStorageGiduid _)) fun set => ?_
      cases set with
      | false => exact ensures_bind (takes_idle isIdle_identifies.restoreGiduid) fun _ => hnone
      | true =>
          have hopen : Takes os seeks (fun s' => s'.1.ctx = s.1.ctx ∧ s'.2 = s.2)
              (M.act (.open (s.1.ctx.entry p).storageId path flags)) fun file s' =>
                s'.1.ctx = s.1.ctx ∧ (0 < file → s'.2 = s.2.opened flags) := by
            refine ensures_perform fun s' hs _ => ⟨hs.1, fun hfile => ?_⟩
            have hopened : (os.act (.open (s.1.ctx.entry p).storageId path flags) s'.1.os).1 ≠ -1 :=
              fun hno => absurd (hno ▸ hfile : (0 : Int) < -1) (by omega)
            change noteIntake seeks (.act (.open _ path flags)) _ s'.2 = _
            rw [hs.2]
            exact if_neg hopened
          refine ensures_bind hopen fun file => ?_
          have hset : Takes os seeks (fun s' => s'.1.ctx = s.1.ctx ∧
              (0 < file → s'.2 = s.2.opened flags)) (M.db_ (.setFileDescriptor p file))
                fun _ s' => ∃ g', (s'.1.ctx = s.1.ctx.applyDb (.setFileDescriptor p file) ∧
                  s'.2 = g') ∧ (0 < file → g' = s.2.opened flags) := by
            refine ensures_bind (ensures_perform fun s' hs _ => ?_) fun _ =>
              ensures_ret fun _ hs => hs
            exact ⟨s'.2, ⟨congrArg (MtpCtx.applyDb · (.setFileDescriptor p file)) hs.1, rfl⟩, hs.2⟩
          refine ensures_bind hset fun _ => ensures_of_exists fun g' => ?_
          refine ensures_of_fact (fun s' hs => hs.2) fun hg => ?_
          have hrestore : Takes os seeks (fun s' =>
              (s'.1.ctx = s.1.ctx.applyDb (.setFileDescriptor p file) ∧ s'.2 = g') ∧
                (0 < file → g' = s.2.opened flags)) restoreGiduid fun _ s' =>
                  s'.1.ctx = s.1.ctx.applyDb (.setFileDescriptor p file) ∧ s'.2 = g' :=
            ensures_weaken (takes_idle isIdle_identifies.restoreGiduid) (fun _ hs => hs.1)
              fun _ _ hs => hs
          refine ensures_bind hrestore fun _ => takes_getCtx_bind fun ctx =>
            ensures_ret fun s' hs hfile => ?_
          have hsame : (ctx.entry p).fileDescriptor = file := by
            rw [← hs.2, hs.1.1]
            exact setFileDescriptor_fileDescriptor hsession p file
          rw [hs.1.2]
          exact hg (hsame ▸ hfile)

-- One that has a descriptor keeps it.
theorem exec_entryOpen_open {flags : OpenFlags} {s : World σ × Intake}
    (hopen : 0 < (s.1.ctx.entry p).fileDescriptor) :
    (exec (intake os seeks) (entryOpen p flags) s).2 = s := by
  unfold entryOpen
  rw [bind_eq, exec_bind]
  change (exec _ (if 0 < (s.1.ctx.entry p).fileDescriptor then _ else _) s).2 = s
  rw [if_pos hopen]
  rfl

-- What is behind the descriptor after that.
def FileBehind (flags : OpenFlags) (p : EntryPtr) (file : Int) (s s' : World σ × Intake) : Prop :=
  s.1.ctx.fsDb.isSome = true → 0 < file →
    s'.2 = if 0 < (s.1.ctx.entry p).fileDescriptor then s.2 else s.2.opened flags

theorem takes_entryOpen {flags : OpenFlags} {s : World σ × Intake} :
    Takes os seeks (· = s) (entryOpen p flags) fun file s' =>
      file = (exec (World.handle os) (entryOpen p flags) s.1).1 ∧ OpenedFrom flags s s' ∧
        FileBehind flags p file s s' := by
  have hnext : ∀ _ : Unit, Takes os seeks (OpenedFrom flags s) (do
      let ctx ← M.getCtx
      return (ctx.entry p).fileDescriptor) fun _ s' => OpenedFrom flags s s' :=
    fun _ => OpenedFrom.takes (uses_bind (uses_cmd trivial) fun _ => uses_pure _)
  have hopened : Takes os seeks (OpenedFrom flags s) (entryOpen p flags)
      fun _ s' => OpenedFrom flags s s' := by
    refine takes_getCtx_bind fun ctx => ?_
    refine ensures_weaken (P := OpenedFrom flags s) ?_ (fun s' hs => hs.1) fun _ _ hs => hs
    split
    · exact ensures_ret fun _ hs => hs
    · refine ensures_bind (OpenedFrom.takes (isStill_identifies.entryPath p)) fun found => ?_
      cases found with
      | none => exact hnext ()
      | some path =>
          refine ensures_bind (OpenedFrom.takes (isStill_identifies.setStorageGiduid _))
            fun set => ?_
          have hopen : Takes os seeks (OpenedFrom flags s)
              (M.act (.open (ctx.entry p).storageId path flags)) fun _ s' =>
                OpenedFrom flags s s' := by
            refine ensures_perform fun s' hs _ => ?_
            obtain ⟨hctx, hreads, htakes, hwritten, hcontent⟩ := hs
            obtain ⟨hreads', htakes', hwritten', hcontent'⟩ := @noteIntake_open seeks
              (ctx.entry p).storageId path flags
              (os.act (.open (ctx.entry p).storageId path flags) s'.1.os).1 s'.2
            exact ⟨⟨hctx.room, hctx.session, hctx.info, hctx.offset, hctx.sizes⟩,
              hreads'.trans hreads, htakes'.trans htakes, hwritten'.trans hwritten,
              fun hflags => (hcontent' hflags).trans (hcontent hflags)⟩
          dsimp only
          split
          · exact ensures_bind hopen fun file =>
              ensures_bind (OpenedFrom.takes (uses_db_ trivial)) fun _ =>
                ensures_bind (OpenedFrom.takes isStill_identifies.restoreGiduid) hnext
          · exact ensures_bind (OpenedFrom.takes isStill_identifies.restoreGiduid) hnext
  rintro s' rfl hsafe
  refine ⟨(exec_observe _ _ s').1, hopened s' (OpenedFrom.refl _ _) hsafe,
    fun hsession hfile => ?_⟩
  by_cases hopen : 0 < (s'.1.ctx.entry p).fileDescriptor
  · rw [if_pos hopen]
    exact congrArg Prod.snd (exec_entryOpen_open hopen)
  · rw [if_neg hopen]
    exact takes_entryOpen_closed hsession (by omega) s' rfl hsafe hfile

-- The position that a seek leaves.
def seekTo (seeks : Int → Bool) (offset : Int) (g : Intake) : Intake :=
  if seeks offset then { g with position := offset.toNat } else g

-- The payload of the first read, and the piece it makes.
def firstPayload (hdr : Buffer) (size : Nat) : List UInt8 :=
  hdr.read MTP_HEADER_SIZE (size - MTP_HEADER_SIZE)

def firstPieces (hdr : Buffer) (size : Nat) : List (List UInt8) :=
  if MTP_HEADER_SIZE < size then [firstPayload hdr size] else []

theorem firstPieces_flatten (hdr : Buffer) (size : Nat) :
    (firstPieces hdr size).flatten = firstPayload hdr size := by
  rw [firstPieces]
  split
  · exact List.flatten_singleton
  · rename_i hnone
    have hlen : (firstPayload hdr size).length = 0 := by
      rw [firstPayload, Buffer.length_read]
      omega
    exact (List.length_eq_zero_iff.mp hlen).symm

-- The first read is followed by others: it is a full one, or what was announced
-- is not what came.
def MtpCtx.ReadsOn (ctx : MtpCtx) (isPartial : Bool) (size : Nat) : Prop :=
  size = ctx.usbRdBufferMaxSize ∨
    isPartial = true ∧ ctx.sendObjInfoSize ≠ (size - MTP_HEADER_SIZE : Nat)

instance (ctx : MtpCtx) (isPartial : Bool) (size : Nat) : Decidable (ctx.ReadsOn isPartial size) :=
  inferInstanceAs (Decidable (_ ∨ _))

-- The blocks that an upload reads, and the reads that come later.
def MtpCtx.uploadBlocks (ctx : MtpCtx) (isPartial : Bool) (size : Nat)
    (reads : List (Option (List UInt8))) : List (List UInt8) × List (Option (List UInt8)) :=
  if ctx.ReadsOn isPartial size then readBlocks ctx.usbRdBufferMaxSize reads else ([], reads)

-- The pieces are in the file, and the entry has the size of that.
def Ended (p : EntryPtr) (g : Intake) (pieces : List (List UInt8))
    (reads : List (Option (List UInt8))) (s : World σ × Intake) : Prop :=
  ∃ g', Puts g g' pieces ∧ g'.reads = reads ∧ s.2 = { g' with position := g'.content.length } ∧
    (s.1.ctx.entry p).size = g'.content.length

-- The container was taken.
def Taken (seeks : Int → Bool) (hdr : Buffer) (size : Nat) (isPartial : Bool) (p : EntryPtr)
    (s s' : World σ × Intake) : Prop :=
  Ended p (seekTo seeks s.1.ctx.sendObjInfoOffset s.2)
    (firstPieces hdr size ++ (s.1.ctx.uploadBlocks isPartial size s.2.reads).1)
    (s.1.ctx.uploadBlocks isPartial size s.2.reads).2 s'

theorem setSize_size {ctx : MtpCtx} (hsession : ctx.fsDb.isSome = true) (p : EntryPtr)
    (size : Int) : ((ctx.applyDb (.setSize p size)).entry p).size = size := by
  obtain ⟨db, hdb⟩ := Option.isSome_iff_exists.mp hsession
  have hnext : (ctx.applyDb (.setSize p size)).db = DbOp.step db (.setSize p size) := by
    rw [MtpCtx.db, MtpCtx.applyDb, hdb]
    rfl
  rw [MtpCtx.entry, hnext]
  exact congrArg FsEntry.size (FsHandlesDb.setEntry_pool_self db p { db.pool p with size := size })

theorem Ended.still {s s' : World σ × Intake} (h : Ended p g pieces reads s)
    (hctx : Unchanged s.1.ctx s'.1.ctx) (hnote : s'.2 = s.2) : Ended p g pieces reads s' := by
  obtain ⟨g', hputs, hreads, hs, hsize⟩ := h
  exact ⟨g', hputs, hreads, hnote.trans hs, (hctx.sizes p).trans hsize⟩

theorem Ended.takes {prog : M α} (hp : Uses AnyAnswer Cmd.IsStill prog) :
    Takes os seeks (Ended p g pieces reads) prog fun _ s => Ended p g pieces reads s :=
  ensures_weaken (ensures_of_runs (I := Ended p g pieces reads) hp fun s _ hs hc _ =>
    ⟨trivial, hs.still (unchanged_still hc s).1 (unchanged_still hc s).2⟩)
    (fun _ hs => hs) fun _ _ hs => hs.2

-- What follows the data.
theorem takes_endReceive {isPartial : Bool} :
    Takes os seeks (Receiving maxsize g pieces reads) (endReceive isPartial p file)
      fun done s => done = true ∧ Ended p g pieces reads s := by
  have hend : Takes os seeks (Receiving maxsize g pieces reads) (M.act (.lseekEnd file))
      fun fileSize s => (∃ g', Puts g g' pieces ∧ g'.reads = reads ∧
        s.2 = { g' with position := g'.content.length } ∧ fileSize = g'.content.length) ∧
        s.1.ctx.fsDb.isSome = true :=
    ensures_perform fun s hs hok => ⟨⟨s.2, hs.puts, hs.reads, rfl, hok⟩, hs.session⟩
  have hset : ∀ fileSize : Int, Takes os seeks
    (fun s => (∃ g', Puts g g' pieces ∧ g'.reads = reads ∧
      s.2 = { g' with position := g'.content.length } ∧ fileSize = g'.content.length) ∧
      s.1.ctx.fsDb.isSome = true) (M.db_ (.setSize p fileSize)) fun _ s =>
        Ended p g pieces reads s := by
    intro fileSize
    refine ensures_bind (ensures_perform fun s hs _ => ?_) fun _ => ensures_ret fun _ hs => hs
    obtain ⟨⟨g', hputs, hreads, hnote, hsize⟩, hsession⟩ := hs
    exact ⟨g', hputs, hreads, hnote, (setSize_size hsession p fileSize).trans hsize⟩
  have hcancel : ∀ _ : Unit, Takes os seeks (Ended p g pieces reads) (do
      if ← M.act .getCancelReq then
        M.act .clearCancelReq
        return false
      else
        return true) fun done s => done = true ∧ Ended p g pieces reads s := by
    intro _
    refine ensures_bind (takes_getCancelReq fun _ _ hs => hs) fun cancelReq => ?_
    refine ensures_of_fact (fun s hs => hs.1) fun hno => ?_
    rw [hno]
    exact ensures_ret fun s hs => ⟨rfl, hs.2⟩
  refine ensures_bind hend fun fileSize => ensures_bind (hset fileSize) fun _ =>
    ensures_bind (Ended.takes (uses_cmd trivial)) fun _ => ?_
  cases isPartial with
  | true => exact hcancel ()
  | false => exact ensures_bind (Ended.takes (still_entryClose _)) hcancel

-- The data phase takes the container.
theorem takes_receiveObject {hdr : Buffer} {size : Nat} {isPartial : Bool} {s : World σ × Intake}
    (hsession : s.1.ctx.fsDb.isSome = true) (hsize : size ≤ s.1.ctx.usbRdBufferMaxSize) :
    Takes os seeks (· = s) (receiveObject hdr size isPartial p file) fun done s' =>
      done = true ∧ Taken seeks hdr size isPartial p s s' := by
  obtain ⟨maxsize, hmaxsize⟩ : ∃ maxsize, maxsize = s.1.ctx.usbRdBufferMaxSize := ⟨_, rfl⟩
  obtain ⟨offset, hoffset⟩ : ∃ offset, offset = s.1.ctx.sendObjInfoOffset := ⟨_, rfl⟩
  obtain ⟨n, hn⟩ : ∃ n, n = s.1.ctx.sendObjInfoSize := ⟨_, rfl⟩
  obtain ⟨g, hg⟩ : ∃ g, g = seekTo seeks offset s.2 := ⟨_, rfl⟩
  have hreads : g.reads = s.2.reads := by
    rw [hg, seekTo]
    split <;> rfl
  have hstart : Takes os seeks (· = s) (M.cmd (.setTransferringFileData true)) fun _ s' =>
      Unchanged s.1.ctx s'.1.ctx ∧ s'.2 = s.2 := by
    refine ensures_weaken (takes_still (uses_cmd trivial)) ?_ fun _ _ hs => hs
    rintro _ rfl
    exact ⟨Unchanged.refl _, rfl⟩
  have hseek : Takes os seeks (fun s' => Unchanged s.1.ctx s'.1.ctx ∧ s'.2 = s.2)
      (M.act (.lseekSet file offset)) fun _ s' =>
        Receiving maxsize g [] s.2.reads s' ∧ s'.1.ctx.sendObjInfoSize = n := by
    refine ensures_perform fun s' hs _ => ⟨⟨?_, ?_, ?_, ?_⟩, ?_⟩
    · exact hs.1.room.trans hmaxsize.symm
    · exact hs.1.session.trans hsession
    · change (noteIntake seeks (.act (.lseekSet file offset)) () s'.2).reads = _
      rw [hs.2, ← hreads, hg]
      rfl
    · change Puts g (noteIntake seeks (.act (.lseekSet file offset)) () s'.2) []
      rw [hs.2, hg]
      exact Puts.refl _
    · exact hs.1.info.trans hn.symm
  obtain ⟨first, hfirst⟩ : ∃ first, first = firstPieces hdr size := ⟨_, rfl⟩
  have hlen : (firstPayload hdr size).length = size - MTP_HEADER_SIZE := by
    rw [firstPayload, Buffer.length_read]
  have hrest : ∀ _ : Unit, Takes os seeks
      (fun s' => Receiving maxsize g first s.2.reads s' ∧
        s'.1.ctx.sendObjInfoSize = n - (firstPayload hdr size).length) (do
          let ctx ← M.getCtx
          let full := (ctx.usbRdBufferMaxSize : Int)
          let next := if (size : Int) - MTP_HEADER_SIZE = full - MTP_HEADER_SIZE ∨
              (isPartial = true ∧ ctx.sendObjInfoSize ≠ 0)
            then full else (size : Int) - MTP_HEADER_SIZE
          let backlog ← M.query .usbBacklog
          receiveBlocks p file (backlog + 1) next
          endReceive isPartial p file) fun done s' =>
            done = true ∧ Taken seeks hdr size isPartial p s s' := by
    intro _
    refine takes_getCtx_bind fun ctx => ?_
    have hfacts : ∀ s' : World σ × Intake, (Receiving maxsize g first s.2.reads s' ∧
        s'.1.ctx.sendObjInfoSize = n - (firstPayload hdr size).length) ∧ s'.1.ctx = ctx →
          ctx.usbRdBufferMaxSize = maxsize ∧
            ctx.sendObjInfoSize = n - (firstPayload hdr size).length :=
      fun s' hs => ⟨hs.2 ▸ hs.1.1.room, hs.2 ▸ hs.1.2⟩
    refine ensures_of_fact hfacts fun hfacts => ?_
    obtain ⟨hroom, hinfo⟩ := hfacts
    obtain ⟨next, hnext⟩ : ∃ next : Int, next =
        (if (size : Int) - MTP_HEADER_SIZE = (maxsize : Int) - MTP_HEADER_SIZE ∨
            (isPartial = true ∧ n - (firstPayload hdr size).length ≠ 0)
          then (maxsize : Int) else (size : Int) - MTP_HEADER_SIZE) := ⟨_, rfl⟩
    have hiff : next = maxsize ↔ s.1.ctx.ReadsOn isPartial size := by
      rw [hnext, MtpCtx.ReadsOn, ← hmaxsize, ← hn, hlen]
      have htwelve : MTP_HEADER_SIZE = 12 := rfl
      have hfull : (size : Int) - MTP_HEADER_SIZE = (maxsize : Int) - MTP_HEADER_SIZE ↔
          size = maxsize := by omega
      have hleft : n - (size - MTP_HEADER_SIZE : Nat) ≠ 0 ↔
          n ≠ (size - MTP_HEADER_SIZE : Nat) := by omega
      simp only [hfull, hleft]
      split
      · rename_i hmore
        exact iff_of_true rfl hmore
      · rename_i hmore
        exact iff_of_false (by omega) hmore
    dsimp only
    rw [hroom, hinfo, ← hnext]
    have hbacklog : Takes os seeks (fun s' => (Receiving maxsize g first s.2.reads s' ∧
        s'.1.ctx.sendObjInfoSize = n - (firstPayload hdr size).length) ∧ s'.1.ctx = ctx)
        (M.query .usbBacklog) fun backlog s' =>
          s.2.reads.countP Option.isSome ≤ backlog ∧ Receiving maxsize g first s.2.reads s' := by
      refine ensures_perform fun s' hs hok => ⟨?_, hs.1.1⟩
      rw [← hs.1.1.reads]
      exact hok
    refine ensures_bind hbacklog fun backlog => ?_
    refine ensures_of_fact (fun s' hs => hs.1) fun hle => ?_
    refine ensures_bind (ensures_weaken (takes_receiveBlocks (Nat.lt_succ_of_le hle))
      (fun s' hs => hs.2) fun _ _ hs => hs) fun _ => ensures_or ?_ ?_
    · refine ensures_of_fact (fun s' hs => hs.1) fun hno => ?_
      refine ensures_weaken takes_endReceive (fun s' hs => hs.2) fun done s' hs => ⟨hs.1, ?_⟩
      rw [Taken, MtpCtx.uploadBlocks, if_neg (fun h => hno (hiff.mpr h)), List.append_nil, ← hfirst,
        ← hoffset, ← hg]
      exact hs.2
    · refine ensures_of_fact (fun s' hs => hs.1) fun hmore => ?_
      refine ensures_weaken takes_endReceive (fun s' hs => hs.2) fun done s' hs => ⟨hs.1, ?_⟩
      rw [Taken, MtpCtx.uploadBlocks, if_pos (hiff.mp hmore), ← hfirst, ← hoffset, ← hg, ← hmaxsize]
      exact hs.2
  refine ensures_bind hstart fun _ => takes_getCtx_bind fun ctx => ?_
  refine ensures_of_fact (fun s' hs => hs.2 ▸ hs.1.1.offset) fun hctx => ?_
  rw [hctx, ← hoffset]
  refine ensures_bind (ensures_weaken hseek (fun s' hs => hs.1) fun _ _ hs => hs) fun _ => ?_
  dsimp only
  split
  · have hwrite := @takes_writePayload _ os seeks p file maxsize g [] s.2.reads
      (hdr.read MTP_HEADER_SIZE ((size : Int) - MTP_HEADER_SIZE).toNat) n
    have hpayload : hdr.read MTP_HEADER_SIZE ((size : Int) - MTP_HEADER_SIZE).toNat =
        firstPayload hdr size := by
      rw [firstPayload]
      congr 1
      omega
    have hone : [] ++ [firstPayload hdr size] = first := by
      rw [hfirst, firstPieces, if_pos (by omega), List.nil_append]
    rw [hpayload, hone] at hwrite
    rw [hpayload]
    exact ensures_bind hwrite hrest
  · have hnone : first = [] := by
      rw [hfirst, firstPieces, if_neg (by omega)]
    have hzero : (firstPayload hdr size).length = 0 := by
      rw [hlen]
      omega
    rw [hnone] at hrest
    refine ensures_weaken (hrest ()) (fun s' hs => ⟨hs.1, ?_⟩) fun _ _ hs => hs
    rw [hs.2, hzero]
    omega

end Blocks

-- The flags the file of an upload is opened with.
def uploadFlags (hdr : Buffer) : OpenFlags :=
  if hdrCode hdr = MTP_OPERATION_SEND_PARTIAL_OBJECT then .readWrite else .createTruncate

-- The descriptor that it gets.
def uploadFile {σ : Type} (os : Os σ) (hdr : Buffer) (w : World σ) (p : EntryPtr) : Int :=
  (exec (World.handle os) (entryOpen p (uploadFlags hdr))
    ⟨w.ctx, (os.act .lockInotifyMutex w.os).2⟩).1

-- The data phase of an upload reaches the file of an entry.
structure AcceptsUpload {σ : Type} (os : Os σ) (hdr : Buffer) (w : World σ) (p : EntryPtr) :
    Prop where
  session : w.ctx.fsDb.isSome = true
  locked : (os.act .lockInotifyMutex w.os).1 = true
  handle : w.ctx.sendObjInfoHandle ≠ NO_HANDLE
  data : hdrOperation hdr = MTP_CONTAINER_TYPE_DATA
  found : w.ctx.getEntryByHandle w.ctx.sendObjInfoHandle = some p
  access : w.ctx.checkHandleAccess (some p) 0 true = none
  opens : uploadFile os hdr w p ≠ -1

-- The reply, and what became of the container: it was taken, or the file is as
-- it was.
def Uploaded {σ : Type} (os : Os σ) (seeks : Int → Bool) (hdr : Buffer) (size : Nat)
    (s : World σ × Intake) (response : Response) (s' : World σ × Intake) : Prop :=
  (∃ p opened, AcceptsUpload os hdr s.1 p ∧ OpenedFrom (uploadFlags hdr) s opened ∧
      FileBehind (uploadFlags hdr) p (uploadFile os hdr s.1 p) s opened ∧
      Taken seeks hdr size (hdrCode hdr = MTP_OPERATION_SEND_PARTIAL_OBJECT) p opened s' ∧
      response.1 = MTP_RESPONSE_OK) ∨
    (∀ p, ¬AcceptsUpload os hdr s.1 p) ∧ response.1 ≠ MTP_RESPONSE_OK ∧
      (uploadFlags hdr ≠ .createTruncate → s'.2.content = s.2.content)

section Phases

variable {σ : Type} {os : Os σ} {seeks : Int → Bool} {hdr : Buffer} {size : Nat}

theorem takes_getCtx_at {β : Type} {s : World σ × Intake} {f : MtpCtx → M β}
    {Q : β → World σ × Intake → Prop} (hf : Takes os seeks (· = s) (f s.1.ctx) Q) :
    Takes os seeks (· = s) (M.getCtx.bind f) Q := ensures_bind_at hf

theorem takes_sendObjectData {s : World σ × Intake} (hsession : s.1.ctx.fsDb.isSome = true)
    (hsize : size ≤ s.1.ctx.usbRdBufferMaxSize) :
    Takes os seeks (· = s) (sendObjectData hdr size) fun out s' =>
      (∃ p opened, s.1.ctx.getEntryByHandle s.1.ctx.sendObjInfoHandle = some p ∧
          s.1.ctx.checkHandleAccess (some p) 0 true = none ∧
          (exec (World.handle os) (entryOpen p (uploadFlags hdr)) s.1).1 ≠ -1 ∧
          OpenedFrom (uploadFlags hdr) s opened ∧
          FileBehind (uploadFlags hdr) p
            (exec (World.handle os) (entryOpen p (uploadFlags hdr)) s.1).1 s opened ∧
          Taken seeks hdr size (hdrCode hdr = MTP_OPERATION_SEND_PARTIAL_OBJECT) p opened s' ∧
          out = (MTP_RESPONSE_OK, false)) ∨
        (∀ p, s.1.ctx.getEntryByHandle s.1.ctx.sendObjInfoHandle = some p →
          s.1.ctx.checkHandleAccess (some p) 0 true = none →
          (exec (World.handle os) (entryOpen p (uploadFlags hdr)) s.1).1 = -1) ∧
          out.1 ≠ MTP_RESPONSE_OK ∧
          (uploadFlags hdr ≠ .createTruncate → s'.2.content = s.2.content) := by
  refine takes_getCtx_at ?_
  dsimp only
  cases hfound : s.1.ctx.getEntryByHandle s.1.ctx.sendObjInfoHandle with
  | none =>
      refine ensures_ret fun s' hs => Or.inr ⟨fun p hp => ?_, by decide, fun _ => by rw [hs]⟩
      cases hp
  | some p =>
      dsimp only
      cases haccess : s.1.ctx.checkHandleAccess (some p) 0 true with
      | some code =>
          refine ensures_ret fun s' hs => Or.inr ⟨fun p' hp' haccess' => ?_, ?_,
            fun _ => by rw [hs]⟩
          · cases hp'
            rw [haccess] at haccess'
            cases haccess'
          · exact (MtpCtx.checkHandleAccess_isError haccess).1
      | none =>
          dsimp only
          refine ensures_bind (@takes_entryOpen _ os seeks p (uploadFlags hdr) s) fun file => ?_
          by_cases hfile : file = -1
          · rw [if_neg (by simpa using hfile)]
            refine ensures_ret fun s' hs =>
              Or.inr ⟨fun p' hp' _ => ?_, by decide, hs.2.1.2.2.2.2⟩
            cases hp'
            rw [← hs.1, hfile]
          · rw [if_pos hfile]
            intro opened hopened
            have htake := @takes_receiveObject _ os seeks p file hdr size
              (decide (hdrCode hdr = MTP_OPERATION_SEND_PARTIAL_OBJECT)) opened
              (hopened.2.1.1.session.trans hsession)
              (by rw [hopened.2.1.1.room]; exact hsize)
            have hrest : Takes os seeks (· = opened) (do
                if ← receiveObject hdr size
                  (decide (hdrCode hdr = MTP_OPERATION_SEND_PARTIAL_OBJECT)) p file then
                  return (MTP_RESPONSE_OK, false)
                else
                  return (MTP_RESPONSE_NO_RESPONSE, true)) fun out s' =>
                    Taken seeks hdr size (hdrCode hdr = MTP_OPERATION_SEND_PARTIAL_OBJECT) p
                      opened s' ∧ out = (MTP_RESPONSE_OK, false) := by
              refine ensures_bind htake fun done => ?_
              refine ensures_of_fact (fun s' hs => hs.1) fun hdone => ?_
              rw [hdone]
              exact ensures_ret fun s' hs => ⟨hs.2, rfl⟩
            intro hsafe
            obtain ⟨htaken, hout⟩ := hrest opened rfl hsafe
            refine Or.inl ⟨p, opened, rfl, haccess, ?_, hopened.2.1, ?_, htaken, hout⟩
            · rw [← hopened.1]
              exact hfile
            · rw [← hopened.1]
              exact hopened.2.2

theorem intake_setSendObjInfo (handle : Nat) (left offset : Int) (s : World σ × Intake) :
    (intake os seeks (.setSendObjInfo handle left offset) s).2.2 = s.2 := rfl

-- The parameters of SendPartialObject are kept first.
theorem takes_latched {α : Type} {s : World σ × Intake} {f : MtpCtx → M α}
    {Q : α → World σ × Intake → Prop}
    (hf : ∀ ctx, Takes os seeks (fun s' => s'.2 = s.2 ∧ s'.1.ctx = ctx) (f ctx) Q) :
    Takes os seeks (· = s) (do
      if hdrCode hdr = MTP_OPERATION_SEND_PARTIAL_OBJECT ∧
          hdrOperation hdr = MTP_CONTAINER_TYPE_COMMAND then
        M.cmd (.setSendObjInfo (param hdr 0) (param hdr 3)
          (toInt64 (peek64 hdr (MTP_HEADER_SIZE + 4) 8)))
      let ctx ← M.getCtx
      f ctx) Q := by
  have hrest : ∀ _ : Unit, Takes os seeks (fun s' => s'.2 = s.2) (do
      let ctx ← M.getCtx
      f ctx) Q := fun _ => takes_getCtx_bind hf
  dsimp only
  split
  · have hset : Takes os seeks (· = s) (M.cmd (.setSendObjInfo (param hdr 0) (param hdr 3)
        (toInt64 (peek64 hdr (MTP_HEADER_SIZE + 4) 8)))) fun _ s' => s'.2 = s.2 := by
      refine ensures_perform fun s' hs _ => ?_
      rw [hs]
      exact intake_setSendObjInfo _ _ _ s
    exact ensures_bind hset hrest
  · exact ensures_weaken (hrest ()) (fun s' hs => by rw [hs]) fun _ _ hs => hs

-- What is no data changes no file and is not answered with OK.
theorem takes_otherPhase {s : World σ × Intake}
    (hother : hdrOperation hdr ≠ MTP_CONTAINER_TYPE_DATA) :
    Takes os seeks (· = s) (sendObjectPhase hdr size) fun out s' =>
      out.1 ≠ MTP_RESPONSE_OK ∧ s'.2 = s.2 := by
  refine takes_latched fun ctx => ?_
  by_cases hhandle : ctx.sendObjInfoHandle = NO_HANDLE
  · rw [if_pos hhandle]
    exact ensures_ret fun s' hs => ⟨by decide, hs.1⟩
  rw [if_neg hhandle, if_neg hother]
  by_cases hcommand : hdrOperation hdr = MTP_CONTAINER_TYPE_COMMAND
  · rw [if_pos hcommand]
    cases haccess : ctx.checkHandleAccess none ctx.sendObjInfoHandle true with
    | some code =>
        exact ensures_ret fun s' hs => ⟨(MtpCtx.checkHandleAccess_isError haccess).1, hs.1⟩
    | none => exact ensures_ret fun s' hs => ⟨by decide, hs.1⟩
  · rw [if_neg hcommand]
    exact ensures_ret fun s' hs => ⟨by decide, hs.1⟩

theorem takes_sendObjectPhase {s : World σ × Intake}
    (hdata : hdrOperation hdr = MTP_CONTAINER_TYPE_DATA) {Q : Nat × Bool → World σ × Intake → Prop}
    (hnone : s.1.ctx.sendObjInfoHandle = NO_HANDLE →
      Q (MTP_RESPONSE_INVALID_OBJECT_HANDLE, false) s)
    (hsend : s.1.ctx.sendObjInfoHandle ≠ NO_HANDLE →
      Takes os seeks (· = s) (sendObjectData hdr size) Q) :
    Takes os seeks (· = s) (sendObjectPhase hdr size) Q := by
  have hcommand : ¬(hdrCode hdr = MTP_OPERATION_SEND_PARTIAL_OBJECT ∧
      hdrOperation hdr = MTP_CONTAINER_TYPE_COMMAND) := by
    rw [hdata]
    exact fun h => absurd h.2 (by decide)
  unfold sendObjectPhase
  rw [if_neg hcommand]
  refine ensures_bind_at ?_
  change Takes os seeks (· = s) (if s.1.ctx.sendObjInfoHandle = NO_HANDLE then _ else _) _
  by_cases hhandle : s.1.ctx.sendObjInfoHandle = NO_HANDLE
  · rw [if_pos hhandle]
    refine ensures_ret fun s' hs => ?_
    rw [hs]
    exact hnone hhandle
  · rw [if_neg hhandle, if_pos hdata]
    exact hsend hhandle

end Phases

end Umtp
