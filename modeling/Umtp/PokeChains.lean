import Umtp.DatasetReplies

namespace Umtp

open Lib Lib.Prog Handles Text

-- The calls of the writers, with what they are given.
inductive PokeCall where
  | poke08 (data : Nat)
  | poke16 (data : Nat)
  | poke32 (data : Nat)
  | pokeString (str : CString)
  | pokeArray (elementsize : Nat) (bufferin : List UInt8) (prefixed : Bool)

namespace PokeCall

def run (maxsize : Int) : PokeCall → Poked → Poked
  | .poke08 data => Umtp.poke08 maxsize data
  | .poke16 data => Umtp.poke16 maxsize data
  | .poke32 data => Umtp.poke32 maxsize data
  | .pokeString str => Umtp.pokeString maxsize str
  | .pokeArray elementsize bufferin prefixed =>
    Umtp.pokeArray maxsize elementsize bufferin prefixed

-- What a call writes when there is room.
def bytes : PokeCall → List UInt8
  | .poke08 data => littleEndian 1 data
  | .poke16 data => littleEndian 2 data
  | .poke32 data => littleEndian 4 data
  | .pokeString str => stringBytes str
  | .pokeArray elementsize bufferin prefixed =>
    (if prefixed then littleEndian 4 (bufferin.length / elementsize) else []) ++ bufferin

end PokeCall

-- The calls one after the other, each at the offset that the one before it returned.
def runCalls (maxsize : Int) (calls : List PokeCall) (dst : Poked) : Poked :=
  calls.foldl (fun dst call => call.run maxsize dst) dst

variable {maxsize : Int} {f g : Poked → Poked} {call : PokeCall} {calls : List PokeCall}
  {dst : Poked}

-- Nothing before the offset changes, nor anything from the end of the buffer on.
def Inside (maxsize : Int) (f : Poked → Poked) : Prop :=
  ∀ dst : Poked, (∀ i : Nat, (f dst).1 i ≠ dst.1 i → dst.2 ≤ i ∧ (i : Int) < maxsize) ∧
    (0 ≤ (f dst).2 → dst.2 ≤ (f dst).2)

theorem Inside.comp (hg : Inside maxsize g) (hf : Inside maxsize f)
    (hstop : ∀ dst : Poked, dst.2 < 0 → g dst = dst) : Inside maxsize fun dst => g (f dst) := by
  intro dst
  obtain ⟨hchanged, hbefore⟩ := hf dst
  obtain ⟨hchanged', hbefore'⟩ := hg (f dst)
  by_cases hneg : (f dst).2 < 0
  · dsimp only
    rw [hstop _ hneg]
    exact ⟨hchanged, hbefore⟩
  · have hle := hbefore (by omega)
    refine ⟨fun i hi => ?_, fun hpos => le_trans hle (hbefore' hpos)⟩
    by_cases hsame : (f dst).1 i = dst.1 i
    · have hlater := hchanged' i (by rwa [hsame])
      exact ⟨by omega, hlater.2⟩
    · exact hchanged i hsame

theorem inside_id : Inside maxsize fun dst => dst :=
  fun _ => ⟨fun _ hi => absurd rfl hi, fun _ => le_refl _⟩

theorem Buffer.write_of_out {buffer : Buffer} {start i : Nat} {bytes : List UInt8}
    (h : buffer.write start bytes i ≠ buffer i) : start ≤ i ∧ i < start + bytes.length := by
  by_contra hout
  exact h (by rw [Buffer.write, if_neg hout])

theorem inside_pokeBytes (bytes : List UInt8) : Inside maxsize (pokeBytes maxsize bytes) := by
  intro dst
  rw [pokeBytes]
  by_cases hneg : dst.2 < 0
  · rw [if_pos hneg]
    exact inside_id dst
  rw [if_neg hneg]
  by_cases hover : maxsize ≤ dst.2 + bytes.length
  · rw [if_pos hover]
    exact ⟨fun _ hi => absurd rfl hi, fun h => by omega⟩
  · rw [if_neg hover]
    refine ⟨fun i hi => ?_, fun _ => ?_⟩
    · have hrange := Buffer.write_of_out hi
      omega
    · dsimp only
      omega

-- A refused call is followed by calls that do nothing.
theorem pokeBytes_of_neg (bytes : List UInt8) (h : dst.2 < 0) :
    pokeBytes maxsize bytes dst = dst := by
  rw [pokeBytes, if_pos h]

theorem PokeCall.run_of_neg (call : PokeCall) (h : dst.2 < 0) : call.run maxsize dst = dst := by
  cases call with
  | pokeString str => exact if_pos h
  | _ => exact pokeBytes_of_neg _ h

theorem runCalls_of_neg (calls : List PokeCall) (h : dst.2 < 0) :
    runCalls maxsize calls dst = dst := by
  induction calls with
  | nil => rfl
  | cons call calls ih =>
      rw [runCalls, List.foldl_cons, call.run_of_neg h]
      exact ih

theorem inside_pokeUnits (units : List Nat) : Inside maxsize (pokeUnits maxsize units) := by
  induction units with
  | nil => exact inside_id
  | cons unit units ih =>
      refine ih.comp (inside_pokeBytes _) fun dst h => ?_
      clear ih
      induction units with
      | nil => rfl
      | cons unit units ih =>
          rw [pokeUnits, poke16, pokeBytes_of_neg _ h]
          exact ih

-- The units are all written where the zero is put over the last one.
theorem inside_char2unicodestring (str : CString) (hpos : 0 ≤ dst.2) :
    (∀ i : Nat, (char2unicodestring maxsize str dst).1 i ≠ dst.1 i →
      dst.2 ≤ i ∧ (i : Int) < maxsize) ∧
      (0 ≤ (char2unicodestring maxsize str dst).2 →
        dst.2 ≤ (char2unicodestring maxsize str dst).2) := by
  obtain ⟨hchanged, hbefore⟩ :=
    @inside_pokeUnits maxsize (unicodeUnits UNICODE_STR_SIZE str) dst
  by_cases hneg : (pokeUnits maxsize (unicodeUnits UNICODE_STR_SIZE str) dst).2 < 0
  · have hout : char2unicodestring maxsize str dst =
        pokeUnits maxsize (unicodeUnits UNICODE_STR_SIZE str) dst := if_pos hneg
    rw [hout]
    exact ⟨hchanged, hbefore⟩
  · have hwhole := @encodes_char2unicodestring maxsize str
    obtain ⟨ofs, hofs⟩ := Int.eq_ofNat_of_zero_le hpos
    obtain ⟨buffer, ofs'⟩ := dst
    dsimp only at hofs hpos ⊢
    subst hofs
    have hsome : (stringUnits str).flatMap (littleEndian 2) ≠ [] := by
      intro h
      have hlen := length_units (stringUnits str)
      rw [h, List.length_nil] at hlen
      exact stringUnits_ne_nil str (List.length_eq_zero_iff.mp (by omega))
    by_cases hroom : ((ofs : Int) + ((stringUnits str).flatMap (littleEndian 2)).length) < maxsize
    · rw [hwhole.fits buffer ofs hroom]
      refine ⟨fun i hi => ?_, fun _ => ?_⟩
      · have hrange := Buffer.write_of_out hi
        omega
      · dsimp only
        omega
    · have hunits := @encodes_pokeUnits maxsize (unicodeUnits UNICODE_STR_SIZE str)
      have hsame : ((unicodeUnits UNICODE_STR_SIZE str).flatMap (littleEndian 2)).length =
          ((stringUnits str).flatMap (littleEndian 2)).length := by
        rw [length_units, length_units, length_stringUnits]
      refine absurd (hunits.overruns buffer ofs (fun h => ?_) (by omega)) hneg
      rw [h, List.length_nil, eq_comm, List.length_eq_zero_iff] at hsame
      exact hsome hsame

theorem inside_pokeString (str : CString) : Inside maxsize (pokeString maxsize str) := by
  intro dst
  rw [pokeString]
  by_cases hneg : dst.2 < 0
  · rw [if_pos hneg]
    exact inside_id dst
  rw [if_neg hneg]
  by_cases hover : maxsize ≤ dst.2 + 1
  · rw [if_pos hover]
    exact ⟨fun _ hi => absurd rfl hi, fun h => by omega⟩
  rw [if_neg hover]
  obtain ⟨reserved, hreserved⟩ : ∃ reserved : Poked,
    reserved = (dst.1.write dst.2.toNat [0], dst.2 + 1) := ⟨_, rfl⟩
  have hfirst : ∀ (buffer : Buffer) (byte : UInt8) (i : Nat),
      buffer.write dst.2.toNat [byte] i ≠ buffer i → dst.2 ≤ i ∧ (i : Int) < maxsize := by
    intro buffer byte i hi
    have hrange := Buffer.write_of_out hi
    rw [List.length_singleton] at hrange
    omega
  have hnext : reserved.2 = dst.2 + 1 := by rw [hreserved]
  have hsize : ∀ i : Nat, reserved.1 i ≠ dst.1 i → dst.2 ≤ i ∧ (i : Int) < maxsize := by
    intro i hi
    rw [hreserved] at hi
    exact hfirst _ _ i hi
  obtain ⟨hchanged, hbefore⟩ := @inside_char2unicodestring maxsize reserved str (by omega)
  have hunits : ∀ i : Nat, (char2unicodestring maxsize str reserved).1 i ≠ dst.1 i →
      dst.2 ≤ i ∧ (i : Int) < maxsize := by
    intro i hi
    by_cases hsame : reserved.1 i = dst.1 i
    · have hlater := hchanged i (by rwa [hsame])
      omega
    · exact hsize i hsame
  dsimp only
  rw [← hreserved]
  by_cases hempty : str = []
  · rw [if_pos hempty]
    exact ⟨hsize, fun _ => by omega⟩
  rw [if_neg hempty]
  by_cases hfailed : (char2unicodestring maxsize str reserved).2 < 0
  · rw [if_pos hfailed]
    exact ⟨hunits, fun h => by omega⟩
  · rw [if_neg hfailed]
    have hle := hbefore (by omega)
    refine ⟨fun i hi => ?_, fun _ => by dsimp only; omega⟩
    by_cases hsame : (char2unicodestring maxsize str reserved).1 i = dst.1 i
    · rw [← hsame] at hi
      exact hfirst _ _ i hi
    · exact hunits i hsame

theorem PokeCall.inside (call : PokeCall) : Inside maxsize (call.run maxsize) := by
  cases call with
  | pokeString str => exact inside_pokeString str
  | _ => exact inside_pokeBytes _

theorem inside_runCalls (calls : List PokeCall) : Inside maxsize (runCalls maxsize calls) := by
  induction calls with
  | nil => exact inside_id
  | cons call calls ih => exact ih.comp call.inside fun _ => runCalls_of_neg calls

theorem pokeBytes_cases (bytes : List UInt8) (hpos : 0 ≤ dst.2) :
    (dst.2 + bytes.length < maxsize ∧
      pokeBytes maxsize bytes dst = (dst.1.write dst.2.toNat bytes, dst.2 + bytes.length)) ∨
    (maxsize ≤ dst.2 + bytes.length ∧ (pokeBytes maxsize bytes dst).2 < 0) := by
  rw [pokeBytes, if_neg (by omega)]
  by_cases hover : maxsize ≤ dst.2 + bytes.length
  · rw [if_pos hover]
    exact Or.inr ⟨hover, by simp⟩
  · rw [if_neg hover]
    exact Or.inl ⟨by omega, rfl⟩

-- With room, the bytes of a call are written. Without, it is refused.
theorem PokeCall.run_cases (call : PokeCall) (hpos : 0 ≤ dst.2) :
    (dst.2 + call.bytes.length < maxsize ∧
      call.run maxsize dst = (dst.1.write dst.2.toNat call.bytes, dst.2 + call.bytes.length)) ∨
    (maxsize ≤ dst.2 + call.bytes.length ∧ (call.run maxsize dst).2 < 0) := by
  cases call with
  | pokeString str =>
      obtain ⟨ofs, hofs⟩ := Int.eq_ofNat_of_zero_le hpos
      obtain ⟨buffer, ofs'⟩ := dst
      dsimp only at hofs ⊢
      subst hofs
      have hencodes := @encodes_pokeString maxsize str
      by_cases hroom : (ofs : Int) + (stringBytes str).length < maxsize
      · exact Or.inl ⟨hroom, hencodes.fits buffer ofs hroom⟩
      · have hsome : stringBytes str ≠ [] := stringBytes_ne_nil str
        exact Or.inr ⟨not_lt.mp hroom, hencodes.overruns buffer ofs hsome (not_lt.mp hroom)⟩
  | _ => exact pokeBytes_cases _ hpos

theorem runCalls_append (front back : List PokeCall) (dst : Poked) :
    runCalls maxsize (front ++ back) dst = runCalls maxsize back (runCalls maxsize front dst) :=
  List.foldl_append

-- A call does not fit when it is its turn.
def Refuses (maxsize : Int) (calls : List PokeCall) (dst : Poked) : Prop :=
  ∃ front call back, calls = front ++ call :: back ∧ 0 ≤ (runCalls maxsize front dst).2 ∧
    maxsize ≤ (runCalls maxsize front dst).2 + call.bytes.length

-- The result tells it, since nothing brings the offset back.
theorem runCalls_neg_iff (calls : List PokeCall) (hpos : 0 ≤ dst.2) :
    (runCalls maxsize calls dst).2 < 0 ↔ Refuses maxsize calls dst := by
  induction calls generalizing dst with
  | nil =>
      refine iff_of_false (not_lt.mpr hpos) ?_
      rintro ⟨front, call, back, hcalls, -⟩
      cases front with
      | nil => cases hcalls
      | cons _ _ => cases hcalls
  | cons call calls ih =>
      have hrun : runCalls maxsize (call :: calls) dst =
          runCalls maxsize calls (call.run maxsize dst) := rfl
      rw [hrun]
      constructor
      · intro hneg
        rcases call.run_cases hpos with ⟨-, hdone⟩ | ⟨hover, -⟩
        · have hnext : 0 ≤ (call.run maxsize dst).2 := by
            rw [hdone]
            dsimp only
            omega
          obtain ⟨front, other, back, rfl, hfront, hover⟩ := (ih hnext).mp hneg
          exact ⟨call :: front, other, back, rfl, hfront, hover⟩
        · exact ⟨[], call, calls, rfl, hpos, hover⟩
      · rintro ⟨front, other, back, hcalls, hfront, hover⟩
        cases front with
        | nil =>
            obtain ⟨rfl, rfl⟩ := List.cons.inj hcalls
            have hover : maxsize ≤ dst.2 + call.bytes.length := hover
            rcases @PokeCall.run_cases maxsize dst call hpos with ⟨hroom, -⟩ | ⟨-, hneg⟩
            · omega
            · rwa [runCalls_of_neg _ hneg]
        | cons first front =>
            obtain ⟨rfl, rfl⟩ := List.cons.inj hcalls
            have hnext : 0 ≤ (call.run maxsize dst).2 := by
              by_contra hneg
              have hfront : 0 ≤ (runCalls maxsize front (call.run maxsize dst)).2 := hfront
              rw [runCalls_of_neg front (not_le.mp hneg)] at hfront
              exact hneg hfront
            exact (ih hnext).mpr ⟨front, other, back, rfl, hfront, hover⟩

-- What a builder leaves: bytes inside the buffer, and a negative offset exactly if one
-- of its fields was refused.
structure Contained (maxsize : Int) (calls : List PokeCall) (dst out : Poked) : Prop where
  inside : ∀ i : Nat, out.1 i ≠ dst.1 i → dst.2 ≤ i ∧ (i : Int) < maxsize
  refused : out.2 < 0 ↔ Refuses maxsize calls dst

theorem contained_runCalls (calls : List PokeCall) (hpos : 0 ≤ dst.2) :
    Contained maxsize calls dst (runCalls maxsize calls dst) :=
  ⟨(inside_runCalls calls dst).1, runCalls_neg_iff calls hpos⟩

-- The fields of the datasets

-- A number of codes with the codes.
def codeCalls (codes : List Nat) : List PokeCall := .poke32 codes.length :: codes.map .poke16

def deviceinfoCalls (ctx : MtpCtx) : List PokeCall :=
  [.poke16 MTP_VERSION, .poke32 0x00000006, .poke16 MTP_VERSION,
    .pokeString ctx.usbCfg.usbStringMtpExtensions, .poke16 0x0000,
    .pokeArray 2 (supportedOp.flatMap (littleEndian 2)) true,
    .pokeArray 2 (supportedEvent.flatMap (littleEndian 2)) true] ++
  codeCalls ((devProperties.map ProfileProperty.propCode).filter (isDevicePropertySupported ctx)) ++
  [.poke32 0x00000000] ++ codeCalls (fmtProperties.map FormatsProperty.formatCode) ++
  [.pokeString ctx.usbCfg.usbStringManufacturer, .pokeString ctx.usbCfg.usbStringProduct,
    .pokeString ctx.usbCfg.usbStringVersion, .pokeString ctx.usbCfg.usbStringSerial]

theorem runCalls_codeCalls (codes : List Nat) (dst : Poked) :
    runCalls maxsize (codeCalls codes) dst =
      codes.foldl (fun dst code => poke16 maxsize code dst) (poke32 maxsize codes.length dst) := by
  rw [runCalls, codeCalls, List.foldl_cons, List.foldl_map]
  rfl

theorem buildDeviceinfoDataset_eq (ctx : MtpCtx) (buffer : Buffer) :
    buildDeviceinfoDataset ctx buffer maxsize =
      runCalls maxsize (deviceinfoCalls ctx) (buffer, 0) := by
  rw [deviceinfoCalls, runCalls_append, runCalls_append, runCalls_append, runCalls_append,
    runCalls_codeCalls, runCalls_codeCalls]
  rfl

def storageinfoCalls {σ : Type} (os : Os σ) (w : World σ) (storageId : Nat) : List PokeCall :=
  match w.ctx.mtpGetStorageDescription storageId, w.ctx.mtpGetStorageRoot storageId with
  | some description, some path =>
    let flags := w.ctx.mtpGetStorageFlags storageId
    let fsbuf := os.query (.statvfs path) w.os
    let totalspace := fsbuf.elim 0x8000000000000000 fun s => s.bsize * s.blocks % 2 ^ 64
    let freespace := fsbuf.elim 0x4000000000000000 fun s => s.bsize * s.bavail % 2 ^ 64
    [.poke16 (if hasFlag flags UMTP_STORAGE_REMOVABLE then MTP_STORAGE_REMOVABLE_RAM
        else MTP_STORAGE_FIXED_RAM),
      .poke16 MTP_STORAGE_FILESYSTEM_HIERARCHICAL,
      .poke16 (if hasFlag flags UMTP_STORAGE_READONLY then MTP_STORAGE_READ_ONLY_WITHOUT_DELETE
        else MTP_STORAGE_READ_WRITE),
      .poke32 (totalspace % 2 ^ 32), .poke32 (totalspace / 2 ^ 32),
      .poke32 (freespace % 2 ^ 32), .poke32 (freespace / 2 ^ 32), .poke32 0x40000000,
      .pokeString description, .pokeString (volumeIdent storageId)]
  | _, _ => []

theorem exec_buildStorageinfoDataset {σ : Type} (os : Os σ) (w : World σ) (buffer : Buffer)
    (storageId : Nat) :
    (exec (World.handle os) (buildStorageinfoDataset buffer maxsize storageId) w).1 =
      runCalls maxsize (storageinfoCalls os w storageId) (buffer, 0) := by
  unfold buildStorageinfoDataset storageinfoCalls
  rw [exec_getCtx_bind]
  dsimp only
  generalize w.ctx.mtpGetStorageDescription storageId = description
  generalize w.ctx.mtpGetStorageRoot storageId = path
  cases description with
  | none => rfl
  | some description =>
      cases path with
      | none => rfl
      | some path => rfl

def objectinfoCalls (entry : FsEntry) (created modified : CString) : List PokeCall :=
  [.poke32 entry.storageId, .poke16 (objectFormat entry), .poke16 0x0000,
    .poke32 (compressedSize entry.size), .poke16 0x0000, .poke32 0x00000000, .poke32 0x00000000,
    .poke32 0x00000000, .poke32 0x00000000, .poke32 0x00000000, .poke32 0x00000000,
    .poke32 entry.parent, .poke16 (associationType entry), .poke32 0x00000000,
    .poke32 0x00000000, .pokeString entry.name, .pokeString created, .pokeString modified,
    .poke08 0x00]

theorem exec_buildObjectinfoDataset {σ : Type} {os : Os σ} {w : World σ}
    (hsession : w.ctx.fsDb.isSome = true) (buffer : Buffer) (p : EntryPtr) :
    (exec (World.handle os) (buildObjectinfoDataset buffer maxsize p) w).1 =
      runCalls maxsize ((statted os w p).elim [] fun found =>
        objectinfoCalls found.1 found.2 found.2) (buffer, 0) := by
  have hexec : (exec (World.handle os) (buildObjectinfoDataset buffer maxsize p) w).1 =
      (statted os w p).elim (buffer, 0) fun found =>
        objectinfo maxsize found.1 found.2 found.2 (buffer, 0) :=
    exec_statted hsession p (buffer, 0) fun entry created modified =>
      objectinfo maxsize entry created modified (buffer, 0)
  rw [hexec]
  cases statted os w p with
  | none => rfl
  | some found =>
      rw [Option.elim_some, Option.elim_some]
      unfold objectinfo objectinfoCalls
      simp only [runCalls, List.foldl_cons, List.foldl_nil, PokeCall.run]

def eventCalls (ctx : MtpCtx) (event : Nat) (parameters : List Nat) : List PokeCall :=
  [.poke32 0, .poke16 MTP_CONTAINER_TYPE_EVENT, .poke16 event, .poke32 ctx.sessionId] ++
    parameters.map .poke32

-- The size is put over the first field, which has its room.
theorem contained_buildEventDataset (ctx : MtpCtx) (buffer : Buffer) (event : Nat)
    (parameters : List Nat) :
    Contained maxsize (eventCalls ctx event parameters) (buffer, 0)
      (buildEventDataset ctx buffer maxsize event parameters) := by
  have hpos : (0 : Int) ≤ ((buffer, 0) : Poked).2 := le_refl _
  obtain ⟨hinside, hrefused⟩ :=
    @contained_runCalls maxsize (buffer, 0) (eventCalls ctx event parameters) hpos
  have hevent : buildEventDataset ctx buffer maxsize event parameters =
      let out := runCalls maxsize (eventCalls ctx event parameters) (buffer, 0)
      if 0 ≤ out.2 then ((poke32 maxsize (u32 out.2) (out.1, 0)).1, out.2) else out := by
    rw [buildEventDataset, eventCalls, runCalls_append]
    simp only [runCalls, List.foldl_map]
    rfl
  rw [hevent]
  dsimp only
  split
  · refine ⟨fun i hi => ?_, hrefused⟩
    obtain ⟨hsize, -⟩ := @inside_pokeBytes maxsize (littleEndian 4
      (u32 (runCalls maxsize (eventCalls ctx event parameters) (buffer, 0)).2))
      ((runCalls maxsize (eventCalls ctx event parameters) (buffer, 0)).1, 0)
    by_cases hsame : (runCalls maxsize (eventCalls ctx event parameters) (buffer, 0)).1 i = buffer i
    · apply hsize
      dsimp only
      rwa [hsame]
    · exact hinside i hsame
  · exact ⟨hinside, hrefused⟩

-- Writers put their bytes from the offset on and inside the buffer, and a call that does
-- not fit is told by the results of all the later ones, which write nothing. So the
-- builders fail exactly if one of their fields was refused.
theorem datasets_contained (maxsize : Int) (buffer : Buffer) (start : Nat)
    (calls : List PokeCall) :
    (∀ i : Nat, (runCalls maxsize calls (buffer, start)).1 i ≠ buffer i →
      start ≤ i ∧ (i : Int) < maxsize) ∧
    (∀ front call back, calls = front ++ call :: back →
      let before := runCalls maxsize front (buffer, start)
      let after := call.run maxsize before
      (0 ≤ after.2 → 0 ≤ before.2 ∧
        after = (before.1.write before.2.toNat call.bytes, before.2 + call.bytes.length)) ∧
      (0 ≤ before.2 → (after.2 < 0 ↔ maxsize ≤ before.2 + call.bytes.length)) ∧
      (after.2 < 0 → ∀ later, later <+: back → runCalls maxsize later after = after)) ∧
    (∀ ctx : MtpCtx, Contained maxsize (deviceinfoCalls ctx) (buffer, 0)
      (buildDeviceinfoDataset ctx buffer maxsize)) ∧
    (∀ (σ : Type) (os : Os σ) (w : World σ) (storageId : Nat),
      Contained maxsize (storageinfoCalls os w storageId) (buffer, 0)
        (exec (World.handle os) (buildStorageinfoDataset buffer maxsize storageId) w).1) ∧
    (∀ (σ : Type) (os : Os σ) (w : World σ) (p : EntryPtr), w.ctx.fsDb.isSome = true →
      Contained maxsize ((statted os w p).elim [] fun found =>
          objectinfoCalls found.1 found.2 found.2) (buffer, 0)
        (exec (World.handle os) (buildObjectinfoDataset buffer maxsize p) w).1) ∧
    ∀ (ctx : MtpCtx) (event : Nat) (parameters : List Nat),
      Contained maxsize (eventCalls ctx event parameters) (buffer, 0)
        (buildEventDataset ctx buffer maxsize event parameters) := by
  refine ⟨fun i hi => ?_, fun front call back hcalls => ?_, fun ctx => ?_,
    fun σ os w storageId => ?_, fun σ os w p hsession => ?_, fun ctx event parameters => ?_⟩
  · have hrange := (inside_runCalls calls (buffer, (start : Int))).1 i hi
    exact ⟨by omega, hrange.2⟩
  · dsimp only
    refine ⟨fun hdone => ?_, fun hbefore => ?_, fun hneg later _ => runCalls_of_neg later hneg⟩
    · have hbefore : 0 ≤ (runCalls maxsize front (buffer, (start : Int))).2 := by
        by_contra hneg
        rw [call.run_of_neg (not_le.mp hneg)] at hdone
        exact hneg hdone
      rcases call.run_cases hbefore with ⟨-, hwritten⟩ | ⟨-, hneg⟩
      · exact ⟨hbefore, hwritten⟩
      · omega
    · rcases call.run_cases hbefore with ⟨hroom, hwritten⟩ | ⟨hover, hneg⟩
      · rw [hwritten]
        dsimp only
        omega
      · exact iff_of_true hneg hover
  · rw [buildDeviceinfoDataset_eq]
    exact contained_runCalls _ (le_refl _)
  · rw [exec_buildStorageinfoDataset]
    exact contained_runCalls _ (le_refl _)
  · rw [exec_buildObjectinfoDataset hsession]
    exact contained_runCalls _ (le_refl _)
  · exact contained_buildEventDataset ctx buffer event parameters

-- A session with a file listed, and a buffer that holds the first field of its dataset.
theorem datasets_contained_sample :
    let w := run (World.step memOs) twoStorages [openSession, getObjectHandles 0xFFFF0001 0]
    let p : EntryPtr := ⟨1, 1021⟩
    (w.ctx.entry p).handle = 1 ∧
      Contained 8 ((statted memOs w p).elim [] fun found =>
          objectinfoCalls found.1 found.2 found.2) (fun _ => 0, 0)
        (exec (World.handle memOs) (buildObjectinfoDataset (fun _ => 0) 8 p) w).1 :=
  ⟨by decide +kernel,
    (datasets_contained 8 (fun _ => 0) 0 []).2.2.2.2.1 _ memOs _ _ (by decide +kernel)⟩

end Umtp
