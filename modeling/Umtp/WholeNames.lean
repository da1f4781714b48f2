import Umtp.ObjectCreation
import Umtp.PropertyLists
import Umtp.StringCodec

namespace Umtp

open Lib Lib.Prog Handles Text

namespace Text

-- What a cut leaves of a name

-- The first units, as long as their bytes have room, and the others.
def fitting : (room : Nat) → List Nat → List Nat × List Nat
  | _, [] => ([], [])
  | room, unit :: rest =>
    if (utf8Encode unit).length ≤ room then
      let split := fitting (room - (utf8Encode unit).length) rest
      (unit :: split.1, split.2)
    else
      ([], unit :: rest)

theorem fitting_append (room : Nat) (units : List Nat) :
    (fitting room units).1 ++ (fitting room units).2 = units := by
  induction units generalizing room with
  | nil => rfl
  | cons unit rest ih =>
      rw [fitting]
      split
      · exact congrArg (unit :: ·) (ih _)
      · rfl

theorem length_fitting (room : Nat) (units : List Nat) :
    ((fitting room units).1.flatMap utf8Encode).length ≤ room := by
  induction units generalizing room with
  | nil => exact Nat.zero_le _
  | cons unit rest ih =>
      rw [fitting]
      split
      · have hrest := ih (room - (utf8Encode unit).length)
        rw [List.flatMap_cons, List.length_append]
        omega
      · exact Nat.zero_le _

theorem utf8Encode_ne_nil {unit : Nat} (hlt : unit < 2 ^ 16) : utf8Encode unit ≠ [] := by
  rw [utf8Encode]
  split
  · exact List.cons_ne_nil _ _
  split
  · exact List.cons_ne_nil _ _
  rw [if_pos (by omega)]
  exact List.cons_ne_nil _ _

-- A string ends before the first character that has no room.
theorem unicode2charstring_fitting {maxsize : Nat} {units : List Nat}
    (hunits : ∀ unit ∈ units, 0 < unit ∧ unit < 2 ^ 16) (more : List Nat) {front : CString}
    (hfront : front.length < maxsize) :
    unicode2charstring maxsize (units ++ 0 :: more) front =
      front ++ (fitting (maxsize - 1 - front.length) units).1.flatMap utf8Encode := by
  rw [unicode2charstring]
  induction units generalizing front with
  | nil => simp [convertUnits, fitting]
  | cons unit rest ih =>
      obtain ⟨hpos, hlt⟩ := hunits unit List.mem_cons_self
      rw [List.cons_append, convertUnits, if_neg (by omega)]
      dsimp only
      rw [if_neg (utf8Encode_ne_nil hlt), fitting]
      by_cases hroom : front.length + (utf8Encode unit).length < maxsize
      · have hnext : maxsize - 1 - front.length - (utf8Encode unit).length =
            maxsize - 1 - (front ++ utf8Encode unit).length := by
          rw [List.length_append]
          omega
        rw [if_pos hroom, if_pos (by omega),
          ih (fun v hv => hunits v (List.mem_cons_of_mem _ hv))
            (by rw [List.length_append]; exact hroom), hnext]
        simp
      · rw [if_neg hroom, if_neg (by omega)]
        simp

-- The end of a string that stripTrailing takes away.
def IsTail (str : CString) : Prop := ∀ c ∈ str, c = DOT ∨ c = SPACE

instance (str : CString) : Decidable (IsTail str) :=
  inferInstanceAs (Decidable (∀ c ∈ str, _))

theorem stripTrailing_append_of_isTail (front : CString) {tail : CString} (h : IsTail tail) :
    stripTrailing (front ++ tail) = stripTrailing front := by
  have hall : ∀ c ∈ tail.reverse, (c == DOT || c == SPACE) = true := by
    intro c hc
    simpa using h c (List.mem_reverse.mp hc)
  rw [stripTrailing, stripTrailing, List.reverse_append, List.dropWhile_append_of_pos hall]

-- Otherwise a longer string stays longer.
theorem length_stripTrailing_append (front : CString) {tail : CString} (h : ¬IsTail tail) :
    front.length < (stripTrailing (front ++ tail)).length := by
  obtain ⟨c, hc, hkept⟩ : ∃ c ∈ tail, ¬(c = DOT ∨ c = SPACE) := by
    simpa [IsTail] using h
  have hne : tail.reverse.dropWhile (fun c => c == DOT || c == SPACE) ≠ [] := by
    intro hnil
    have hall := List.dropWhile_eq_nil_iff.mp hnil c (List.mem_reverse.mpr hc)
    exact hkept (by simpa using hall)
  rw [stripTrailing, List.reverse_append, List.dropWhile_append, if_neg (by simpa using hne),
    List.reverse_append, List.reverse_reverse, List.length_append, List.length_reverse]
  have hpos := List.length_pos_iff.mpr hne
  omega

theorem stripLeading_append {front : CString} (h : stripLeading front ≠ []) (tail : CString) :
    stripLeading (front ++ tail) = stripLeading front ++ tail := by
  rw [stripLeading] at h
  rw [stripLeading, stripLeading, List.dropWhile_append, if_neg (by simpa using h)]

theorem isTail_replaceForbidden (str : CString) : IsTail (replaceForbidden str) ↔ IsTail str := by
  have hbyte : ∀ c : UInt8,
      ((if c < 0x80 && isForbiddenAscii c then UNDERSCORE else c) = DOT ∨
        (if c < 0x80 && isForbiddenAscii c then UNDERSCORE else c) = SPACE) ↔
        (c = DOT ∨ c = SPACE) := by
    refine forall_byte ?_
    set_option maxRecDepth 4000 in decide
  simp only [IsTail, replaceForbidden, List.forall_mem_map, hbyte]

theorem stripTrailing_ne_nil {str : CString} (h : stripTrailing str ≠ []) : str ≠ [] := by
  rintro rfl
  exact h rfl

-- The sanitized forms of a string and of its front are the same if no more than dots
-- and spaces are left out.
theorem stripped_append_iff {front tail : CString}
    (h : stripTrailing (stripLeading (replaceForbidden front)) ≠ []) :
    stripTrailing (stripLeading (replaceForbidden (front ++ tail))) =
      stripTrailing (stripLeading (replaceForbidden front)) ↔ IsTail tail := by
  have hmap : replaceForbidden (front ++ tail) = replaceForbidden front ++ replaceForbidden tail :=
    List.map_append
  rw [hmap, stripLeading_append (stripTrailing_ne_nil h), ← isTail_replaceForbidden]
  constructor
  · intro heq
    by_contra hno
    have hlonger := length_stripTrailing_append (stripLeading (replaceForbidden front)) hno
    have hshorter := (stripTrailing_front (stripLeading (replaceForbidden front))).length_le
    rw [heq] at hlonger
    omega
  · exact stripTrailing_append_of_isTail _

-- The sanitized form of a string of any length.
def sanitizedForm (str : CString) : Option CString := sanitizeName str str.length

theorem isUtf8_of_isTail {tail : CString} (h : IsTail tail) : IsUtf8 tail := by
  induction tail with
  | nil => exact ⟨[], rfl⟩
  | cons c tail ih =>
      obtain ⟨chars, hchars⟩ := ih fun d hd => h d (List.mem_cons_of_mem _ hd)
      rcases h c List.mem_cons_self with rfl | rfl
      · exact ⟨'.' :: chars, by rw [List.flatMap_cons, ← hchars]; rfl⟩
      · exact ⟨' ' :: chars, by rw [List.flatMap_cons, ← hchars]; rfl⟩

theorem isUtf8_append {front tail : CString} (hfront : IsUtf8 front) (htail : IsUtf8 tail) :
    IsUtf8 (front ++ tail) := by
  obtain ⟨chars, rfl⟩ := hfront
  obtain ⟨chars', rfl⟩ := htail
  exact ⟨chars ++ chars', List.flatMap_append.symm⟩

-- A front that is accepted gives the sanitized form of the whole if only dots and
-- spaces are left out, and no two dots come together.
theorem sanitize_front_iff {front tail : CString} {maxLen : Nat} (hlen : front.length ≤ maxLen) :
    (∀ name, sanitizeName front maxLen = some name → sanitizedForm (front ++ tail) = some name) ↔
      sanitizeName front maxLen = none ∨ IsTail tail ∧ ¬[DOT, DOT] <:+: front ++ tail := by
  constructor
  · intro h
    cases hname : sanitizeName front maxLen with
    | none => exact Or.inl rfl
    | some name =>
        obtain ⟨⟨hdots, -, -⟩, hwhole⟩ := (sanitizeName_eq_some_iff (le_refl _)).mp (h name hname)
        obtain ⟨-, hsame⟩ := (sanitizeName_eq_some_iff hlen).mp hname
        have hne := (isSanitized_of_sanitizeName hname).ne_nil
        rw [hsame] at hne hwhole
        exact Or.inr ⟨(stripped_append_iff hne).mp hwhole.symm, hdots⟩
  · rintro (hnone | ⟨htail, hdots⟩) name hname
    · rw [hnone] at hname
      cases hname
    · obtain ⟨⟨-, hutf, c, hc, hkept⟩, hsame⟩ := (sanitizeName_eq_some_iff hlen).mp hname
      have hne := (isSanitized_of_sanitizeName hname).ne_nil
      rw [hsame] at hne
      refine (sanitizeName_eq_some_iff (le_refl _)).mpr
        ⟨⟨hdots, isUtf8_append hutf (isUtf8_of_isTail htail), c,
        List.mem_append_left _ hc, hkept⟩, ?_⟩
      rw [hsame, (stripped_append_iff hne).mpr htail]

end Text

-- Names that are received

variable {σ : Type} {os : Os σ} {w : World σ} {buffer : Buffer} {ofs : Nat} {units : List Nat}

-- The buffer has a string at an offset: the number of its units, the units and a
-- zero.
structure HoldsString (buffer : Buffer) (ofs : Nat) (units : List Nat) : Prop where
  count : peek buffer ofs 1 = units.length + 1
  read : unitsFrom buffer (ofs + 1) (units.length + 1) = units ++ [0]
  nonzero : ∀ unit ∈ units, unit ≠ 0

theorem HoldsString.unit_lt (h : HoldsString buffer ofs units) :
    ∀ unit ∈ units, 0 < unit ∧ unit < 2 ^ 16 := by
  intro unit hunit
  have hmem : unit ∈ unitsFrom buffer (ofs + 1) (units.length + 1) := by
    rw [h.read]
    exact List.mem_append_left _ hunit
  obtain ⟨i, -, rfl⟩ := List.mem_map.mp hmem
  exact ⟨Nat.pos_of_ne_zero (h.nonzero _ hunit), peekBytes_lt _ _ 2⟩

theorem holdsString_of_read (hunits : ∀ unit ∈ units, 0 < unit ∧ unit < 2 ^ 16)
    (hlen : units.length < UNICODE_STR_SIZE)
    (h : buffer.read ofs (littleEndian 1 (units.length + 1) ++
      (units ++ [0]).flatMap (littleEndian 2)).length =
        littleEndian 1 (units.length + 1) ++ (units ++ [0]).flatMap (littleEndian 2)) :
    HoldsString buffer ofs units := by
  have hcount : units.length + 1 < 2 ^ (8 * 1) := by
    have hsize : UNICODE_STR_SIZE = 255 := rfl
    omega
  have hlt : ∀ unit ∈ units ++ [0], unit < 2 ^ 16 := by
    intro unit hunit
    rcases List.mem_append.mp hunit with hunit | hunit
    · exact (hunits unit hunit).2
    · rw [List.mem_singleton.mp hunit]
      omega
  obtain ⟨hfront, hback⟩ := read_append h
  rw [length_littleEndian] at hback
  refine ⟨peek_littleEndian hcount hfront, ?_, fun unit hunit => (hunits unit hunit).1.ne'⟩
  have hread := peek_units hback hlt
  rw [List.length_append, List.length_singleton] at hread
  exact hread

-- The string that the units stand for, and the part of it that has room for the
-- daemon.
def wholeName (units : List Nat) : CString := units.flatMap utf8Encode

def fittingName (units : List Nat) : CString :=
  wholeName (fitting FS_HANDLE_MAX_FILENAME_SIZE units).1

def leftOut (units : List Nat) : CString :=
  wholeName (fitting FS_HANDLE_MAX_FILENAME_SIZE units).2

theorem wholeName_eq (units : List Nat) : wholeName units = fittingName units ++ leftOut units := by
  rw [fittingName, leftOut, wholeName, wholeName, wholeName, ← List.flatMap_append, fitting_append]

-- The part that has room is refused, or no more than dots and spaces are left out.
def KeptWhole (units : List Nat) : Prop :=
  sanitizeName (fittingName units) TMP_STR_SIZE = none ∨
    IsTail (leftOut units) ∧ ¬[DOT, DOT] <:+: wholeName units

theorem keptWhole_iff (units : List Nat) :
    (∀ name, sanitizeName (fittingName units) TMP_STR_SIZE = some name →
      sanitizedForm (wholeName units) = some name) ↔ KeptWhole units := by
  have hlen : (fittingName units).length ≤ TMP_STR_SIZE :=
    (length_fitting FS_HANDLE_MAX_FILENAME_SIZE units).trans (by decide)
  rw [KeptWhole, wholeName_eq]
  exact sanitize_front_iff hlen

theorem HoldsString.charstring (h : HoldsString buffer ofs units) {more : List Nat} :
    unicode2charstring TMP_STR_SIZE (units ++ 0 :: more) [] = fittingName units := by
  rw [unicode2charstring_fitting h.unit_lt more (by decide)]
  rfl

theorem HoldsString.datasetName {dataset : Buffer} (h : HoldsString dataset 0x34 units) :
    datasetName dataset = fittingName units := by
  have hunits := h.read
  rw [Umtp.datasetName, h.count]
  change unicode2charstring TMP_STR_SIZE (unitsFrom dataset 0x35 (units.length + 1)) [] = _
  rw [hunits]
  exact h.charstring

-- The name that SetObjectPropValue gives an object.
theorem HoldsString.newFilename {hdr : Buffer} (h : HoldsString hdr MTP_HEADER_SIZE units) :
    newFilename hdr = sanitizeName (fittingName units) TMP_STR_SIZE := by
  have hlt : peek hdr MTP_HEADER_SIZE 1 < 2 ^ 8 := peekBytes_lt hdr _ 1
  rw [h.count] at hlt
  obtain ⟨more, hmore⟩ := Nat.exists_eq_add_of_le
    (show units.length + 1 ≤ FS_HANDLE_MAX_FILENAME_SIZE + 1 by
      have : FS_HANDLE_MAX_FILENAME_SIZE = 256 := rfl
      omega)
  obtain ⟨rest, hrest⟩ := unitsFrom_add hdr (MTP_HEADER_SIZE + 1) (units.length + 1) more
  rw [h.read, List.append_assoc, List.singleton_append] at hrest
  have hname : Umtp.newFilename hdr =
      sanitizeName (unicode2charstring (FS_HANDLE_MAX_FILENAME_SIZE + 1)
        (unitsFrom hdr (MTP_HEADER_SIZE + 1) (FS_HANDLE_MAX_FILENAME_SIZE + 1)) [])
          (FS_HANDLE_MAX_FILENAME_SIZE + 1) := rfl
  rw [hname, hmore, hrest, ← hmore]
  exact congrArg (sanitizeName · TMP_STR_SIZE) h.charstring

theorem stored_makeObject {make : CString → M Bool} {answer : Option EntryPtr → M (Nat × Nat)}
    (hmake : IsMaker os make) (hanswer : IsAnswer os answer) (ho : w.ctx.Ordered)
    (hdb : w.ctx.fsDb.isSome = true) (folder : EntryPtr) (fileinfo : FileFoundInfo)
    (parent storageId : Nat) :
    let result := exec (World.handle os) (makeObject make answer folder fileinfo parent storageId) w
    result.1.1 = MTP_RESPONSE_OK → result.1.2 ≠ NO_HANDLE → ∃ p, result.2.ctx.db.Live p ∧
      (result.2.ctx.entry p).handle = result.1.2 ∧
        (result.2.ctx.entry p).name = fileinfo.filename := by
  intro result hok hhandle
  have hresult : result =
    exec (World.handle os) (makeObject make answer folder fileinfo parent storageId) w := rfl
  have hcases := @makeObject_cases _ os w make answer folder fileinfo parent storageId hmake
    hanswer ho hdb
  have hwithout : ∀ {code}, Without os (makeObject make answer folder fileinfo parent storageId) w
      code → False := by
    intro code h
    rw [hresult, h.answer] at hhandle
    exact hhandle rfl
  split at hcases
  · rcases hcases with h | ⟨entry, hentered⟩
    · exact (hwithout h).elim
    · have hanswered := hentered.answer
      rw [← hresult] at hanswered
      cases entry with
      | none =>
          rw [hanswered] at hhandle
          exact absurd rfl hhandle
      | some p =>
          obtain ⟨hlive, hname, -⟩ := hentered.registered.listed p rfl
          exact ⟨p, hlive, by rw [hanswered]; rfl, hname⟩
  · exact (hwithout hcases).elim

-- A new object gets the name that is decoded.
theorem stored_parseIncomingDataset (ho : w.ctx.Ordered) (hdb : w.ctx.fsDb.isSome = true)
    {datain : Buffer} (hcode : hdrCode datain = MTP_OPERATION_SEND_OBJECT_INFO)
    (parentHandle storageId : Nat) :
    let result := exec (World.handle os) (parseIncomingDataset datain parentHandle storageId) w
    result.1.1 = MTP_RESPONSE_OK → result.1.2 ≠ NO_HANDLE →
      ∃ object p, decodeObjectInfo (datain.shift MTP_HEADER_SIZE) = some object ∧
        result.2.ctx.db.Live p ∧ (result.2.ctx.entry p).handle = result.1.2 ∧
        (result.2.ctx.entry p).name = object.name := by
  intro result hok hhandle
  have hresult : result =
    exec (World.handle os) (parseIncomingDataset datain parentHandle storageId) w := rfl
  rw [parseIncomingDataset_eq hcode, acceptObject, exec_getCtx_bind] at hresult
  generalize (if parentHandle = NO_HANDLE then 0 else parentHandle) = parent at hresult
  dsimp only at hresult
  split at hresult
  · rw [hresult] at hok
    exact absurd hok (by decide : ¬MTP_RESPONSE_INVALID_STORAGE_ID = MTP_RESPONSE_OK)
  split at hresult
  · rw [hresult] at hok
    exact absurd hok (by decide : ¬MTP_RESPONSE_STORE_READ_ONLY = MTP_RESPONSE_OK)
  cases hobject : decodeObjectInfo (datain.shift MTP_HEADER_SIZE) with
  | none =>
      rw [hobject] at hresult
      rw [hresult] at hok
      exact absurd hok (by decide : ¬MTP_RESPONSE_INVALID_DATASET = MTP_RESPONSE_OK)
  | some object =>
      rw [hobject] at hresult
      dsimp only at hresult
      cases hfolder : w.ctx.getEntryByHandleAndStorageid parent storageId with
      | none =>
          rw [hfolder] at hresult
          rw [hresult] at hhandle
          exact absurd rfl hhandle
      | some folder =>
          rw [hfolder] at hresult
          dsimp only at hresult
          split at hresult
          · split at hresult
            · rw [createFolder_eq_makeObject, exec_getCtx_bind] at hresult
              have hstored := @stored_makeObject _ os _ _ _
                (isMaker_makeFolder (w.ctx.entry folder).storageId) isAnswer_answerFolder ho hdb
                folder ⟨true, object.name, 0⟩ parent storageId
              rw [← hresult] at hstored
              obtain ⟨p, hp⟩ := hstored hok hhandle
              exact ⟨object, p, rfl, hp⟩
            · rw [createFile_eq_makeObject] at hresult
              have hstored := @stored_makeObject _ os _ _ _ (isMaker_makeFile storageId)
                (isAnswer_expectObject object.size) ho hdb folder ⟨false, object.name, object.size⟩
                parent storageId
              rw [← hresult] at hstored
              obtain ⟨p, hp⟩ := hstored hok hhandle
              exact ⟨object, p, rfl, hp⟩
          · rw [hresult] at hhandle
            exact absurd rfl hhandle

theorem exec_getObjectPropFilename (hdr : Buffer) {name : CString}
    (h : (exec (World.handle os) (getObjectPropFilename hdr) w).1 = some name) :
    newFilename hdr = some name := by
  rw [getObjectPropFilename, exec_act_bind] at h
  split at h
  · exact h
  · cases h

-- The commands that leave the session open.
def Cmd.KeepsSession (c : Cmd) : Prop := c ≠ .dropFsDb

theorem keepsSession_identifies : Identifies Cmd.KeepsSession where
  getCtx := nofun
  query _ := nofun
  malloc := nofun
  setfsuid _ := nofun
  setfsgid _ := nofun

theorem Cmd.KeepsSession.kept {prog : M α} (hp : Uses AnyAnswer Cmd.KeepsSession prog)
    (hdb : w.ctx.fsDb.isSome = true) :
    (exec (World.handle os) prog w).2.ctx.fsDb.isSome = true := by
  refine uses_exec (I := fun w : World σ => w.ctx.fsDb.isSome = true) hp (fun w c hc hi => ?_) hdb
  cases c with
  | dropFsDb => exact absurd rfl hc
  | db op => simpa [World.handle, MtpCtx.applyDb] using hi
  | flagDeleted site p => simpa [World.handle, MtpCtx.applyDb] using hi
  | initFsDb => rfl
  | _ => exact hi

theorem name_renameEntry (hdb : w.ctx.fsDb.isSome = true) (mem : AllocMem) (p : EntryPtr)
    (name : CString) : ((w.ctx.applyDb (.renameEntry mem p name)).entry p).name = name := by
  obtain ⟨db, hdb⟩ := Option.isSome_iff_exists.mp hdb
  have hnew : (w.ctx.applyDb (.renameEntry mem p name)).db = db.renameEntry mem p name := by
    rw [MtpCtx.db, MtpCtx.applyDb, hdb]
    rfl
  rw [MtpCtx.entry, hnew, FsHandlesDb.renameEntry_pool, FsHandlesDb.setEntry_pool_self]

-- An object that is renamed gets the new name.
theorem stored_renameObject (hdb : w.ctx.fsDb.isSome = true) (hdr : Buffer) (p : EntryPtr) :
    let result := exec (World.handle os) (renameObject hdr p) w
    result.1 = MTP_RESPONSE_OK →
      ∃ name, newFilename hdr = some name ∧ (result.2.ctx.entry p).name = name := by
  obtain ⟨open_, hopen⟩ : ∃ open_ : World σ → Prop,
    open_ = fun w => w.ctx.fsDb.isSome = true := ⟨_, rfl⟩
  obtain ⟨stored, hstored⟩ : ∃ stored : Nat → World σ → Prop, stored = fun code w =>
    code = MTP_RESPONSE_OK → ∃ name, newFilename hdr = some name ∧ (w.ctx.entry p).name = name :=
    ⟨_, rfl⟩
  have hkeep : ∀ {β : Type} {prog : M β}, Uses AnyAnswer Cmd.KeepsSession prog →
      Ensures (World.handle os) (fun _ _ => True) open_ prog fun _ => open_ := by
    intro β prog hp w hw _
    rw [hopen] at hw ⊢
    exact Cmd.KeepsSession.kept hp hw
  have hfail : Ensures (World.handle os) (fun _ _ => True) open_
      (.ret MTP_RESPONSE_GENERAL_ERROR) stored := by
    refine ensures_ret fun w _ => ?_
    rw [hstored]
    exact fun h => absurd h (by decide)
  have hbuilds := keepsSession_identifies
  have hall : Ensures (World.handle os) (fun _ _ => True) open_ (renameObject hdr p) stored := by
    unfold renameObject
    refine ensures_bind (hkeep (uses_cmd hbuilds.getCtx)) fun ctx => ?_
    refine ensures_bind (hkeep (hbuilds.getCtx_bind fun _ => hbuilds.buildFullPathNamed _ _ _))
      fun path => ?_
    cases path with
    | none => exact hfail
    | some path =>
        have hname : Ensures (World.handle os) (fun _ _ => True) open_ (getObjectPropFilename hdr)
            fun found w => open_ w ∧ ∀ name ∈ found, newFilename hdr = some name := by
          intro w hw hs
          refine ⟨hkeep ?_ w hw hs, fun name hfound => exec_getObjectPropFilename hdr hfound⟩
          refine uses_bind (uses_act_of hbuilds.malloc) fun memory => ?_
          split
          · exact uses_pure _
          · exact uses_pure _
        refine ensures_bind hname fun found => ensures_of_fact (fun w hw => hw.2) fun hfound => ?_
        refine ensures_weaken (P := open_) (Q := stored) ?_ (fun w hw => hw.1) fun _ _ h => h
        cases found with
        | none => exact hfail
        | some name =>
            refine ensures_bind (hkeep (hbuilds.buildFullPathNamed _ _ _)) fun path2 => ?_
            cases path2 with
            | none => exact hfail
            | some path2 =>
                refine ensures_bind (hkeep (hbuilds.setStorageGiduid _)) fun set => ?_
                have hrest : ∀ renamed : Bool, Ensures (World.handle os) (fun _ _ => True) open_ (do
                    restoreGiduid
                    if renamed then
                      let mem ← M.act .entryMemory
                      M.db_ (.renameEntry mem p name)
                      return MTP_RESPONSE_OK
                    else
                      return MTP_RESPONSE_GENERAL_ERROR) stored := by
                  intro renamed
                  refine ensures_bind (hkeep hbuilds.restoreGiduid) fun _ => ?_
                  cases renamed with
                  | false => exact hfail
                  | true =>
                      refine ensures_bind (hkeep (uses_act_of nofun)) fun mem => ?_
                      rw [hopen, hstored]
                      intro w hw _ _
                      exact ⟨name, hfound name rfl, name_renameEntry hw mem p name⟩
                cases set with
                | false => exact hrest false
                | true => exact ensures_bind (hkeep (uses_act_of nofun)) hrest
  intro result
  have hrun := hall w (hopen ▸ hdb) fun _ _ => trivial
  rw [hstored] at hrun
  exact hrun

-- Names that are sent

namespace Text

-- The UTF-16 form of a text.
def utf16Char (c : Char) : List Nat :=
  let v := c.val.toNat
  if v < 2 ^ 16 then [v]
  else [0xD800 + (v - 2 ^ 16) / 2 ^ 10, 0xDC00 + (v - 2 ^ 16) % 2 ^ 10]

def utf16 (chars : List Char) : List Nat := chars.flatMap utf16Char

theorem length_utf16 (chars : List Char) : chars.length ≤ (utf16 chars).length := by
  induction chars with
  | nil => exact Nat.zero_le _
  | cons c chars ih =>
      have hone : 1 ≤ (utf16Char c).length := by
        rw [utf16Char]
        split
        · exact le_refl _
        · exact Nat.le_succ _
      rw [utf16] at ih ⊢
      rw [List.flatMap_cons, List.length_append, List.length_cons]
      omega

theorem utf16_of_lt {chars : List Char} (h : ∀ c ∈ chars, c.val.toNat < 2 ^ 16) :
    utf16 chars = chars.map fun c => c.val.toNat := by
  rw [utf16, List.map_eq_flatMap]
  exact List.flatMap_congr fun c hc => if_pos (h c hc)

theorem utf2unicode_lt (str : CString) : (utf2unicode str).1 < 2 ^ 16 := by
  have hbyte : ∀ c : UInt8, c.toNat < 2 ^ 8 ∧ (c &&& 0x1F).toNat < 2 ^ 5 ∧
      (c &&& 0x0F).toNat < 2 ^ 4 ∧ (c &&& 0x3F).toNat < 2 ^ 6 := by
    refine forall_byte ?_
    set_option maxRecDepth 4000 in decide
  have h0 := hbyte (str.getD 0 0)
  have h1 := hbyte (str.getD 1 0)
  rw [utf2unicode]
  dsimp only
  split
  · dsimp only
    omega
  · split
    · decide
    · dsimp only
      omega
  · split
    · decide
    · dsimp only
      omega
  · decide

theorem unicodeUnits_lt (count : Nat) (str : CString) :
    ∀ unit ∈ unicodeUnits count str, unit < 2 ^ 16 := by
  induction count generalizing str with
  | zero => exact nofun
  | succ count ih =>
      have hfirst := utf2unicode_lt str
      rw [unicodeUnits]
      dsimp only
      split
      · simpa using hfirst
      · intro unit hunit
        rcases List.mem_cons.mp hunit with rfl | hunit
        · exact hfirst
        · exact ih _ unit hunit

-- The conversion ends where nothing is read.
theorem Spelled.length_units_le {str : CString} {units : List Nat} (h : Spelled str units)
    {junk : CString} (hjunk : (utf2unicode junk).1 = 0) (count : Nat) :
    (unicodeUnits count (str ++ junk)).length ≤ units.length + 1 := by
  induction h generalizing count with
  | nil =>
      cases count with
      | zero => exact Nat.zero_le _
      | succ count =>
          rw [List.nil_append, unicodeUnits]
          dsimp only
          rw [hjunk]
          simp
  | @cons chunk unit tail units hchunk hrest ih =>
      cases count with
      | zero => exact Nat.zero_le _
      | succ count =>
          have hpos := hchunk.unit_lt
          have hsome : chunk.length ≠ 0 := by cases hchunk <;> simp
          rw [List.append_assoc, unicodeUnits, hchunk.read]
          dsimp only
          rw [if_neg (by simp only [Bool.or_eq_true, decide_eq_true_eq]; omega), List.drop_left,
            List.length_cons, List.length_cons]
          exact Nat.succ_le_succ (ih count)

-- What is read from the start of a sequence that is cut, or has four bytes.
theorem read_two {c : UInt8} (h : c &&& 0xE0 = 0xC0) : (utf2unicode [c]).1 = 0 := by
  simp [utf2unicode, (byte_two c h).1]

theorem read_three {c : UInt8} (h : c &&& 0xF0 = 0xE0) :
    (utf2unicode [c]).1 = 0 ∧ ∀ c1, (utf2unicode [c, c1]).1 = 0 := by
  constructor
  · simp [utf2unicode, (byte_three c h).1]
  · intro c1
    simp [utf2unicode, (byte_three c h).1]

theorem read_four {c : UInt8} (h : utf8Size c = 4) (rest : CString) :
    (utf2unicode (c :: rest)).1 = 0 := by
  simp [utf2unicode, h]

theorem size_four : ∀ x < 8, utf8Size (UInt8.ofNat (x + 0xF0)) = 4 := by
  set_option maxRecDepth 4000 in decide

-- Nothing is read from a character above U+FFFF, or from a part of a character.
theorem utf2unicode_cut {c : Char} {n : Nat}
    (h : ¬(c.val.toNat < 2 ^ 16 ∧ (String.utf8EncodeChar c).length ≤ n)) (rest : CString) :
    (utf2unicode ((String.utf8EncodeChar c ++ rest).take n)).1 = 0 := by
  cases n with
  | zero => rw [List.take_zero]; decide
  | succ n =>
      rw [String.utf8EncodeChar] at h ⊢
      generalize c.val.toNat = v at h ⊢
      by_cases hone : v ≤ 0x7F
      · rw [if_pos hone, List.length_singleton] at h
        omega
      by_cases htwo : v ≤ 0x07FF
      · rw [if_neg hone, if_pos htwo] at h ⊢
        obtain rfl : n = 0 := by
          simp only [List.length_cons, List.length_nil] at h
          omega
        exact read_two (lead_two _ (by omega)).2.1
      by_cases hthree : v ≤ 0xFFFF
      · rw [if_neg hone, if_neg htwo, if_pos hthree] at h ⊢
        obtain ⟨-, -, hlead, -⟩ := lead_three (v / 2 ^ 12 % 2 ^ 4) (by omega)
        have hn : n < 2 := by
          simp only [List.length_cons, List.length_nil] at h
          omega
        rcases (by omega : n = 0 ∨ n = 1) with rfl | rfl
        · exact (read_three hlead).1
        · exact (read_three hlead).2 _
      · rw [if_neg hone, if_neg htwo, if_neg hthree]
        exact read_four (size_four _ (by omega)) _

-- A cut text goes up to a character that is cut, or is above U+FFFF.
theorem take_text (chars : List Char) (hzero : ∀ c ∈ chars, c.val ≠ 0) (n : Nat) :
    ∃ front back junk, chars = front ++ back ∧ (∀ c ∈ front, c.val.toNat < 2 ^ 16) ∧
      (chars.flatMap String.utf8EncodeChar).take n = front.flatMap String.utf8EncodeChar ++ junk ∧
      (utf2unicode junk).1 = 0 ∧
      (back = [] → (chars.flatMap String.utf8EncodeChar).length ≤ n) := by
  induction chars generalizing n with
  | nil => exact ⟨[], [], [], rfl, nofun, by simp, by decide, fun _ => Nat.zero_le _⟩
  | cons c chars ih =>
      by_cases hfits : c.val.toNat < 2 ^ 16 ∧ (String.utf8EncodeChar c).length ≤ n
      · obtain ⟨front, back, junk, rfl, hsmall, htake, hjunk, hlen⟩ :=
          ih (fun d hd => hzero d (List.mem_cons_of_mem _ hd))
          (n - (String.utf8EncodeChar c).length)
        refine ⟨c :: front, back, junk, rfl, ?_, ?_, hjunk, fun hback => ?_⟩
        · intro d hd
          rcases List.mem_cons.mp hd with rfl | hd
          · exact hfits.1
          · exact hsmall d hd
        · rw [List.flatMap_cons, List.take_append, List.take_of_length_le hfits.2, htake,
            List.flatMap_cons, List.append_assoc]
        · have hrest := hlen hback
          rw [List.flatMap_cons, List.length_append]
          omega
      · refine ⟨[], c :: chars, _, rfl, nofun, rfl, ?_, nofun⟩
        rw [List.flatMap_cons]
        exact utf2unicode_cut hfits _

-- The bytes of a text.
def utf8 (chars : List Char) : CString := chars.flatMap String.utf8EncodeChar

end Text

-- A text is sent whole if its bytes have room, and it has neither characters above
-- U+FFFF nor too many.
def SentWhole (chars : List Char) : Prop :=
  (utf8 chars).length ≤ FS_HANDLE_MAX_FILENAME_SIZE ∧ (∀ c ∈ chars, c.val.toNat < 2 ^ 16) ∧
    chars.length < UNICODE_STR_SIZE

theorem spelled_utf8 {chars : List Char}
    (hchars : ∀ c ∈ chars, c.val ≠ 0 ∧ c.val.toNat < 2 ^ 16) :
    Spelled (utf8 chars) (chars.map fun c => c.val.toNat) := by
  rw [utf8, ← flatMap_utf8Encode fun c hc => (hchars c hc).2]
  refine spelled_utf8Encode fun unit hunit => ?_
  obtain ⟨c, hc, rfl⟩ := List.mem_map.mp hunit
  have hzero : c.val.toNat ≠ 0 := fun h => (hchars c hc).1 (UInt32.toNat_inj.mp h)
  exact ⟨by omega, (hchars c hc).2⟩

theorem stringUnits_take_iff {chars : List Char} (hzero : ∀ c ∈ chars, c.val ≠ 0) :
    stringUnits ((utf8 chars).take FS_HANDLE_MAX_FILENAME_SIZE) = utf16 chars ++ [0] ↔
      SentWhole chars := by
  have hsize : UNICODE_STR_SIZE = 255 := rfl
  constructor
  · intro h
    have hlen := congrArg List.length h
    have hmore := length_utf16 chars
    have hle := length_unicodeUnits_le UNICODE_STR_SIZE
      ((utf8 chars).take FS_HANDLE_MAX_FILENAME_SIZE)
    rw [length_stringUnits, List.length_append, List.length_singleton] at hlen
    obtain ⟨front, back, junk, hsplit, hsmall, htake, hjunk, hroom⟩ :=
      take_text chars hzero FS_HANDLE_MAX_FILENAME_SIZE
    have hspelled := spelled_utf8 fun c hc =>
      ⟨hzero c (hsplit ▸ List.mem_append_left _ hc), hsmall c hc⟩
    have hfewer := hspelled.length_units_le hjunk UNICODE_STR_SIZE
    rw [utf8, ← htake, List.length_map] at hfewer
    change (unicodeUnits UNICODE_STR_SIZE ((utf8 chars).take _)).length ≤ _ at hfewer
    have hback : back = [] := by
      have hcount := congrArg List.length hsplit
      rw [List.length_append] at hcount
      exact List.length_eq_zero_iff.mp (by omega)
    refine ⟨hroom hback, ?_, by omega⟩
    rw [hsplit, hback, List.append_nil]
    exact hsmall
  · rintro ⟨hroom, hsmall, hcount⟩
    have hspelled := spelled_utf8 fun c hc => ⟨hzero c hc, hsmall c hc⟩
    rw [List.take_of_length_le hroom, hspelled.stringUnits (by rw [List.length_map]; omega),
      utf16_of_lt hsmall]

-- The units of the string at an offset.
def sentUnits (buffer : Buffer) (ofs : Nat) : List Nat :=
  unitsFrom buffer (ofs + 1) (peek buffer ofs 1)

theorem stringUnits_lt (str : CString) : ∀ unit ∈ stringUnits str, unit < 2 ^ 16 := by
  intro unit hunit
  have hall := unicodeUnits_lt UNICODE_STR_SIZE str
  rw [stringUnits] at hunit
  split at hunit
  · rcases List.mem_append.mp hunit with hmem | hmem
    · exact hall unit (List.mem_of_mem_dropLast hmem)
    · rw [List.mem_singleton.mp hmem]
      decide
  · exact hall unit hunit

theorem sentUnits_of_read {str : CString} (hstr : str ≠ [])
    (h : buffer.read ofs (stringBytes str).length = stringBytes str) :
    sentUnits buffer ofs = stringUnits str := by
  have hle : (stringUnits str).length < 2 ^ (8 * 1) := by
    have hunits := length_unicodeUnits_le UNICODE_STR_SIZE str
    have hsize : UNICODE_STR_SIZE = 255 := rfl
    rw [length_stringUnits]
    omega
  rw [stringBytes, if_neg hstr, ← List.singleton_append, ← littleEndian_one] at h
  obtain ⟨hfront, hback⟩ := read_append h
  rw [length_littleEndian] at hback
  rw [sentUnits, peek_littleEndian hle hfront]
  exact peek_units hback (stringUnits_lt str)

-- The name that a scan reads from the disk
theorem lastComponent_append {base name : CString} (hbase : base ≠ []) (hname : SLASH ∉ name) :
    lastComponent (base ++ SLASH :: name) = name := by
  obtain ⟨c, base, rfl⟩ := List.exists_cons_of_ne_nil hbase
  have hslash : (base ++ SLASH :: name).contains SLASH = true := by simp
  have hall : ∀ d ∈ name.reverse, decide (d ≠ SLASH) = true := by
    intro d hd
    have hne : d ≠ SLASH := fun h => hname (h ▸ List.mem_reverse.mp hd)
    simpa using hne
  rw [lastComponent, List.cons_append, List.tail_cons, if_pos hslash]
  rw [← List.cons_append, List.reverse_append, List.reverse_cons, List.append_assoc,
    List.takeWhile_append_of_pos hall]
  simp

theorem filename_of_fsEntryStat {path : CString} {fileinfo info : FileFoundInfo}
    (h : (exec (World.handle os) (fsEntryStat path fileinfo) w).1 = (true, info)) :
    info.filename = (lastComponent path).take FS_HANDLE_MAX_FILENAME_SIZE := by
  rw [fsEntryStat, exec_query_bind] at h
  split at h
  · cases h
    rfl
  · cases h

-- What the datasets hold of the name

variable {maxsize : Int} {p : EntryPtr}

theorem Yields.write {out : Poked} {bytes : Option (List UInt8)}
    (h : Yields maxsize buffer out bytes) (hpos : 0 < out.2) :
    ∃ sent, bytes = some sent ∧ out.1.read 0 sent.length = sent := by
  cases bytes with
  | none =>
      rw [show out = (buffer, 0) from h] at hpos
      exact absurd hpos (Int.lt_irrefl 0)
  | some sent =>
      obtain ⟨hfits, hover⟩ := h
      refine ⟨sent, rfl, ?_⟩
      by_cases hroom : (sent.length : Int) < maxsize
      · rw [hfits hroom, Buffer.read_write_self]
      · have := hover (by omega)
        omega

theorem name_of_objectinfo (hsession : w.ctx.fsDb.isSome = true)
    (hpos : 0 < (exec (World.handle os) (buildObjectinfoDataset buffer maxsize p) w).1.2) :
    (exec (World.handle os) (buildObjectinfoDataset buffer maxsize p) w).1.1.read 0x34
      (stringBytes (w.ctx.entry p).name).length = stringBytes (w.ctx.entry p).name := by
  obtain ⟨sent, hsent, hread⟩ := (yields_objectinfo hsession p).write hpos
  obtain ⟨found, hfound, rfl⟩ := Option.map_eq_some_iff.mp hsent
  have hname : found.1.name = (w.ctx.entry p).name := by
    obtain ⟨stat, -, rfl⟩ := Option.map_eq_some_iff.mp hfound
    rfl
  rw [objectinfoBytes, List.append_assoc, List.append_assoc, List.append_assoc] at hread
  obtain ⟨-, hback⟩ := read_append hread
  obtain ⟨hfront, -⟩ := read_append hback
  rw [length_objectinfoFields, hname] at hfront
  exact hfront

theorem name_of_objectPropValue {ctx : MtpCtx} {handle : Nat}
    (hentry : ctx.getEntryByHandle handle = some p)
    (hpos : 0 < (buildObjectPropValueDataset ctx buffer maxsize handle
      MTP_PROPERTY_OBJECT_FILE_NAME).2) :
    (buildObjectPropValueDataset ctx buffer maxsize handle MTP_PROPERTY_OBJECT_FILE_NAME).1.read 0
      (stringBytes (ctx.entry p).name).length = stringBytes (ctx.entry p).name := by
  obtain ⟨sent, hsent, hread⟩ :=
    (yields_objectPropValue ctx hentry MTP_PROPERTY_OBJECT_FILE_NAME).write hpos
  obtain rfl : stringBytes (ctx.entry p).name = sent := Option.some.inj hsent
  exact hread

section Samples

-- The container that makes a file whose name has these units.
def namedDataset (units : List Nat) : Buffer :=
  Buffer.write (fun _ => 0) 0 (commandPacket MTP_OPERATION_SEND_OBJECT_INFO [] ++
    List.replicate 52 0 ++
    (littleEndian 1 (units.length + 1) ++ (units ++ [0]).flatMap (littleEndian 2)))

theorem holdsString_namedDataset (hunits : ∀ unit ∈ units, 0 < unit ∧ unit < 2 ^ 16)
    (hlen : units.length < UNICODE_STR_SIZE) :
    HoldsString ((namedDataset units).shift MTP_HEADER_SIZE) 0x34 units := by
  apply holdsString_of_read hunits hlen
  have hread := Buffer.read_write_self (fun _ => 0) 0
    (commandPacket MTP_OPERATION_SEND_OBJECT_INFO [] ++ List.replicate 52 0 ++
      (littleEndian 1 (units.length + 1) ++ (units ++ [0]).flatMap (littleEndian 2)))
  rw [Buffer.read_shift]
  exact (read_append hread).2

example : decodeObjectInfo ((namedDataset [0x67]).shift MTP_HEADER_SIZE) =
    some ⟨false, 0, [0x67]⟩ := by decide +kernel

-- The container that gives an object this name.
def namedValue (units : List Nat) : Buffer :=
  Buffer.write (fun _ => 0) 0 (commandPacket MTP_OPERATION_SET_OBJECT_PROP_VALUE [] ++
    (littleEndian 1 (units.length + 1) ++ (units ++ [0]).flatMap (littleEndian 2)))

-- 85 euro signs, an "a" and one more letter. Only the letter has no room.
def longName (last : Nat) : List Nat := List.replicate 85 0x20AC ++ [0x61, last]

def cutName : CString := (List.replicate 85 [0xE2, 0x82, 0xAC]).flatten ++ [0x61]

theorem decode_longName {last : Nat} (hlast : 0 < last ∧ last < 2 ^ 16)
    (hformat : peek ((namedDataset (longName last)).shift MTP_HEADER_SIZE) 0x04 2 = 0)
    (hsize : peek ((namedDataset (longName last)).shift MTP_HEADER_SIZE) 0x08 4 = 0)
    (hname : sanitizeName (fittingName (longName last)) TMP_STR_SIZE = some cutName) :
    decodeObjectInfo ((namedDataset (longName last)).shift MTP_HEADER_SIZE) =
      some ⟨false, 0, cutName⟩ := by
  have hunits : ∀ unit ∈ longName last, 0 < unit ∧ unit < 2 ^ 16 := by
    intro unit hunit
    rw [longName, List.mem_append, List.mem_replicate, List.mem_cons, List.mem_singleton] at hunit
    rcases hunit with ⟨-, rfl⟩ | rfl | rfl
    · decide
    · decide
    · exact hlast
  have hlen : (longName last).length < UNICODE_STR_SIZE := by
    have hsize : UNICODE_STR_SIZE = 255 := rfl
    simp [longName, hsize]
  rw [decodeObjectInfo, (holdsString_namedDataset hunits hlen).datasetName, hname, hformat, hsize]
  rfl

end Samples

end Umtp
