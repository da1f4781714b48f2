import Umtp.Handles.Losses
import Umtp.ObjectCreation

namespace Umtp

open Lib Lib.Prog Handles Text

variable {σ α : Type} {os : Os σ} {tree : σ → FileTree} {ctx : MtpCtx} {w : World σ}

-- A new entry is found by its handle if the bucket of the handle has taken it.
theorem getEntryByHandle_allocated {db : FsHandlesDb} (hs : Slots db) (hst : Handles.Stored db)
    {mem : AllocMem} {fileinfo : FileFoundInfo} {parent storageId : Nat}
    (hnew : ∀ q ∈ db.entryList, (db.pool q).handle ≠ db.nextHandle)
    {storageRoot : Nat → Option CString} (hroot : (storageRoot storageId).isSome = true)
    {p : EntryPtr} (hp : (db.allocEntry mem fileinfo parent storageId).1 = some p) :
    ((db.allocEntry mem fileinfo parent storageId).2.getEntryByHandle storageRoot
        db.nextHandle).isSome = true ↔
      (db.hashTableByHandle (bucketOfHandle db.nextHandle)).takes mem.nodeHandle = true := by
  rcases FsHandlesDb.allocEntry_cases hs mem fileinfo parent storageId with
    ⟨q, db', heq, -, ha, -, -, htable⟩ | ⟨db', heq, -⟩
  · obtain rfl : q = p := by
      rw [heq] at hp
      exact Option.some.inj hp
    have hothers : ∀ r ∈ (db.hashTableByHandle (bucketOfHandle db.nextHandle)).entries,
        ¬ (!(db'.pool r).isDeleted && (db'.pool r).handle == db.nextHandle &&
          (storageRoot (db'.pool r).storageId).isSome) = true := by
      intro r hr hfound
      have hlisted : r ∈ db.entryList := (hst.byHandle.mem _ r hr).1
      rw [ha.pool_of_ne r fun h => ha.fresh (h ▸ hlisted)] at hfound
      simp only [Bool.and_eq_true, beq_iff_eq] at hfound
      exact hnew r hlisted hfound.1.2
    have hself : (!(db'.pool q).isDeleted && (db'.pool q).handle == db.nextHandle &&
        (storageRoot (db'.pool q).storageId).isSome) = true := by
      have hsid : (FsHandlesDb.newEntry fileinfo db.nextHandle parent storageId).storageId =
          storageId := rfl
      have hhandle : (FsHandlesDb.newEntry fileinfo db.nextHandle parent storageId).handle =
          db.nextHandle := rfl
      rw [ha.pool_self, isDeleted_newEntry, hsid, hhandle, hroot]
      simp
    rw [heq, FsHandlesDb.getEntryByHandle, htable, Function.update_self,
      HashNode.insertEntryGeneric_takes (hst.soundHandle _)]
    cases (db.hashTableByHandle (bucketOfHandle db.nextHandle)).takes mem.nodeHandle with
    | true =>
        rw [if_pos rfl, List.find?_append, List.find?_eq_none.mpr hothers, Option.none_or,
          List.find?_singleton]
        exact iff_of_true (by rw [if_pos hself]; rfl) rfl
    | false =>
        rw [if_neg Bool.false_ne_true, List.find?_eq_none.mpr hothers]
        exact Iff.rfl
  · rw [heq] at hp
    cases hp

-- The object has an entry that is found by its handle, or gets one.
def Retrievable (os : Os σ) (prog : M α) (w : World σ) (fileinfo : FileFoundInfo)
    (parent storageId : Nat) : Prop :=
  match w.ctx.db.searchEntryByInfo fileinfo parent storageId with
  | some q => (w.ctx.entry q).handle ≠ 0 ∧
      (w.ctx.getEntryByHandle (w.ctx.entry q).handle).isSome = true
  | none => MemoryAnswers os prog w fun mem =>
      (w.ctx.db.allocEntry mem fileinfo parent storageId).1.isSome = true ∧
        (w.ctx.db.hashTableByHandle (bucketOfHandle w.ctx.db.nextHandle)).takes mem.nodeHandle =
          true

theorem retrievable_of_none {prog : M α} {fileinfo : FileFoundInfo} {parent storageId : Nat}
    (hsearch : w.ctx.db.searchEntryByInfo fileinfo parent storageId = none)
    (hmemory : MemoryAnswers os prog w fun mem =>
      (w.ctx.db.allocEntry mem fileinfo parent storageId).1.isSome = true ∧
        (w.ctx.db.hashTableByHandle (bucketOfHandle w.ctx.db.nextHandle)).takes mem.nodeHandle =
          true) :
    Retrievable os prog w fileinfo parent storageId := by
  rw [Retrievable, hsearch]
  exact hmemory

theorem retrievable_congr {prog prog' : M α} (h : SameRun os prog prog' w)
    (fileinfo : FileFoundInfo) (parent storageId : Nat) :
    Retrievable os prog w fileinfo parent storageId ↔
      Retrievable os prog' w fileinfo parent storageId := by
  rw [Retrievable, Retrievable]
  split
  · exact Iff.rfl
  · exact h.memory _

-- No entry has the number that is answered when there is none.
theorem MtpCtx.Recorded.getEntryByHandle_none (hr : ctx.Recorded) (ho : ctx.Ordered)
    (hlen : ctx.db.entryList.length < UINT32_SIZE - 1) : ctx.getEntryByHandle NO_HANDLE = none := by
  cases hfound : ctx.getEntryByHandle NO_HANDLE with
  | none => rfl
  | some p =>
      obtain ⟨hlive, hhandle, -⟩ := ho.getEntryByHandle_live hfound
      have hbound := (hr.handle_lt hlen hlive.1).2
      have hmax : UINT32_SIZE - 1 = NO_HANDLE := rfl
      omega

-- The handle of an object that was entered is not 0 and is found again, or not.
theorem Entered.retrievable_iff {prog : M (Nat × Nat)} {path root : CString}
    {fileinfo : FileFoundInfo} {parent storageId : Nat} {entry : Option EntryPtr}
    (h : Entered os prog w path fileinfo parent storageId entry) (hw : w.ctx.Regular)
    (hroot : w.ctx.mtpGetStorageRoot storageId = some root)
    (hlen : (exec (World.handle os) prog w).2.ctx.db.entryList.length < UINT32_SIZE - 1) :
    let ctx' := (exec (World.handle os) prog w).2.ctx
    let handle := (exec (World.handle os) prog w).1.2
    handle ≠ 0 ∧ (ctx'.getEntryByHandle handle).isSome = true ↔
      Retrievable os prog w fileinfo parent storageId := by
  intro ctx' handle
  have hhandle : handle = ctx'.handleOf entry := congrArg Prod.snd h.answer
  have hroots : ctx'.mtpGetStorageRoot = w.ctx.mtpGetStorageRoot :=
    funext h.registered.mtpGetStorageRoot
  rw [hhandle, Retrievable]
  cases hsearch : w.ctx.db.searchEntryByInfo fileinfo parent storageId with
  | some q =>
      obtain rfl := h.search q hsearch
      have hsame : ctx'.db = w.ctx.db := h.registered.same (by rw [hsearch]; rfl)
      have hvalue : ctx'.handleOf (some q) = (w.ctx.entry q).handle := by
        rw [MtpCtx.entry, ← hsame]
        rfl
      rw [hvalue, MtpCtx.getEntryByHandle, hsame, hroots]
      exact Iff.rfl
  | none =>
      obtain ⟨mem, hentry, hdb, hgood⟩ := h.memory hsearch
      dsimp only
      rw [hgood, ← hentry]
      cases entry with
      | none =>
          have hrecorded : ctx'.Recorded := recorded_exec prog hw.recorded
          refine iff_of_false (fun hfound => ?_) fun hsome => Bool.false_ne_true hsome.1
          have hnone := hrecorded.getEntryByHandle_none h.registered.ordered hlen
          have hvalue : ctx'.handleOf none = NO_HANDLE := rfl
          rw [hvalue, hnone] at hfound
          exact Bool.false_ne_true hfound.2
      | some p =>
          have hshort := lt_of_le_of_lt (h.registered.grow hw.ordered) hlen
          obtain ⟨objects, hn⟩ := hw.recorded.numbered hshort
          have hnext := hn.nextHandle
          have hnew : ∀ q ∈ w.ctx.db.entryList,
              (w.ctx.db.pool q).handle ≠ w.ctx.db.nextHandle :=
            fun q hq => (hw.recorded.handle_lt hshort hq).1.ne
          have hvalue : ctx'.handleOf (some p) = w.ctx.db.nextHandle := by
            rcases h.registered.fresh p rfl with hold | ⟨-, hentered⟩
            · rw [hsearch] at hold
              cases hold
            · exact congrArg FsEntry.handle hentered
          have htakes := getEntryByHandle_allocated hw.ordered.slots hw.ordered.stored hnew
            (Option.isSome_iff_exists.mpr ⟨root, hroot⟩) hentry.symm
          have hpos : w.ctx.db.nextHandle ≠ 0 := by omega
          rw [hvalue, MtpCtx.getEntryByHandle, hdb, hroots, htakes]
          exact and_congr (iff_of_true hpos rfl) Iff.rfl

-- A file is opened only for an object that is entered.
theorem OpensAt.wasMade {prog : M α} {place : List FileName} (h : OpensAt os tree prog w place) :
    ∃ path, WasMade os prog w path := by
  obtain ⟨step, hm, storageId, path, left, hstep, hanswer, -⟩ := h
  exact ⟨path, step, hm, Or.inr ⟨storageId, hstep, hanswer⟩⟩

theorem entered_createFile (ho : w.ctx.Ordered) {folder : EntryPtr} {name : CString}
    {objectsize parent storageId : Nat}
    (hfolder : w.ctx.getEntryByHandleAndStorageid parent storageId = some folder)
    (hmade : ∃ path, WasMade os (createFile folder name objectsize parent storageId) w path) :
    ∃ path entry, Entered os (createFile folder name objectsize parent storageId) w path
      ⟨false, name, objectsize⟩ parent storageId entry := by
  have hdb : w.ctx.fsDb.isSome = true := by
    by_contra hno
    have hnone : w.ctx.fsDb = none := Option.not_isSome_iff_eq_none.mp hno
    have hlisted := (MtpCtx.getEntryByHandleAndStorageid_live hfolder).1.1
    rw [MtpCtx.db, hnone] at hlisted
    exact absurd hlisted List.not_mem_nil
  obtain ⟨path, hmade⟩ := hmade
  rw [createFile_eq_makeObject] at hmade ⊢
  have hcases := @makeObject_cases _ os w _ _ folder ⟨false, name, objectsize⟩ parent storageId
    (isMaker_makeFile storageId) (isAnswer_expectObject objectsize) ho hdb
  dsimp only at hcases
  split at hcases
  · rename_i path' _
    rcases hcases with hwithout | ⟨entry, hentered⟩
    · exact absurd hmade (hwithout.made path)
    · exact ⟨path', entry, hentered⟩
  · exact absurd hmade (hcases.made path)

-- The path of the new object leads into the storage, and its handle will be found.
def LeadsBack (os : Os σ) (tree : σ → FileTree) (w : World σ) (datain : Buffer)
    (parentHandle storageId : Nat) (root : CString) : Prop :=
  let parent := if parentHandle = NO_HANDLE then 0 else parentHandle
  ∃ folder object q, w.ctx.getEntryByHandleAndStorageid parent storageId = some folder ∧
    decodeObjectInfo (datain.shift MTP_HEADER_SIZE) = some object ∧
    w.ctx.LeadsInside (tree w.os) root folder object.name q ∧
    Retrievable os (parseIncomingDataset datain parentHandle storageId) w
      ⟨false, object.name, object.size⟩ parent storageId

-- A file that is made for the host lies in the storage, and is the one its handle is
-- resolved to, if and only if the path of the new object leads into the storage and the
-- object is entered under its handle.
theorem uploads_contained_iff (os : Os σ) (tree : σ → FileTree) (hlinks : os.HasLinks tree)
    (start : World σ) (hstart : start.ctx.Initial) (events : List (Event σ))
    (packet datain : Buffer)
    (s : σ) (parentHandle storageId : Nat) (root : CString) (place : List FileName) :
    let w : World σ := ⟨(run (World.step os) start events).ctx.withBuffers packet datain, s⟩
    let request := parseIncomingDataset datain parentHandle storageId
    let handle := (exec (World.handle os) request w).1.2
    let w' := (exec (World.handle os) request w).2
    w.ctx.mtpGetStorageRoot storageId = some root → Canonical SLASH root →
    w'.ctx.db.entryList.length < 2 ^ 32 - 1 → OpensAt os tree request w place →
      (InSubtree SLASH root (render place) ∧ handle ≠ 0 ∧
          (∃ p, w'.ctx.getEntryByHandle handle = some p ∧
            w'.ctx.resolved (tree w'.os).realpath p = some (render place)) ↔
        LeadsBack os tree w datain parentHandle storageId root) := by
  intro w request handle w' hroot hcanon hlen hopen
  have hw : w.ctx.WellGrown := (wellGrown_run hstart.wellGrown events).withBuffers packet datain
  obtain ⟨object, folder, hobject, hfolder, ⟨f, hrequest, hf⟩, hmake⟩ :=
    @opensAt_parseIncomingDataset _ _ _ _ _ parentHandle _ _ _ rfl hopen
  generalize hparent : (if parentHandle = NO_HANDLE then 0 else parentHandle) = parent at *
  have hn := isSanitized_of_decode hobject
  have hrun : SameRun os request (createFile folder object.name object.size parent storageId)
      w := by
    have hsame := @sameRun_getCtx_bind _ _ os w f _ (SameRun.refl (f w.ctx) w)
    rw [hf, ← hrequest] at hsame
    exact hsame
  obtain ⟨path, entry, hentered⟩ := entered_createFile hw.ordered hfolder hmake.wasMade
  have hfound := hentered.retrievable_iff hw.toRegular hroot (by rw [← hrun.exec]; exact hlen)
  obtain ⟨hin, hiff⟩ := @createFile_contained_iff _ _ _ _ _ _ _ _ _ _ hlinks hw
    (⟨object.name, hn.isFileName⟩) hn hfolder hroot hcanon hmake _ hrun.exec.symm hlen
  have hleads : LeadsBack os tree w datain parentHandle storageId root ↔
      (∃ q, w.ctx.LeadsInside (tree s) root folder object.name q) ∧ handle ≠ 0 ∧
        (w'.ctx.getEntryByHandle handle).isSome = true := by
    have hsame := (retrievable_congr hrun ⟨false, object.name, object.size⟩ parent
      storageId).trans hfound.symm
    rw [← hrun.exec] at hsame
    rw [LeadsBack, hparent]
    constructor
    · rintro ⟨folder', object', q, hfolder', hobject', hq, hback⟩
      obtain rfl := Option.some.inj (hfolder.symm.trans hfolder')
      obtain rfl := Option.some.inj (hobject.symm.trans hobject')
      exact ⟨⟨q, hq⟩, hsame.mp hback⟩
    · rintro ⟨⟨q, hq⟩, hback⟩
      exact ⟨folder, object, q, hfolder, hobject, hq, hsame.mpr hback⟩
  rw [hleads]
  constructor
  · rintro ⟨hinside, hpos, p, hp, hresolved⟩
    exact ⟨(hiff p hpos hp).mp ⟨hinside, hresolved⟩, hpos, by rw [hp]; rfl⟩
  · rintro ⟨hq, hpos, hsome⟩
    obtain ⟨p, hp⟩ := Option.isSome_iff_exists.mp hsome
    obtain ⟨hinside, hresolved⟩ := (hiff p hpos hp).mpr hq
    exact ⟨hinside, hpos, p, hp, hresolved⟩

section Samples

-- "/a" and "/b" are directories, and "/a/f" is a link to "/b/f".
def linkedTree (place : List FileName) : Option (Node FileName) :=
  if place = [A_FILE] ∨ place = [B_FILE] then some .dir
  else if place = [A_FILE, F_FILE] then some (.link true [.into B_FILE, .into F_FILE])
  else none

def linkedStart : World (MemSystem × FileTree) :=
  ⟨startCtx (storagesOf [(A_ROOT, A_STORAGE, 0)]), sampleSystem, linkedTree⟩

-- The dataset of a file with the name.
def fileDataset (name : CString) : Buffer :=
  Buffer.write (fun _ => 0) 0 (dataPacket MTP_OPERATION_SEND_OBJECT_INFO
    (List.replicate 52 0 ++ stringPayload name))

-- The session is open, and the dataset has come.
def sending (name : CString) : World (MemSystem × FileTree) :=
  ⟨(run (World.step treeOs) linkedStart
      [.packet (commandPacket MTP_OPERATION_OPEN_SESSION [1])]).ctx.withBuffers (fun _ => 0)
    (fileDataset name), sampleSystem, linkedTree⟩

def sent (name : CString) : (Nat × Nat) × World (MemSystem × FileTree) :=
  exec (World.handle treeOs) (parseIncomingDataset (fileDataset name) 0 0xFFFF0001) (sending name)

theorem linkedStart_initial : linkedStart.ctx.Initial := initial_startCtx _

-- "/a/g" is made and found again.
theorem uploads_contained_iff_sample :
    InSubtree SLASH A_ROOT (render [A_FILE, G_FILE]) ∧ (sent G_FILE.val).1.2 ≠ 0 ∧
      ∃ p, (sent G_FILE.val).2.ctx.getEntryByHandle (sent G_FILE.val).1.2 = some p ∧
        (sent G_FILE.val).2.ctx.resolved (FileTree.realpath (sent G_FILE.val).2.os.2) p =
          some (render [A_FILE, G_FILE]) := by
  have hiff := uploads_contained_iff treeOs Prod.snd treeOs_hasLinks linkedStart
    linkedStart_initial [.packet (commandPacket MTP_OPERATION_OPEN_SESSION [1])] (fun _ => 0)
    (fileDataset G_FILE.val) (sampleSystem, linkedTree) 0 0xFFFF0001 A_ROOT [A_FILE, G_FILE]
    (by decide +kernel) canonical_A_ROOT (by decide +kernel)
    (opensAt_of_any (by decide +kernel))
  have hmemory : ((sending G_FILE.val).ctx.db.allocEntry AllocMem.success
        ⟨false, G_FILE.val, 0⟩ 0 0xFFFF0001).1.isSome = true ∧
      ((sending G_FILE.val).ctx.db.hashTableByHandle
        (bucketOfHandle (sending G_FILE.val).ctx.db.nextHandle)).takes true = true := by
    decide +kernel
  refine hiff.mpr ⟨⟨1, 1023⟩, ⟨false, 0, G_FILE.val⟩, [A_FILE, G_FILE], by decide +kernel,
    by decide +kernel, ⟨⟨40, by decide +kernel⟩, by decide +kernel, Or.inl ?_⟩,
    retrievable_of_none (by decide +kernel) fun _ _ _ => hmemory⟩
  unfold MtpCtx.FindsAgain
  decide +kernel

-- "/a/f" is a link out of the storage. The file is made at the end of it, and the
-- handle is refused from then on.
theorem upload_escapes :
    OpensAt treeOs Prod.snd (parseIncomingDataset (fileDataset F_NAME) 0 0xFFFF0001)
    (sending F_NAME)
        [B_FILE, F_FILE] ∧
      ¬ InSubtree SLASH A_ROOT (render [B_FILE, F_FILE]) ∧
      (sent F_NAME).1 = (MTP_RESPONSE_OK, 1) ∧
      (sent F_NAME).2.ctx.getEntryByHandle 1 = some ⟨1, 1022⟩ ∧
      (sent F_NAME).2.ctx.resolved (FileTree.realpath (sent F_NAME).2.os.2) ⟨1, 1022⟩ = none :=
  ⟨opensAt_of_any (by decide +kernel), by decide +kernel, by decide +kernel, by decide +kernel,
    by decide +kernel⟩

end Samples

end Umtp
