import Umtp.StaleHandles
import Umtp.Uploads

namespace Umtp

open Lib Lib.Prog Handles Text

variable {σ α β : Type} {os : Os σ} {w : World σ}

-- The folder or the file at the path is made.
def Makes (os : Os σ) (path : CString) (step : World σ × Cmd) : Prop :=
  (∃ storageId, step.2 = .act (.mkdir storageId path) ∧
    (os.act (.mkdir storageId path) step.1.os).1 = true) ∨
  ∃ storageId, step.2 = .act (.open storageId path .createTruncate) ∧
    (os.act (.open storageId path .createTruncate) step.1.os).1 ≠ -1

def WasMade (os : Os σ) (prog : M α) (w : World σ) (path : CString) : Prop :=
  ∃ step ∈ trace (World.handle os) prog w, Makes os path step

-- Commands that make no folder and no file.
def Cmd.MakesNothing : Cmd → Prop
  | act (.mkdir _ _) | act (.open _ _ _) => False
  | _ => True

theorem makesNothing_identifies : Identifies Cmd.MakesNothing where
  getCtx := trivial
  query _ := trivial
  malloc := trivial
  setfsuid _ := trivial
  setfsgid _ := trivial

section WasMade

variable {path : CString}

theorem wasMade_bind (prog : M α) (f : α → M β) (w : World σ) (path : CString) :
    WasMade os (prog.bind f) w path ↔ WasMade os prog w path ∨
      WasMade os (f (exec (World.handle os) prog w).1) (exec (World.handle os) prog w).2 path := by
  simp only [WasMade, trace_bind, List.mem_append, or_and_right, exists_or]

theorem not_wasMade {prog : M α} (hp : Uses AnyAnswer Cmd.MakesNothing prog) (w : World σ)
    (path : CString) : ¬ WasMade os prog w path := by
  rintro ⟨step, hm, ⟨storageId, hstep, -⟩ | ⟨storageId, hstep, -⟩⟩
  · have hnothing := uses_trace hp (World.handle os) w step hm
    rw [hstep] at hnothing
    exact hnothing
  · have hnothing := uses_trace hp (World.handle os) w step hm
    rw [hstep] at hnothing
    exact hnothing

theorem wasMade_rest {prog : M α} (hp : Uses AnyAnswer Cmd.MakesNothing prog) (f : α → M β)
    (w : World σ) (path : CString) :
    WasMade os (prog.bind f) w path ↔
      WasMade os (f (exec (World.handle os) prog w).1) (exec (World.handle os) prog w).2 path := by
  rw [wasMade_bind, or_iff_right (not_wasMade hp w path)]

-- The making of one object under the identity of a storage.
theorem withStorageIds_act (storageId : Nat) (a : Action) (fail : a.Ans) (w : World σ) :
    ∃ set s, (exec (World.handle os) (withStorageIds storageId fail (M.act a)) w).1 =
        (if set then (os.act a s).1 else fail) ∧
      (exec (World.handle os) (withStorageIds storageId fail (M.act a)) w).2.ctx = w.ctx ∧
      ∀ path, WasMade os (withStorageIds storageId fail (M.act a)) w path ↔
        set = true ∧ Makes os path (⟨w.ctx, s⟩, .act a) := by
  have hset := makesNothing_identifies.setStorageGiduid storageId
  have hrestore := makesNothing_identifies.restoreGiduid
  have hctx := @looks_exec _ _ os _ (looks_setStorageGiduid storageId) w
  have heq : withStorageIds storageId fail (M.act a) = (setStorageGiduid storageId).bind fun set =>
      (if set then M.act a else pure fail).bind fun value =>
        restoreGiduid.bind fun _ => pure value := by
    unfold withStorageIds
    refine congrArg (setStorageGiduid storageId).bind (funext fun set => ?_)
    cases set with
    | false => simp
    | true => simp
  have hlast : ∀ value : a.Ans, Uses AnyAnswer Cmd.MakesNothing
      (restoreGiduid.bind fun _ => (pure value : M a.Ans)) :=
    fun value => uses_bind hrestore fun _ => uses_pure _
  refine ⟨(exec (World.handle os) (setStorageGiduid storageId) w).1,
    (exec (World.handle os) (setStorageGiduid storageId) w).2.os, ?_⟩
  rw [heq]
  simp only [wasMade_rest hset, exec_bind]
  generalize exec (World.handle os) (setStorageGiduid storageId) w = set1 at *
  obtain ⟨set, ctx1, s1⟩ := set1
  obtain rfl : ctx1 = w.ctx := hctx
  cases set with
  | false =>
      refine ⟨rfl, looks_exec looks_restoreGiduid _, fun path => ?_⟩
      rw [if_neg Bool.false_ne_true, wasMade_rest (uses_pure _)]
      exact iff_of_false (not_wasMade (hlast _) _ _) fun h => by cases h.1
  | true =>
      refine ⟨rfl, looks_exec looks_restoreGiduid _, fun path => ?_⟩
      rw [if_pos rfl, wasMade_bind, or_iff_left (not_wasMade (hlast _) _ _)]
      refine ⟨fun ⟨step, hm, hmakes⟩ => ⟨rfl, ?_⟩, fun h => ⟨_, List.mem_cons_self, h.2⟩⟩
      rw [← List.mem_singleton.mp hm]
      exact hmakes

end WasMade

-- A part that makes the object at a path, true when it did.
structure IsMaker (os : Os σ) (make : CString → M Bool) : Prop where
  ctx : ∀ path w, (exec (World.handle os) (make path) w).2.ctx = w.ctx
  made : ∀ path w path', WasMade os (make path) w path' ↔
    (exec (World.handle os) (make path) w).1 = true ∧ path' = path
  memory : ∀ path w, ∀ step ∈ trace (World.handle os) (make path) w, step.2 ≠ .act .entryMemory

def makeFolder (storageId : Nat) (path : CString) : M Bool :=
  withStorageIds storageId false (M.act (.mkdir storageId path))

-- Commands other than the allocation of an entry.
def Cmd.NoEntryMemory (c : Cmd) : Prop := c ≠ .act .entryMemory

theorem noEntryMemory_identifies : Identifies Cmd.NoEntryMemory where
  getCtx := nofun
  query _ := nofun
  malloc := nofun
  setfsuid _ := nofun
  setfsgid _ := nofun

theorem Identifies.withStorageIds {S : Cmd → Prop} (h : Identifies S) (storageId : Nat)
    {fail : α} {body : M α} (hbody : Uses AnyAnswer S body) :
    Uses AnyAnswer S (withStorageIds storageId fail body) := by
  have hlast : ∀ value : α, Uses AnyAnswer S (do Umtp.restoreGiduid; return value) :=
    fun value => uses_bind h.restoreGiduid fun _ => uses_pure _
  refine uses_bind (h.setStorageGiduid storageId) fun set => ?_
  split
  · exact uses_bind hbody hlast
  · exact hlast fail

theorem isMaker_makeFolder (storageId : Nat) : IsMaker os (makeFolder storageId) where
  ctx path w := by
    obtain ⟨set, s, -, hctx, -⟩ := @withStorageIds_act _ os storageId
      (.mkdir storageId path) false w
    exact hctx
  made path w path' := by
    obtain ⟨set, s, hvalue, -, hmade⟩ := @withStorageIds_act _ os storageId
      (.mkdir storageId path) false w
    rw [makeFolder, hmade, hvalue]
    cases set with
    | false => simp
    | true =>
        rw [if_pos rfl]
        refine ⟨fun ⟨_, hmakes⟩ => ?_, fun ⟨hanswer, heq⟩ => ⟨rfl, Or.inl ⟨storageId, ?_, ?_⟩⟩⟩
        · rcases hmakes with ⟨id, hstep, hanswer⟩ | ⟨id, hstep, -⟩
          · cases hstep
            exact ⟨hanswer, rfl⟩
          · cases hstep
        · rw [heq]
        · rw [heq]
          exact hanswer
  memory path w := by
    have hact : Uses AnyAnswer Cmd.NoEntryMemory (M.act (.mkdir storageId path)) :=
      uses_act_of nofun
    have huses : Uses AnyAnswer Cmd.NoEntryMemory (makeFolder storageId path) :=
      noEntryMemory_identifies.withStorageIds storageId hact
    exact uses_trace huses (World.handle os) w

theorem isMaker_makeFile (storageId : Nat) : IsMaker os (makeFile storageId) where
  ctx path w := by
    obtain ⟨set, s, -, hctx, -⟩ := @withStorageIds_act _ os storageId
      (.open storageId path .createTruncate) (-1) w
    rw [makeFile, bind_eq, exec_bind]
    split
    · exact hctx
    · exact hctx
  made path w path' := by
    obtain ⟨set, s, hvalue, -, hmade⟩ := @withStorageIds_act _ os storageId
      (.open storageId path .createTruncate) (-1) w
    have hlast : ∀ file : Int, Uses AnyAnswer Cmd.MakesNothing
      (if file = -1 then return false else do
        M.act (.close file)
        return true) := by
      intro file
      split
      · exact uses_pure _
      · exact uses_bind (uses_act_of trivial) fun _ => uses_pure _
    rw [makeFile, bind_eq, wasMade_bind, or_iff_left (not_wasMade (hlast _) _ _), hmade, exec_bind,
      hvalue]
    cases set with
    | false => simp
    | true =>
        rw [if_pos rfl]
        constructor
        · rintro ⟨-, ⟨id, hstep, -⟩ | ⟨id, hstep, hanswer⟩⟩
          · cases hstep
          · cases hstep
            rw [if_neg hanswer]
            exact ⟨rfl, rfl⟩
        · rintro ⟨hanswer, heq⟩
          refine ⟨rfl, Or.inr ⟨storageId, ?_, ?_⟩⟩
          · rw [heq]
          · intro hfail
            rw [if_pos (heq ▸ hfail)] at hanswer
            cases hanswer
  memory path w := by
    have hact : Uses AnyAnswer Cmd.NoEntryMemory
        (M.act (.open storageId path .createTruncate)) := uses_act_of fun h => by cases h
    have huses : Uses AnyAnswer Cmd.NoEntryMemory (makeFile storageId path) := by
      refine uses_bind (noEntryMemory_identifies.withStorageIds storageId hact) fun file => ?_
      split
      · exact uses_pure _
      · exact uses_bind (uses_act_of fun h => by cases h) fun _ => uses_pure _
    exact uses_trace huses (World.handle os) w

-- The entries with handle 0 are the roots of the storages.
theorem top_isDir_run (ops : List DbOp)
    (hlen : (run DbOp.step initFsDb ops).entryList.length < UINT32_SIZE - 1) :
    ∀ p ∈ (run DbOp.step initFsDb ops).entryList, ((run DbOp.step initFsDb ops).pool p).handle = 0 →
      ((run DbOp.step initFsDb ops).pool p).isDir = true := by
  induction ops using List.reverseRecOn with
  | nil => exact fun p hp => absurd hp List.not_mem_nil
  | append_singleton ops op ih =>
      have hslots := DbOp.slots_run Slots.init ops
      have hrecorded : (run DbOp.record (initFsDb, []) ops).1 = run DbOp.step initFsDb ops :=
        DbOp.record_fst _ _
      rw [run_append, run_cons, run_nil] at hlen ⊢
      have hfrozen := DbOp.frozen_step hslots op
      have hshort : (run DbOp.step initFsDb ops).entryList.length < UINT32_SIZE - 1 :=
        lt_of_le_of_lt hfrozen.suffix.length_le hlen
      have hn := @DbOp.numbered_run ((initFsDb, [])) Slots.init Numbered.init ops
        (by rw [hrecorded]; exact hshort)
      have hnext := hn.nextHandle
      rw [hrecorded] at hnext
      intro p hp hzero
      rcases DbOp.listed_step hslots op hp with hold | ⟨-, hcreated⟩
      · rw [(Numbered.handle_eq hfrozen hold).1] at hzero
        rw [hfrozen.isDir p hold]
        exact ih hshort p hold hzero
      · cases op with
        | allocEntry mem fileinfo parent storageId =>
            have hnew := Option.some.inj hcreated
            rw [← hnew] at hzero
            have hhandle : (run DbOp.step initFsDb ops).nextHandle = 0 := hzero
            omega
        | allocRootEntry mem storageId =>
            rw [← Option.some.inj hcreated]
            exact (by decide : hasFlag ENTRY_IS_DIR ENTRY_IS_DIR = true)
        | _ => cases hcreated

theorem MtpCtx.Recorded.top_isDir {ctx : MtpCtx} (hr : ctx.Recorded)
    (hlen : ctx.db.entryList.length < UINT32_SIZE - 1) {p : EntryPtr}
    (hp : p ∈ ctx.db.entryList) (hzero : (ctx.entry p).handle = 0) :
    (ctx.entry p).isDir = true := by
  obtain ⟨ops, hops⟩ := hr
  rw [MtpCtx.entry, hops] at hzero ⊢
  rw [hops] at hp hlen
  exact top_isDir_run ops hlen p hp hzero

-- The two branches of `parse_incoming_dataset` that make an object.
def makeObject (make : CString → M Bool) (answer : Option EntryPtr → M (Nat × Nat))
    (folder : EntryPtr) (fileinfo : FileFoundInfo) (parent storageId : Nat) : M (Nat × Nat) := do
  match ← newObjectPath folder fileinfo.filename with
  | some path =>
    if ← make path then
      let entry ← addEntry fileinfo parent storageId
      answer entry
    else
      return (MTP_RESPONSE_ACCESS_DENIED, NO_HANDLE)
  | none => answer none

def answerFolder (entry : Option EntryPtr) : M (Nat × Nat) := do
  match entry with
  | some p =>
    let ctx ← M.getCtx
    return (MTP_RESPONSE_OK, (ctx.entry p).handle)
  | none => return (MTP_RESPONSE_OK, NO_HANDLE)

theorem createFile_eq_makeObject (folder : EntryPtr) (name : CString)
    (objectsize parent storageId : Nat) :
    createFile folder name objectsize parent storageId =
      makeObject (makeFile storageId) (expectObject · objectsize) folder ⟨false, name, objectsize⟩
        parent storageId := by
  rw [createFile_eq]
  rfl

theorem createFolder_eq_makeObject (folder : EntryPtr) (name : CString) (parent storageId : Nat) :
    createFolder folder name parent storageId = (M.getCtx >>= fun ctx =>
      makeObject (makeFolder (ctx.entry folder).storageId) answerFolder folder
      ⟨true, name, 0⟩ parent
        storageId) := by
  unfold createFolder makeObject makeFolder withStorageIds
  refine congrArg M.getCtx.bind (funext fun ctx => ?_)
  refine congrArg (newObjectPath folder name).bind (funext fun found => ?_)
  cases found with
  | none => rfl
  | some path =>
      simp only [bind_eq, Prog.bind_assoc]
      refine congrArg (setStorageGiduid _).bind (funext fun set => ?_)
      cases set with
      | false =>
          simp only [Bool.false_eq_true, if_false, Prog.bind_assoc, pure_eq, ret_bind]
          rfl
      | true =>
          simp only [if_true, Prog.bind_assoc]
          refine congrArg (Prog.bind _) (funext fun made => ?_)
          refine congrArg restoreGiduid.bind (funext fun _ => ?_)
          cases made with
          | false => rfl
          | true => rfl

-- An answer is OK with the handle of the entry, and makes nothing.
structure IsAnswer (os : Os σ) (answer : Option EntryPtr → M (Nat × Nat)) : Prop where
  value : ∀ entry w, (exec (World.handle os) (answer entry) w).1 =
    (MTP_RESPONSE_OK, w.ctx.handleOf entry)
  db : ∀ entry w, (exec (World.handle os) (answer entry) w).2.ctx.db = w.ctx.db
  storages : ∀ entry w, (exec (World.handle os) (answer entry) w).2.ctx.storages = w.ctx.storages
  nothing : ∀ entry, Uses AnyAnswer Cmd.MakesNothing (answer entry)
  memory : ∀ entry, Uses AnyAnswer Cmd.NoEntryMemory (answer entry)

theorem isAnswer_answerFolder : IsAnswer os answerFolder where
  value entry w := by cases entry <;> rfl
  db entry w := by cases entry <;> rfl
  storages entry w := by cases entry <;> rfl
  nothing entry := by
    cases entry with
    | none => exact uses_pure _
    | some p => exact makesNothing_identifies.toBuilds.getCtx_bind fun ctx => uses_pure _
  memory entry := by
    cases entry with
    | none => exact uses_pure _
    | some p => exact noEntryMemory_identifies.toBuilds.getCtx_bind fun ctx => uses_pure _

theorem isAnswer_expectObject (objectsize : Nat) : IsAnswer os (expectObject · objectsize) where
  value entry w := (exec_expectObject entry objectsize w).1
  db entry w := (exec_expectObject entry objectsize w).2.1
  storages entry w := (exec_expectObject entry objectsize w).2.2
  nothing entry := by
    cases entry with
    | none => exact uses_bind (uses_cmd trivial) fun _ => uses_pure _
    | some p =>
        exact makesNothing_identifies.toBuilds.getCtx_bind fun ctx =>
          uses_bind (uses_cmd trivial) fun _ => uses_pure _
  memory entry := by
    cases entry with
    | none => exact uses_bind (uses_cmd nofun) fun _ => uses_pure _
    | some p =>
        exact noEntryMemory_identifies.toBuilds.getCtx_bind fun ctx =>
          uses_bind (uses_cmd nofun) fun _ => uses_pure _

-- Every answer to a request for the memory of an entry is good.
def MemoryAnswers (os : Os σ) (prog : M α) (w : World σ) (good : AllocMem → Prop) : Prop :=
  ∀ step ∈ trace (World.handle os) prog w, step.2 = .act .entryMemory →
    good (os.act .entryMemory step.1.os).1

-- Every entry that memory is asked for gets it.
def EntryMemory (os : Os σ) (prog : M α) (w : World σ) (db : FsHandlesDb) (fileinfo : FileFoundInfo)
    (parent storageId : Nat) : Prop :=
  MemoryAnswers os prog w fun mem =>
    (db.allocEntry mem fileinfo parent storageId).1.isSome = true

section EntryMemory

variable {fileinfo : FileFoundInfo} {parent storageId : Nat} {good : AllocMem → Prop}

theorem memoryAnswers_bind (prog : M α) (f : α → M β) (w : World σ) :
    MemoryAnswers os (prog.bind f) w good ↔ MemoryAnswers os prog w good ∧
      MemoryAnswers os (f (exec (World.handle os) prog w).1) (exec (World.handle os) prog w).2
        good := by
  simp only [MemoryAnswers, trace_bind, List.mem_append, or_imp, forall_and]

theorem memoryAnswers_of_none {prog : M α}
    (h : ∀ step ∈ trace (World.handle os) prog w, step.2 ≠ .act .entryMemory) :
    MemoryAnswers os prog w good :=
  fun step hm hstep => absurd hstep (h step hm)

theorem memoryAnswers_of_uses {prog : M α} (hp : Uses AnyAnswer Cmd.NoEntryMemory prog)
    (w : World σ) : MemoryAnswers os prog w good :=
  memoryAnswers_of_none (uses_trace hp (World.handle os) w)

-- `add_entry` finds an entry, or adds one if there is memory for it.
theorem addEntry_search {q : EntryPtr}
    (h : w.ctx.db.searchEntryByInfo fileinfo parent storageId = some q) :
    (exec (World.handle os) (addEntry fileinfo parent storageId) w).1 = some q := by
  rw [addEntry, exec_getCtx_bind, h]
  rfl

theorem addEntry_memory (hdb : w.ctx.fsDb.isSome = true)
    (h : w.ctx.db.searchEntryByInfo fileinfo parent storageId = none) :
    let mem := (os.act .entryMemory w.os).1
    let added := exec (World.handle os) (addEntry fileinfo parent storageId) w
    added.1 = (w.ctx.db.allocEntry mem fileinfo parent storageId).1 ∧
      added.2.ctx.db = (w.ctx.db.allocEntry mem fileinfo parent storageId).2 ∧
      ∀ good, MemoryAnswers os (addEntry fileinfo parent storageId) w good ↔ good mem := by
  intro mem added
  obtain ⟨db, hsome⟩ := Option.isSome_iff_exists.mp hdb
  have hdbeq : w.ctx.db = db := by rw [MtpCtx.db, hsome]; rfl
  have hadded : added =
      (w.ctx.fsDb.bind fun db => (DbOp.apply db (.allocEntry mem fileinfo parent storageId)).1,
        ⟨w.ctx.applyDb (.allocEntry mem fileinfo parent storageId),
          (os.act .entryMemory w.os).2⟩) := by
    show exec (World.handle os) (addEntry fileinfo parent storageId) w = _
    rw [addEntry, exec_getCtx_bind, h]
    rfl
  have htrace : trace (World.handle os) (addEntry fileinfo parent storageId) w =
      [(w, .getCtx), (w, .act .entryMemory), (⟨w.ctx, (os.act .entryMemory w.os).2⟩,
        .db (.allocEntry mem fileinfo parent storageId))] := by
    rw [addEntry]
    change (w, _) :: trace (World.handle os) (match w.ctx.db.searchEntryByInfo fileinfo parent
      storageId with
      | some p => pure (some p)
      | none => do
        let mem ← M.act .entryMemory
        M.db (.allocEntry mem fileinfo parent storageId)) w = _
    rw [h]
    rfl
  refine ⟨?_, ?_, fun good => ?_⟩
  · rw [hadded, hsome, hdbeq]
    rfl
  · rw [hadded, hdbeq, MtpCtx.applyDb, MtpCtx.db, hsome]
    rfl
  · rw [MemoryAnswers, htrace]
    constructor
    · intro hmem
      exact hmem (w, .act .entryMemory) (by simp) rfl
    · intro hgood step hm hstep
      simp only [List.mem_cons, List.not_mem_nil, or_false] at hm
      rcases hm with rfl | rfl | rfl
      · cases hstep
      · exact hgood
      · cases hstep

end EntryMemory

section MakeObject

variable {make : CString → M Bool} {answer : Option EntryPtr → M (Nat × Nat)} {folder : EntryPtr}
  {fileinfo : FileFoundInfo} {parent storageId : Nat}

-- What is known of an object that was made and entered in the database.
structure Entered (os : Os σ) (prog : M (Nat × Nat)) (w : World σ) (path : CString)
    (fileinfo : FileFoundInfo) (parent storageId : Nat) (entry : Option EntryPtr) : Prop where
  made : ∀ path', WasMade os prog w path' ↔ path' = path
  registered : Registered w.ctx (exec (World.handle os) prog w).2.ctx fileinfo parent
    storageId entry
  answer : (exec (World.handle os) prog w).1 =
    (MTP_RESPONSE_OK, (exec (World.handle os) prog w).2.ctx.handleOf entry)
  search : ∀ q, w.ctx.db.searchEntryByInfo fileinfo parent storageId = some q → entry = some q
  memory : w.ctx.db.searchEntryByInfo fileinfo parent storageId = none → ∃ mem,
    entry = (w.ctx.db.allocEntry mem fileinfo parent storageId).1 ∧
    (exec (World.handle os) prog w).2.ctx.db =
      (w.ctx.db.allocEntry mem fileinfo parent storageId).2 ∧
    ∀ good, MemoryAnswers os prog w good ↔ good mem

theorem Entered.entryMemory_iff {prog : M (Nat × Nat)} {path : CString} {entry : Option EntryPtr}
    (h : Entered os prog w path fileinfo parent storageId entry)
    (hsearch : w.ctx.db.searchEntryByInfo fileinfo parent storageId = none) :
    EntryMemory os prog w w.ctx.db fileinfo parent storageId ↔ entry.isSome = true := by
  obtain ⟨mem, hentry, -, hgood⟩ := h.memory hsearch
  rw [EntryMemory, hgood, hentry]

-- Nothing is made, and no entry added.
structure Without (os : Os σ) (prog : M (Nat × Nat)) (w : World σ) (code : Nat) : Prop where
  made : ∀ path, ¬ WasMade os prog w path
  entryList : (exec (World.handle os) prog w).2.ctx.db.entryList = w.ctx.db.entryList
  answer : (exec (World.handle os) prog w).1 = (code, NO_HANDLE)

theorem makeObject_cases (hmake : IsMaker os make) (hanswer : IsAnswer os answer)
    (ho : w.ctx.Ordered) (hdb : w.ctx.fsDb.isSome = true) :
    let prog := makeObject make answer folder fileinfo parent storageId
    match (exec (World.handle os) (newObjectPath folder fileinfo.filename) w).1 with
    | some path => Without os prog w MTP_RESPONSE_ACCESS_DENIED ∨
        ∃ entry, Entered os prog w path fileinfo parent storageId entry
    | none => Without os prog w MTP_RESPONSE_OK := by
  intro prog
  have hpathUses : Uses AnyAnswer Cmd.MakesNothing (newObjectPath folder fileinfo.filename) :=
    makesNothing_identifies.toBuilds.newObjectPath folder fileinfo.filename
  have hctx := @looks_exec _ _ os _ (looks_newObjectPath folder fileinfo.filename) w
  have hmade : ∀ path, WasMade os prog w path ↔ _ := fun path => wasMade_rest hpathUses _ w path
  have hexec : exec (World.handle os) prog w = _ := exec_bind _ _ _ _
  have hmemory : ∀ good, MemoryAnswers os prog w good ↔ _ := fun good =>
    (memoryAnswers_bind _ _ w).trans (and_iff_right (memoryAnswers_of_uses
      (noEntryMemory_identifies.toBuilds.newObjectPath folder fileinfo.filename) w))
  generalize exec (World.handle os) (newObjectPath folder fileinfo.filename) w = found1 at *
  obtain ⟨found, ctx1, s1⟩ := found1
  obtain rfl : ctx1 = w.ctx := hctx
  cases found with
  | none =>
      dsimp only at hmade hexec ⊢
      refine ⟨fun path => ?_, ?_, ?_⟩
      · rw [hmade]
        exact not_wasMade (hanswer.nothing none) _ _
      · rw [hexec, hanswer.db]
      · rw [hexec, hanswer.value]
        rfl
  | some path =>
      dsimp only at hmade hexec hmemory ⊢
      have haddUses : Uses AnyAnswer Cmd.MakesNothing (addEntry fileinfo parent storageId) :=
        makesNothing_identifies.toBuilds.addEntry trivial (fun _ => trivial) fileinfo
        parent storageId
      have hlast : ∀ made : Bool, Uses AnyAnswer Cmd.MakesNothing (if made then (do
          let entry ← addEntry fileinfo parent storageId
          answer entry) else return (MTP_RESPONSE_ACCESS_DENIED, NO_HANDLE)) := by
        intro made
        split
        · exact uses_bind haddUses hanswer.nothing
        · exact uses_pure _
      have hmade' : ∀ path', WasMade os prog w path' ↔
          (exec (World.handle os) (make path) ⟨w.ctx, s1⟩).1 = true ∧ path' = path := by
        intro path'
        rw [hmade, bind_eq, wasMade_bind, or_iff_left (not_wasMade (hlast _) _ _), hmake.made]
      rw [bind_eq, exec_bind] at hexec
      have hmemory' : ∀ good, MemoryAnswers os prog w good ↔ _ := fun good =>
        (hmemory good).trans ((memoryAnswers_bind _ _ _).trans
          (and_iff_right (memoryAnswers_of_none (hmake.memory path _))))
      have hctx2 := hmake.ctx path ⟨w.ctx, s1⟩
      generalize exec (World.handle os) (make path) ⟨w.ctx, s1⟩ = made2 at *
      obtain ⟨made, ctx2, s2⟩ := made2
      obtain rfl : ctx2 = w.ctx := hctx2
      cases made with
      | false =>
          refine Or.inl ⟨fun path' h => ?_, by rw [hexec]; rfl, by rw [hexec]; rfl⟩
          exact absurd ((hmade' path').mp h).1 Bool.false_ne_true
      | true =>
          rw [if_pos rfl, bind_eq, exec_bind] at hexec
          have hmemory'' : ∀ good, MemoryAnswers os prog w good ↔
              MemoryAnswers os (addEntry fileinfo parent storageId) ⟨w.ctx, s2⟩ good := by
            intro good
            rw [hmemory' good, if_pos rfl, bind_eq, memoryAnswers_bind,
              and_iff_left (memoryAnswers_of_uses (hanswer.memory _) _)]
          have hadd := @exec_addEntry _ os (⟨w.ctx, s2⟩) ho fileinfo parent storageId
          refine Or.inr ⟨(exec (World.handle os) (addEntry fileinfo parent storageId)
            ⟨w.ctx, s2⟩).1,
            fun path' => (hmade' path').trans (and_iff_right rfl), ?_, ?_, ?_, ?_⟩
          · rw [hexec]
            exact hadd.of_db (hanswer.db _ _) (hanswer.storages _ _)
          · rw [hexec, hanswer.value, MtpCtx.handleOf, MtpCtx.handleOf]
            simp only [MtpCtx.entry, hanswer.db]
          · exact fun q hq => addEntry_search hq
          · intro hnone
            obtain ⟨hentry, hdb', hgood⟩ := @addEntry_memory _ os (⟨w.ctx, s2⟩) _ _ _ hdb hnone
            refine ⟨_, hentry, ?_, fun good => (hmemory'' good).trans (hgood good)⟩
            rw [hexec, hanswer.db]
            exact hdb'

end MakeObject

-- What the answer of a request says that made an object: it is in the folder of its
-- parent, and the handle is the one of its entry.
def Reports (os : Os σ) (made : CString → Prop) (ctx ctx' : MtpCtx) (folder : EntryPtr)
    (object : ObjectInfo) (parent storageId handle : Nat) : Prop :=
  ∃ path p, PathOf os ctx folder path ∧ made (path ++ SLASH :: object.name) ∧ ctx'.db.Live p ∧
    (ctx'.entry p).handle = handle ∧ (ctx'.entry p).name = object.name ∧
    (ctx'.entry p).parent = parent ∧ (ctx'.entry p).storageId = storageId ∧
    (ctx'.entry p).isDir = object.isFolder

def ObjectInfo.fileinfo (object : ObjectInfo) : FileFoundInfo :=
  ⟨object.isFolder, object.name, if object.isFolder then 0 else object.size⟩

-- The object has an entry of its kind already, or gets one.
def Enters (os : Os σ) (prog : M α) (w : World σ) (object : ObjectInfo) (parent storageId : Nat) :
    Prop :=
  match w.ctx.db.searchEntryByInfo object.fileinfo parent storageId with
  | some q => (w.ctx.entry q).isDir = object.isFolder
  | none => EntryMemory os prog w w.ctx.db object.fileinfo parent storageId

theorem enters_of_none {prog : M α} {object : ObjectInfo} {parent storageId : Nat}
    (hsearch : w.ctx.db.searchEntryByInfo object.fileinfo parent storageId = none)
    (hmemory : EntryMemory os prog w w.ctx.db object.fileinfo parent storageId) :
    Enters os prog w object parent storageId := by
  rw [Enters, hsearch]
  exact hmemory

-- A request for an object in a folder that is known.
def TruthfulIn (os : Os σ) (prog : M (Nat × Nat)) (w : World σ) (folder : EntryPtr)
    (object : ObjectInfo) (parent storageId : Nat) : Prop :=
  let result := exec (World.handle os) prog w
  (result.1.1 = MTP_RESPONSE_OK → Reports os (WasMade os prog w) w.ctx result.2.ctx folder object
    parent storageId result.1.2) ∧
  ((∀ path, ¬ WasMade os prog w path) →
    result.1.1 ≠ MTP_RESPONSE_OK ∧ result.2.ctx.db.entryList = w.ctx.db.entryList)

-- The path of the folder can be built, and there is memory for the path of an object
-- in it.
def PathBuilt (os : Os σ) (w : World σ) (folder : EntryPtr) : Prop :=
  (∃ path, (exec (World.handle os) (entryPath folder) w).1 = some path) ∧
    (os.act .malloc (exec (World.handle os) (entryPath folder) w).2.os).1 = true

theorem pathBuilt_iff (folder : EntryPtr) (name : CString) :
    PathBuilt os w folder ↔
      ∃ path, (exec (World.handle os) (newObjectPath folder name) w).1 = some path := by
  rw [newObjectPath, bind_eq, exec_bind, PathBuilt]
  cases (exec (World.handle os) (entryPath folder) w).1 with
  | none =>
      refine iff_of_false ?_ ?_
      · rintro ⟨⟨path, hpath⟩, -⟩
        cases hpath
      · rintro ⟨path, hpath⟩
        cases hpath
  | some path =>
      dsimp only
      rw [exec_act_bind]
      cases (os.act .malloc (exec (World.handle os) (entryPath folder) w).2.os).1 with
      | false =>
          refine iff_of_false (fun h => Bool.false_ne_true h.2) ?_
          rintro ⟨path, hpath⟩
          cases hpath
      | true => exact iff_of_true ⟨⟨path, rfl⟩, rfl⟩ ⟨_, rfl⟩

section Truthful

variable {make : CString → M Bool} {answer : Option EntryPtr → M (Nat × Nat)} {folder : EntryPtr}
  {object : ObjectInfo} {parent storageId : Nat}

theorem Without.truthful {prog : M (Nat × Nat)} (h : Without os prog w MTP_RESPONSE_ACCESS_DENIED) :
    TruthfulIn os prog w folder object parent storageId := by
  refine ⟨fun hok => ?_, fun _ => ⟨fun hok => ?_, h.entryList⟩⟩
  · rw [h.answer] at hok
    exact absurd hok (by decide)
  · rw [h.answer] at hok
    exact absurd hok (by decide)

theorem Without.not_truthful {prog : M (Nat × Nat)} (h : Without os prog w MTP_RESPONSE_OK) :
    ¬ TruthfulIn os prog w folder object parent storageId := by
  intro htruthful
  have hcode := (htruthful.2 h.made).1
  rw [h.answer] at hcode
  exact hcode rfl

-- The entry of the answer is the only one with its handle, or one of the roots.
theorem Entered.truthful_iff {prog : M (Nat × Nat)} {path : CString} {entry : Option EntryPtr}
    (h : Entered os prog w path object.fileinfo parent storageId entry)
    (hpath : (exec (World.handle os) (newObjectPath folder object.name) w).1 = some path)
    (ho : w.ctx.Ordered) (hrecorded : w.ctx.Recorded)
    (hlen : (exec (World.handle os) prog w).2.ctx.db.entryList.length < UINT32_SIZE - 1) :
    TruthfulIn os prog w folder object parent storageId ↔
      Enters os prog w object parent storageId := by
  have hrecorded' : (exec (World.handle os) prog w).2.ctx.Recorded := recorded_exec _ hrecorded
  obtain ⟨folderPath, hfolder, rfl⟩ := exec_newObjectPath hpath
  constructor
  · intro htruthful
    obtain ⟨-, p, -, -, hlive, hhandle, hname, -, -, hdir⟩ := htruthful.1 (by rw [h.answer])
    rw [h.answer] at hhandle
    dsimp only at hhandle
    rw [Enters]
    cases hsearch : w.ctx.db.searchEntryByInfo object.fileinfo parent storageId with
    | some q =>
        have hlisted := (ho.stored.findEntry_live hsearch).1.1
        obtain ⟨hlisted', hsame⟩ := h.registered.kept q hlisted
        rw [h.search q hsearch] at hhandle
        have hhandle' : ((exec (World.handle os) prog w).2.ctx.entry p).handle =
            ((exec (World.handle os) prog w).2.ctx.entry q).handle := hhandle
        dsimp only
        rw [← hsame, ← hdir]
        by_cases hzero : ((exec (World.handle os) prog w).2.ctx.entry p).handle = 0
        · rw [hrecorded'.top_isDir hlen hlive.1 hzero,
            hrecorded'.top_isDir hlen hlisted' (hhandle' ▸ hzero)]
        · rw [hrecorded'.handle_inj hlen hlive.1 hlisted' hzero hhandle']
    | none =>
        refine (h.entryMemory_iff hsearch).mpr ?_
        cases entry with
        | some q => rfl
        | none =>
            have hbound := (hrecorded'.handle_lt hlen hlive.1).2
            have hmax : UINT32_SIZE - 1 = NO_HANDLE := rfl
            have hnone : (exec (World.handle os) prog w).2.ctx.handleOf none = NO_HANDLE := rfl
            rw [hnone] at hhandle
            omega
  · intro henters
    have hentry : ∃ p, entry = some p ∧
        ((exec (World.handle os) prog w).2.ctx.entry p).isDir = object.isFolder := by
      rw [Enters] at henters
      cases hsearch : w.ctx.db.searchEntryByInfo object.fileinfo parent storageId with
      | some q =>
          rw [hsearch] at henters
          have hlisted := (ho.stored.findEntry_live hsearch).1.1
          exact ⟨q, h.search q hsearch, by rw [(h.registered.kept q hlisted).2]; exact henters⟩
      | none =>
          rw [hsearch] at henters
          obtain ⟨p, hp⟩ := Option.isSome_iff_exists.mp ((h.entryMemory_iff hsearch).mp henters)
          refine ⟨p, hp, ?_⟩
          rcases h.registered.fresh p hp with hold | ⟨-, hnew⟩
          · rw [hsearch] at hold
            cases hold
          · rw [hnew, isDir_newEntry]
            rfl
    obtain ⟨p, rfl, hdir⟩ := hentry
    obtain ⟨hlive, hname, hparent, hsid⟩ := h.registered.listed p rfl
    refine ⟨fun _ => ⟨folderPath, p, ⟨w.os, hfolder⟩, (h.made _).mpr rfl, hlive, ?_, hname, hparent,
      hsid, hdir⟩, fun hnone => absurd ((h.made _).mpr rfl) (hnone _)⟩
    rw [h.answer]
    rfl

theorem makeObject_truthful_iff (hmake : IsMaker os make) (hanswer : IsAnswer os answer)
    (ho : w.ctx.Ordered) (hrecorded : w.ctx.Recorded) (hdb : w.ctx.fsDb.isSome = true)
    {prog : M (Nat × Nat)}
    (hprog : prog = makeObject make answer folder object.fileinfo parent storageId)
    (hlen : (exec (World.handle os) prog w).2.ctx.db.entryList.length < UINT32_SIZE - 1) :
    TruthfulIn os prog w folder object parent storageId ↔
      PathBuilt os w folder ∧
        ((∃ path, WasMade os prog w path) → Enters os prog w object parent storageId) := by
  have hcases := @makeObject_cases _ _ _ _ _ folder object.fileinfo parent storageId hmake
    hanswer ho hdb
  rw [pathBuilt_iff folder object.name]
  have hname : object.fileinfo.filename = object.name := rfl
  rw [hname, ← hprog] at hcases
  cases hpath : (exec (World.handle os) (newObjectPath folder object.name) w).1 with
  | none =>
      rw [hpath] at hcases
      exact iff_of_false hcases.not_truthful fun h => nomatch h.1
  | some path =>
      rw [hpath] at hcases
      rcases hcases with hwithout | ⟨entry, hentered⟩
      · refine iff_of_true hwithout.truthful ⟨⟨path, rfl⟩, fun ⟨path', hmade⟩ => ?_⟩
        exact absurd hmade (hwithout.made path')
      · rw [hentered.truthful_iff hpath ho hrecorded hlen]
        exact ⟨fun h => ⟨⟨path, rfl⟩, fun _ => h⟩, fun h => h.2
          ⟨path, (hentered.made path).mpr rfl⟩⟩

end Truthful

-- Two programs that do the same in a state.
structure SameRun (os : Os σ) (prog prog' : M α) (w : World σ) : Prop where
  exec : exec (World.handle os) prog w = exec (World.handle os) prog' w
  made : ∀ path, WasMade os prog w path ↔ WasMade os prog' w path
  memory : ∀ good, MemoryAnswers os prog w good ↔ MemoryAnswers os prog' w good

theorem SameRun.refl (prog : M α) (w : World σ) : SameRun os prog prog w :=
  ⟨rfl, fun _ => Iff.rfl, fun _ => Iff.rfl⟩

theorem sameRun_getCtx_bind {f : MtpCtx → M α} {prog : M α} (h : SameRun os (f w.ctx) prog w) :
    SameRun os (M.getCtx >>= f) prog w where
  exec := by rw [exec_getCtx_bind, h.exec]
  made path := by
    have hget : Uses AnyAnswer Cmd.MakesNothing M.getCtx := uses_cmd (c := .getCtx) trivial
    rw [bind_eq, wasMade_rest hget]
    exact h.made path
  memory good := by
    have hget : Uses AnyAnswer Cmd.NoEntryMemory M.getCtx := uses_cmd (c := .getCtx) nofun
    rw [bind_eq, memoryAnswers_bind, and_iff_right (memoryAnswers_of_uses hget w)]
    exact h.memory good

-- What is asked of the answer to a dataset.
def TruthfulAnswer (os : Os σ) (prog : M (Nat × Nat)) (w : World σ) (datain : Buffer)
    (parent storageId : Nat) : Prop :=
  let result := exec (World.handle os) prog w
  (result.1.1 = MTP_RESPONSE_OK → ∃ object folder,
    decodeObjectInfo (datain.shift MTP_HEADER_SIZE) = some object ∧
    w.ctx.getEntryByHandleAndStorageid parent storageId = some folder ∧
    Reports os (WasMade os prog w) w.ctx result.2.ctx folder object parent storageId result.1.2) ∧
  ((∀ path, ¬ WasMade os prog w path) →
    result.1.1 ≠ MTP_RESPONSE_OK ∧ result.2.ctx.db.entryList = w.ctx.db.entryList)

-- The request is refused before anything is looked up.
def MtpCtx.Refuses (ctx : MtpCtx) (datain : Buffer) (storageId : Nat) : Prop :=
  ctx.mtpGetStorageFlags storageId = NO_STORAGE_FLAGS ∨
    hasFlag (ctx.mtpGetStorageFlags storageId) UMTP_STORAGE_READONLY = true ∨
    hdrCode datain = MTP_OPERATION_SEND_OBJECT_INFO ∧
      decodeObjectInfo (datain.shift MTP_HEADER_SIZE) = none

-- The request is refused, or comes as far as making an object in its folder. If that
-- is made, it is entered.
def Accountable (os : Os σ) (prog : M (Nat × Nat)) (w : World σ) (datain : Buffer)
    (parent storageId : Nat) : Prop :=
  w.ctx.Refuses datain storageId ∨ ∃ object folder,
    hdrCode datain = MTP_OPERATION_SEND_OBJECT_INFO ∧
    decodeObjectInfo (datain.shift MTP_HEADER_SIZE) = some object ∧
    w.ctx.getEntryByHandleAndStorageid parent storageId = some folder ∧
    (w.ctx.entry folder).isDir = true ∧ PathBuilt os w folder ∧
    ((∃ path, WasMade os prog w path) → Enters os prog w object parent storageId)

section Parse

variable {prog : M (Nat × Nat)} {datain : Buffer} {parent storageId code : Nat}

theorem truthful_of_refused (h : SameRun os prog (pure (code, NO_HANDLE)) w)
    (hcode : code ≠ MTP_RESPONSE_OK) : TruthfulAnswer os prog w datain parent storageId := by
  refine ⟨fun hok => ?_, fun _ => ⟨fun hok => ?_, ?_⟩⟩
  · rw [h.exec] at hok
    exact absurd hok hcode
  · rw [h.exec] at hok
    exact absurd hok hcode
  · rw [h.exec]
    rfl

theorem not_truthful_of_ok (h : SameRun os prog (pure (MTP_RESPONSE_OK, NO_HANDLE)) w) :
    ¬ TruthfulAnswer os prog w datain parent storageId := by
  intro htruthful
  have hnone : ∀ path, ¬ WasMade os prog w path := by
    intro path hmade
    exact not_wasMade (uses_pure _) w path ((h.made path).mp hmade)
  have hcode := (htruthful.2 hnone).1
  rw [h.exec] at hcode
  exact hcode rfl

theorem truthful_iff_in {object : ObjectInfo} {folder : EntryPtr} {prog' : M (Nat × Nat)}
    (h : SameRun os prog prog' w)
    (hobject : decodeObjectInfo (datain.shift MTP_HEADER_SIZE) = some object)
    (hfolder : w.ctx.getEntryByHandleAndStorageid parent storageId = some folder) :
    TruthfulAnswer os prog w datain parent storageId ↔
      TruthfulIn os prog' w folder object parent storageId := by
  have hmade : WasMade os prog w = WasMade os prog' w := funext fun path => propext (h.made path)
  rw [TruthfulAnswer, TruthfulIn, h.exec, hmade]
  refine and_congr_left fun _ => forall_congr' fun hok => ?_
  constructor
  · rintro ⟨object', folder', hobject', hfolder', hreports⟩
    obtain rfl := Option.some.inj (hobject.symm.trans hobject')
    obtain rfl := Option.some.inj (hfolder.symm.trans hfolder')
    exact hreports
  · exact fun hreports => ⟨object, folder, hobject, hfolder, hreports⟩

theorem enters_congr {prog' : M (Nat × Nat)} (h : SameRun os prog prog' w) (object : ObjectInfo)
    (parent storageId : Nat) :
    Enters os prog w object parent storageId ↔ Enters os prog' w object parent storageId := by
  rw [Enters, Enters]
  split
  · exact Iff.rfl
  · exact h.memory _

-- The branch for objects in a folder.
theorem truthful_object_iff {object : ObjectInfo} {folder : EntryPtr} (hw : w.ctx.Regular)
    (hobject : decodeObjectInfo (datain.shift MTP_HEADER_SIZE) = some object)
    (hfolder : w.ctx.getEntryByHandleAndStorageid parent storageId = some folder)
    (h : SameRun os prog (if object.isFolder then createFolder folder object.name parent storageId
      else createFile folder object.name object.size parent storageId) w)
    (hlen : (exec (World.handle os) prog w).2.ctx.db.entryList.length < UINT32_SIZE - 1) :
    TruthfulAnswer os prog w datain parent storageId ↔ PathBuilt os w folder ∧
      ((∃ path, WasMade os prog w path) → Enters os prog w object parent storageId) := by
  have hdb : w.ctx.fsDb.isSome = true := by
    by_contra hno
    have hnone : w.ctx.fsDb = none := Option.not_isSome_iff_eq_none.mp hno
    have hlisted := (MtpCtx.getEntryByHandleAndStorageid_live hfolder).1.1
    rw [MtpCtx.db, hnone] at hlisted
    exact absurd hlisted List.not_mem_nil
  have hmakes : ∃ (make : CString → M Bool) (answer : Option EntryPtr → M (Nat × Nat)),
      IsMaker os make ∧ IsAnswer os answer ∧
        SameRun os prog (makeObject make answer folder object.fileinfo parent storageId) w := by
    obtain ⟨isFolder, size, name⟩ := object
    cases isFolder with
    | false =>
        rw [if_neg Bool.false_ne_true, createFile_eq_makeObject] at h
        exact ⟨_, _, isMaker_makeFile storageId, isAnswer_expectObject size, h⟩
    | true =>
        rw [if_pos rfl, createFolder_eq_makeObject] at h
        have hrun := @sameRun_getCtx_bind _ _ os w
          (fun ctx => makeObject (makeFolder (ctx.entry folder).storageId) answerFolder folder
            ⟨true, name, 0⟩ parent storageId) _ (SameRun.refl _ w)
        exact ⟨_, _, isMaker_makeFolder (w.ctx.entry folder).storageId, isAnswer_answerFolder,
          h.exec.trans hrun.exec, fun path => (h.made path).trans (hrun.made path),
          fun _ => (h.memory _).trans (hrun.memory _)⟩
  obtain ⟨make, answer, hmake, hanswer, hrun⟩ := hmakes
  rw [truthful_iff_in hrun hobject hfolder, makeObject_truthful_iff hmake hanswer hw.ordered
    hw.recorded hdb rfl (by rw [← hrun.exec]; exact hlen), enters_congr hrun]
  simp only [hrun.made]

-- What becomes of a dataset that is neither refused nor of another operation.
def makeDecoded (ctx : MtpCtx) (decoded : Option ObjectInfo) (parent storageId : Nat) :
    M (Nat × Nat) :=
  match decoded with
  | some object =>
    match ctx.getEntryByHandleAndStorageid parent storageId with
    | some folder =>
      if (ctx.entry folder).isDir then
        if object.isFolder then createFolder folder object.name parent storageId
        else createFile folder object.name object.size parent storageId
      else
        return (MTP_RESPONSE_OK, NO_HANDLE)
    | none => return (MTP_RESPONSE_OK, NO_HANDLE)
  | none => return (MTP_RESPONSE_INVALID_DATASET, NO_HANDLE)

theorem parseIncomingDataset_truthful_iff (hw : w.ctx.Regular) {parentHandle : Nat}
    (hparent : (if parentHandle = NO_HANDLE then 0 else parentHandle) = parent)
    (hprog : prog = parseIncomingDataset datain parentHandle storageId)
    (hlen : (exec (World.handle os) prog w).2.ctx.db.entryList.length < UINT32_SIZE - 1) :
    TruthfulAnswer os prog w datain parent storageId ↔
      Accountable os prog w datain parent storageId := by
  have hno : ∀ code, code ≠ MTP_RESPONSE_OK → SameRun os prog (pure (code, NO_HANDLE)) w →
      TruthfulAnswer os prog w datain parent storageId := fun code hcode hrun =>
    truthful_of_refused hrun hcode
  by_cases hflags : w.ctx.mtpGetStorageFlags storageId = NO_STORAGE_FLAGS
  · refine iff_of_true (hno MTP_RESPONSE_INVALID_STORAGE_ID (by decide) ?_) (Or.inl (Or.inl hflags))
    rw [hprog, parseIncomingDataset]
    refine sameRun_getCtx_bind ?_
    rw [if_pos hflags]
    exact SameRun.refl _ w
  by_cases hreadonly : hasFlag (w.ctx.mtpGetStorageFlags storageId) UMTP_STORAGE_READONLY = true
  · refine iff_of_true (hno MTP_RESPONSE_STORE_READ_ONLY (by decide) ?_)
      (Or.inl (Or.inr (Or.inl hreadonly)))
    rw [hprog, parseIncomingDataset]
    refine sameRun_getCtx_bind ?_
    rw [if_neg hflags, if_pos hreadonly]
    exact SameRun.refl _ w
  by_cases hcode : hdrCode datain = MTP_OPERATION_SEND_OBJECT_INFO
  · have hrun : SameRun os prog (makeDecoded w.ctx
        (decodeObjectInfo (datain.shift MTP_HEADER_SIZE)) parent storageId) w := by
      rw [hprog, parseIncomingDataset_eq hcode, acceptObject, hparent]
      refine sameRun_getCtx_bind ?_
      rw [if_neg hflags, if_neg hreadonly]
      exact SameRun.refl _ w
    cases hobject : decodeObjectInfo (datain.shift MTP_HEADER_SIZE) with
    | none =>
        rw [hobject] at hrun
        exact iff_of_true (hno MTP_RESPONSE_INVALID_DATASET (by decide) hrun)
          (Or.inl (Or.inr (Or.inr ⟨hcode, hobject⟩)))
    | some object =>
        have hrefuses : ¬ w.ctx.Refuses datain storageId := by
          rintro (h | h | ⟨-, h⟩)
          · exact hflags h
          · exact hreadonly h
          · rw [hobject] at h
            cases h
        rw [Accountable, or_iff_right hrefuses]
        rw [hobject, makeDecoded] at hrun
        cases hfolder : w.ctx.getEntryByHandleAndStorageid parent storageId with
        | none =>
            rw [hfolder] at hrun
            refine iff_of_false (not_truthful_of_ok hrun) ?_
            rintro ⟨object', folder', -, -, hfolder', -⟩
            cases hfolder'
        | some folder =>
            rw [hfolder] at hrun
            dsimp only at hrun
            by_cases hdir : (w.ctx.entry folder).isDir = true
            · rw [if_pos hdir] at hrun
              rw [truthful_object_iff hw hobject hfolder hrun hlen]
              constructor
              · exact fun h => ⟨object, folder, hcode, hobject, rfl, hdir, h⟩
              · rintro ⟨object', folder', -, hobject', hfolder', -, h⟩
                obtain rfl := Option.some.inj (hobject.symm.trans hobject')
                obtain rfl := Option.some.inj hfolder'
                exact h
            · rw [if_neg hdir] at hrun
              refine iff_of_false (not_truthful_of_ok hrun) ?_
              rintro ⟨object', folder', -, -, hfolder', hdir', -⟩
              obtain rfl := Option.some.inj hfolder'
              exact hdir hdir'
  · refine iff_of_false (not_truthful_of_ok ?_) ?_
    · rw [hprog, parseIncomingDataset]
      refine sameRun_getCtx_bind ?_
      rw [if_neg hflags, if_neg hreadonly, if_neg hcode]
      exact SameRun.refl _ w
    · rintro ((h | h | ⟨h, -⟩) | ⟨object, folder, h, -⟩)
      · exact hflags h
      · exact hreadonly h
      · exact hcode h
      · exact hcode h

end Parse

-- The parts of SendObjectInfo before and after the dataset has come

def receiveDataset : M Unit := do
  let ctx ← M.getCtx
  match ← M.act (.readUsb ctx.usbRdBufferMaxSize) with
  | some bytes => M.cmd (.setRdbuffer2 (ctx.rdbuffer2.write 0 bytes))
  | none => pure ()

def respond (hdr : Buffer) (result : Nat × Nat) : Response :=
  if result.1 = MTP_RESPONSE_OK then (result.1, [param hdr 0, param hdr 1, result.2])
  else (result.1, [])

theorem mtpOpSendObjectInfo_eq (hdr : Buffer) :
    mtpOpSendObjectInfo hdr = inSession (underMutex (receiveDataset >>= fun _ =>
      M.getCtx >>= fun ctx =>
        parseIncomingDataset ctx.rdbuffer2 (param hdr 1) (param hdr 0) >>= fun result =>
          return respond hdr result)) := by
  unfold mtpOpSendObjectInfo receiveDataset
  refine congrArg inSession (congrArg underMutex ?_)
  simp only [bind_eq, Prog.bind_assoc]
  refine congrArg (Prog.bind M.getCtx) (funext fun ctx => ?_)
  refine congrArg (Prog.bind _) (funext fun received => ?_)
  have hrespond : ∀ result : Nat × Nat,
      (if result.1 = MTP_RESPONSE_OK then
        return (result.1, [param hdr 0, param hdr 1, result.2]) else return (result.1, []) :
        M Response) = return respond hdr result := by
    intro result
    rw [respond]
    split
    · rfl
    · rfl
  cases received with
  | none => exact congrArg (Prog.bind _) (funext fun ctx => congrArg (Prog.bind _)
    (funext hrespond))
  | some bytes =>
      refine congrArg (Prog.bind _) (funext fun _ => ?_)
      exact congrArg (Prog.bind _) (funext fun ctx => congrArg (Prog.bind _) (funext hrespond))

-- The state in which the dataset is looked at.
def received (os : Os σ) (w : World σ) : World σ :=
  (exec (World.handle os) receiveDataset ⟨w.ctx, (os.act .lockInotifyMutex w.os).2⟩).2

theorem received_ctx (os : Os σ) (w : World σ) :
    ∃ buffer, (received os w).ctx = w.ctx.withBuffers w.ctx.rdbuffer buffer := by
  rw [received, receiveDataset, exec_getCtx_bind, exec_act_bind]
  dsimp only
  cases (os.act (.readUsb w.ctx.usbRdBufferMaxSize) (os.act .lockInotifyMutex w.os).2).1 with
  | none => exact ⟨w.ctx.rdbuffer2, rfl⟩
  | some bytes => exact ⟨_, rfl⟩

theorem makesNothing_receiveDataset : Uses AnyAnswer Cmd.MakesNothing receiveDataset := by
  refine makesNothing_identifies.toBuilds.getCtx_bind fun ctx =>
    uses_bind (uses_act_of trivial) fun bytes => ?_
  split
  · exact uses_cmd trivial
  · exact uses_pure _

-- The request as a whole, once it has the mutex.
theorem exec_mtpOpSendObjectInfo {hdr : Buffer} (hdb : w.ctx.fsDb.isSome = true)
    (hlock : (os.act .lockInotifyMutex w.os).1 = true) :
    let prog := parseIncomingDataset (received os w).ctx.rdbuffer2 (param hdr 1) (param hdr 0)
    let result := exec (World.handle os) prog (received os w)
    (exec (World.handle os) (mtpOpSendObjectInfo hdr) w).1 = respond hdr result.1 ∧
      (exec (World.handle os) (mtpOpSendObjectInfo hdr) w).2.ctx = result.2.ctx ∧
      ∀ path, WasMade os (mtpOpSendObjectInfo hdr) w path ↔ WasMade os prog (received os w)
      path := by
  intro prog result
  have hget : Uses AnyAnswer Cmd.MakesNothing M.getCtx := uses_cmd (c := .getCtx) trivial
  have hlockUses : Uses AnyAnswer Cmd.MakesNothing (M.act .lockInotifyMutex) := uses_act_of trivial
  have hrespond : Uses AnyAnswer Cmd.MakesNothing (M.act_ .unlockInotifyMutex) :=
    uses_bind (uses_act_of trivial) fun _ => uses_pure _
  have hwhole : mtpOpSendObjectInfo hdr = M.getCtx.bind fun ctx =>
      if ctx.fsDb.isSome then (M.act .lockInotifyMutex).bind fun locked =>
        if locked then receiveDataset.bind fun _ => M.getCtx.bind fun ctx =>
          (parseIncomingDataset ctx.rdbuffer2 (param hdr 1) (param hdr 0)).bind fun result =>
            (M.act_ .unlockInotifyMutex).bind fun _ => pure (respond hdr result)
        else pure (MTP_RESPONSE_GENERAL_ERROR, [])
      else pure (MTP_RESPONSE_SESSION_NOT_OPEN, []) := by
    rw [mtpOpSendObjectInfo_eq]
    simp only [inSession, underMutex, bind_eq, Prog.bind_assoc, pure_eq, ret_bind]
  have hreceived : exec (World.handle os) receiveDataset
      ⟨w.ctx, (os.act .lockInotifyMutex w.os).2⟩ = ((), received os w) := rfl
  have hstart : (exec (World.handle os) M.getCtx w) = (w.ctx, w) := rfl
  have hlocked : exec (World.handle os) (M.act .lockInotifyMutex) w =
      ((os.act .lockInotifyMutex w.os).1, ⟨w.ctx, (os.act .lockInotifyMutex w.os).2⟩) := rfl
  have hexec : exec (World.handle os) (mtpOpSendObjectInfo hdr) w = (respond hdr result.1,
      ⟨result.2.ctx, (os.act .unlockInotifyMutex result.2.os).2⟩) := by
    rw [hwhole, exec_bind, hstart, if_pos hdb, exec_bind, hlocked, if_pos hlock, exec_bind,
      hreceived, exec_bind, exec_bind]
    rfl
  refine ⟨by rw [hexec], by rw [hexec], fun path => ?_⟩
  rw [hwhole, wasMade_rest hget, hstart, if_pos hdb, wasMade_rest hlockUses, hlocked, if_pos hlock,
    wasMade_rest makesNothing_receiveDataset, hreceived, wasMade_rest hget, wasMade_bind,
    or_iff_left]
  · rfl
  · exact not_wasMade (uses_bind hrespond fun _ => uses_pure _) _ _

-- SendObjectInfo reports the truth.
def ReportsTruth (os : Os σ) (w : World σ) (hdr : Buffer) : Prop :=
  let request := mtpOpSendObjectInfo hdr
  let result := exec (World.handle os) request w
  let parent := if param hdr 1 = NO_HANDLE then 0 else param hdr 1
  let ctx := (received os w).ctx
  (result.1.1 = MTP_RESPONSE_OK → ∃ object folder handle,
    decodeObjectInfo (ctx.rdbuffer2.shift MTP_HEADER_SIZE) = some object ∧
    ctx.getEntryByHandleAndStorageid parent (param hdr 0) = some folder ∧
    result.1.2 = [param hdr 0, param hdr 1, handle] ∧
    Reports os (WasMade os request w) ctx result.2.ctx folder object parent (param hdr 0) handle) ∧
  ((∀ path, ¬ WasMade os request w path) →
    result.1.1 ≠ MTP_RESPONSE_OK ∧ result.2.ctx.db.entryList = w.ctx.db.entryList)

-- The request is turned down at once, or what comes of its dataset is accounted for.
def Accounted (os : Os σ) (w : World σ) (hdr : Buffer) : Prop :=
  w.ctx.fsDb.isSome = false ∨ (os.act .lockInotifyMutex w.os).1 = false ∨
    Accountable os
      (parseIncomingDataset (received os w).ctx.rdbuffer2 (param hdr 1) (param hdr 0))
      (received os w)
      (received os w).ctx.rdbuffer2 (if param hdr 1 = NO_HANDLE then 0 else param hdr 1)
      (param hdr 0)

theorem reportsTruth_of_refused {hdr : Buffer} {code : Nat} (hcode : code ≠ MTP_RESPONSE_OK)
    (hexec : (exec (World.handle os) (mtpOpSendObjectInfo hdr) w).1 = (code, []))
    (hctx : (exec (World.handle os) (mtpOpSendObjectInfo hdr) w).2.ctx = w.ctx) :
    ReportsTruth os w hdr := by
  refine ⟨fun hok => ?_, fun _ => ⟨fun hok => ?_, by rw [hctx]⟩⟩
  · rw [hexec] at hok
    exact absurd hok hcode
  · rw [hexec] at hok
    exact absurd hok hcode

theorem reportsTruth_iff {hdr : Buffer} (hdb : w.ctx.fsDb.isSome = true)
    (hlock : (os.act .lockInotifyMutex w.os).1 = true) :
    ReportsTruth os w hdr ↔ TruthfulAnswer os
      (parseIncomingDataset (received os w).ctx.rdbuffer2 (param hdr 1) (param hdr 0))
      (received os w)
      (received os w).ctx.rdbuffer2 (if param hdr 1 = NO_HANDLE then 0 else param hdr 1)
      (param hdr 0) := by
  obtain ⟨hresponse, hctx, hmade⟩ := @exec_mtpOpSendObjectInfo _ os _ hdr hdb hlock
  obtain ⟨buffer, hreceived⟩ := received_ctx os w
  have hlist : w.ctx.db.entryList = (received os w).ctx.db.entryList := by rw [hreceived]; rfl
  have hmade' := funext fun path => propext (hmade path)
  rw [ReportsTruth, TruthfulAnswer, hresponse, hctx, hmade', hlist]
  generalize exec (World.handle os) _ (received os w) = result
  obtain ⟨⟨code, handle⟩, w'⟩ := result
  by_cases hcode : code = MTP_RESPONSE_OK
  · have hrespond : respond hdr (code, handle) = (code, [param hdr 0, param hdr 1, handle]) :=
      if_pos hcode
    dsimp only
    rw [hrespond]
    refine and_congr_left fun _ => forall_congr' fun _ => ?_
    constructor
    · rintro ⟨object, folder, handle', hobject, hfolder, hparams, hreports⟩
      simp only [List.cons.injEq, and_true, true_and] at hparams
      rw [← hparams] at hreports
      exact ⟨object, folder, hobject, hfolder, hreports⟩
    · rintro ⟨object, folder, hobject, hfolder, hreports⟩
      exact ⟨object, folder, handle, hobject, hfolder, rfl, hreports⟩
  · have hrespond : respond hdr (code, handle) = (code, []) := if_neg hcode
    dsimp only
    rw [hrespond]
    exact and_congr_left fun _ => iff_of_true (fun h => absurd h hcode) fun h => absurd h hcode

-- SendObjectInfo reports the truth if and only if what becomes of its dataset is
-- accounted for.
theorem sendObjectInfo_reports_truth_iff (os : Os σ) (start : World σ) (hstart : start.ctx.Initial)
    (events : List (Event σ)) (hdr buffer2 : Buffer) (s : σ) :
    let w : World σ := ⟨(run (World.step os) start events).ctx.withBuffers hdr buffer2, s⟩
    (exec (World.handle os) (mtpOpSendObjectInfo hdr) w).2.ctx.db.entryList.length < 2 ^ 32 - 1 →
      (ReportsTruth os w hdr ↔ Accounted os w hdr) := by
  intro w hlen
  have hw : w.ctx.Regular :=
    ((wellGrown_run hstart.wellGrown events).withBuffers hdr buffer2).toRegular
  cases hdb : w.ctx.fsDb.isSome with
  | false =>
      refine iff_of_true ?_ (Or.inl hdb)
      have hexec : exec (World.handle os) (mtpOpSendObjectInfo hdr) w =
          ((MTP_RESPONSE_SESSION_NOT_OPEN, []), w) := by
        rw [mtpOpSendObjectInfo, inSession, exec_getCtx_bind, hdb]
        rfl
      have hcode : MTP_RESPONSE_SESSION_NOT_OPEN ≠ MTP_RESPONSE_OK := by decide
      exact reportsTruth_of_refused hcode (by rw [hexec]) (by rw [hexec])
  | true =>
      cases hlock : (os.act .lockInotifyMutex w.os).1 with
      | false =>
          refine iff_of_true ?_ (Or.inr (Or.inl hlock))
          have hexec : exec (World.handle os) (mtpOpSendObjectInfo hdr) w =
              ((MTP_RESPONSE_GENERAL_ERROR, []), ⟨w.ctx, (os.act .lockInotifyMutex w.os).2⟩) := by
            rw [mtpOpSendObjectInfo, inSession, exec_getCtx_bind, if_pos hdb, underMutex,
              exec_act_bind, hlock]
            rfl
          have hcode : MTP_RESPONSE_GENERAL_ERROR ≠ MTP_RESPONSE_OK := by decide
          exact reportsTruth_of_refused hcode (by rw [hexec]) (by rw [hexec])
      | true =>
          obtain ⟨buffer, hreceived⟩ := received_ctx os w
          have hw1 : (received os w).ctx.Regular := by
            rw [hreceived]
            exact ⟨⟨hw.ordered.slots, hw.ordered.stored⟩, hw.slotIds, hw.recorded⟩
          obtain ⟨-, hctx, -⟩ := @exec_mtpOpSendObjectInfo _ os _ hdr hdb hlock
          rw [hctx] at hlen
          rw [reportsTruth_iff hdb hlock, parseIncomingDataset_truthful_iff hw1 rfl rfl hlen,
            Accounted, hdb, hlock]
          simp only [Bool.true_eq_false, false_or]

section Samples

-- The command for a file named "g", and the dataset that follows it.
def sendInfoHdr (parentHandle : Nat) : Buffer :=
  Buffer.write (fun _ => 0) 0
    (commandPacket MTP_OPERATION_SEND_OBJECT_INFO [0xFFFF0001, parentHandle])

def sendInfoWorld (parentHandle : Nat) : World MemSystem :=
  ⟨(run (World.step memOs) twoStorages [openSession]).ctx.withBuffers (sendInfoHdr parentHandle)
    (fun _ => 0), { sampleSystem with
      host := [dataPacket MTP_OPERATION_SEND_OBJECT_INFO
        (List.replicate 52 0 ++ stringPayload [0x67])] }⟩

theorem sendObjectInfo_reports_truth_iff_sample :
    ReportsTruth memOs (sendInfoWorld 0) (sendInfoHdr 0) := by
  refine (sendObjectInfo_reports_truth_iff memOs twoStorages twoStorages_initial [openSession]
    (sendInfoHdr 0) (fun _ => 0) (sendInfoWorld 0).os (by decide +kernel)).mpr ?_
  refine Or.inr (Or.inr (Or.inr ⟨⟨false, 0, [0x67]⟩, ⟨1, 1023⟩, by decide +kernel, by
    decide +kernel,
    by decide +kernel, by decide +kernel, ⟨⟨A_ROOT, by decide +kernel⟩, by decide +kernel⟩,
    fun _ => ?_⟩))
  have hsearch : (received memOs (sendInfoWorld 0)).ctx.db.searchEntryByInfo
      (ObjectInfo.fileinfo ⟨false, 0, [0x67]⟩) 0 0xFFFF0001 = none := by decide +kernel
  have hmemory : ((received memOs (sendInfoWorld 0)).ctx.db.allocEntry AllocMem.success
      (ObjectInfo.fileinfo ⟨false, 0, [0x67]⟩) 0 0xFFFF0001).1.isSome = true := by decide +kernel
  have hparent :
      (if param (sendInfoHdr 0) 1 = NO_HANDLE then 0 else param (sendInfoHdr 0) 1) = 0 := by
    decide +kernel
  have hstorage : param (sendInfoHdr 0) 0 = 0xFFFF0001 := by decide +kernel
  rw [hparent, hstorage]
  exact enters_of_none hsearch fun step _ _ => hmemory

-- No object has the handle 77. Nothing is made, and the answer is OK.
theorem not_reportsTruth_of_unknown_parent :
    ¬ ReportsTruth memOs (sendInfoWorld 77) (sendInfoHdr 77) ∧
      (exec (World.handle memOs) (mtpOpSendObjectInfo (sendInfoHdr 77)) (sendInfoWorld 77)).1 =
        (MTP_RESPONSE_OK, [0xFFFF0001, 77, NO_HANDLE]) := by
  refine ⟨fun h => ?_, by decide +kernel⟩
  obtain ⟨object, folder, handle, -, hfolder, -⟩ := h.1 (by decide +kernel)
  have hnone : (received memOs (sendInfoWorld 77)).ctx.getEntryByHandleAndStorageid 77 0xFFFF0001 =
      none := by decide +kernel
  have hsome : (received memOs (sendInfoWorld 77)).ctx.getEntryByHandleAndStorageid 77 0xFFFF0001 =
      some folder := by
    have hparent : (if param (sendInfoHdr 77) 1 = NO_HANDLE then 0 else param (sendInfoHdr 77) 1) =
        77 := by decide +kernel
    have hstorage : param (sendInfoHdr 77) 0 = 0xFFFF0001 := by decide +kernel
    rw [hparent, hstorage] at hfolder
    exact hfolder
  rw [hnone] at hsome
  cases hsome

end Samples

end Umtp
