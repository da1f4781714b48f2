import Umtp.Effects.Parts
import Umtp.Handles.Refinement

namespace Umtp

open Lib Lib.Prog Handles

variable {σ α β : Type} {os : Os σ} {fp : Footprint} {ctx ctx' ctx'' : MtpCtx} {p : EntryPtr}

-- The database is in order, whatever the allocations gave.
structure MtpCtx.Ordered (ctx : MtpCtx) : Prop where
  slots : Slots ctx.db
  stored : Stored ctx.db

-- What happens to the context while a request is served: no entry is lost and
-- the storages stay.
structure Later (ctx ctx' : MtpCtx) : Prop where
  ordered : ctx'.Ordered
  frozen : Frozen ctx.db ctx'.db
  storages : ctx'.storages = ctx.storages

theorem Later.refl (ho : ctx.Ordered) : Later ctx ctx :=
  ⟨ho, Frozen.refl _, rfl⟩

theorem Later.trans (hl : Later ctx ctx') (hl' : Later ctx' ctx'') : Later ctx ctx'' :=
  ⟨hl'.ordered, hl.frozen.trans hl'.frozen, hl'.storages.trans hl.storages⟩

-- The buffers of the context are in no lookup.
theorem Later.of_eq (ho : ctx.Ordered) (hdb : ctx'.fsDb = ctx.fsDb)
    (hs : ctx'.storages = ctx.storages) : Later ctx ctx' := by
  have heq : ctx'.db = ctx.db := by rw [MtpCtx.db, MtpCtx.db, hdb]
  exact ⟨⟨by rw [heq]; exact ho.slots, by rw [heq]; exact ho.stored⟩,
    by rw [heq]; exact Frozen.refl _, hs⟩

theorem Later.mem (hl : Later ctx ctx') (hp : p ∈ ctx.db.entryList) : p ∈ ctx'.db.entryList :=
  hl.frozen.mem hp

theorem Later.entry_eq (hl : Later ctx ctx') (hp : p ∈ ctx.db.entryList) :
    (ctx'.entry p).handle = (ctx.entry p).handle ∧ (ctx'.entry p).parent = (ctx.entry p).parent ∧
      (ctx'.entry p).storageId = (ctx.entry p).storageId := by
  have hid := hl.frozen.identity p hp
  simp only [FsEntry.identity, Prod.mk.injEq] at hid
  exact hid

theorem Later.isDir_eq (hl : Later ctx ctx') (hp : p ∈ ctx.db.entryList) :
    (ctx'.entry p).isDir = (ctx.entry p).isDir :=
  hl.frozen.isDir p hp

theorem MtpCtx.index_eq_of_storages (hs : ctx'.storages = ctx.storages) :
    ctx'.mtpGetStorageIndexById = ctx.mtpGetStorageIndexById := by
  funext storageId
  simp only [MtpCtx.mtpGetStorageIndexById, hs]

theorem MtpCtx.root_eq_of_storages (hs : ctx'.storages = ctx.storages) :
    ctx'.mtpGetStorageRoot = ctx.mtpGetStorageRoot := by
  funext storageId
  simp only [MtpCtx.mtpGetStorageRoot, MtpCtx.index_eq_of_storages hs, hs]

theorem MtpCtx.flags_eq_of_storages (hs : ctx'.storages = ctx.storages) :
    ctx'.mtpGetStorageFlags = ctx.mtpGetStorageFlags := by
  funext storageId
  simp only [MtpCtx.mtpGetStorageFlags, MtpCtx.index_eq_of_storages hs, hs]

-- The folder the files of an entry are under.
def MtpCtx.rootOf (ctx : MtpCtx) (p : EntryPtr) : CString :=
  (ctx.mtpGetStorageRoot (ctx.entry p).storageId).getD []

theorem Later.rootOf_eq (hl : Later ctx ctx') (hp : p ∈ ctx.db.entryList) :
    ctx'.rootOf p = ctx.rootOf p := by
  simp only [MtpCtx.rootOf, MtpCtx.root_eq_of_storages hl.storages, (hl.entry_eq hp).2.2]

-- The lookups of the context find listed entries.
theorem MtpCtx.Ordered.getEntryByHandle_live (ho : ctx.Ordered) {handle : Nat}
    (h : ctx.getEntryByHandle handle = some p) :
    ctx.db.Live p ∧ (ctx.entry p).handle = handle ∧
      (ctx.mtpGetStorageRoot (ctx.entry p).storageId).isSome = true :=
  ho.stored.getEntryByHandle_live h

theorem MtpCtx.getEntryByHandleAndStorageid_live {handle storageId : Nat}
    (h : ctx.getEntryByHandleAndStorageid handle storageId = some p) :
    ctx.db.Live p ∧ (ctx.entry p).handle = handle ∧ (ctx.entry p).storageId = storageId := by
  obtain ⟨hmem, hlive, hhandle, hsid⟩ := FsHandlesDb.getEntryByHandleAndStorageid_eq_some h
  exact ⟨⟨hmem, hlive⟩, hhandle, hsid⟩

-- What a command relies on: a renamed entry is listed, and a new entry has a
-- live parent, unless it is put at the root of the storage.
def Cmd.Proper (ctx : MtpCtx) : Cmd → Prop
  | db (.allocEntry _ _ parent _) =>
    parent = 0 ∨ ∃ q, ctx.db.Live q ∧ (ctx.entry q).handle = parent
  | db (.renameEntry _ p _) => p ∈ ctx.db.entryList
  | _ => True

def Sited (fp : Footprint) (w : World σ) (c : Cmd) : Prop :=
  c.Within fp ∧ c.Proper w.ctx

theorem Later.of_applyDb (ho : ctx.Ordered) {op : DbOp} (he : op.Enabled ctx.db) :
    Later ctx (ctx.applyDb op) := by
  rcases ctx.applyDb_cases op with heq | heq
  · exact ⟨⟨by rw [heq]; exact ho.slots, by rw [heq]; exact ho.stored⟩,
      by rw [heq]; exact Frozen.refl _, rfl⟩
  · exact ⟨⟨by rw [heq]; exact DbOp.slots_step ho.slots op,
      by rw [heq]; exact DbOp.stored_step ho.slots ho.stored op he⟩,
      by rw [heq]; exact DbOp.frozen_step ho.slots op, rfl⟩

theorem sited_later {w : World σ} {c : Cmd} (ho : w.ctx.Ordered) (hc : Sited fp w c) :
    Later w.ctx (World.handle os c w).2.ctx := by
  obtain ⟨hin, hproper⟩ := hc
  cases c with
  | db op =>
      refine Later.of_applyDb ho ?_
      cases op with
      | renameEntry mem p name => exact hproper
      | _ => trivial
  | flagDeleted site p => exact Later.of_applyDb ho trivial
  | initFsDb => exact hin.elim
  | dropFsDb => exact hin.elim
  | setSessionId id => exact hin.elim
  | setStorage i storage => exact hin.elim
  | _ => exact Later.of_eq ho rfl rfl

-- Started in a context, with the system in any state, the program keeps to the
-- footprint.
def Obeys (os : Os σ) (fp : Footprint) (ctx : MtpCtx) (prog : M α) : Prop :=
  ∀ s, Safe (World.handle os) (Sited fp) prog ⟨ctx, s⟩ ∧
    Later ctx (exec (World.handle os) prog ⟨ctx, s⟩).2.ctx

section Rules

theorem obeys_pure (ho : ctx.Ordered) (value : α) : Obeys os fp ctx (pure value : M α) :=
  fun s => ⟨by simp [Safe], Later.refl ho⟩

theorem obeys_bind {prog : M α} {f : α → M β} (hp : Obeys os fp ctx prog)
    (hf : ∀ value ctx', Later ctx ctx' → Obeys os fp ctx' (f value)) :
    Obeys os fp ctx (prog >>= f) := by
  intro s
  obtain ⟨hs, hl⟩ := hp s
  obtain ⟨hs', hl'⟩ := hf (exec (World.handle os) prog ⟨ctx, s⟩).1 _ hl _
  exact ⟨(safe_bind prog f _).mpr ⟨hs, hs'⟩, by simpa using hl.trans hl'⟩

-- A first part that leaves the context as it is.
theorem obeys_bind_same {prog : M α} {f : α → M β} (hp : Obeys os fp ctx prog)
    (hsame : ∀ s, ∃ value s', exec (World.handle os) prog ⟨ctx, s⟩ = (value, ⟨ctx, s'⟩))
    (hf : ∀ value, Obeys os fp ctx (f value)) : Obeys os fp ctx (prog >>= f) := by
  intro s
  obtain ⟨value, s', hw⟩ := hsame s
  obtain ⟨hs', hl'⟩ := hf value s'
  refine ⟨(safe_bind prog f _).mpr ⟨(hp s).1, ?_⟩, ?_⟩
  · rw [hw]
    exact hs'
  · rw [bind_eq, exec_bind, hw]
    exact hl'

theorem obeys_getCtx_bind {f : MtpCtx → M α} (hf : Obeys os fp ctx (f ctx)) :
    Obeys os fp ctx (M.getCtx >>= f) := by
  intro s
  obtain ⟨hs, hl⟩ := hf s
  refine ⟨(safe_bind _ _ _).mpr ⟨?_, hs⟩, hl⟩
  simp [Safe, M.getCtx, Sited, Cmd.Within, Cmd.Proper]

theorem obeys_plain_bind (a : Action) (ha : a.isPlain = true) {f : a.Ans → M α}
    (hf : ∀ answer, Obeys os fp ctx (f answer)) : Obeys os fp ctx (M.act a >>= f) := by
  intro s
  obtain ⟨hs, hl⟩ := hf (os.act a s).1 (os.act a s).2
  refine ⟨(safe_bind _ _ _).mpr ⟨?_, hs⟩, hl⟩
  have hin : (Cmd.act a).Within fp := (uses_plain (R := fun _ _ => True) a ha).1
  simpa [Safe, M.act, Sited, Cmd.Proper] using hin

theorem obeys_query_bind (q : Query) (hq : ∀ path ∈ q.paths, fp.path path) {f : q.Ans → M α}
    (hf : ∀ answer, Obeys os fp ctx (f answer)) : Obeys os fp ctx (M.query q >>= f) := by
  intro s
  obtain ⟨hs, hl⟩ := hf (os.query q s) s
  refine ⟨(safe_bind _ _ _).mpr ⟨?_, hs⟩, hl⟩
  have hin : (Cmd.query q).Within fp := hq
  simpa [Safe, M.query, Sited, Cmd.Proper] using hin

theorem obeys_buffer_bind (c : Cmd) (hc : c.isBuffer = true) (ho : ctx.Ordered)
    {f : c.Ans → M α}
    (hf : ∀ ctx', ctx'.fsDb = ctx.fsDb → ctx'.storages = ctx.storages →
      ∀ answer, Obeys os fp ctx' (f answer)) :
    Obeys os fp ctx (M.cmd c >>= f) := by
  intro s
  have hin : c.Within fp := (uses_buffer (R := fun _ _ => True) c hc).1
  have hsame : (World.handle os c ⟨ctx, s⟩).2.ctx.fsDb = ctx.fsDb ∧
      (World.handle os c ⟨ctx, s⟩).2.ctx.storages = ctx.storages := by
    cases c <;> first | exact ⟨rfl, rfl⟩ | simp [Cmd.isBuffer] at hc
  have hproper : c.Proper ctx := by
    cases c <;> trivial
  have hl : Later ctx (World.handle os c ⟨ctx, s⟩).2.ctx :=
    sited_later (w := ⟨ctx, s⟩) ho ⟨hin, hproper⟩
  obtain ⟨hs, hl'⟩ := hf _ hsame.1 hsame.2 (World.handle os c ⟨ctx, s⟩).1
    (World.handle os c ⟨ctx, s⟩).2.os
  refine ⟨(safe_bind _ _ _).mpr ⟨?_, hs⟩, hl.trans hl'⟩
  intro step hm
  obtain rfl : step = (⟨ctx, s⟩, c) := by simpa [M.cmd] using hm
  exact ⟨hin, hproper⟩

end Rules

section Bodies

-- What is known while a request is served: the context it was read in before,
-- and what the search over a folder comes to.
def Knows (ctx : MtpCtx) (child : EntryPtr → Prop) : (c : Cmd) → c.Ans → Prop
  | .getCtx, ctx' => Later ctx ctx'
  | .db .getNextChildHandle, next => ∀ p ∈ next, child p
  | _, _ => True

-- The part of a footprint that adds nothing and renames listed entries only.
def Footprint.still (fp : Footprint) (ctx : MtpCtx) : Footprint :=
  { fp with
    allocates := fun _ _ => False
    renames := fun p => fp.renames p ∧ p ∈ ctx.db.entryList }

-- The part that flags and renames nothing and adds below live entries only.
def Footprint.adding (fp : Footprint) (ctx : MtpCtx) : Footprint :=
  { fp with
    flags := fun _ _ => False
    renames := fun _ => False
    allocates := fun parent storageId => fp.allocates parent storageId ∧
      (parent = 0 ∨ ∃ q, ctx.db.Live q ∧ (ctx.entry q).handle = parent) }

-- The part that goes through folders of one storage.
def Footprint.searching (fp : Footprint) (ctx : MtpCtx) (storageId : Nat) : Footprint :=
  { fp.still ctx with searches := fun parent id => fp.searches parent id ∧ id = storageId }

variable {Q : α → Prop} {prog : M α}

theorem answers_of_runs {R : (c : Cmd) → c.Ans → Prop} {S : Cmd → Prop} {I : MtpCtx → Prop}
    (hp : Runs R S Q prog)
    (hstep : ∀ (w : World σ) (c : Cmd), I w.ctx → S c →
      Sited fp w c ∧ R c (World.handle os c w).1 ∧ I (World.handle os c w).2.ctx)
    (hlater : ∀ ctx', I ctx' → Later ctx ctx') (hi : I ctx) (s : σ) :
    Safe (World.handle os) (Sited fp) prog ⟨ctx, s⟩ ∧
      Q (exec (World.handle os) prog ⟨ctx, s⟩).1 ∧
      Later ctx (exec (World.handle os) prog ⟨ctx, s⟩).2.ctx := by
  have hv : Valid (World.handle os) (Sited fp) (fun w => I w.ctx) prog
      fun value w => Q value ∧ I w.ctx := valid_of_runs hp hstep
  obtain ⟨hs, hq, hi'⟩ := hv ⟨ctx, s⟩ hi
  exact ⟨hs, hq, hlater _ hi'⟩

theorem sited_of_still {w : World σ} {c : Cmd} (hl : Later ctx w.ctx)
    (hc : c.Within (fp.still ctx)) : Sited fp w c := by
  cases c with
  | db op =>
      cases op with
      | allocEntry mem fileinfo parent storageId => exact hc.elim
      | renameEntry mem p name => exact ⟨hc.1, hl.mem hc.2⟩
      | _ => exact ⟨hc, trivial⟩
  | _ => exact ⟨hc, trivial⟩

theorem answers_still (ho : ctx.Ordered)
    (hp : Runs (Knows ctx fun _ => True) (Cmd.Within (fp.still ctx)) Q prog) (s : σ) :
    Safe (World.handle os) (Sited fp) prog ⟨ctx, s⟩ ∧
      Q (exec (World.handle os) prog ⟨ctx, s⟩).1 ∧
      Later ctx (exec (World.handle os) prog ⟨ctx, s⟩).2.ctx := by
  refine answers_of_runs (I := Later ctx) hp ?_ (fun _ hl => hl) (Later.refl ho) s
  intro w c hl hc
  have hsited : Sited fp w c := sited_of_still hl hc
  refine ⟨hsited, ?_, hl.trans (sited_later hl.ordered hsited)⟩
  cases c with
  | getCtx => exact hl
  | db op => cases op <;> simp [Knows]
  | _ => trivial

theorem obeys_still (ho : ctx.Ordered)
    (hp : Uses (Knows ctx fun _ => True) (Cmd.Within (fp.still ctx)) prog) :
    Obeys os fp ctx prog :=
  fun s => ⟨(answers_still ho hp s).1, (answers_still ho hp s).2.2⟩

-- The value of the first part meets Q in the second one.
theorem obeys_still_bind {f : α → M β} (ho : ctx.Ordered)
    (hp : Runs (Knows ctx fun _ => True) (Cmd.Within (fp.still ctx)) Q prog)
    (hf : ∀ value ctx', Q value → Later ctx ctx' → Obeys os fp ctx' (f value)) :
    Obeys os fp ctx (prog >>= f) := by
  intro s
  obtain ⟨hs, hq, hl⟩ := @answers_still _ _ os _ _ _ _ ho hp s
  obtain ⟨hs', hl'⟩ := hf _ _ hq hl (exec (World.handle os) prog ⟨ctx, s⟩).2.os
  exact ⟨(safe_bind prog f _).mpr ⟨hs, hs'⟩, by simpa using hl.trans hl'⟩

-- As long as nothing is flagged the live entries stay live.
theorem live_of_adding {w : World σ} {c : Cmd} (ho : w.ctx.Ordered)
    (hc : c.Within (fp.adding ctx)) {q : EntryPtr} (hq : w.ctx.db.Live q) :
    (World.handle os c w).2.ctx.db.Live q := by
  cases c with
  | db op =>
      show (w.ctx.applyDb op).db.Live q
      rcases w.ctx.applyDb_cases op with heq | heq
      · rw [heq]
        exact hq
      · rw [heq]
        refine DbOp.live_step ho.slots op hq ?_
        rintro rfl
        exact hc
  | flagDeleted site p => exact hc.elim
  | initFsDb => exact hc.elim
  | dropFsDb => exact hc.elim
  | setSessionId id => exact hc.elim
  | setStorage i storage => exact hc.elim
  | _ => exact hq

theorem sited_of_adding {w : World σ} {c : Cmd} (hl : Later ctx w.ctx)
    (hlive : ∀ q, ctx.db.Live q → w.ctx.db.Live q) (hc : c.Within (fp.adding ctx)) :
    Sited fp w c := by
  cases c with
  | db op =>
      cases op with
      | allocEntry mem fileinfo parent storageId =>
          refine ⟨hc.1, hc.2.imp id ?_⟩
          rintro ⟨q, hq, hhandle⟩
          exact ⟨q, hlive q hq, (hl.entry_eq hq.1).1.trans hhandle⟩
      | renameEntry mem p name => exact hc.elim
      | _ => exact ⟨hc, trivial⟩
  | flagDeleted site p => exact hc.elim
  | _ => exact ⟨hc, trivial⟩

theorem answers_adding (ho : ctx.Ordered)
    (hp : Runs (Knows ctx fun _ => True) (Cmd.Within (fp.adding ctx)) Q prog) (s : σ) :
    Safe (World.handle os) (Sited fp) prog ⟨ctx, s⟩ ∧
      Q (exec (World.handle os) prog ⟨ctx, s⟩).1 ∧
      Later ctx (exec (World.handle os) prog ⟨ctx, s⟩).2.ctx ∧
      ∀ q, ctx.db.Live q → (exec (World.handle os) prog ⟨ctx, s⟩).2.ctx.db.Live q := by
  have hv : Valid (World.handle os) (Sited fp)
      (fun w => Later ctx w.ctx ∧ ∀ q, ctx.db.Live q → w.ctx.db.Live q) prog
      fun value w => Q value ∧ Later ctx w.ctx ∧ ∀ q, ctx.db.Live q → w.ctx.db.Live q := by
    refine valid_of_runs hp ?_
    rintro w c ⟨hl, hlive⟩ hc
    have hsited : Sited fp w c := sited_of_adding hl hlive hc
    refine ⟨hsited, ?_, hl.trans (sited_later hl.ordered hsited),
      fun q hq => live_of_adding hl.ordered hc (hlive q hq)⟩
    cases c with
    | getCtx => exact hl
    | db op => cases op <;> simp [Knows]
    | _ => trivial
  exact hv ⟨ctx, s⟩ ⟨Later.refl ho, fun _ hq => hq⟩

theorem obeys_adding (ho : ctx.Ordered)
    (hp : Uses (Knows ctx fun _ => True) (Cmd.Within (fp.adding ctx)) prog) :
    Obeys os fp ctx prog :=
  fun s => ⟨(answers_adding ho hp s).1, (answers_adding ho hp s).2.2.1⟩

theorem obeys_adding_bind {f : α → M β} (ho : ctx.Ordered)
    (hp : Runs (Knows ctx fun _ => True) (Cmd.Within (fp.adding ctx)) Q prog)
    (hf : ∀ value ctx', Q value → Later ctx ctx' → (∀ q, ctx.db.Live q → ctx'.db.Live q) →
      Obeys os fp ctx' (f value)) :
    Obeys os fp ctx (prog >>= f) := by
  intro s
  obtain ⟨hs, hq, hl, hlive⟩ := @answers_adding _ _ os _ _ _ _ ho hp s
  obtain ⟨hs', hl'⟩ := hf _ _ hq hl hlive (exec (World.handle os) prog ⟨ctx, s⟩).2.os
  exact ⟨(safe_bind prog f _).mpr ⟨hs, hs'⟩, by simpa using hl.trans hl'⟩

-- The cursor of a search over a storage stays in the list.
structure Searched (ctx : MtpCtx) (storageId : Nat) (ctx' : MtpCtx) : Prop where
  entryList : ctx'.db.entryList = ctx.db.entryList
  searchEntry : ctx'.db.searchEntry ⊆ ctx.db.entryList
  storageSearch : ctx'.db.searchEntry ≠ [] → ctx'.db.storageSearch = storageId

theorem handle_db_eq_some {w : World σ} {op : DbOp}
    (h : (World.handle os (.db op) w).1 = some p) : (op.apply w.ctx.db).1 = some p := by
  obtain ⟨db, hdb, happly⟩ := Option.bind_eq_some_iff.mp h
  rw [MtpCtx.db, hdb]
  exact happly

theorem Searched.child {storageId : Nat} {w : World σ} (hl : Later ctx w.ctx)
    (hs : Searched ctx storageId w.ctx)
    (h : (World.handle os (.db .getNextChildHandle) w).1 = some p) :
    p ∈ ctx.db.entryList ∧ (ctx.entry p).storageId = storageId := by
  have hsome := handle_db_eq_some h
  have hchild := (FsHandlesDb.getNextChildHandle_eq_some hsome).2
  have hmem : p ∈ ctx.db.entryList :=
    hs.searchEntry (FsHandlesDb.getNextChildHandle_mem hsome)
  have hsid := hs.storageSearch (List.ne_nil_of_mem (FsHandlesDb.getNextChildHandle_mem hsome))
  simp only [FsHandlesDb.isSearchedChild, Bool.and_eq_true, beq_iff_eq] at hchild
  exact ⟨hmem, ((hl.entry_eq hmem).2.2.symm.trans hchild.1.2).trans hsid⟩

theorem Searched.step {storageId : Nat} {w : World σ} {c : Cmd}
    (hs : Searched ctx storageId w.ctx) (hc : c.Within (fp.searching ctx storageId)) :
    Searched ctx storageId (World.handle os c w).2.ctx := by
  cases c with
  | db op =>
      show Searched ctx storageId (w.ctx.applyDb op)
      rcases w.ctx.applyDb_cases op with heq | heq
      · exact ⟨by rw [heq]; exact hs.entryList, by rw [heq]; exact hs.searchEntry,
          by rw [heq]; exact hs.storageSearch⟩
      · cases op with
        | allocEntry mem fileinfo parent storageId => exact hc.elim
        | allocRootEntry mem storageId => exact hc.elim
        | initSearchHandle parent id =>
            refine ⟨by rw [heq]; exact hs.entryList, ?_, fun _ => by rw [heq]; exact hc.2⟩
            rw [heq]
            exact fun q hq => hs.entryList ▸ hq
        | getNextChildHandle =>
            rw [DbOp.step, DbOp.apply, FsHandlesDb.getNextChildHandle_snd] at heq
            have hsuffix := w.ctx.db.getNextChildHandle_suffix
            refine ⟨by rw [heq]; exact hs.entryList, ?_, ?_⟩
            · rw [heq]
              exact fun q hq => hs.searchEntry (hsuffix.subset hq)
            · rw [heq]
              refine fun hne => hs.storageSearch fun hnil => hne ?_
              exact List.suffix_nil.mp (hnil ▸ hsuffix)
        | _ =>
            exact ⟨by rw [heq]; exact hs.entryList, by rw [heq]; exact hs.searchEntry,
              by rw [heq]; exact hs.storageSearch⟩
  | flagDeleted site p =>
      show Searched ctx storageId (w.ctx.applyDb (.setDeleted p))
      rcases w.ctx.applyDb_cases (.setDeleted p) with heq | heq <;>
        exact ⟨by rw [heq]; exact hs.entryList, by rw [heq]; exact hs.searchEntry,
          by rw [heq]; exact hs.storageSearch⟩
  | initFsDb => exact hc.elim
  | dropFsDb => exact hc.elim
  | setSessionId id => exact hc.elim
  | setStorage i storage => exact hc.elim
  | _ => exact ⟨hs.entryList, hs.searchEntry, hs.storageSearch⟩

-- Each search starts at the head of the list.
theorem obeys_initSearchHandle_bind {parent storageId : Nat} (ho : ctx.Ordered)
    (hs : fp.searches parent storageId) {f : Unit → M α}
    (hf : ∀ ctx', Later ctx ctx' → Searched ctx' storageId ctx' → Obeys os fp ctx' (f ())) :
    Obeys os fp ctx (M.db_ (.initSearchHandle parent storageId) >>= f) := by
  have hl : Later ctx (ctx.applyDb (.initSearchHandle parent storageId)) :=
    Later.of_applyDb ho trivial
  have hsearched : Searched (ctx.applyDb (.initSearchHandle parent storageId)) storageId
      (ctx.applyDb (.initSearchHandle parent storageId)) := by
    rw [MtpCtx.applyDb]
    cases hdb : ctx.fsDb with
    | none => exact ⟨rfl, fun _ hq => hq, fun hne => absurd rfl hne⟩
    | some db => exact ⟨rfl, fun _ hq => hq, fun _ => rfl⟩
  intro s
  obtain ⟨hsafe, hl'⟩ := hf _ hl hsearched s
  refine ⟨(safe_bind _ _ _).mpr ⟨?_, hsafe⟩, hl.trans hl'⟩
  intro step hm
  obtain rfl : step = (⟨ctx, s⟩, Cmd.db (.initSearchHandle parent storageId)) := by
    simpa [M.db_, M.db] using hm
  exact ⟨hs, trivial⟩

theorem obeys_searching {storageId : Nat} (ho : ctx.Ordered) (hs : Searched ctx storageId ctx)
    (hp : Uses (Knows ctx fun p => p ∈ ctx.db.entryList ∧ (ctx.entry p).storageId = storageId)
      (Cmd.Within (fp.searching ctx storageId)) prog) :
    Obeys os fp ctx prog := by
  intro s
  have ha := @answers_of_runs _ _ os fp _ _ _ _ _ (fun ctx' => Later ctx ctx' ∧ Searched ctx
    storageId ctx') hp ?_
    (fun _ hi => hi.1) ⟨Later.refl ho, hs⟩ s
  · exact ⟨ha.1, ha.2.2⟩
  · rintro w c ⟨hl, hs⟩ hc
    have hstill : c.Within (fp.still ctx) := by
      cases c with
      | db op =>
          cases op with
          | initSearchHandle parent id => exact hc.1
          | _ => exact hc
      | _ => exact hc
    have hsited : Sited fp w c := sited_of_still hl hstill
    refine ⟨hsited, ?_, hl.trans (sited_later hl.ordered hsited), hs.step hc⟩
    cases c with
    | getCtx => exact hl
    | db op =>
        cases op with
        | getNextChildHandle => exact fun p hp => hs.child hl hp
        | _ => trivial
    | _ => trivial

end Bodies

end Umtp
