import Umtp.MemOs
import Umtp.Effects.Roles

namespace Umtp

open Lib Lib.Prog Handles

variable {σ α : Type} {os : Os σ} {isOpen : σ → Int → Prop} {s : World σ × Opened}

-- What a system says about descriptors: the ones it opens are new, and they stay
-- open up to the close.
structure Os.HasDescriptors (os : Os σ) (isOpen : σ → Int → Prop) : Prop where
  opened : ∀ storageId path flags t, (os.act (.open storageId path flags) t).1 ≠ -1 →
    ¬ isOpen t (os.act (.open storageId path flags) t).1 ∧
      isOpen (os.act (.open storageId path flags) t).2 (os.act (.open storageId path flags) t).1
  kept : ∀ a t file, a ≠ .close file → isOpen t file → isOpen (os.act a t).2 file

-- The descriptors that are open, each with the context and the path it was
-- opened for, and the slots whose field has the descriptor of an opening that
-- has not been closed since.
structure Opened where
  files : Int → Option (MtpCtx × CString)
  holds : EntryPtr → Bool

def Opened.none : Opened := ⟨fun _ => .none, fun _ => false⟩

-- A slot no longer has its descriptor when that is closed, whichever entry it is
-- closed for, when the slot is cleared for a new entry and when the database
-- goes.
def noteOpened : (c : Cmd) → World σ → c.Ans → Opened → Opened
  | .act (.open _ path _), w, file, opened =>
    if file = -1 then opened
    else { opened with files := Function.update opened.files file (some (w.ctx, path)) }
  | .act (.close file), w, _, opened =>
    ⟨Function.update opened.files file .none,
      fun p => opened.holds p && decide ((w.ctx.entry p).fileDescriptor ≠ file)⟩
  | .db (.setFileDescriptor p file), w, _, opened =>
    { opened with holds :=
        Function.update opened.holds p (w.ctx.fsDb.isSome && (opened.files file).isSome) }
  | .db op, w, _, opened =>
    { opened with holds := fun p => opened.holds p && decide (op.slot w.ctx.db ≠ some p) }
  | .initFsDb, _, _, opened | .dropFsDb, _, _, opened => { opened with holds := fun _ => false }
  | _, _, _, opened => opened

abbrev tracker (os : Os σ) : Handler Cmd Cmd.Ans (World σ × Opened) :=
  observe (World.handle os) noteOpened

-- A step of the daemon with its open descriptors.
def World.track (os : Os σ) (s : World σ × Opened) : Event σ → World σ × Opened
  | .outside change => ({ s.1 with os := change s.1.os }, s.2)
  | event => (exec (tracker os) event.program s).2

theorem track_fst (s : World σ × Opened) (event : Event σ) :
    (World.track os s event).1 = World.step os s.1 event := by
  cases event with
  | outside change => rfl
  | _ => exact (exec_observe noteOpened _ s).2

-- The descriptor is open, for a path of the entry.
def OpenedFor (os : Os σ) (opened : Opened) (p : EntryPtr) (file : Int) : Prop :=
  ∃ ctx path, opened.files file = some (ctx, path) ∧ PathOf os ctx p path

-- The descriptor in the field of the entry was obtained for its path, and not
-- closed since.
structure Owned (os : Os σ) (s : World σ × Opened) (p : EntryPtr) (file : Int) : Prop where
  holds : s.2.holds p = true
  field : (s.1.ctx.entry p).fileDescriptor = file
  opened : OpenedFor os s.2 p file

-- The entry has a 0 in its field that it was not given by an opening, or that
-- has been closed since.
def Unset (s : World σ × Opened) (p : EntryPtr) : Prop :=
  (s.1.ctx.entry p).fileDescriptor = 0 ∧ s.2.holds p = false

instance (s : World σ × Opened) (p : EntryPtr) : Decidable (Unset s p) :=
  inferInstanceAs (Decidable (_ ∧ _))

-- What is known of the field of a slot.
def FieldKnown (os : Os σ) (s : World σ × Opened) (p : EntryPtr) : Prop :=
  s.2.holds p = false ∧
      ((s.1.ctx.entry p).fileDescriptor = 0 ∨ (s.1.ctx.entry p).fileDescriptor = -1) ∨
    Owned os s p (s.1.ctx.entry p).fileDescriptor

-- No two slots have one descriptor, and what is noted as open is open.
structure Noted (isOpen : σ → Int → Prop) (s : World σ × Opened) : Prop where
  distinct : ∀ p q, s.2.holds p = true → s.2.holds q = true →
    (s.1.ctx.entry p).fileDescriptor = (s.1.ctx.entry q).fileDescriptor → p = q
  noted : ∀ file, (s.2.files file).isSome = true → isOpen s.1.os file
  failed : s.2.files (-1) = none

structure Tracked (os : Os σ) (isOpen : σ → Int → Prop) (s : World σ × Opened) : Prop
    extends Noted isOpen s where
  fields : ∀ p, FieldKnown os s p

-- The descriptor is open, and no entry has it but one with an unset 0.
def Fresh (file : Int) (s : World σ × Opened) : Prop :=
  (s.2.files file).isSome = true ∧
    ∀ p, (s.1.ctx.entry p).fileDescriptor = file → s.2.holds p = false

def Cmd.SetsDescriptor : Cmd → Prop
  | db (.setFileDescriptor _ _) | act (.open _ _ _) | act (.close _) => True
  | _ => False

-- The commands that clear the field of a slot.
def Cmd.ClearsDescriptor : Cmd → Prop
  | db (.allocEntry _ _ _ _) | db (.allocRootEntry _ _) | initFsDb | dropFsDb => True
  | _ => False

-- Commands that set no descriptor

theorem files_step {c : Cmd} (hc : ¬ c.SetsDescriptor) (s : World σ × Opened) :
    (tracker os c s).2.2.files = s.2.files := by
  cases c with
  | act a =>
      cases a with
      | «open» storageId path flags => exact absurd trivial hc
      | close file => exact absurd trivial hc
      | _ => rfl
  | db op =>
      cases op with
      | setFileDescriptor p file => exact absurd trivial hc
      | _ => rfl
  | _ => rfl

theorem opened_step {c : Cmd} (hc : ¬ c.SetsDescriptor) (hclear : ¬ c.ClearsDescriptor)
    (s : World σ × Opened) : (tracker os c s).2.2 = s.2 := by
  cases c with
  | act a =>
      cases a with
      | «open» storageId path flags => exact absurd trivial hc
      | close file => exact absurd trivial hc
      | _ => rfl
  | db op =>
      have hkept : ∀ op' : DbOp, op'.slot s.1.ctx.db = .none →
          (⟨s.2.files, fun p => s.2.holds p && decide (op'.slot s.1.ctx.db ≠ some p)⟩ : Opened) =
            s.2 := by
        intro op' hslot
        simp [hslot]
      cases op with
      | setFileDescriptor p file => exact absurd trivial hc
      | allocEntry mem fileinfo parent storageId => exact absurd trivial hclear
      | allocRootEntry mem storageId => exact absurd trivial hclear
      | renameEntry mem p name => exact hkept (.renameEntry mem p name) rfl
      | setDeleted p => exact hkept (.setDeleted p) rfl
      | setSize p size => exact hkept (.setSize p size) rfl
      | setWatchDescriptor p wd => exact hkept (.setWatchDescriptor p wd) rfl
      | initSearchHandle parent storageId => exact hkept (.initSearchHandle parent storageId) rfl
      | getNextChildHandle => exact hkept .getNextChildHandle rfl
  | initFsDb => exact absurd trivial hclear
  | dropFsDb => exact absurd trivial hclear
  | _ => rfl

theorem isOpen_step (hos : os.HasDescriptors isOpen) {c : Cmd} (hc : ¬ c.SetsDescriptor)
    {file : Int} (h : isOpen s.1.os file) : isOpen (tracker os c s).2.1.os file := by
  cases c with
  | act a => exact hos.kept a _ file (fun ha => hc (by rw [ha]; trivial)) h
  | _ => exact h

theorem fileDescriptor_applyDb (ctx : MtpCtx) {op : DbOp}
    (hop : ∀ p file, op ≠ .setFileDescriptor p file) (p : EntryPtr) :
    op.slot ctx.db = some p ∧ ((ctx.applyDb op).entry p).fileDescriptor = 0 ∨
      op.slot ctx.db ≠ some p ∧
        ((ctx.applyDb op).entry p).fileDescriptor = (ctx.entry p).fileDescriptor := by
  rcases hdb : ctx.fsDb with - | db
  · have hbefore : ctx.db = initFsDb := by
      rw [MtpCtx.db, hdb]
      rfl
    have hafter : (ctx.applyDb op).db = initFsDb := by
      rw [MtpCtx.applyDb, MtpCtx.db, hdb]
      rfl
    rw [MtpCtx.entry, MtpCtx.entry, hafter, hbefore]
    by_cases hslot : op.slot initFsDb = some p
    · exact Or.inl ⟨hslot, rfl⟩
    · exact Or.inr ⟨hslot, rfl⟩
  · have hbefore : ctx.db = db := by
      rw [MtpCtx.db, hdb]
      rfl
    have hafter : (ctx.applyDb op).db = op.step db := by
      rw [MtpCtx.applyDb, MtpCtx.db, hdb]
      rfl
    rw [MtpCtx.entry, MtpCtx.entry, hafter, hbefore]
    exact DbOp.fileDescriptor_step db hop p

-- A slot keeps its field and its descriptor, or is cleared.
theorem field_step {c : Cmd} (hc : ¬ c.SetsDescriptor) (p : EntryPtr) :
    ((tracker os c s).2.1.ctx.entry p).fileDescriptor = (s.1.ctx.entry p).fileDescriptor ∧
        (tracker os c s).2.2.holds p = s.2.holds p ∨
      ((tracker os c s).2.1.ctx.entry p).fileDescriptor = 0 ∧
        (tracker os c s).2.2.holds p = false := by
  cases c with
  | db op =>
      have hop : ∀ q file, op ≠ .setFileDescriptor q file := by
        rintro q file rfl
        exact hc trivial
      have hnote : (tracker os (.db op) s).2.2.holds p =
          (s.2.holds p && decide (op.slot s.1.ctx.db ≠ some p)) := by
        cases op with
        | setFileDescriptor q file => exact absurd rfl (hop q file)
        | _ => rfl
      rw [hnote]
      rcases fileDescriptor_applyDb s.1.ctx hop p with ⟨hslot, h⟩ | ⟨hslot, h⟩
      · exact Or.inr ⟨h, by simp [hslot]⟩
      · exact Or.inl ⟨h, by simp [hslot]⟩
  | flagDeleted site q =>
      refine Or.inl ⟨?_, rfl⟩
      exact ((@fileDescriptor_applyDb s.1.ctx (.setDeleted q) (by simp) p).resolve_left
        (by simp [DbOp.slot])).2
  | initFsDb => exact Or.inr ⟨rfl, rfl⟩
  | dropFsDb => exact Or.inr ⟨rfl, rfl⟩
  | act a =>
      cases a with
      | «open» storageId path flags => exact absurd trivial hc
      | close file => exact absurd trivial hc
      | _ => exact Or.inl ⟨rfl, rfl⟩
  | _ => exact Or.inl ⟨rfl, rfl⟩

theorem Owned.step {c : Cmd} (hc : ¬ c.SetsDescriptor) {p : EntryPtr} {file : Int}
    (h : Owned os s p file)
    (hkept : ((tracker os c s).2.1.ctx.entry p).fileDescriptor =
      (s.1.ctx.entry p).fileDescriptor ∧ (tracker os c s).2.2.holds p = s.2.holds p) :
    Owned os (tracker os c s).2 p file where
  holds := hkept.2.trans h.holds
  field := hkept.1.trans h.field
  opened := by
    obtain ⟨ctx, path, hfile, hpath⟩ := h.opened
    exact ⟨ctx, path, by rw [files_step hc]; exact hfile, hpath⟩

theorem Owned.keep {c : Cmd} (hc : ¬ c.SetsDescriptor) (hclear : ¬ c.ClearsDescriptor)
    {p : EntryPtr} {file : Int} (h : Owned os s p file) : Owned os (tracker os c s).2 p file := by
  refine h.step hc ((@field_step _ os s _ hc p).resolve_right fun hno => ?_)
  rw [opened_step hc hclear, h.holds] at hno
  cases hno.2

theorem owned_congr {t : World σ × Opened} (hctx : t.1.ctx = s.1.ctx) (hopened : t.2 = s.2)
    {p : EntryPtr} {file : Int} : Owned os t p file ↔ Owned os s p file := by
  constructor
  · rintro ⟨hholds, hfield, hpath⟩
    rw [hopened] at hholds hpath
    rw [hctx] at hfield
    exact ⟨hholds, hfield, hpath⟩
  · rintro ⟨hholds, hfield, hpath⟩
    rw [← hopened] at hholds hpath
    rw [← hctx] at hfield
    exact ⟨hholds, hfield, hpath⟩

theorem tracked_step (hos : os.HasDescriptors isOpen) {c : Cmd} (hc : ¬ c.SetsDescriptor)
    (hs : Tracked os isOpen s) : Tracked os isOpen (tracker os c s).2 where
  fields p := by
    rcases @field_step _ os s _ hc p with hkept | hcleared
    · rcases hs.fields p with h | h
      · exact Or.inl ⟨hkept.2.trans h.1, by rw [hkept.1]; exact h.2⟩
      · rw [FieldKnown, hkept.1]
        exact Or.inr (h.step hc hkept)
    · exact Or.inl ⟨hcleared.2, Or.inl hcleared.1⟩
  distinct p q hp hq heq := by
    have hkept : ∀ {r : EntryPtr}, (tracker os c s).2.2.holds r = true →
        ((tracker os c s).2.1.ctx.entry r).fileDescriptor = (s.1.ctx.entry r).fileDescriptor ∧
          (tracker os c s).2.2.holds r = s.2.holds r := by
      intro r hr
      refine (@field_step _ os s _ hc r).resolve_right fun h => ?_
      rw [h.2] at hr
      cases hr
    obtain ⟨hfield, hholds⟩ := hkept hp
    obtain ⟨hfield', hholds'⟩ := hkept hq
    rw [hfield, hfield'] at heq
    exact hs.distinct p q (hholds ▸ hp) (hholds' ▸ hq) heq
  noted file hfile := by
    rw [files_step hc] at hfile
    exact isOpen_step hos hc (hs.noted file hfile)
  failed := by
    rw [files_step hc]
    exact hs.failed

theorem fresh_step {file : Int} {c : Cmd} (hc : ¬ c.SetsDescriptor) (hf : Fresh file s) :
    Fresh file (tracker os c s).2 := by
  refine ⟨by rw [files_step hc]; exact hf.1, fun p hp => ?_⟩
  rcases @field_step _ os s _ hc p with hkept | hcleared
  · exact hkept.2.trans (hf.2 p (hkept.1.symm.trans hp))
  · exact hcleared.2

-- The opening and closing of files

theorem tracked_open (hos : os.HasDescriptors isOpen) (storageId : Nat) (path : CString)
    (flags : OpenFlags) (hs : Tracked os isOpen s) :
    let done := tracker os (.act (.open storageId path flags)) s
    Tracked os isOpen done.2 ∧ done.2.1.ctx = s.1.ctx ∧
      (done.1 = -1 ∧ done.2.2 = s.2 ∨
        done.2.2.files done.1 = some (s.1.ctx, path) ∧ Fresh done.1 done.2) := by
  intro done
  have hkept : ∀ file, isOpen s.1.os file → isOpen done.2.1.os file :=
    fun file => hos.kept _ _ file (by simp)
  by_cases hfail : done.1 = -1
  · have hopened : done.2.2 = s.2 := if_pos hfail
    refine ⟨⟨⟨?_, ?_, ?_⟩, fun p => ?_⟩, rfl, Or.inl ⟨hfail, hopened⟩⟩
    · rw [hopened]
      exact hs.distinct
    · rw [hopened]
      exact fun file h => hkept file (hs.noted file h)
    · rw [hopened]
      exact hs.failed
    · rw [FieldKnown, hopened]
      exact (hs.fields p).imp_right (@owned_congr _ os s done.2 rfl hopened _ _).mpr
  · obtain ⟨hnew, hopen⟩ := hos.opened storageId path flags s.1.os hfail
    have hopened : done.2.2 =
        ⟨Function.update s.2.files done.1 (some (s.1.ctx, path)), s.2.holds⟩ := if_neg hfail
    have hfiles : done.2.2.files = Function.update s.2.files done.1 (some (s.1.ctx, path)) := by
      rw [hopened]
    have hholds : done.2.2.holds = s.2.holds := by rw [hopened]
    have hself : done.2.2.files done.1 = some (s.1.ctx, path) := by
      rw [hfiles, Function.update_self]
    have howned : ∀ p file, Owned os s p file → file ≠ done.1 := by
      rintro p file ⟨-, -, ctx, path, h, -⟩ heq
      refine hnew (hs.noted done.1 ?_)
      rw [← heq, h]
      rfl
    refine ⟨⟨⟨?_, fun file h => ?_, ?_⟩, fun p => ?_⟩, rfl,
      Or.inr ⟨hself, by rw [hself]; rfl, fun p hp => ?_⟩⟩
    · rw [hholds]
      exact hs.distinct
    · by_cases hfile : file = done.1
      · rw [hfile]
        exact hopen
      · rw [hfiles, Function.update_of_ne hfile] at h
        exact hkept file (hs.noted file h)
    · rw [hfiles, Function.update_of_ne (Ne.symm hfail)]
      exact hs.failed
    · rw [FieldKnown, hholds]
      refine (hs.fields p).imp_right fun h => ⟨hholds ▸ h.holds, h.field, ?_⟩
      obtain ⟨ctx, path', hnote, hpath⟩ := h.opened
      refine ⟨ctx, path', ?_, hpath⟩
      rw [hfiles]
      exact (Function.update_of_ne (howned p _ h) _ _).trans hnote
    · rw [hholds]
      rcases hs.fields p with h | h
      · exact h.1
      · exact absurd hp (howned p _ h)

-- Without a session nothing is written, and every field is 0.
theorem setFileDescriptor_cases (ctx : MtpCtx) (p q : EntryPtr) (file : Int) :
    let after := ((ctx.applyDb (.setFileDescriptor p file)).entry q).fileDescriptor
    q ≠ p ∧ after = (ctx.entry q).fileDescriptor ∨
      q = p ∧ (ctx.fsDb.isSome = true ∧ after = file ∨ ctx.fsDb = none ∧ after = 0) := by
  intro after
  cases hdb : ctx.fsDb with
  | none =>
      have hbefore : ctx.db = initFsDb := by
        rw [MtpCtx.db, hdb]
        rfl
      have hafter : (ctx.applyDb (.setFileDescriptor p file)).db = initFsDb := by
        rw [MtpCtx.applyDb, MtpCtx.db, hdb]
        rfl
      have hzero : after = 0 := by
        show ((ctx.applyDb _).db.pool q).fileDescriptor = 0
        rw [hafter]
        rfl
      by_cases hq : q = p
      · exact Or.inr ⟨hq, Or.inr ⟨rfl, hzero⟩⟩
      · refine Or.inl ⟨hq, hzero.trans ?_⟩
        rw [MtpCtx.entry, hbefore]
        rfl
  | some db =>
      have hbefore : ctx.db = db := by
        rw [MtpCtx.db, hdb]
        rfl
      have hafter : (ctx.applyDb (.setFileDescriptor p file)).db =
          db.setEntry p { db.pool p with fileDescriptor := file } := by
        rw [MtpCtx.applyDb, MtpCtx.db, hdb]
        rfl
      have heq : after =
          ((db.setEntry p { db.pool p with fileDescriptor := file }).pool q).fileDescriptor := by
        show ((ctx.applyDb _).db.pool q).fileDescriptor = _
        rw [hafter]
      by_cases hq : q = p
      · subst hq
        exact Or.inr ⟨rfl, Or.inl ⟨rfl, by rw [heq, FsHandlesDb.setEntry_pool_self]⟩⟩
      · refine Or.inl ⟨hq, ?_⟩
        rw [heq, FsHandlesDb.setEntry_pool_of_ne _ _ hq, MtpCtx.entry, hbefore]

-- The field of the one entry is set, and those of the other ones stay.
theorem setField_step (p q : EntryPtr) (file : Int) :
    let after := (tracker os (.db (.setFileDescriptor p file)) s).2
    q ≠ p ∧ (after.1.ctx.entry q).fileDescriptor = (s.1.ctx.entry q).fileDescriptor ∧
        after.2.holds q = s.2.holds q ∨
      q = p ∧ ((after.1.ctx.entry q).fileDescriptor = file ∧
          after.2.holds q = (s.2.files file).isSome ∨
        (after.1.ctx.entry q).fileDescriptor = 0 ∧ after.2.holds q = false) := by
  intro after
  have hself : after.2.holds p = (s.1.ctx.fsDb.isSome && (s.2.files file).isSome) :=
    Function.update_self ..
  rcases setFileDescriptor_cases s.1.ctx p q file with ⟨hq, h⟩ | ⟨rfl, ⟨hdb, h⟩ | ⟨hdb, h⟩⟩
  · exact Or.inl ⟨hq, h, Function.update_of_ne hq ..⟩
  · exact Or.inr ⟨rfl, Or.inl ⟨h, by rw [hself, hdb, Bool.true_and]⟩⟩
  · exact Or.inr ⟨rfl, Or.inr ⟨h, by rw [hself, hdb]; rfl⟩⟩

-- The field of the entry itself may be anything before.
theorem tracked_setFileDescriptor {p : EntryPtr} {file : Int} (hl : Noted isOpen s)
    (hs : ∀ q, q ≠ p → FieldKnown os s q)
    (hfile : file = -1 ∨ OpenedFor os s.2 p file ∧ Fresh file s) :
    Tracked os isOpen (tracker os (.db (.setFileDescriptor p file)) s).2 where
  fields q := by
    rcases @setField_step _ os s p q file with
      ⟨hq, hfield, hholds⟩ | ⟨rfl, ⟨hfield, hholds⟩ | ⟨hfield, hholds⟩⟩
    · rw [FieldKnown, hfield, hholds]
      exact (hs q hq).imp_right fun h => ⟨hholds.trans h.holds, hfield, h.opened⟩
    · rw [FieldKnown, hfield]
      rcases hfile with rfl | ⟨hopened, hfresh⟩
      · rw [hl.failed] at hholds
        exact Or.inl ⟨hholds, Or.inr rfl⟩
      · exact Or.inr ⟨hholds.trans hfresh.1, hfield, hopened⟩
    · exact Or.inl ⟨hholds, Or.inl hfield⟩
  distinct q q' hq hq' heq := by
    have hself : ∀ {r}, r = p → (s.2.files file).isSome = true →
        ∀ r', (s.1.ctx.entry r').fileDescriptor = file → s.2.holds r' = false := by
      intro r _ hsome
      refine (hfile.resolve_left ?_).2.2
      rintro rfl
      rw [hl.failed] at hsome
      cases hsome
    rcases @setField_step _ os s p q file with
      ⟨hne, hfield, hholds⟩ | ⟨hp, ⟨hfield, hholds⟩ | ⟨-, hholds⟩⟩
    · rw [hholds] at hq
      rw [hfield] at heq
      rcases @setField_step _ os s p q' file with
        ⟨-, hfield', hholds'⟩ | ⟨hp', ⟨hfield', hholds'⟩ | ⟨-, hholds'⟩⟩
      · exact hl.distinct q q' hq (hholds' ▸ hq') (heq.trans hfield')
      · have hno := hself hp' (hholds' ▸ hq') q (heq.trans hfield')
        rw [hno] at hq
        cases hq
      · rw [hholds'] at hq'
        cases hq'
    · rw [hfield] at heq
      rcases @setField_step _ os s p q' file with
        ⟨-, hfield', hholds'⟩ | ⟨hp', -⟩
      · have hno := hself hp (hholds ▸ hq) q' (hfield'.symm.trans heq.symm)
        rw [hholds', hno] at hq'
        cases hq'
      · exact hp.trans hp'.symm
    · rw [hholds] at hq
      cases hq
  noted := hl.noted
  failed := hl.failed

theorem noted_close (hos : os.HasDescriptors isOpen) (file : Int) (hl : Noted isOpen s) :
    Noted isOpen (tracker os (.act (.close file)) s).2 where
  distinct p q hp hq heq :=
    hl.distinct p q (Bool.and_eq_true_iff.mp hp).1 (Bool.and_eq_true_iff.mp hq).1 heq
  noted file' h := by
    have hafter : (tracker os (.act (.close file)) s).2.2.files =
        Function.update s.2.files file none := rfl
    have hne : file' ≠ file := by
      rintro rfl
      rw [hafter, Function.update_self] at h
      cases h
    rw [hafter, Function.update_of_ne hne] at h
    exact hos.kept _ _ file' (fun ha => hne (by cases ha; rfl)) (hl.noted file' h)
  failed := by
    show Function.update s.2.files file none (-1) = none
    by_cases hfile : (-1 : Int) = file
    · rw [hfile, Function.update_self]
    · rw [Function.update_of_ne hfile]
      exact hl.failed

-- An entry that has the descriptor is left with it only if it is 0.
theorem fieldKnown_close {p : EntryPtr} {file : Int} (hp : FieldKnown os s p)
    (hfile : (s.1.ctx.entry p).fileDescriptor = file → file = 0 ∨ s.2.holds p = false) :
    FieldKnown os (tracker os (.act (.close file)) s).2 p := by
  have hholds : (tracker os (.act (.close file)) s).2.2.holds p =
      (s.2.holds p && decide ((s.1.ctx.entry p).fileDescriptor ≠ file)) := rfl
  rcases hp with hp | hp
  · exact Or.inl ⟨by rw [hholds, hp.1]; rfl, hp.2⟩
  · by_cases heq : (s.1.ctx.entry p).fileDescriptor = file
    · refine Or.inl ⟨by simp [hholds, heq], Or.inl (heq.trans ((hfile heq).resolve_right ?_))⟩
      rw [hp.holds]
      exact Bool.noConfusion
    · obtain ⟨ctx, path, hnote, hpath⟩ := hp.opened
      have hkept : Function.update s.2.files file none (s.1.ctx.entry p).fileDescriptor =
        s.2.files (s.1.ctx.entry p).fileDescriptor := Function.update_of_ne heq _ _
      exact Or.inr ⟨by rw [hholds, hp.holds]; simp [heq], rfl, ctx, path, hkept.trans hnote, hpath⟩

-- A descriptor that no entry has is closed.
theorem tracked_close_fresh (hos : os.HasDescriptors isOpen) {file : Int}
    (hs : Tracked os isOpen s) (hf : Fresh file s) :
    Tracked os isOpen (tracker os (.act (.close file)) s).2 where
  toNoted := noted_close hos file hs.toNoted
  fields p := fieldKnown_close (hs.fields p) fun hp => Or.inr (hf.2 p hp)

-- The descriptor in the field of an entry is closed, and the field set to -1.
theorem tracked_close_field (hos : os.HasDescriptors isOpen) {p : EntryPtr}
    (hs : Tracked os isOpen s) (hfile : (s.1.ctx.entry p).fileDescriptor ≠ -1) :
    Tracked os isOpen (tracker os (.db (.setFileDescriptor p (-1)))
      (tracker os (.act (.close (s.1.ctx.entry p).fileDescriptor)) s).2).2 := by
  refine tracked_setFileDescriptor (noted_close hos _ hs.toNoted) (fun q hq => ?_) (Or.inl rfl)
  refine fieldKnown_close (hs.fields q) fun heq => ?_
  rcases hs.fields p with hp | hp
  · exact Or.inl (hp.2.resolve_right hfile)
  · refine Or.inr (Bool.eq_false_iff.mpr fun hholds => hq ?_)
    exact hs.distinct q p hholds hp.holds heq

-- What a daemon may close: a descriptor it obtained, or the 0 of an entry that
-- was not given it.
def ClosesKnown (s : World σ × Opened) (c : Cmd) : Prop :=
  ∀ file, c = .act (.close file) → (s.2.files file).isSome = true ∨ file = 0 ∧ ∃ p, Unset s p

theorem closesKnown_of {c : Cmd} (hc : ¬ c.SetsDescriptor) : ClosesKnown s c := by
  rintro file rfl
  exact absurd trivial hc

theorem closesKnown_fields {p : EntryPtr} (hs : Tracked os isOpen s)
    (hfile : (s.1.ctx.entry p).fileDescriptor ≠ -1) :
    ClosesKnown s (.act (.close (s.1.ctx.entry p).fileDescriptor)) := by
  rintro file heq
  cases heq
  rcases hs.fields p with h | h
  · have hzero := h.2.resolve_right hfile
    exact Or.inr ⟨hzero, p, hzero, h.1⟩
  · obtain ⟨ctx, path, hopened, -⟩ := h.opened
    exact Or.inl (by rw [hopened]; rfl)

-- The parts of the daemon

-- An invariant that every command keeps which neither sets nor clears a
-- descriptor.
theorem identity_keeps {I : World σ × Opened → Prop}
    (hstep : ∀ c s, ¬ c.SetsDescriptor → ¬ c.ClearsDescriptor → I s → I (tracker os c s).2) :
    identityRole.Keeps (tracker os) ClosesKnown I := by
  refine Role.keeps_of_parts (fun s hs => ⟨closesKnown_of id, hstep _ _ id id hs⟩)
    (fun c hc s hs => ?_)
    (fun h => h.elim) (fun h => h.elim) (fun h => h.elim) (fun h => h.elim) (fun h => h.elim)
  have hno : ¬ c.SetsDescriptor ∧ ¬ c.ClearsDescriptor := by
    cases c with
    | db op => cases op <;> simp_all [Cmd.SetsDescriptor, Cmd.ClearsDescriptor, Cmd.isOrdinary,
        DbOp.isOrdinary, Cmd.isSending, Cmd.isIdentity, identityRole]
    | act a => cases a <;> simp_all [Cmd.SetsDescriptor, Cmd.ClearsDescriptor, Cmd.isOrdinary,
        Action.isOrdinary, Cmd.isSending, Cmd.isIdentity, identityRole]
    | _ => simp_all [Cmd.SetsDescriptor, Cmd.ClearsDescriptor, Cmd.isOrdinary, Cmd.isSending,
        Cmd.isIdentity, identityRole]
  exact ⟨closesKnown_of hno.1, hstep c s hno.1 hno.2 hs⟩

-- A part that leaves the context as it is and sets no descriptor.
theorem tracker_looks {prog : M α} (hm : Made identityRole prog) (hl : Looks prog)
    (s : World σ × Opened) :
    (exec (tracker os) prog s).1 = (exec (World.handle os) prog s.1).1 ∧
      (exec (tracker os) prog s).2.1 = (exec (World.handle os) prog s.1).2 ∧
      (exec (tracker os) prog s).2.1.ctx = s.1.ctx ∧ (exec (tracker os) prog s).2.2 = s.2 := by
  obtain ⟨hvalue, hstate⟩ := exec_observe (h := World.handle os) noteOpened prog s
  refine ⟨hvalue, hstate, ?_, ?_⟩
  · rw [hstate]
    exact looks_exec hl s.1
  · have hkeeps : identityRole.Keeps (tracker os) ClosesKnown fun t => t.2 = s.2 :=
      identity_keeps fun c t hc hclear ht => (opened_step hc hclear t).trans ht
    exact (hm.valid hkeeps s rfl).2

theorem valid_tracker_looks {I : World σ × Opened → Prop} {P : MtpCtx → Prop} {prog : M α}
    (hstep : ∀ c s, ¬ c.SetsDescriptor → ¬ c.ClearsDescriptor → I s → I (tracker os c s).2)
    (hm : Made identityRole prog) (hl : Looks prog) :
    Valid (tracker os) ClosesKnown (fun s => I s ∧ P s.1.ctx) prog fun value s =>
      I s ∧ P s.1.ctx ∧ ∃ t, value = (exec (World.handle os) prog ⟨s.1.ctx, t⟩).1 := by
  intro s hs
  obtain ⟨hsafe, hi⟩ := hm.valid (identity_keeps hstep) s hs.1
  obtain ⟨hvalue, -, hctx, -⟩ := @tracker_looks _ _ os _ hm hl s
  refine ⟨hsafe, hi, by rw [hctx]; exact hs.2, s.1.os, ?_⟩
  rw [hvalue, hctx]

theorem valid_tracker_getCtx {I : World σ × Opened → Prop} {f : MtpCtx → M α}
    {Q : α → World σ × Opened → Prop}
    (hf : ∀ ctx, Valid (tracker os) ClosesKnown (fun s => I s ∧ s.1.ctx = ctx) (f ctx) Q) :
    Valid (tracker os) ClosesKnown I (M.getCtx >>= f) Q :=
  @valid_getCtx_bind_of _ _ _ _ _ (fun s : World σ × Opened => s.1.ctx) _ _ (fun _ => rfl)
  (fun _ _ => closesKnown_of id) hf

theorem made_restoreGiduid_identity : Made identityRole restoreGiduid :=
  made_restoreGiduid_of (made_setGiduid_of (fun _ => rfl) fun _ => rfl)

theorem made_setStorageGiduid_identity (storageId : Nat) :
    Made identityRole (setStorageGiduid storageId) :=
  made_setStorageGiduid_of (made_setGiduid_of (fun _ => rfl) fun _ => rfl) storageId

theorem tracked_entryOpen (hos : os.HasDescriptors isOpen) (p : EntryPtr) (flags : OpenFlags) :
    Valid (tracker os) ClosesKnown (Tracked os isOpen) (entryOpen p flags)
      fun _ => Tracked os isOpen := by
  have hstep : ∀ c s, ¬ c.SetsDescriptor → ¬ c.ClearsDescriptor → Tracked os isOpen s →
      Tracked os isOpen (tracker os c s).2 := fun c s hc _ hs => tracked_step hos hc hs
  have hend : ∀ value : Unit, Valid (tracker os) ClosesKnown (Tracked os isOpen) (do
      let ctx ← M.getCtx
      return (ctx.entry p).fileDescriptor) fun _ => Tracked os isOpen := fun _ =>
    valid_tracker_getCtx fun ctx => valid_ret fun _ hs => hs.1
  have hrestore : Valid (tracker os) ClosesKnown (Tracked os isOpen) (do
      restoreGiduid
      let ctx ← M.getCtx
      return (ctx.entry p).fileDescriptor) fun _ => Tracked os isOpen :=
    valid_bind (made_restoreGiduid_identity.valid (identity_keeps hstep)) hend
  unfold entryOpen
  refine valid_tracker_getCtx fun ctx => ?_
  split
  · exact valid_ret fun _ hs => hs.1
  · refine valid_bind (valid_tracker_looks (P := fun ctx' => ctx' = ctx) hstep (made_entryPath p)
      (looks_entryPath p)) fun found => ?_
    dsimp only
    split
    · rename_i path
      have hswitch : Valid (tracker os) ClosesKnown
          (fun s => Tracked os isOpen s ∧ s.1.ctx = ctx ∧
            ∃ t, some path = (exec (World.handle os) (entryPath p) ⟨s.1.ctx, t⟩).1)
          (setStorageGiduid (ctx.entry p).storageId)
          fun _ s => Tracked os isOpen s ∧ PathOf os s.1.ctx p path := by
        refine valid_weaken (valid_tracker_looks (P := fun ctx' => PathOf os ctx' p path) hstep
          (made_setStorageGiduid_identity _) (looks_setStorageGiduid _))
          (fun s hs => ?_) fun _ s hs => ⟨hs.1, hs.2.1⟩
        obtain ⟨htracked, -, t, ht⟩ := hs
        exact ⟨htracked, t, ht.symm⟩
      refine valid_bind hswitch fun set => ?_
      split
      · have hopen : Valid (tracker os) ClosesKnown
            (fun s => Tracked os isOpen s ∧ PathOf os s.1.ctx p path)
            (M.act (.open (ctx.entry p).storageId path flags)) fun file s =>
              Tracked os isOpen s ∧ (file = -1 ∨ OpenedFor os s.2 p file ∧ Fresh file s) := by
          refine valid_perform (fun s _ => fun file h => by cases h) fun s hs => ?_
          obtain ⟨htracked, -, hfile⟩ :=
            tracked_open hos (ctx.entry p).storageId path flags hs.1
          refine ⟨htracked, hfile.imp And.left fun hfile => ?_⟩
          exact ⟨⟨s.1.ctx, path, hfile.1, hs.2⟩, hfile.2⟩
        have hset : ∀ file, Valid (tracker os) ClosesKnown
            (fun s => Tracked os isOpen s ∧
              (file = -1 ∨ OpenedFor os s.2 p file ∧ Fresh file s))
            (M.db (.setFileDescriptor p file)) fun _ => Tracked os isOpen := fun file =>
          valid_perform (fun s _ => fun file h => by cases h) fun s hs =>
            tracked_setFileDescriptor hs.1.toNoted (fun q _ => hs.1.fields q) hs.2
        refine valid_bind hopen fun file => ?_
        exact valid_bind (valid_bind (hset file) fun _ => valid_ret fun _ hs => hs)
          fun _ => hrestore
      · exact valid_weaken hrestore (fun _ hs => hs.1) fun _ _ hs => hs
    · exact valid_weaken (hend ()) (fun _ hs => hs.1) fun _ _ hs => hs

theorem tracked_entryClose (hos : os.HasDescriptors isOpen) (entry : Option EntryPtr) :
    Valid (tracker os) ClosesKnown (Tracked os isOpen) (entryClose entry)
      fun _ => Tracked os isOpen := by
  unfold entryClose
  split
  · rename_i p
    have hset : Valid (tracker os) ClosesKnown
        (fun s => Tracked os isOpen (tracker os (.db (.setFileDescriptor p (-1))) s).2)
        (M.db_ (.setFileDescriptor p (-1))) fun _ => Tracked os isOpen := by
      have hop : Valid (tracker os) ClosesKnown
          (fun s => Tracked os isOpen (tracker os (.db (.setFileDescriptor p (-1))) s).2)
          (M.db (.setFileDescriptor p (-1))) fun _ => Tracked os isOpen :=
        valid_perform (fun s _ => fun file h => by cases h) fun _ hs => hs
      exact valid_bind hop fun _ => valid_ret fun _ hs => hs
    refine valid_tracker_getCtx fun ctx => ?_
    dsimp only
    by_cases hfile : (ctx.entry p).fileDescriptor = -1
    · rw [if_neg (not_not.mpr hfile)]
      refine valid_weaken hset (fun s hs => ?_) fun _ _ hs => hs
      exact tracked_setFileDescriptor hs.1.toNoted (fun q _ => hs.1.fields q) (Or.inl rfl)
    · rw [if_pos hfile]
      have hclose : Valid (tracker os) ClosesKnown
          (fun s => Tracked os isOpen s ∧ s.1.ctx = ctx) (do
            M.act (.close (ctx.entry p).fileDescriptor)
            M.db_ (.setFileDescriptor p (-1))) fun _ => Tracked os isOpen := by
        have hact : Valid (tracker os) ClosesKnown
            (fun s => Tracked os isOpen s ∧ s.1.ctx = ctx)
            (M.act (.close (ctx.entry p).fileDescriptor)) fun _ s =>
              Tracked os isOpen (tracker os (.db (.setFileDescriptor p (-1))) s).2 := by
          refine valid_perform (fun s hs => ?_) fun s hs => ?_
          · rw [← hs.2] at hfile ⊢
            exact closesKnown_fields hs.1 hfile
          · rw [← hs.2] at hfile ⊢
            exact tracked_close_field hos hs.1 hfile
        exact valid_bind hact fun _ => hset
      split
      · have hfsync : Valid (tracker os) ClosesKnown
            (fun s => Tracked os isOpen s ∧ s.1.ctx = ctx)
            (M.act (.fsync (ctx.entry p).fileDescriptor)) fun _ s =>
              Tracked os isOpen s ∧ s.1.ctx = ctx :=
          valid_perform (fun s _ => fun file h => by cases h)
            fun s hs => ⟨tracked_step hos id hs.1, hs.2⟩
        exact valid_bind hfsync fun _ => hclose
      · exact hclose
  · exact valid_ret fun _ hs => hs

theorem tracked_makeFile (hos : os.HasDescriptors isOpen) (storageId : Nat) (path : CString) :
    Valid (tracker os) ClosesKnown (Tracked os isOpen) (makeFile storageId path)
      fun _ => Tracked os isOpen := by
  have hopened : ∀ file, identityRole.Keeps (tracker os) ClosesKnown fun s =>
      Tracked os isOpen s ∧ (file = -1 ∨ Fresh file s) := fun file =>
    identity_keeps fun c s hc _ hs =>
      ⟨tracked_step hos hc hs.1, hs.2.imp_right fun hf => fresh_step hc hf⟩
  have hset : identityRole.Keeps (tracker os) ClosesKnown (Tracked os isOpen) :=
    identity_keeps fun c s hc _ hs => tracked_step hos hc hs
  have hrestore : ∀ file, Valid (tracker os) ClosesKnown
      (fun s => Tracked os isOpen s ∧ (file = -1 ∨ Fresh file s)) (do
        restoreGiduid
        return file) fun file s => Tracked os isOpen s ∧ (file = -1 ∨ Fresh file s) := fun file =>
    valid_bind (made_restoreGiduid_identity.valid (hopened file)) fun _ => valid_ret fun _ hs => hs
  have hopen : Valid (tracker os) ClosesKnown (Tracked os isOpen)
      (withStorageIds storageId (-1) (M.act (.open storageId path .createTruncate)))
      fun file s => Tracked os isOpen s ∧ (file = -1 ∨ Fresh file s) := by
    refine valid_bind ((made_setStorageGiduid_identity storageId).valid hset) fun set => ?_
    split
    · have hact : Valid (tracker os) ClosesKnown (Tracked os isOpen)
          (M.act (.open storageId path .createTruncate)) fun file s =>
            Tracked os isOpen s ∧ (file = -1 ∨ Fresh file s) := by
        refine valid_perform (fun s _ => fun file h => by cases h) fun s hs => ?_
        obtain ⟨htracked, -, hfile⟩ := tracked_open hos storageId path .createTruncate hs
        exact ⟨htracked, hfile.imp And.left And.right⟩
      exact valid_bind hact hrestore
    · exact valid_bind (valid_ret fun _ hs => ⟨hs, Or.inl rfl⟩) hrestore
  unfold makeFile
  refine valid_bind hopen fun file => ?_
  split
  · exact valid_ret fun _ hs => hs.1
  · rename_i hfile
    have hclose : Valid (tracker os) ClosesKnown
        (fun s => Tracked os isOpen s ∧ (file = -1 ∨ Fresh file s)) (M.act (.close file))
        fun _ => Tracked os isOpen := by
      refine valid_perform (fun s hs => ?_) fun s hs => ?_
      · rintro file' heq
        cases heq
        exact Or.inl (hs.2.resolve_left hfile).1
      · exact tracked_close_fresh hos hs.1 (hs.2.resolve_left hfile)
    exact valid_bind hclose fun _ => valid_ret fun _ hs => hs

-- The rest of the daemon sets no descriptor.
theorem tracked_keeps (hos : os.HasDescriptors isOpen) :
    (roleBut Cmd.SetsDescriptor).Keeps (tracker os) ClosesKnown (Tracked os isOpen) := by
  have hcommand : ∀ c : Cmd, ¬ c.SetsDescriptor → ∀ s, Tracked os isOpen s →
      ClosesKnown s c ∧ Tracked os isOpen (tracker os c s).2 := fun c hc s hs =>
    ⟨closesKnown_of hc, tracked_step hos hc hs⟩
  have hvalid : ∀ c : Cmd, ¬ c.SetsDescriptor →
      Valid (tracker os) ClosesKnown (Tracked os isOpen) (M.cmd c) fun _ => Tracked os isOpen :=
    fun c hc => valid_command (hcommand c hc)
  refine Role.keeps_of_parts (hcommand .getCtx id) (fun c hc => hcommand c ?_)
    (fun _ buffer => hcommand _ id) (fun _ fileinfo parent storageId => ?_)
    (fun _ => tracked_entryOpen hos) (fun _ => tracked_entryClose hos)
    (fun _ => tracked_makeFile hos)
  · rcases hc with hc | hc | hc | hc | ⟨_, hc⟩
    · cases c with
      | db op => cases op <;> simp_all [Cmd.SetsDescriptor, Cmd.isOrdinary, DbOp.isOrdinary]
      | act a => cases a <;> simp_all [Cmd.SetsDescriptor, Cmd.isOrdinary, Action.isOrdinary]
      | _ => exact id
    · cases c with
      | act a => cases a <;> simp_all [Cmd.SetsDescriptor, Cmd.isSending]
      | _ => simp [Cmd.isSending] at hc
    · cases c with
      | act a => cases a <;> simp_all [Cmd.SetsDescriptor, Cmd.isIdentity]
      | _ => simp [Cmd.isIdentity] at hc
    · exact hc.not_excluded
    · exact hc.not_excluded
  · refine valid_bind (hvalid .getCtx id) fun ctx => ?_
    split
    · exact valid_ret fun _ hs => hs
    · exact valid_bind (hvalid (.act .entryMemory) id) fun mem =>
        hvalid (.db (.allocEntry mem fileinfo parent storageId)) id

theorem setsDescriptor_full : (roleBut Cmd.SetsDescriptor).Full :=
  roleBut_full fun c hc => by
    cases c with
    | db op => cases op <;> simp_all [Cmd.SetsDescriptor, Cmd.isPart]
    | act a => cases a <;> simp_all [Cmd.SetsDescriptor, Cmd.isPart]
    | _ => exact hc.elim

-- What other processes do leaves the descriptors of the daemon open.
def Event.LeavesOpen (isOpen : σ → Int → Prop) : Event σ → Prop
  | .outside change => ∀ t file, isOpen t file → isOpen (change t) file
  | _ => True

theorem tracked_event (hos : os.HasDescriptors isOpen) (hs : Tracked os isOpen s)
    (event : Event σ) :
    Safe (tracker os) ClosesKnown event.program s ∧
      Tracked os isOpen (exec (tracker os) event.program s).2 :=
  (made_event setsDescriptor_full event).valid (tracked_keeps hos) s hs

theorem tracked_track (hos : os.HasDescriptors isOpen) (hs : Tracked os isOpen s)
    {event : Event σ} (hout : event.LeavesOpen isOpen) :
    Tracked os isOpen (World.track os s event) := by
  cases event with
  | outside change =>
      refine ⟨⟨hs.distinct, fun file h => hout _ file (hs.noted file h), hs.failed⟩, fun p => ?_⟩
      exact (hs.fields p).imp_right fun h => ⟨h.holds, h.field, h.opened⟩
  | _ => exact (tracked_event hos hs _).2

theorem tracked_start {w : World σ} (hw : w.ctx.Initial) :
    Tracked os isOpen (w, Opened.none) := by
  have hzero : ∀ p, (w.ctx.entry p).fileDescriptor = 0 := by
    intro p
    rw [MtpCtx.entry, MtpCtx.db, hw.1]
    rfl
  exact ⟨⟨fun _ _ h => absurd h Bool.false_ne_true, fun _ h => absurd h Bool.false_ne_true, rfl⟩,
    fun p => Or.inl ⟨rfl, Or.inl (hzero p)⟩⟩

theorem tracked_run (hos : os.HasDescriptors isOpen) (hs : Tracked os isOpen s)
    (events : List (Event σ)) (hout : ∀ event ∈ events, event.LeavesOpen isOpen) :
    Tracked os isOpen (run (World.track os) s events) := by
  induction events generalizing s with
  | nil => exact hs
  | cons event rest ih =>
      exact ih (tracked_track hos hs (hout event List.mem_cons_self))
        fun event' h => hout event' (List.mem_cons_of_mem _ h)

-- Every field is -1 or the descriptor of its entry.
def FieldsOwned (os : Os σ) (s : World σ × Opened) : Prop :=
  ∀ p ∈ s.1.ctx.db.entryList, (s.1.ctx.entry p).fileDescriptor = -1 ∨
    Owned os s p (s.1.ctx.entry p).fileDescriptor

-- The opening of the entry answers -1 or a descriptor of the entry.
def OpensOwned (os : Os σ) (s : World σ × Opened) (p : EntryPtr) (flags : OpenFlags) : Prop :=
  let done := exec (tracker os) (entryOpen p flags) s
  done.1 = -1 ∨ Owned os done.2 p done.1

-- The closing of the entry closes a descriptor of the entry only.
def ClosesOwned (os : Os σ) (s : World σ × Opened) (p : EntryPtr) : Prop :=
  Safe (tracker os) (fun t c => ∀ file, c = .act (.close file) → Owned os t p file)
    (entryClose (some p)) s

def NoneOpen (s : World σ × Opened) : Prop := ∀ file, s.2.files file = none

-- The path of the entry cannot be built, or the identity not be set.
def CannotOpen (os : Os σ) (w : World σ) (p : EntryPtr) : Prop :=
  let found := exec (World.handle os) (entryPath p) w
  found.1 = none ∨
    (exec (World.handle os) (setStorageGiduid (w.ctx.entry p).storageId) found.2).1 = false

-- The newest entry is the only one with an open file.
def HeadHasAll (s : World σ × Opened) : Prop :=
  ∀ file, (s.2.files file).isSome = true →
    ∃ p ∈ s.1.ctx.db.entryList.head?, (s.1.ctx.entry p).fileDescriptor = file

theorem owned_or_unset (hs : Tracked os isOpen s) (p : EntryPtr) :
    ((s.1.ctx.entry p).fileDescriptor = -1 ∨ Owned os s p (s.1.ctx.entry p).fileDescriptor) ↔
      ¬ Unset s p := by
  constructor
  · rintro (h | h) ⟨hzero, hno⟩
    · rw [hzero] at h
      cases h
    · rw [h.holds] at hno
      cases hno
  · intro hset
    rcases hs.fields p with ⟨hno, hzero | hfailed⟩ | h
    · exact absurd ⟨hzero, hno⟩ hset
    · exact Or.inl hfailed
    · exact Or.inr h

theorem fieldsOwned_iff (hs : Tracked os isOpen s) :
    FieldsOwned os s ↔ ∀ p ∈ s.1.ctx.db.entryList, ¬ Unset s p :=
  forall₂_congr fun p _ => owned_or_unset hs p

theorem exec_tracker_getCtx_bind (f : MtpCtx → M α) (s : World σ × Opened) :
    exec (tracker os) (M.getCtx.bind f) s = exec (tracker os) (f s.1.ctx) s := rfl

-- The end of an opening answers the field of the entry.
theorem entryOpen_end (p : EntryPtr) (s : World σ × Opened) :
    let done := exec (tracker os) (do
      restoreGiduid
      let ctx ← M.getCtx
      return (ctx.entry p).fileDescriptor) s
    done.1 = (s.1.ctx.entry p).fileDescriptor ∧ done.2.1.ctx = s.1.ctx ∧ done.2.2 = s.2 := by
  obtain ⟨-, -, hctx, hopened⟩ :=
    @tracker_looks _ _ os _ made_restoreGiduid_identity looks_restoreGiduid s
  have hrun : exec (tracker os) (do
      restoreGiduid
      let ctx ← M.getCtx
      return (ctx.entry p).fileDescriptor) s =
        ((s.1.ctx.entry p).fileDescriptor, (exec (tracker os) restoreGiduid s).2) := by
    rw [bind_eq, exec_bind, bind_eq, exec_tracker_getCtx_bind, hctx]
    rfl
  intro done
  rw [show done = _ from hrun]
  exact ⟨rfl, hctx, hopened⟩

-- Nothing is opened.
theorem entryOpen_kept {p : EntryPtr} (flags : OpenFlags)
    (h : 0 < (s.1.ctx.entry p).fileDescriptor ∨ CannotOpen os s.1 p) :
    let done := exec (tracker os) (entryOpen p flags) s
    done.1 = (s.1.ctx.entry p).fileDescriptor ∧ done.2.1.ctx = s.1.ctx ∧ done.2.2 = s.2 := by
  obtain ⟨hpath, hstate, hctx, hopened⟩ :=
    @tracker_looks _ _ os _ (made_entryPath p) (looks_entryPath p) s
  rw [entryOpen, bind_eq, exec_tracker_getCtx_bind]
  by_cases hpos : 0 < (s.1.ctx.entry p).fileDescriptor
  · rw [if_pos hpos]
    exact ⟨rfl, rfl, rfl⟩
  · have hcannot := h.resolve_left hpos
    rw [CannotOpen, ← hpath, ← hstate] at hcannot
    rw [if_neg hpos, bind_eq, exec_bind]
    generalize exec (tracker os) (entryPath p) s = found at *
    cases hfound : found.1 with
    | none =>
        simp only [bind_eq, exec_tracker_getCtx_bind, hctx]
        exact ⟨rfl, hctx, hopened⟩
    | some path =>
        have hno := hcannot.resolve_left (by rw [hfound]; simp)
        obtain ⟨hset, -, hctx', hopened'⟩ := @tracker_looks _ _ os _
          (made_setStorageGiduid_identity _) (looks_setStorageGiduid
          (s.1.ctx.entry p).storageId) found.2
        dsimp only
        rw [bind_eq, exec_bind, hset, hno, if_neg Bool.false_ne_true]
        obtain ⟨hanswer, hend, hend'⟩ := @entryOpen_end _ os p
          (exec (tracker os) (setStorageGiduid (s.1.ctx.entry p).storageId) found.2).2
        rw [hctx', hctx] at hanswer
        exact ⟨hanswer, hend.trans (hctx'.trans hctx), hend'.trans (hopened'.trans hopened)⟩

-- The descriptor of a file that is opened is put in the field and answered.
theorem entryOpen_file (hos : os.HasDescriptors isOpen) (hs : Tracked os isOpen s) {p : EntryPtr}
    (hdb : s.1.ctx.fsDb ≠ none) (storageId : Nat) {path : CString}
    (hpath : PathOf os s.1.ctx p path) (flags : OpenFlags) :
    let done := exec (tracker os) (do
      let file ← M.act (.open storageId path flags)
      M.db_ (.setFileDescriptor p file)
      restoreGiduid
      let ctx ← M.getCtx
      return (ctx.entry p).fileDescriptor) s
    done.1 = -1 ∨ Owned os done.2 p done.1 := by
  obtain ⟨-, hctx, hfile⟩ := tracked_open hos storageId path flags hs
  intro done
  let opened := tracker os (.act (.open storageId path flags)) s
  let set := tracker os (.db (.setFileDescriptor p opened.1)) opened.2
  obtain ⟨hanswer, hctx', hend⟩ := @entryOpen_end _ os p set.2
  have hfield : (set.2.1.ctx.entry p).fileDescriptor = opened.1 := by
    rcases setFileDescriptor_cases opened.2.1.ctx p p opened.1 with
      ⟨hne, -⟩ | ⟨-, ⟨-, h⟩ | ⟨hno, -⟩⟩
    · exact absurd rfl hne
    · exact h
    · exact absurd (hctx ▸ hno) hdb
  have hvalue : done.1 = opened.1 := hanswer.trans hfield
  rcases hfile with ⟨hfailed, -⟩ | ⟨hnoted, hfresh⟩
  · exact Or.inl (hvalue.trans hfailed)
  · refine Or.inr ⟨?_, ?_, s.1.ctx, path, ?_, hpath⟩
    · have hholds : set.2.2.holds p =
          (opened.2.1.ctx.fsDb.isSome && (opened.2.2.files opened.1).isSome) :=
        Function.update_self ..
      rw [show done.2.2 = set.2.2 from hend, hholds, hctx, hfresh.1,
        Option.isSome_iff_ne_none.mpr hdb]
      rfl
    · rw [hvalue, show done.2.1.ctx = set.2.1.ctx from hctx']
      exact hfield
    · rw [hvalue, show done.2.2 = set.2.2 from hend]
      exact hnoted

-- The file of the entry is opened.
theorem entryOpen_opened (hos : os.HasDescriptors isOpen) (hs : Tracked os isOpen s) {p : EntryPtr}
    (hdb : s.1.ctx.fsDb ≠ none) (flags : OpenFlags)
    (hpos : ¬ 0 < (s.1.ctx.entry p).fileDescriptor) (hcan : ¬ CannotOpen os s.1 p) :
    OpensOwned os s p flags := by
  have hkeeps : identityRole.Keeps (tracker os) ClosesKnown (Tracked os isOpen) :=
    identity_keeps fun c t hc _ ht => tracked_step hos hc ht
  obtain ⟨hnone, hset⟩ := not_or.mp hcan
  obtain ⟨path, hpath⟩ := Option.ne_none_iff_exists'.mp hnone
  have hpathOf : PathOf os s.1.ctx p path := ⟨s.1.os, hpath⟩
  obtain ⟨hfound, hstate, hctx, -⟩ :=
    @tracker_looks _ _ os _ (made_entryPath p) (looks_entryPath p) s
  have htracked := ((made_entryPath p).valid hkeeps s hs).2
  rw [hpath] at hfound
  rw [← hstate] at hset
  rw [OpensOwned, entryOpen, bind_eq, exec_tracker_getCtx_bind, if_neg hpos, bind_eq, exec_bind,
    hfound]
  generalize exec (tracker os) (entryPath p) s = found at *
  obtain ⟨hset', -, hctx', -⟩ := @tracker_looks _ _ os _ (made_setStorageGiduid_identity _)
    (looks_setStorageGiduid (s.1.ctx.entry p).storageId) found.2
  have htracked' := ((made_setStorageGiduid_identity (s.1.ctx.entry p).storageId).valid hkeeps
    found.2 htracked).2
  rw [hctx] at hctx'
  dsimp only
  rw [bind_eq, exec_bind, hset', if_pos (Bool.not_eq_false _ ▸ hset)]
  refine entryOpen_file hos htracked' ?_ _ ?_ flags
  · rw [hctx']
    exact hdb
  · rw [hctx']
    exact hpathOf

theorem opensOwned_iff (hos : os.HasDescriptors isOpen) (hs : Tracked os isOpen s) {p : EntryPtr}
    (hdb : s.1.ctx.fsDb ≠ none) (flags : OpenFlags) :
    OpensOwned os s p flags ↔ ¬ (Unset s p ∧ CannotOpen os s.1 p) := by
  by_cases hkept : 0 < (s.1.ctx.entry p).fileDescriptor ∨ CannotOpen os s.1 p
  · obtain ⟨hanswer, hctx, hopened⟩ := entryOpen_kept flags hkept
    rw [OpensOwned, hanswer, owned_congr hctx hopened, owned_or_unset hs]
    refine not_congr ⟨fun hset => ⟨hset, hkept.resolve_left ?_⟩, And.left⟩
    rw [hset.1]
    decide
  · obtain ⟨hpos, hcan⟩ := not_or.mp hkept
    exact iff_of_true (entryOpen_opened hos hs hdb flags hpos hcan) fun h => hcan h.2

theorem closesOwned_iff (hs : Tracked os isOpen s) (p : EntryPtr) :
    ClosesOwned os s p ↔ ¬ Unset s p := by
  rw [← owned_or_unset hs, ClosesOwned, entryClose]
  dsimp only
  rw [bind_eq, safe_bind]
  have hset : ∀ t, Safe (tracker os) (fun t c => ∀ file, c = .act (.close file) → Owned os
    t p file)
      (M.db_ (.setFileDescriptor p (-1))) t := by
    intro t
    rw [M.db_, safe_bind, M.db, safe_perform]
    exact ⟨(fun file h => by cases h), by simp [Safe]⟩
  have hclose : ∀ t file, Safe (tracker os)
      (fun t c => ∀ file, c = .act (.close file) → Owned os t p file)
      (do
        M.act (.close file)
        M.db_ (.setFileDescriptor p (-1))) t ↔ Owned os t p file := by
    intro t file
    rw [bind_eq, safe_bind, M.act, safe_perform]
    exact ⟨fun h => h.1 file rfl, fun h => ⟨(fun file' heq => by cases heq; exact h), hset _⟩⟩
  have hgetCtx : exec (tracker os) M.getCtx s = (s.1.ctx, s) := rfl
  rw [hgetCtx]
  dsimp only
  by_cases hfile : (s.1.ctx.entry p).fileDescriptor = -1
  · rw [if_neg (not_not.mpr hfile)]
    exact iff_of_true ⟨(safe_perform _ _).mpr fun file h => (by cases h), hset s⟩ (Or.inl hfile)
  · rw [if_pos hfile, or_iff_right hfile]
    have hlook : Safe (tracker os) (fun t c => ∀ file, c = .act (.close file) → Owned os t p file)
        M.getCtx s := (safe_perform _ _).mpr fun file h => by cases h
    rw [and_iff_right hlook]
    split
    · have hfsync : ∀ file : Int, Owned os (exec (tracker os) (M.act (.fsync file)) s).2 p file ↔
          Owned os s p file := fun file =>
        @owned_congr _ os s (exec (tracker os) (M.act (.fsync file)) s).2 rfl rfl p file
      rw [bind_eq, safe_bind, hclose, hfsync, M.act, safe_perform]
      exact and_iff_right fun file h => by cases h
    · exact hclose _ _

-- The open descriptors after the closing of an entry.
def afterClose (s : World σ × Opened) : Option EntryPtr → Int → Option (MtpCtx × CString)
  | some p =>
    if (s.1.ctx.entry p).fileDescriptor = -1 then s.2.files
    else Function.update s.2.files (s.1.ctx.entry p).fileDescriptor none
  | none => s.2.files

theorem afterClose_congr {t : World σ × Opened} (hdb : t.1.ctx.db = s.1.ctx.db)
    (hopened : t.2 = s.2) (entry : Option EntryPtr) : afterClose t entry = afterClose s entry := by
  cases entry with
  | none => exact congrArg Opened.files hopened
  | some p =>
      unfold afterClose MtpCtx.entry
      rw [hdb, hopened]

theorem files_entryClose (entry : Option EntryPtr) (s : World σ × Opened) :
    (exec (tracker os) (entryClose entry) s).2.2.files = afterClose s entry := by
  rw [entryClose.eq_def]
  cases entry with
  | none => rfl
  | some p =>
      dsimp only
      rw [bind_eq, exec_tracker_getCtx_bind, afterClose]
      by_cases hfile : (s.1.ctx.entry p).fileDescriptor = -1
      · rw [if_neg (not_not.mpr hfile), if_pos hfile]
        rfl
      · rw [if_pos hfile, if_neg hfile]
        split <;> rfl

theorem opened_of_made {prog : M α} (hm : Made identityRole prog) (s : World σ × Opened) :
    (exec (tracker os) prog s).2.2 = s.2 := by
  have hkeeps : identityRole.Keeps (tracker os) ClosesKnown fun t => t.2 = s.2 :=
    identity_keeps fun c t hc hclear ht => (opened_step hc hclear t).trans ht
  exact (hm.valid hkeeps s rfl).2

theorem files_deinitFsDb (s : World σ × Opened) :
    (exec (tracker os) deinitFsDb s).2.2.files = afterClose s s.1.ctx.db.entryList.head? := by
  rw [deinitFsDb, bind_eq, exec_tracker_getCtx_bind]
  dsimp only
  rw [bind_eq, exec_bind]
  generalize List.filter _ _ = watched
  have hrmwatch : Made identityRole (watched.foldr (fun p rest => do
      inotifyHandlerRmwatch (s.1.ctx.entry p).watchDescriptor
      rest) (pure ())) ∧ Looks (watched.foldr (fun p rest => do
      inotifyHandlerRmwatch (s.1.ctx.entry p).watchDescriptor
      rest) (pure ())) := by
    have hlooks : ∀ wd, Looks (inotifyHandlerRmwatch wd) := by
      intro wd
      unfold inotifyHandlerRmwatch
      grind
    induction watched with
    | nil => exact ⟨made_pure _, uses_pure _⟩
    | cons p rest ih =>
        exact ⟨made_bind (made_rmwatch _) fun _ => ih.1, uses_bind (hlooks _) fun _ => ih.2⟩
  obtain ⟨-, -, hctx, hopened⟩ := @tracker_looks _ _ os _ hrmwatch.1 hrmwatch.2 s
  rw [files_entryClose]
  exact afterClose_congr (by rw [hctx]) hopened _

theorem files_closeSession {bytes : List UInt8}
    (hne : bytes.take s.1.ctx.usbRdBufferMaxSize ≠ [])
    (hcode : hdrCode (s.1.ctx.header bytes) = MTP_OPERATION_CLOSE_SESSION) :
    (World.track os s (.packet bytes)).2.files = afterClose s s.1.ctx.db.entryList.head? := by
  have hop : operations.lookup (hdrCode (s.1.ctx.header bytes)) =
      some fun _ _ => mtpOpCloseSession := by
    rw [hcode]
    rfl
  let t : World σ × Opened := (tracker os (.setRdbuffer (s.1.ctx.header bytes)) s).2
  have hclose : (exec (tracker os) mtpOpCloseSession t).2.2.files =
      afterClose s s.1.ctx.db.entryList.head? := by
    rw [mtpOpCloseSession, inSession, bind_eq, exec_tracker_getCtx_bind]
    split
    · have hdrop : ∀ t' : World σ × Opened, (exec (tracker os) (do
          M.cmd .dropFsDb
          return ((MTP_RESPONSE_OK, []) : Response)) t').2.2.files = t'.2.files := fun _ => rfl
      rw [bind_eq, exec_bind, hdrop, files_deinitFsDb]
      exact afterClose_congr (t := t) rfl rfl _
    · rename_i hno
      have hdb : s.1.ctx.fsDb = none := Option.not_isSome_iff_eq_none.mp hno
      have hempty : s.1.ctx.db = initFsDb := by
        rw [MtpCtx.db, hdb]
        rfl
      rw [hempty]
      rfl
  have hstep : World.track os s (.packet bytes) = (exec (tracker os)
      (processInPacket (s.1.ctx.header bytes) (bytes.take s.1.ctx.usbRdBufferMaxSize).length)
      t).2 := by
    show (exec (tracker os) (mtpIncomingPacket bytes) s).2 = _
    rw [mtpIncomingPacket, bind_eq, exec_tracker_getCtx_bind]
    dsimp only
    rw [bind_eq, exec_bind, if_pos hne]
    rfl
  rw [hstep, processInPacket, bind_eq, exec_bind, opened_of_made (made_sendResponse _ _),
    performOperation, hop]
  exact hclose

theorem noneOpen_iff (hs : Tracked os isOpen s) {bytes : List UInt8}
    (hne : bytes.take s.1.ctx.usbRdBufferMaxSize ≠ [])
    (hcode : hdrCode (s.1.ctx.header bytes) = MTP_OPERATION_CLOSE_SESSION) :
    NoneOpen (World.track os s (.packet bytes)) ↔ HeadHasAll s := by
  rw [NoneOpen, files_closeSession hne hcode, HeadHasAll]
  refine forall_congr' fun file => ?_
  have hsome : (s.2.files file).isSome = true → file ≠ -1 := by
    rintro h rfl
    rw [hs.failed] at h
    cases h
  cases s.1.ctx.db.entryList.head? with
  | none => simp [afterClose, Option.isSome_iff_ne_none]
  | some p =>
      rw [afterClose]
      split
      · rename_i hfile
        refine ⟨fun hnone h => ?_, fun h => ?_⟩
        · rw [hnone] at h
          cases h
        · by_contra hne'
          have hopen := Option.isSome_iff_ne_none.mpr hne'
          obtain ⟨q, hq, hfield⟩ := h hopen
          cases hq
          exact hsome hopen (hfield.symm.trans hfile)
      · by_cases hfield : file = (s.1.ctx.entry p).fileDescriptor
        · rw [hfield, Function.update_self]
          exact iff_of_true rfl fun _ => ⟨p, rfl, rfl⟩
        · rw [Function.update_of_ne hfield]
          refine ⟨fun hnone h => ?_, fun h => ?_⟩
          · rw [hnone] at h
            cases h
          · by_contra hne'
            obtain ⟨q, hq, hq'⟩ := h (Option.isSome_iff_ne_none.mpr hne')
            cases hq
            exact hfield hq'.symm

-- The fields, openings and closings of the entries are right exactly where the
-- field has no 0 that is not the entry's own, and what is closed without having
-- been opened is such a 0. Nothing stays open after a session whose newest entry
-- is the only one with an open file.
theorem descriptors_owned (hos : os.HasDescriptors isOpen) {start : World σ}
    (hstart : start.ctx.Initial) (events : List (Event σ))
    (hout : ∀ event ∈ events, event.LeavesOpen isOpen) :
    let s := run (World.track os) (start, Opened.none) events
    (FieldsOwned os s ↔ ∀ p ∈ s.1.ctx.db.entryList, ¬ Unset s p) ∧
      (∀ p ∈ s.1.ctx.db.entryList, ∀ flags,
        (OpensOwned os s p flags ↔ ¬ (Unset s p ∧ CannotOpen os s.1 p))) ∧
      (∀ p ∈ s.1.ctx.db.entryList, (ClosesOwned os s p ↔ ¬ Unset s p)) ∧
      (∀ event : Event σ, Safe (tracker os) ClosesKnown event.program s) ∧
      ∀ bytes, bytes.take s.1.ctx.usbRdBufferMaxSize ≠ [] →
        hdrCode (s.1.ctx.header bytes) = MTP_OPERATION_CLOSE_SESSION →
        (NoneOpen (World.track os s (.packet bytes)) ↔ HeadHasAll s) := by
  intro s
  have hs : Tracked os isOpen s := tracked_run hos (tracked_start hstart) events hout
  have hdb : ∀ p ∈ s.1.ctx.db.entryList, s.1.ctx.fsDb ≠ none := by
    intro p hp hno
    rw [MtpCtx.db, hno] at hp
    cases hp
  exact ⟨fieldsOwned_iff hs, fun p hp flags => opensOwned_iff hos hs (hdb p hp) flags,
    fun p _ => closesOwned_iff hs p, fun event => (tracked_event hos hs event).1,
    fun bytes hne hcode => noneOpen_iff hs hne hcode⟩

section Samples

-- The descriptors of the system in memory.
structure MemSystem.HasOpen (sys : MemSystem) (file : Int) : Prop where
  mem : file ∈ sys.opened.map Prod.fst
  le : file ≤ sys.lastFile

theorem MemSystem.HasOpen.of_eq {sys sys' : MemSystem} {file : Int} (h : sys.HasOpen file)
    (hopened : sys'.opened.map Prod.fst = sys.opened.map Prod.fst)
    (hlast : sys'.lastFile = sys.lastFile) : sys'.HasOpen file :=
  ⟨hopened ▸ h.mem, hlast ▸ h.le⟩

theorem MemSystem.HasOpen.seek {sys : MemSystem} {file : Int} (h : sys.HasOpen file) (file' : Int)
    (position : Nat) : (sys.seek file' position).HasOpen file := by
  refine h.of_eq ?_ rfl
  simp only [MemSystem.seek, List.map_map]
  refine List.map_congr_left fun entry _ => ?_
  by_cases heq : entry.1 = file' <;> simp [heq]

theorem memOs_hasDescriptors : memOs.HasDescriptors MemSystem.HasOpen where
  opened storageId path flags sys h := by
    show ¬ sys.HasOpen (sys.openFile path flags).1 ∧
      (sys.openFile path flags).2.HasOpen (sys.openFile path flags).1
    have hne : (sys.openFile path flags).1 ≠ -1 := h
    rw [MemSystem.openFile] at hne ⊢
    dsimp only at hne ⊢
    split at hne
    · rename_i hfound
      have hlast : (if flags = .createTruncate then sys.setNode path (some []) else sys).lastFile =
          sys.lastFile := by
        split <;> rfl
      rw [if_pos hfound, hlast]
      refine ⟨fun hopen => ?_, by simp, ?_⟩
      · have hle := hopen.le
        omega
      · show (sys.lastFile : Int) + 1 ≤ ((sys.lastFile + 1 : Nat) : Int)
        omega
    · exact absurd rfl hne
  kept a sys file hne h := by
    show (sys.act a).2.HasOpen file
    cases a with
    | «open» storageId path flags =>
        show (sys.openFile path flags).2.HasOpen file
        obtain ⟨hmem, hle⟩ := h
        rw [MemSystem.openFile]
        dsimp only
        split
        · split <;> exact ⟨List.mem_cons_of_mem _ hmem, by simp [MemSystem.setNode]; omega⟩
        · exact ⟨hmem, hle⟩
    | close file' =>
        have hfile : file ≠ file' := by
          rintro rfl
          exact hne rfl
        refine ⟨?_, h.2⟩
        obtain ⟨entry, hentry, heq⟩ := List.mem_map.mp h.1
        refine List.mem_map.mpr ⟨entry, List.mem_filter.mpr ⟨hentry, ?_⟩, heq⟩
        simp [heq, hfile]
    | _ =>
        simp only [MemSystem.act]
        repeat' split
        all_goals first
          | exact h
          | exact h.of_eq rfl rfl
          | exact h.seek _ _
          | exact (h.of_eq rfl rfl : (sys.setNode _ _).HasOpen file).seek _ _

def endEditObject (handle : Nat) : Event MemSystem :=
  .packet (commandPacket MTP_OPERATION_END_EDIT_OBJECT [handle])

def oneStorage : World MemSystem :=
  ⟨startCtx (storagesOf [(A_ROOT, A_STORAGE, 0)]), sampleSystem⟩

theorem oneStorage_initial : oneStorage.ctx.Initial := initial_startCtx _

-- The root and the file of "A" are closed before their fields are looked at.
theorem descriptors_owned_sample :
    FieldsOwned memOs (run (World.track memOs) (oneStorage, Opened.none)
      [openSession, getObjectHandles 0xFFFF0001 0, endEditObject 0, endEditObject 1]) := by
  refine (descriptors_owned memOs_hasDescriptors oneStorage_initial
    [openSession, getObjectHandles 0xFFFF0001 0, endEditObject 0, endEditObject 1]
    (by simp [Event.LeavesOpen, openSession, getObjectHandles, endEditObject])).1.mpr ?_
  have hset : ∀ p ∈ (run (World.track memOs) (oneStorage, Opened.none)
      [openSession, getObjectHandles 0xFFFF0001 0, endEditObject 0, endEditObject
      1]).1.ctx.db.entryList,
      ((run (World.track memOs) (oneStorage, Opened.none)
        [openSession, getObjectHandles 0xFFFF0001 0, endEditObject 0, endEditObject 1]).1.ctx.entry
          p).fileDescriptor ≠ 0 := by decide +kernel
  exact fun p hp h => hset p hp h.1

def closesUnknown (step : (World MemSystem × Opened) × Cmd) : Bool :=
  match step.2 with
  | .act (.close file) => (step.1.2.files file).isNone
  | _ => false

-- The file of "A" has the field 0 once it is listed, and EndEditObject closes
-- that descriptor. The file that SendPartialObject opened stays open after the
-- session, since the one of "B" is newer.
theorem not_owned_of_new_entry :
    let listed := [openSession, getObjectHandles 0xFFFF0001 0]
    let s := run (World.track memOs) (twoStorages, Opened.none) listed
    let s' := run (World.track memOs) (twoStorages, Opened.none)
      (listed ++ [getObjectHandles 0xFFFF0002 0] ++ sendPartialObject 1 [8] ++ [closeSession])
    ¬ FieldsOwned memOs s ∧
      (trace (tracker memOs) (endEditObject 1).program s).any closesUnknown = true ∧
      ¬ NoneOpen s' := by
  intro listed s s'
  refine ⟨fun h => ?_, by decide +kernel, fun h => ?_⟩
  · have hp : (⟨1, 1021⟩ : EntryPtr) ∈ s.1.ctx.db.entryList := by decide +kernel
    have hfield : (s.1.ctx.entry ⟨1, 1021⟩).fileDescriptor = 0 := by decide +kernel
    have hnote : s.2.holds ⟨1, 1021⟩ = false := by decide +kernel
    have howned := h _ hp
    rw [hfield] at howned
    have hholds := (howned.resolve_left (by decide)).holds
    rw [hnote] at hholds
    cases hholds
  · have hopen : (s'.2.files 1).isSome = true := by decide +kernel
    rw [h 1] at hopen
    cases hopen

end Samples

end Umtp
