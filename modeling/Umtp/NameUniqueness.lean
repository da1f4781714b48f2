import Umtp.MemOs
import Umtp.Handles.Names
import Umtp.Effects.Roles

namespace Umtp

open Lib Lib.Prog Handles

variable {σ α : Type} {os : Os σ} {w : World σ}

-- Entries are allocated for names that were looked up in vain.
def LooksFirst (w : World σ) (c : Cmd) : Prop :=
  ∀ op, c = .db op → op.Looked w.ctx.db

-- The commands that allocate no object.
theorem looksFirst_of_notAlloc {c : Cmd}
    (hc : ∀ mem fileinfo parent storageId, c ≠ .db (.allocEntry mem fileinfo parent storageId)) :
    LooksFirst w c := by
  rintro op rfl
  cases op with
  | allocEntry mem fileinfo parent storageId => exact absurd rfl (hc _ _ _ _)
  | _ => trivial

theorem looksFirst_addEntry (fileinfo : FileFoundInfo) (parent storageId : Nat) :
    Valid (World.handle os) LooksFirst (fun _ => True) (addEntry fileinfo parent storageId)
      fun _ _ => True := by
  refine valid_getCtx_bind (fun _ _ => looksFirst_of_notAlloc (by simp)) fun ctx => ?_
  split
  · exact valid_ret fun _ _ => trivial
  · rename_i hnone
    have hmemory : Valid (World.handle os) LooksFirst (fun w : World σ => True ∧ w.ctx = ctx)
        (M.act .entryMemory) fun _ w => w.ctx = ctx :=
      valid_perform (fun _ _ => looksFirst_of_notAlloc (by simp)) fun _ hw => hw.2
    refine valid_bind hmemory fun mem => valid_perform (fun w hw => ?_) fun _ _ => trivial
    rintro op hop
    obtain rfl : DbOp.allocEntry mem fileinfo parent storageId = op := by injection hop
    show w.ctx.db.findEntry fileinfo.filename parent storageId = none
    rw [hw]
    exact hnone

theorem looksFirst_keeps : anyRole.Keeps (World.handle os) LooksFirst fun _ => True :=
  Role.keeps_of_commands (fun _ _ => ⟨looksFirst_of_notAlloc (by simp), trivial⟩)
    (fun c hc w _ => ⟨looksFirst_of_notAlloc (by
      rintro mem fileinfo parent storageId rfl
      rcases hc with hc | hc | hc | hc | ⟨_, hc⟩ <;> cases hc), trivial⟩)
    (fun _ _ _ _ => ⟨looksFirst_of_notAlloc (by simp), trivial⟩) looksFirst_addEntry

theorem looksFirst_event (event : Event σ) (w : World σ) :
    ∀ step ∈ w.trace os event, LooksFirst step.1 step.2 :=
  valid_safe ((made_event anyRole_full event).valid looksFirst_keeps) trivial

-- The accesses of the daemon to its database keep the names of objects apart:
-- see DbOp.KeepsNames.
def KeepsNames (os : Os σ) (w : World σ) (event : Event σ) : Prop :=
  ∀ step ∈ w.trace os event, ∀ op ∈ step.2.dbOp, op.KeepsNames step.1.ctx.db

theorem named_handle {c : Cmd} (hn : w.ctx.db.Named) (hl : LooksFirst w c)
    (hk : ∀ op ∈ c.dbOp, op.KeepsNames w.ctx.db) : (World.handle os c w).2.ctx.db.Named := by
  cases c with
  | db op =>
      rcases w.ctx.applyDb_cases op with heq | heq
      · exact heq.symm ▸ hn
      · have hstep := op.named_step hn (hk op rfl) (hl op rfl)
        exact heq.symm ▸ hstep
  | flagDeleted site p =>
      rcases w.ctx.applyDb_cases (.setDeleted p) with heq | heq
      · exact heq.symm ▸ hn
      · have hstep := DbOp.named_step hn (.setDeleted p) trivial trivial
        exact heq.symm ▸ hstep
  | initFsDb => exact FsHandlesDb.Named.init
  | dropFsDb => exact FsHandlesDb.Named.init
  | _ => exact hn

theorem named_step (hn : w.ctx.db.Named) (event : Event σ) (hk : KeepsNames os w event) :
    (World.step os w event).ctx.db.Named := by
  have hsafe : Safe (World.handle os)
      (fun w c => LooksFirst w c ∧ ∀ op ∈ c.dbOp, op.KeepsNames w.ctx.db) event.program w :=
    fun step hm => ⟨looksFirst_event event w step hm, hk step hm⟩
  have hrun : (exec (World.handle os) event.program w).2.ctx.db.Named :=
    exec_keeps (h := World.handle os) (I := fun w : World σ => w.ctx.db.Named)
      (fun w c hn (hok : LooksFirst w c ∧ _) => named_handle hn hok.1 hok.2) event.program w
      hsafe hn
  cases event with
  | outside change => exact hn
  | _ => exact hrun

-- No two live objects have one name in one folder, as long as every object is
-- put in the bucket of its name and none is given the name of another one.
theorem one_live_entry_per_name (os : Os σ) (start : World σ) (hstart : start.ctx.fsDb = none)
    (events : List (Event σ)) (hk : Allowed (World.step os) (KeepsNames os) start events) :
    (run (World.step os) start events).ctx.db.UniqueNames := by
  have hn : start.ctx.db.Named := by
    rw [MtpCtx.db, hstart]
    exact FsHandlesDb.Named.init
  exact (run_keeps (I := fun w : World σ => w.ctx.db.Named)
    (fun _ event hn hk => named_step hn event hk) start events hk hn).unique

section Samples

instance (table : Fin HASH_TABLE_SIZE → HashNode) (mem : AllocMem) (name : CString) :
    Decidable (NameFits table mem name) :=
  inferInstanceAs (Decidable (_ ∧ _))

instance (db : FsHandlesDb) : (op : DbOp) → Decidable (op.KeepsNames db)
  | .allocEntry mem fileinfo parent storageId =>
    inferInstanceAs (Decidable ((db.allocEntry mem fileinfo parent storageId).1.isSome = true →
      NameFits db.hashTableByName mem fileinfo.filename))
  | .renameEntry mem p name =>
    inferInstanceAs (Decidable (NameFits (db.removeEntry p).hashTableByName mem name ∧
      ((db.pool p).handle ≠ 0 → ∀ q ∈ db.entryList, q ≠ p → (db.pool q).handle ≠ 0 →
        (db.pool q).isDeleted = false →
          (db.pool q).place ≠ { db.pool p with name := name }.place)))
  | .allocRootEntry _ _ => isTrue trivial
  | .setDeleted _ => isTrue trivial
  | .setSize _ _ => isTrue trivial
  | .setFileDescriptor _ _ => isTrue trivial
  | .setWatchDescriptor _ _ => isTrue trivial
  | .initSearchHandle _ _ => isTrue trivial
  | .getNextChildHandle => isTrue trivial

instance (w : World MemSystem) (event : Event MemSystem) :
    Decidable (KeepsNames memOs w event) :=
  inferInstanceAs (Decidable (∀ step ∈ w.trace memOs event, ∀ op ∈ step.2.dbOp,
    op.KeepsNames step.1.ctx.db))

def G_NAME : CString := [0x67]
def H_NAME : CString := [0x68]

-- "/a" has the files "f" and "g".
def twoFiles : World MemSystem :=
  ⟨twoStorages.ctx, sampleSystem.setNode (A_ROOT ++ SLASH :: G_NAME) (some [7])⟩

def listing : List (Event MemSystem) := [openSession, getObjectHandles 0xFFFF0001 0]

-- "f" is renamed to "h".
theorem one_live_entry_per_name_sample :
    (run (World.step memOs) twoFiles (listing ++ setObjectName 1 H_NAME)).ctx.db.UniqueNames :=
  one_live_entry_per_name memOs twoFiles rfl (listing ++ setObjectName 1 H_NAME)
    (by decide +kernel)

-- When "f" is renamed to "g", both objects have the name "g".
theorem not_uniqueNames_of_rename :
    ¬ (run (World.step memOs) twoFiles (listing ++ setObjectName 1 G_NAME)).ctx.db.UniqueNames := by
  intro h
  have hsame := h ⟨1, 1021⟩ ⟨1, 1020⟩ ⟨by decide +kernel, by decide +kernel⟩
    ⟨by decide +kernel, by decide +kernel⟩ (by decide +kernel) (by decide +kernel)
    (by decide +kernel)
  cases hsame

end Samples

end Umtp
