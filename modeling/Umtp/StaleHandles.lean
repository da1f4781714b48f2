import Umtp.MemOs
import Umtp.Messages

namespace Umtp

open Lib Lib.Prog Handles Text

variable {σ : Type} {os : Os σ} {ctx ctx' : MtpCtx} {w : World σ}

-- A handle that no object of a registered storage has.
def MtpCtx.Refused (ctx : MtpCtx) (handle : Nat) : Prop :=
  ∀ p, ctx.db.Live p → (ctx.entry p).handle = handle →
    ctx.mtpGetStorageRoot (ctx.entry p).storageId = none

theorem MtpCtx.Refused.getEntryByHandle {handle : Nat} (ho : ctx.Ordered)
    (hr : ctx.Refused handle) : ctx.getEntryByHandle handle = none := by
  cases hfind : ctx.getEntryByHandle handle with
  | none => rfl
  | some p =>
      obtain ⟨hlive, hhandle, hroot⟩ := ho.getEntryByHandle_live hfind
      rw [hr p hlive hhandle] at hroot
      simp at hroot

theorem MtpCtx.mtpGetStorageRoot_eq_none {storageId : Nat} :
    ctx.mtpGetStorageRoot storageId = none ↔
      ∀ i, (ctx.storages i).rootPath.isSome = true → (ctx.storages i).storageId ≠ storageId := by
  rw [MtpCtx.mtpGetStorageRoot]
  constructor
  · intro h i hi hid
    rcases Option.bind_eq_none_iff.mp h with hnone
    cases hfind : ctx.mtpGetStorageIndexById storageId with
    | none =>
        have hno := List.find?_eq_none.mp hfind i (List.mem_finRange i)
        simp [hi, hid] at hno
    | some j =>
        have hj := List.find?_some hfind
        have hroot := hnone j hfind
        simp [hroot] at hj
  · intro h
    rw [Option.bind_eq_none_iff]
    intro j hfind
    have hj := List.find?_some hfind
    simp only [Bool.and_eq_true, beq_iff_eq] at hj
    exact absurd hj.2 (h j hj.1)

-- The message gives the id to a new storage while the database still has a live
-- object under it.
def Recycles (os : Os σ) (storageId : Nat) (w : World σ) : Event σ → Prop
  | .message text => ∃ i ∈ (w.addedStorage os text).map Prod.fst,
      FIRST_STORAGE_ID + i = storageId ∧ ∃ p ∈ w.ctx.db.entryList,
        (w.ctx.entry p).isDeleted = false ∧ (w.ctx.entry p).handle ≠ 0 ∧
          (w.ctx.entry p).storageId = storageId
  | _ => False

instance (os : Os σ) (storageId : Nat) (w : World σ) :
    (event : Event σ) → Decidable (Recycles os storageId w event)
  | .message text => inferInstanceAs (Decidable (∃ i ∈ (w.addedStorage os text).map Prod.fst,
      FIRST_STORAGE_ID + i = storageId ∧ ∃ p ∈ w.ctx.db.entryList,
        (w.ctx.entry p).isDeleted = false ∧ (w.ctx.entry p).handle ≠ 0 ∧
          (w.ctx.entry p).storageId = storageId))
  | .packet _ => isFalse id
  | .inotify _ => isFalse id
  | .outside _ => isFalse id

-- The object of a removed storage: its storage id is not used by another one.
structure Orphaned (ctx : MtpCtx) (handle storageId : Nat) : Prop where
  regular : ctx.Regular
  owner : ∀ p, ctx.db.Live p → (ctx.entry p).handle = handle →
    (ctx.entry p).storageId = storageId
  refused : ctx.Refused handle

theorem orphaned_removed {i : Fin MAX_STORAGE_NB} {handle : Nat} (hr : ctx.Regular)
    (hi : (ctx.storages i).rootPath.isSome = true)
    (howner : ∀ p, ctx.db.Live p → (ctx.entry p).handle = handle →
      (ctx.entry p).storageId = (ctx.storages i).storageId)
    (hctx : ctx' = { ctx with storages := Function.update ctx.storages i freeSlot })
    (hr' : ctx'.Regular) : Orphaned ctx' handle (ctx.storages i).storageId := by
  subst hctx
  refine ⟨hr', howner, fun p hp hhandle => ?_⟩
  rw [MtpCtx.mtpGetStorageRoot_eq_none]
  intro j hj
  have hji : j ≠ i := by
    rintro rfl
    simp [freeSlot] at hj
  simp only [Function.update_of_ne hji] at hj ⊢
  -- the other slots have other ids
  have hid := howner p hp hhandle
  have hidj := hr.slotIds j hj
  have hidi := hr.slotIds i hi
  have hne : (j : Nat) ≠ i := fun h => hji (Fin.ext h)
  intro heq
  have heq' : (ctx.storages j).storageId = (ctx.storages i).storageId := heq.trans hid
  omega

theorem orphaned_step {handle storageId : Nat} (hpos : handle ≠ 0) {text : CString}
    (ho : Orphaned w.ctx handle storageId) (hno : ¬ Recycles os storageId w (.message text)) :
    Orphaned (World.step os w (.message text)).ctx handle storageId := by
  have hregular := @regular_step _ os _ ho.regular (.message text)
  by_cases htext : ADDSTORAGE_MESSAGE.isPrefixOf text = true
  · have hadd := @added_message _ os w _ htext
    have hdb : (World.step os w (.message text)).ctx.db = w.ctx.db := by
      rw [MtpCtx.db, hadd.fsDb]
      rfl
    have hentry : (World.step os w (.message text)).ctx.entry = w.ctx.entry := by
      funext p
      rw [MtpCtx.entry, hdb]
      rfl
    refine ⟨hregular, by rw [hdb, hentry]; exact ho.owner, fun p hp hhandle => ?_⟩
    rw [hdb] at hp
    rw [hentry] at hhandle ⊢
    have hid := ho.owner p hp hhandle
    rw [MtpCtx.mtpGetStorageRoot_eq_none]
    intro j hj heq
    rcases hadd.storages j hj with hsame | hnew
    · rw [hsame] at hj heq
      exact MtpCtx.mtpGetStorageRoot_eq_none.mp (ho.refused p hp hhandle) j hj heq
    · have hidj := hregular.slotIds j hj
      exact hno ⟨j, by rw [hnew]; rfl, by rw [← hidj, heq, hid],
        p, hp.1, hp.2, by rw [hhandle]; exact hpos, hid⟩
  · obtain ⟨hids, hn⟩ := @kept_message _ os _ ho.regular.ordered _ htext
    have hold : ∀ p, (World.step os w (.message text)).ctx.db.Live p →
        ((World.step os w (.message text)).ctx.entry p).handle = handle →
        w.ctx.db.Live p ∧ (w.ctx.entry p).handle = handle ∧
          ((World.step os w (.message text)).ctx.entry p).storageId =
          (w.ctx.entry p).storageId := by
      intro p hp hhandle
      obtain ⟨hp', hidentity⟩ := hn p hp (by rw [hhandle]; exact hpos)
      simp only [FsEntry.identity, Prod.mk.injEq] at hidentity
      exact ⟨hp', hidentity.1.symm.trans hhandle, hidentity.2.2⟩
    refine ⟨hregular, fun p hp hhandle => ?_, fun p hp hhandle => ?_⟩
    · obtain ⟨hp', hhandle', hid⟩ := hold p hp hhandle
      rw [hid]
      exact ho.owner p hp' hhandle'
    · obtain ⟨hp', hhandle', hid⟩ := hold p hp hhandle
      rw [hid, MtpCtx.mtpGetStorageRoot_eq_none]
      intro j hj heq
      obtain ⟨hj', hidj⟩ := hids j hj
      exact MtpCtx.mtpGetStorageRoot_eq_none.mp (ho.refused p hp' hhandle') j hj' (hidj ▸ heq)

theorem orphaned_run {handle storageId : Nat} (hpos : handle ≠ 0) (later : List CString)
    (ho : Orphaned w.ctx handle storageId)
    (hno : Allowed (World.step os) (fun w event => ¬ Recycles os storageId w event) w
      (later.map .message)) :
    Orphaned (run (World.step os) w (later.map .message)).ctx handle storageId := by
  induction later generalizing w with
  | nil => exact ho
  | cons text rest ih => exact ih (orphaned_step hpos ho hno.1) hno.2

-- After the removal of a storage and the messages that follow it, every handle
-- that an object of the storage had is refused.
def HandlesDie (os : Os σ) (w : World σ) (removal : CString) (later : List CString) : Prop :=
  ∀ i ∈ w.ctx.removedSlot removal, ∀ p ∈ w.ctx.db.entryList,
    (w.ctx.entry p).storageId = (w.ctx.storages i).storageId → (w.ctx.entry p).handle ≠ 0 →
    (run (World.step os) (World.step os w (.message removal))
      (later.map .message)).ctx.getEntryByHandle (w.ctx.entry p).handle = none

theorem MtpCtx.removedSlot_isSome {text : CString} {i : Fin MAX_STORAGE_NB}
    (hi : ctx.removedSlot text = some i) : (ctx.storages i).rootPath.isSome = true := by
  rw [MtpCtx.removedSlot] at hi
  split at hi
  · obtain ⟨name, -, hslot⟩ := Option.bind_eq_some_iff.mp hi
    have hfound := List.find?_some hslot
    simp only [Bool.and_eq_true] at hfound
    exact hfound.1
  · simp at hi

-- Handles die with their storage as long as no later storage gets its id while
-- objects of it are still in the database.
theorem handles_die_with_storage (os : Os σ) (start : World σ) (hstart : start.ctx.Initial)
    (before : List (Event σ)) (removal : CString) (later : List CString)
    (hcount : (run (World.step os) start before).ctx.db.entryList.length < 2 ^ 32 - 1)
    (hno : ∀ i ∈ (run (World.step os) start before).ctx.removedSlot removal,
      Allowed (World.step os) (fun w event => ¬ Recycles os
          ((run (World.step os) start before).ctx.storages i).storageId w event)
        (World.step os (run (World.step os) start before) (.message removal))
        (later.map .message)) :
    HandlesDie os (run (World.step os) start before) removal later := by
  have hregular : (run (World.step os) start before).ctx.Regular :=
    regular_run before hstart.regular
  generalize run (World.step os) start before = w at *
  intro i hi p hp hid hpos
  have howner : ∀ q, w.ctx.db.Live q → (w.ctx.entry q).handle = (w.ctx.entry p).handle →
      (w.ctx.entry q).storageId = (w.ctx.storages i).storageId := by
    intro q hq hhandle
    have hpq := hregular.recorded.handle_inj hcount hp hq.1 hpos hhandle.symm
    rw [← hpq]
    exact hid
  have hremoved := @orphaned_removed _ ((World.step os w (.message removal)).ctx) _ _ hregular
    (MtpCtx.removedSlot_isSome hi) howner (removed_message hi) (regular_step hregular _)
  have horphaned := orphaned_run hpos later hremoved (hno i hi)
  exact horphaned.refused.getEntryByHandle horphaned.regular.ordered

section Samples

def addC : CString := ADDSTORAGE_MESSAGE ++ C_ROOT ++ SPACE :: C_STORAGE

-- The object is in the second slot and the first one is free when "C" is added.
theorem handles_die_with_storage_sample :
    HandlesDie memOs
      (run (World.step memOs) twoStorages
        [openSession, getObjectHandles 0xFFFF0002 0, .message (RMSTORAGE_MESSAGE ++ A_STORAGE)])
      (RMSTORAGE_MESSAGE ++ B_STORAGE) [addC, LOCK_MESSAGE] :=
  handles_die_with_storage memOs twoStorages twoStorages_initial
    [openSession, getObjectHandles 0xFFFF0002 0, .message (RMSTORAGE_MESSAGE ++ A_STORAGE)]
    (RMSTORAGE_MESSAGE ++ B_STORAGE) [addC, LOCK_MESSAGE] (by decide +kernel) (by decide +kernel)

-- Otherwise "C" gets the slot and the id of "A", and the handle of "/a/f" is now
-- the handle of "/c/f".
theorem not_handlesDie_of_recycled_id :
    let w := run (World.step memOs) twoStorages [openSession, getObjectHandles 0xFFFF0001 0]
    let w' := run (World.step memOs) w [.message (RMSTORAGE_MESSAGE ++ A_STORAGE), .message addC]
    ¬ HandlesDie memOs w (RMSTORAGE_MESSAGE ++ A_STORAGE) [addC] ∧
      ∃ p, w.ctx.getEntryByHandle 1 = some p ∧ w'.ctx.getEntryByHandle 1 = some p ∧
        (exec (World.handle memOs) (entryPath p) w).1 = some (A_ROOT ++ SLASH :: F_NAME) ∧
        (exec (World.handle memOs) (entryPath p) w').1 = some (C_ROOT ++ SLASH :: F_NAME) := by
  intro w w'
  refine ⟨fun h => ?_, ⟨1, 1021⟩, by decide +kernel, by decide +kernel, by decide +kernel,
    by decide +kernel⟩
  have hdie := h ⟨0, by decide⟩ (by decide +kernel) ⟨1, 1021⟩ (by decide +kernel)
    (by decide +kernel)
    (by decide +kernel)
  revert hdie
  decide +kernel

end Samples

end Umtp
