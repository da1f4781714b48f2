import Umtp.Reachable

namespace Umtp

open Lib Lib.Prog Handles

variable {σ α : Type} {os : Os σ} {ctx ctx' : MtpCtx} {w : World σ}

-- mtp.c and mtp_cfg.c

-- The storage that `mtp_add_storage` puts in a slot, if it puts one.
def World.newStorage (os : Os σ) (w : World σ) (path description : CString) (uid gid : Int)
    (flags : BitVec 32) : Option (Fin MAX_STORAGE_NB × MtpStorage) :=
  if w.ctx.mtpGetStorageIdByName description = NO_HANDLE then
    (MtpCtx.slots.find? fun i => (w.ctx.storages i).rootPath.isNone).bind fun i =>
      match os.query (.realpath path) w.os, (os.act .malloc w.os).1 with
      | .ok rootPath, true =>
        some (i, ⟨some rootPath, description, FIRST_STORAGE_ID + i, flags, uid, gid⟩)
      | _, _ => none
  else
    none

-- The storage that a message adds, and the slot that a message frees.
def World.addedStorage (os : Os σ) (w : World σ) (text : CString) :
    Option (Fin MAX_STORAGE_NB × MtpStorage) :=
  if ADDSTORAGE_MESSAGE.isPrefixOf text then
    let line := text.drop ADDSTORAGE_MESSAGE.length
    match getParam line 1, getParam line 0 with
    | some storagename, some storagepath =>
      let options := (getParam line 2).getD []
      w.newStorage os storagepath storagename (storageIds options).1 (storageIds options).2
        (storageFlags options)
    | _, _ => none
  else
    none

def MtpCtx.removedSlot (ctx : MtpCtx) (text : CString) : Option (Fin MAX_STORAGE_NB) :=
  if RMSTORAGE_MESSAGE.isPrefixOf text then
    (getParam (text.drop RMSTORAGE_MESSAGE.length) 0).bind ctx.mtpGetStorageIndexByName
  else
    none

-- A storage is put in a slot, or nothing is registered.
structure Added (ctx ctx' : MtpCtx) (new : Option (Fin MAX_STORAGE_NB × MtpStorage)) : Prop where
  fsDb : ctx'.fsDb = ctx.fsDb
  storages : ∀ j, (ctx'.storages j).rootPath.isSome = true →
    ctx'.storages j = ctx.storages j ∨ new = some (j, ctx'.storages j)
  kept : ∀ j, (ctx.storages j).rootPath.isSome = true → ctx'.storages j = ctx.storages j
  put : ∀ j storage, new = some (j, storage) →
    (ctx.storages j).rootPath = none ∧ ctx'.storages j = storage

theorem Added.refl (ctx : MtpCtx) : Added ctx ctx none :=
  ⟨rfl, fun _ _ => Or.inl rfl, fun _ _ => rfl, fun _ _ h => nomatch h⟩

theorem added_setStorage {i : Fin MAX_STORAGE_NB} (hfree : (ctx.storages i).rootPath = none)
    (storage : MtpStorage) :
    Added ctx { ctx with storages := Function.update ctx.storages i storage }
      (if storage.rootPath.isSome then some (i, storage) else none) := by
  have hcase : ∀ j, j = i ∨ Function.update ctx.storages i storage j = ctx.storages j := by
    intro j
    by_cases hji : j = i
    · exact Or.inl hji
    · exact Or.inr (Function.update_of_ne hji _ _)
  refine ⟨rfl, fun j hj => ?_, fun j hj => ?_, fun j st h => ?_⟩
  · rcases hcase j with rfl | heq
    · simp only [Function.update_self] at hj ⊢
      exact Or.inr (by rw [if_pos hj])
    · exact Or.inl heq
  · rcases hcase j with rfl | heq
    · rw [hfree] at hj
      simp at hj
    · exact heq
  · split at h
    · obtain ⟨rfl, rfl⟩ := Prod.mk.inj (Option.some.inj h)
      exact ⟨hfree, Function.update_self _ _ _⟩
    · simp at h

theorem added_mtpAddStorage (w : World σ) (path description : CString) (uid gid : Int)
    (flags : BitVec 32) :
    Added w.ctx
      (exec (World.handle os) (mtpAddStorage path description uid gid flags) w).2.ctx
      (w.newStorage os path description uid gid flags) := by
  rw [mtpAddStorage, exec_getCtx_bind, World.newStorage]
  by_cases hname : w.ctx.mtpGetStorageIdByName description = NO_HANDLE
  · rw [if_pos hname, if_pos hname]
    cases hfind : MtpCtx.slots.find? fun i => (w.ctx.storages i).rootPath.isNone with
    | none => exact Added.refl _
    | some i =>
        have hfree : (w.ctx.storages i).rootPath = none := by
          simpa using List.find?_some hfind
        dsimp only
        rw [exec_query_bind, exec_act_bind, Option.bind_some]
        cases os.query (.realpath path) w.os with
        | error e => exact added_setStorage hfree freeSlot
        | ok rootPath =>
            cases (os.act .malloc w.os).1 with
            | false => exact added_setStorage hfree freeSlot
            | true => exact added_setStorage hfree _
  · rw [if_neg hname, if_neg hname]
    exact Added.refl _

theorem added_message {text : CString} (htext : ADDSTORAGE_MESSAGE.isPrefixOf text = true) :
    Added w.ctx (World.step os w (.message text)).ctx (w.addedStorage os text) := by
  show Added w.ctx (exec (World.handle os) (msgqueueThread text) w).2.ctx _
  rw [msgqueueThread, if_pos htext, World.addedStorage, if_pos htext, mtpAddStorageFromLine]
  simp only [Nat.zero_add]
  generalize getParam (text.drop ADDSTORAGE_MESSAGE.length) 1 = storagename
  generalize getParam (text.drop ADDSTORAGE_MESSAGE.length) 0 = storagepath
  cases storagename with
  | none => exact Added.refl _
  | some storagename =>
      cases storagepath with
      | none => exact Added.refl _
      | some storagepath => exact added_mtpAddStorage w _ _ _ _ _

theorem removed_message {text : CString} {i : Fin MAX_STORAGE_NB}
    (hi : w.ctx.removedSlot text = some i) :
    (World.step os w (.message text)).ctx =
      { w.ctx with storages := Function.update w.ctx.storages i freeSlot } := by
  show (exec (World.handle os) (msgqueueThread text) w).2.ctx = _
  rw [MtpCtx.removedSlot] at hi
  split at hi
  · rename_i htext
    obtain ⟨name, hname, hslot⟩ := Option.bind_eq_some_iff.mp hi
    have hadd : ¬ ADDSTORAGE_MESSAGE.isPrefixOf text = true := by
      intro hadd
      obtain ⟨rest, hrest⟩ := List.isPrefixOf_iff_prefix.mp hadd
      obtain ⟨rest', hrest'⟩ := List.isPrefixOf_iff_prefix.mp htext
      have hhead := congrArg List.head? (hrest.trans hrest'.symm)
      simp [ADDSTORAGE_MESSAGE, RMSTORAGE_MESSAGE] at hhead
    rw [msgqueueThread, if_neg hadd, if_pos htext, mtpRemoveStorageFromLine, hname]
    dsimp only
    rw [mtpRemoveStorage, exec_getCtx_bind, hslot]
    rfl
  · simp at hi

-- What every message but addstorage leaves of the storages.
def keptManagement (ctx : MtpCtx) : Management :=
  ⟨fun i storageId => (ctx.storages i).rootPath.isSome = true ∧
    storageId = (ctx.storages i).storageId, False⟩

-- No live object appears.
def NoNewObjects (ctx ctx' : MtpCtx) : Prop :=
  ∀ p, ctx'.db.Live p → (ctx'.entry p).handle ≠ 0 →
    ctx.db.Live p ∧ (ctx'.entry p).identity = (ctx.entry p).identity

theorem NoNewObjects.refl (ctx : MtpCtx) : NoNewObjects ctx ctx :=
  fun _ hp _ => ⟨hp, rfl⟩

theorem noNewObjects_applyDb (ho : ctx.Ordered) {op : DbOp}
    (hop : ∀ mem fileinfo parent storageId, op ≠ .allocEntry mem fileinfo parent storageId) :
    NoNewObjects ctx (ctx.applyDb op) := by
  intro p hp hne
  rcases ctx.applyDb_cases op with heq | heq
  · rw [heq] at hp
    exact ⟨hp, by rw [MtpCtx.entry, heq]; rfl⟩
  · rw [MtpCtx.entry, heq] at hne ⊢
    rw [heq] at hp
    have hf := DbOp.frozen_step ho.slots op
    rcases DbOp.listed_step ho.slots op hp.1 with hmem | ⟨-, hcreated⟩
    · refine ⟨⟨hmem, ?_⟩, hf.identity p hmem⟩
      by_contra hdel
      rw [Bool.not_eq_false] at hdel
      exact Bool.false_ne_true (hp.2.symm.trans (hf.deleted p hmem hdel))
    · cases op with
      | allocEntry mem fileinfo parent storageId => exact absurd rfl (hop _ _ _ _)
      | allocRootEntry mem storageId =>
          rw [← Option.some.inj hcreated] at hne
          exact absurd rfl hne
      | _ => simp [DbOp.created] at hcreated

theorem NoNewObjects.trans {ctx'' : MtpCtx} (h : NoNewObjects ctx ctx')
    (h' : NoNewObjects ctx' ctx'') : NoNewObjects ctx ctx'' := by
  intro p hp hne
  obtain ⟨hp', heq'⟩ := h' p hp hne
  have hhandle : (ctx''.entry p).handle = (ctx'.entry p).handle := congrArg (·.1) heq'
  obtain ⟨hp'', heq⟩ := h p hp' (hhandle ▸ hne)
  exact ⟨hp'', heq'.trans heq⟩

theorem noNewObjects_step {m : Management} (hm : ¬ m.session) (ho : w.ctx.Ordered) {c : Cmd}
    (hc : c.Manages m) : NoNewObjects w.ctx (World.handle os c w).2.ctx := by
  cases c with
  | db op =>
      refine noNewObjects_applyDb ho ?_
      rintro mem fileinfo parent storageId rfl
      exact hc
  | flagDeleted site p => exact noNewObjects_applyDb ho fun _ _ _ _ h => nomatch h
  | initFsDb => exact absurd hc hm
  | dropFsDb => exact absurd hc hm
  | _ => exact NoNewObjects.refl _

theorem kept_message (ho : w.ctx.Ordered) {text : CString}
    (htext : ¬ ADDSTORAGE_MESSAGE.isPrefixOf text = true) :
    (World.step os w (.message text)).ctx.HasIds (keptManagement w.ctx) ∧
      NoNewObjects w.ctx (World.step os w (.message text)).ctx := by
  have hp : Managed (keptManagement w.ctx) (msgqueueThread text) :=
    managed_msgqueueThread text fun hadd => absurd hadd htext
  have hv : Valid (World.handle os) (fun _ _ => True)
      (fun w' => w'.ctx.HasIds (keptManagement w.ctx) ∧ w'.ctx.Ordered ∧
        NoNewObjects w.ctx w'.ctx) (msgqueueThread text)
      fun _ w' => True ∧ w'.ctx.HasIds (keptManagement w.ctx) ∧ w'.ctx.Ordered ∧
        NoNewObjects w.ctx w'.ctx := by
    refine valid_of_runs hp ?_
    rintro w' c ⟨hids, ho', hn⟩ hc
    refine ⟨trivial, ?_, hasIds_step hids hc, ordered_step ho' hc,
      hn.trans (noNewObjects_step not_false ho' hc)⟩
    cases c with
    | getCtx => exact hids
    | _ => trivial
  have hstart : w.ctx.HasIds (keptManagement w.ctx) := fun i hi => ⟨hi, rfl⟩
  obtain ⟨-, -, hids, -, hn⟩ := hv w ⟨hstart, ho, NoNewObjects.refl _⟩
  exact ⟨hids, hn⟩

end Umtp
