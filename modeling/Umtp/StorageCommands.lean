import Umtp.Daemon
import Umtp.MemOs
import Umtp.ConfigParams

namespace Umtp

open Lib Lib.Prog Handles Text

-- The messages that act on one storage.
inductive StorageCommand where
  | mount | unmount | rmstorage
deriving DecidableEq, Repr

namespace StorageCommand

def text : StorageCommand → CString
  | mount => MOUNT_MESSAGE
  | unmount => UNMOUNT_MESSAGE
  | rmstorage => RMSTORAGE_MESSAGE

-- The storage that the argument of the command designates.
def designated (ctx : MtpCtx) (a : CString) : StorageCommand → Option (Fin MAX_STORAGE_NB)
  | mount => ctx.mtpGetStorageIndexByName a
  | unmount => ctx.mtpGetStorageIndexByName a
  | rmstorage => (getParam a 0).bind ctx.mtpGetStorageIndexByName

-- What is done to it.
def onStorage (ctx : MtpCtx) (i : Fin MAX_STORAGE_NB) : StorageCommand → M Unit
  | mount => do
    if ← M.act .lockInotifyMutex then
      mountStore i true
      mtpPushEvent MTP_EVENT_STORE_ADDED [(ctx.storages i).storageId]
      M.act_ .unlockInotifyMutex
  | unmount => do
    if ← M.act .lockInotifyMutex then
      umountStore i true
      mtpPushEvent MTP_EVENT_STORE_REMOVED [(ctx.storages i).storageId]
      M.act_ .unlockInotifyMutex
  | rmstorage => M.cmd (.setStorage i freeSlot)

-- The message does so to the designated storage, or nothing.
theorem step_message {σ : Type} (os : Os σ) (w : World σ) (a : CString) (c : StorageCommand) :
    World.step os w (.message (c.text ++ a)) =
      match c.designated w.ctx a with
      | some i => (exec (World.handle os) (c.onStorage w.ctx i) w).2
      | none => w := by
  change (exec (World.handle os) (msgqueueThread (c.text ++ a)) w).2 = _
  cases c with
  | mount =>
      have hmessage : msgqueueThread (mount.text ++ a) = switchStore a (mountStore · true)
          MTP_EVENT_STORE_ADDED := rfl
      rw [hmessage, switchStore, exec_getCtx_bind, designated]
      cases w.ctx.mtpGetStorageIndexByName a with
      | none => rfl
      | some i => rfl
  | unmount =>
      have hmessage : msgqueueThread (unmount.text ++ a) = switchStore a (umountStore · true)
          MTP_EVENT_STORE_REMOVED := rfl
      rw [hmessage, switchStore, exec_getCtx_bind, designated]
      cases w.ctx.mtpGetStorageIndexByName a with
      | none => rfl
      | some i => rfl
  | rmstorage =>
      have hmessage : msgqueueThread (rmstorage.text ++ a) = mtpRemoveStorageFromLine a 0 := rfl
      rw [hmessage, mtpRemoveStorageFromLine, designated]
      cases getParam a 0 with
      | none => rfl
      | some storagename =>
          dsimp only
          rw [mtpRemoveStorage, exec_getCtx_bind, Option.bind_some]
          cases w.ctx.mtpGetStorageIndexByName storagename with
          | none => rfl
          | some i => rfl

end StorageCommand

variable {ctx : MtpCtx} {a name : CString}

-- All commands designate the same storage, or none.
def Agree (ctx : MtpCtx) (a : CString) : Prop :=
  ∀ c c' : StorageCommand, c.designated ctx a = c'.designated ctx a

def quoted (name : CString) : CString := QUOTE :: name ++ [QUOTE]

-- Between quotes every registered name designates its storage in all of them.
def QuotedForm (ctx : MtpCtx) : Prop :=
  ∀ name i, ctx.mtpGetStorageIndexByName name = some i →
    ∀ c : StorageCommand, c.designated ctx (quoted name) = some i

def MtpCtx.HasName (ctx : MtpCtx) (name : CString) : Prop :=
  ∃ i, (ctx.storages i).rootPath.isSome = true ∧ (ctx.storages i).description = name

-- A text that fits a parameter and has none of the characters the parser looks for.
structure IsPlain (a : CString) : Prop where
  short : a.length < MAX_CFG_STRING_SIZE
  plain : ∀ c ∈ a, c ≠ QUOTE ∧ isEndLine c = false
  bare : ∀ c ∈ a, isSpace c = false

-- What a parameter can hold.
theorem copyParam_plain (insideQuote : Bool) (room : Nat) (line : CString) :
    ∀ c ∈ (copyParam insideQuote room line).1, c ≠ QUOTE ∧ isEndLine c = false := by
  induction line generalizing insideQuote room with
  | nil => exact fun c hc => absurd hc List.not_mem_nil
  | cons c rest ih =>
      rw [copyParam]
      split
      · exact fun c hc => absurd hc List.not_mem_nil
      · rename_i hstop
        split
        · exact ih _ _
        · rename_i hquote
          intro d hd
          rcases List.mem_cons.mp hd with rfl | hd
          · refine ⟨by simpa using hquote, ?_⟩
            simp only [Bool.or_eq_true, not_or, Bool.not_eq_true] at hstop
            exact hstop.1.1
          · exact ih _ _ d hd

theorem copyParam_length (insideQuote : Bool) (room : Nat) (line : CString) :
    (copyParam insideQuote room line).1.length ≤ room := by
  induction line generalizing insideQuote room with
  | nil => exact Nat.zero_le _
  | cons c rest ih =>
      rw [copyParam]
      split
      · exact Nat.zero_le _
      · rename_i hstop
        split
        · exact ih _ _
        · have hroom : room ≠ 0 := by
            rintro rfl
            simp at hstop
          have hrest := ih insideQuote (room - 1)
          dsimp only
          rw [List.length_cons]
          omega

-- Without a quote in the line it has no space either.
theorem copyParam_bare {line : CString} (hline : QUOTE ∉ line) (room : Nat) :
    ∀ c ∈ (copyParam false room line).1, isSpace c = false := by
  induction line generalizing room with
  | nil => exact fun c hc => absurd hc List.not_mem_nil
  | cons c rest ih =>
      rw [copyParam]
      split
      · exact fun c hc => absurd hc List.not_mem_nil
      · rename_i hstop
        split
        · rename_i hquote
          exact absurd (beq_iff_eq.mp hquote ▸ List.mem_cons_self) hline
        · intro d hd
          rcases List.mem_cons.mp hd with rfl | hd
          · simp only [Bool.or_eq_true, not_or, Bool.not_eq_true, Bool.not_false,
              Bool.true_and] at hstop
            exact hstop.1.2
          · exact ih (fun h => hline (List.mem_cons_of_mem _ h)) _ d hd

-- The parser reads a text as itself if and only if the text is plain.
theorem getParam_self_iff (a : CString) : getParam a 0 = some a ↔ IsPlain a := by
  have hread : getParam a 0 =
      some (copyParam false (MAX_CFG_STRING_SIZE - 1) (getNextWord a)).1 := rfl
  rw [hread, Option.some_inj]
  constructor
  · intro hself
    have hplain := copyParam_plain false (MAX_CFG_STRING_SIZE - 1) (getNextWord a)
    have hlength := copyParam_length false (MAX_CFG_STRING_SIZE - 1) (getNextWord a)
    have hquote : QUOTE ∉ getNextWord a := by
      intro hmem
      have hmem' : QUOTE ∈ (copyParam false (MAX_CFG_STRING_SIZE - 1) (getNextWord a)).1 := by
        rw [hself]
        exact (List.dropWhile_suffix _).subset hmem
      exact (hplain QUOTE hmem').1 rfl
    have hbare := copyParam_bare hquote (MAX_CFG_STRING_SIZE - 1)
    rw [hself] at hplain hlength hbare
    have hroom : MAX_CFG_STRING_SIZE - 1 < MAX_CFG_STRING_SIZE := by decide
    exact ⟨by omega, hplain, hbare⟩
  · intro h
    have hword : getNextWord a = a := by
      cases a with
      | nil => rfl
      | cons c rest =>
          have hbare := h.bare c List.mem_cons_self
          refine List.dropWhile_cons_of_neg fun hspace => ?_
          rw [beq_iff_eq.mp hspace] at hbare
          exact absurd hbare (by decide)
    have htext := @copyParam_text false a h.plain (Or.inr h.bare) [] _
      (Nat.le_sub_one_of_lt h.short)
    rw [List.append_nil] at htext
    rw [hword, htext]
    exact List.append_nil a

theorem hasName_iff : ctx.HasName name ↔ ∃ i, ctx.mtpGetStorageIndexByName name = some i := by
  constructor
  · rintro ⟨i, hroot, hname⟩
    refine Option.isSome_iff_exists.mp (List.find?_isSome.mpr ⟨i, List.mem_finRange i, ?_⟩)
    rw [hroot, Bool.true_and]
    exact beq_iff_eq.mpr hname
  · rintro ⟨i, hi⟩
    have hfound := List.find?_some hi
    rw [Bool.and_eq_true, beq_iff_eq] at hfound
    exact ⟨i, hfound.1, hfound.2⟩

theorem description_of_index {i : Fin MAX_STORAGE_NB}
    (hi : ctx.mtpGetStorageIndexByName name = some i) : (ctx.storages i).description = name := by
  have hfound := List.find?_some hi
  rw [Bool.and_eq_true, beq_iff_eq] at hfound
  exact hfound.2

-- Two names designate the same storage if they are the same, or both none.
theorem index_eq_iff (ctx : MtpCtx) (name name' : CString) :
    ctx.mtpGetStorageIndexByName name = ctx.mtpGetStorageIndexByName name' ↔
      name = name' ∨ ¬ctx.HasName name ∧ ¬ctx.HasName name' := by
  rw [hasName_iff, hasName_iff]
  constructor
  · intro heq
    cases hi : ctx.mtpGetStorageIndexByName name with
    | none =>
        rw [hi] at heq
        rw [← heq]
        exact Or.inr ⟨by simp, by simp⟩
    | some i =>
        have hi' : ctx.mtpGetStorageIndexByName name' = some i := heq ▸ hi
        exact Or.inl ((description_of_index hi).symm.trans (description_of_index hi'))
  · rintro (rfl | ⟨hnone, hnone'⟩)
    · rfl
    · rw [← Option.ne_none_iff_exists', not_not] at hnone hnone'
      rw [hnone, hnone']

-- The quoted name of a storage is another name.
theorem index_quoted_ne {i : Fin MAX_STORAGE_NB}
    (hi : ctx.mtpGetStorageIndexByName name = some i) :
    ctx.mtpGetStorageIndexByName (quoted name) ≠ some i := by
  intro hquoted
  have hsame := (description_of_index hi).symm.trans (description_of_index hquoted)
  have hlength := congrArg List.length hsame
  rw [quoted, List.length_append, List.length_cons] at hlength
  omega

theorem agree_iff {parsed : CString} (hparsed : getParam a 0 = some parsed) :
    Agree ctx a ↔ ctx.mtpGetStorageIndexByName a = ctx.mtpGetStorageIndexByName parsed := by
  have hrm : StorageCommand.rmstorage.designated ctx a =
      ctx.mtpGetStorageIndexByName parsed := by
    rw [StorageCommand.designated, hparsed, Option.bind_some]
  constructor
  · intro h
    rw [← hrm]
    exact h .mount .rmstorage
  · intro heq
    have hall : ∀ c : StorageCommand, c.designated ctx a = ctx.mtpGetStorageIndexByName a := by
      intro c
      cases c with
      | mount => rfl
      | unmount => rfl
      | rmstorage => exact hrm.trans heq.symm
    exact fun c c' => (hall c).trans (hall c').symm

-- Whatever the argument is, the commands agree on it if and only if it is plain or
-- names no storage, neither as it is nor as it is parsed. The quoted form works in all
-- of them if and only if there is no storage.
theorem storage_commands_iff (ctx : MtpCtx) (a : CString) :
    (Agree ctx a ↔ IsPlain a ∨
      ¬ctx.HasName a ∧ ∀ name ∈ getParam a 0, ¬ctx.HasName name) ∧
    (QuotedForm ctx ↔ ∀ i, (ctx.storages i).rootPath = none) := by
  constructor
  · obtain ⟨parsed, hparsed⟩ : ∃ parsed, getParam a 0 = some parsed := ⟨_, rfl⟩
    have hplain : a = parsed ↔ IsPlain a := by
      rw [← getParam_self_iff, hparsed, Option.some_inj]
      exact eq_comm
    rw [agree_iff hparsed, index_eq_iff, hplain, hparsed]
    simp only [Option.mem_some_iff, forall_eq']
  · constructor
    · intro hform i
      by_contra hroot
      obtain ⟨j, hj⟩ := hasName_iff.mp ⟨i, Option.isSome_iff_ne_none.mpr hroot, rfl⟩
      exact index_quoted_ne hj (hform _ j hj .mount)
    · intro hnone name i hi
      obtain ⟨j, hroot, -⟩ := hasName_iff.mpr ⟨i, hi⟩
      rw [hnone j] at hroot
      exact absurd hroot Bool.false_ne_true

-- With a storage A, `rmstorage:"A"` designates it and `mount:"A"` none.
theorem quoted_mount_finds_none :
    StorageCommand.rmstorage.designated (startCtx (storagesOf [(A_ROOT, A_STORAGE, 0)]))
        (quoted A_STORAGE) = some ⟨0, by decide⟩ ∧
      StorageCommand.mount.designated (startCtx (storagesOf [(A_ROOT, A_STORAGE, 0)]))
        (quoted A_STORAGE) = none ∧
      ¬Agree (startCtx (storagesOf [(A_ROOT, A_STORAGE, 0)])) (quoted A_STORAGE) := by
  have hrm : StorageCommand.rmstorage.designated
      (startCtx (storagesOf [(A_ROOT, A_STORAGE, 0)])) (quoted A_STORAGE) =
        some ⟨0, by decide⟩ := by decide +kernel
  have hmount : StorageCommand.mount.designated
      (startCtx (storagesOf [(A_ROOT, A_STORAGE, 0)])) (quoted A_STORAGE) = none := by
    decide +kernel
  refine ⟨hrm, hmount, fun hagree => ?_⟩
  have hsame := hagree .mount .rmstorage
  rw [hrm, hmount] at hsame
  cases hsame

end Umtp
