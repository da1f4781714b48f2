import Umtp.Config
import Umtp.Confinement

namespace Umtp

open Lib Lib.Prog Handles Text

-- The storages of the configuration are those of the running daemon

-- What the system of a world gives for a storage.
def realpathOf {σ : Type} (os : Os σ) (w : World σ) : Realpath := fun path _ =>
  match os.query (.realpath path) w.os, (os.act .malloc w.os).1 with
  | .ok rootPath, true => some rootPath
  | _, _ => none

theorem exec_mtpAddStorage {σ : Type} (os : Os σ) (w : World σ) (config : Config)
    (hsame : w.ctx.storages = config.storages) (path description : CString) (uid gid : Int)
    (flags : BitVec 32) :
    (exec (World.handle os) (mtpAddStorage path description uid gid flags) w).2.ctx.storages =
      (config.mtpAddStorage (realpathOf os w) path description uid gid flags).storages := by
  have hid : w.ctx.mtpGetStorageIdByName description =
      config.mtpGetStorageIdByName description :=
    congrArg (fun storages => Config.mtpGetStorageIdByName { config with storages } description)
      hsame
  rw [mtpAddStorage, exec_getCtx_bind, Config.mtpAddStorage, hid]
  by_cases hname : config.mtpGetStorageIdByName description = NO_HANDLE
  · rw [if_pos hname, if_pos hname, hsame]
    cases MtpCtx.slots.find? fun i => (config.storages i).rootPath.isNone with
    | none => exact hsame
    | some i =>
        dsimp only
        rw [exec_query_bind, exec_act_bind, realpathOf]
        cases os.query (.realpath path) w.os with
        | error e => exact congrArg (Function.update · i freeSlot) hsame
        | ok rootPath =>
            cases (os.act .malloc w.os).1 with
            | false => exact congrArg (Function.update · i freeSlot) hsame
            | true => exact congrArg (Function.update · i _) hsame
  · rw [if_neg hname, if_neg hname]
    exact hsame

-- A line adds the storage that the message with the same parameters adds.
theorem exec_mtpAddStorageFromLine {σ : Type} (os : Os σ) (w : World σ) (config : Config)
    (hsame : w.ctx.storages = config.storages) (line : CString) (idx : Nat) :
    (exec (World.handle os) (mtpAddStorageFromLine line idx) w).2.ctx.storages =
      (config.mtpAddStorageFromLine (realpathOf os w) line idx).storages := by
  rw [mtpAddStorageFromLine, Config.mtpAddStorageFromLine]
  cases getParam line (idx + 1) with
  | none => exact hsame
  | some storagename =>
      cases getParam line idx with
      | none => exact hsame
      | some storagepath => exact exec_mtpAddStorage os w config hsame _ _ _ _ _

-- The scanner before the end of a line

-- What can end a line: its first character does, and whatever follows is not read.
def EndsLine (tail : CString) : Prop := ∃ c rest, tail = c :: rest ∧ isEndLine c = true

-- The body of a line.
def IsBody (body : CString) : Prop := ∀ c ∈ body, isEndLine c = false

variable {body tail : CString}

theorem getNextWord_append (htail : EndsLine tail) (body : CString) :
    getNextWord (body ++ tail) = getNextWord body ++ tail := by
  obtain ⟨c, rest, rfl, hc⟩ := htail
  have hspace : ¬(c == SPACE) = true := by
    rw [beq_iff_eq]
    rintro rfl
    exact absurd hc (by decide)
  have hstop : (c :: rest).dropWhile (· == SPACE) = c :: rest := List.dropWhile_cons_of_neg hspace
  rw [getNextWord, List.dropWhile_append, hstop, getNextWord]
  split
  · rename_i hempty
    rw [List.isEmpty_iff.mp hempty, List.nil_append]
  · rfl

theorem copyParam_append (htail : EndsLine tail) (insideQuote : Bool) (room : Nat)
    (body : CString) :
    copyParam insideQuote room (body ++ tail) =
      ((copyParam insideQuote room body).1, (copyParam insideQuote room body).2 ++ tail) := by
  induction body generalizing insideQuote room with
  | nil =>
      obtain ⟨c, rest, rfl, hc⟩ := htail
      change copyParam insideQuote room (c :: rest) = ([], c :: rest)
      rw [copyParam, hc, Bool.true_or, Bool.true_or, if_pos rfl]
  | cons c body ih =>
      rw [List.cons_append, copyParam, copyParam]
      split
      · rfl
      · split
        · exact ih _ _
        · rw [ih]

theorem copyParam_suffix (insideQuote : Bool) (room : Nat) (body : CString) :
    (copyParam insideQuote room body).2 <:+ body := by
  induction body generalizing insideQuote room with
  | nil => exact List.suffix_refl _
  | cons c body ih =>
      rw [copyParam]
      split
      · exact List.suffix_refl _
      · split
        · exact (ih _ _).trans (List.suffix_cons _ _)
        · exact (ih _ _).trans (List.suffix_cons _ _)

theorem IsBody.of_suffix (hbody : IsBody body) {rest : CString} (h : rest <:+ body) :
    IsBody rest := fun c hc => hbody c (h.subset hc)

-- Behind the last parameter the end of the line is another one, again and again,
-- but not a comment.
theorem skipParams_tail (htail : EndsLine tail) (hhash : tail.head? ≠ some HASH) (n : Nat) :
    skipParams n tail = some tail := by
  have hword := getNextWord_append htail []
  have hcopy := copyParam_append htail false (MAX_CFG_STRING_SIZE - 1) []
  rw [List.nil_append] at hword hcopy
  obtain ⟨c, rest, rfl, hc⟩ := htail
  have hne : (c == HASH) = false := beq_eq_false_iff_ne.mpr fun h => hhash (by rw [h]; rfl)
  induction n with
  | zero => rfl
  | succ n ih =>
      rw [skipParams, hcopy]
      dsimp only
      rw [copyParam, List.nil_append, hword, getNextWord, List.dropWhile_nil, List.nil_append,
        List.head?_cons, Option.all_some, hne, if_neg Bool.false_ne_true]
      exact ih

theorem skipParams_append (htail : EndsLine tail) (n : Nat) (hbody : IsBody body) :
    skipParams n (body ++ tail) =
      match skipParams n body with
      | some rest => some (rest ++ tail)
      | none => if tail.head? = some HASH then none else some tail := by
  induction n generalizing body with
  | zero => rfl
  | succ n ih =>
      have hsuffix : getNextWord (copyParam false (MAX_CFG_STRING_SIZE - 1) body).2 <:+ body :=
        (List.dropWhile_suffix _).trans (copyParam_suffix _ _ _)
      have hrest := hbody.of_suffix hsuffix
      rw [skipParams, skipParams, copyParam_append htail]
      dsimp only
      rw [getNextWord_append htail]
      generalize getNextWord (copyParam false (MAX_CFG_STRING_SIZE - 1) body).2 = next at hrest ⊢
      cases next with
      | nil =>
          rw [List.nil_append, List.head?_nil, Option.all_none, if_pos rfl]
          by_cases hhash : tail.head? = some HASH
          · rw [hhash, Option.all_some, if_pos (by decide)]
            rfl
          · rw [skipParams_tail htail hhash]
            obtain ⟨c, rest, rfl, hc⟩ := htail
            have hne : (c == HASH) = false :=
              beq_eq_false_iff_ne.mpr fun h => hhash (by rw [h]; rfl)
            rw [List.head?_cons, Option.all_some, hne, if_neg Bool.false_ne_true]
            exact (if_neg hhash).symm
      | cons c next =>
          have hne : (c == HASH) = false := by
            rw [beq_eq_false_iff_ne]
            rintro rfl
            exact absurd (hrest HASH List.mem_cons_self) (by decide)
          rw [List.cons_append, List.head?_cons, List.head?_cons, Option.all_some, hne,
            if_neg Bool.false_ne_true, if_neg Bool.false_ne_true, ← List.cons_append]
          exact ih hrest

-- A parameter that is missing is found empty at the end of a line, but not at a
-- comment.
theorem getParam_append (htail : EndsLine tail) (hbody : IsBody body) (k : Nat) :
    getParam (body ++ tail) k =
      match getParam body k with
      | some param => some param
      | none => if tail.head? = some HASH then none else some [] := by
  have hrest : IsBody (getNextWord body) := hbody.of_suffix (List.dropWhile_suffix _)
  rw [getParam, getParam, getNextWord_append htail, skipParams_append htail k hrest]
  cases skipParams k (getNextWord body) with
  | some found =>
      dsimp only [Option.map_some]
      rw [copyParam_append htail]
  | none =>
      dsimp only [Option.map_none]
      split
      · rfl
      · have hnone := copyParam_append htail false (MAX_CFG_STRING_SIZE - 1) []
        rw [List.nil_append] at hnone
        rw [Option.map_some, hnone]
        rfl

theorem extractCmd_append (htail : EndsLine tail) (body : CString) :
    extractCmd (body ++ tail) = extractCmd body := by
  have hstops : ∀ word : CString,
      (word ++ tail).takeWhile (fun c => !isEndLine c && !isSpace c) =
        word.takeWhile fun c => !isEndLine c && !isSpace c := by
    obtain ⟨c, rest, rfl, hc⟩ := htail
    intro word
    induction word with
    | nil =>
        refine List.takeWhile_cons_of_neg ?_
        rw [hc]
        exact Bool.false_ne_true
    | cons d word ih =>
        rw [List.cons_append, List.takeWhile_cons, List.takeWhile_cons, ih]
  rw [extractCmd, getNextWord_append htail, extractCmd, hstops]

-- Behind a parameter that is missing there is none.
theorem skipParams_succ_none {n : Nat} {line : CString} (h : skipParams n line = none) :
    skipParams (n + 1) line = none := by
  induction n generalizing line with
  | zero => cases h
  | succ n ih =>
      rw [skipParams] at h ⊢
      split at h
      · rename_i hend
        rw [if_pos hend]
      · rename_i hgoes
        rw [if_neg hgoes]
        exact ih h

theorem getParam_succ_none {line : CString} {k : Nat} (h : getParam line k = none) :
    getParam line (k + 1) = none := by
  rw [getParam, Option.map_eq_none_iff] at h ⊢
  exact skipParams_succ_none h

-- The effect of a line with a parameter missing

namespace Keyword

variable (kw : Keyword) (realpath : Realpath)

-- A storage needs a path and a name, the others one parameter.
def Missing (body : CString) : Prop :=
  getParam body (if kw.func = .getStorageParams then 2 else 1) = none

-- The empty string is taken for what is missing.
def setEmpty (body : CString) (config : Config) : Config :=
  if kw.func = .getStorageParams then
    config.mtpAddStorage realpath ((getParam body 1).getD []) [] (-1) (-1) (storageFlags [])
  else
    setParam kw.func kw.cmd [] config

variable {kw realpath} {config : Config}

theorem callFunc_missing (h : kw.Missing body) :
    callFunc realpath kw.func kw.cmd body config = config := by
  rw [Missing] at h
  rw [callFunc]
  by_cases hstorage : kw.func = .getStorageParams
  · rw [if_pos hstorage] at h ⊢
    rw [Config.mtpAddStorageFromLine, h]
  · rw [if_neg hstorage] at h ⊢
    rw [h]

-- What callFunc does depends on the parameters alone.
theorem callFunc_comment (hbody : IsBody body) (htail : EndsLine tail)
    (hhash : tail.head? = some HASH) :
    callFunc realpath kw.func kw.cmd (body ++ tail) config =
      callFunc realpath kw.func kw.cmd body config := by
  have hget : ∀ k, getParam (body ++ tail) k = getParam body k := by
    intro k
    rw [getParam_append htail hbody, if_pos hhash]
    cases getParam body k <;> rfl
  simp only [callFunc, Config.mtpAddStorageFromLine, hget]

theorem callFunc_present (hbody : IsBody body) (htail : EndsLine tail) (h : ¬kw.Missing body) :
    callFunc realpath kw.func kw.cmd (body ++ tail) config =
      callFunc realpath kw.func kw.cmd body config := by
  have hget : ∀ {k param}, getParam body k = some param →
      getParam (body ++ tail) k = some param := by
    intro k param hparam
    rw [getParam_append htail hbody, hparam]
  have hdefault : ∀ k, (getParam (body ++ tail) k).getD [] = (getParam body k).getD [] := by
    intro k
    rw [getParam_append htail hbody]
    cases getParam body k with
    | some param => rfl
    | none => dsimp only; split <;> rfl
  rw [Missing] at h
  rw [callFunc, callFunc]
  by_cases hstorage : kw.func = .getStorageParams
  · rw [if_pos hstorage] at h ⊢
    rw [if_pos hstorage]
    obtain ⟨storagename, hname⟩ := Option.ne_none_iff_exists'.mp h
    obtain ⟨storagepath, hpath⟩ := Option.ne_none_iff_exists'.mp
      fun hnone => h (@getParam_succ_none _ 1 hnone)
    rw [Config.mtpAddStorageFromLine, Config.mtpAddStorageFromLine, hget hname, hget hpath, hname,
      hpath]
    dsimp only
    rw [hdefault]
  · rw [if_neg hstorage] at h ⊢
    rw [if_neg hstorage]
    obtain ⟨param, hparam⟩ := Option.ne_none_iff_exists'.mp h
    rw [hget hparam, hparam]

theorem callFunc_end (hbody : IsBody body) (htail : EndsLine tail) (hhash : tail.head? ≠ some HASH)
    (h : kw.Missing body) :
    callFunc realpath kw.func kw.cmd (body ++ tail) config = kw.setEmpty realpath body config := by
  have hget : ∀ k, getParam (body ++ tail) k = some ((getParam body k).getD []) := by
    intro k
    rw [getParam_append htail hbody, if_neg hhash]
    cases getParam body k <;> rfl
  rw [Missing] at h
  rw [callFunc, setEmpty]
  by_cases hstorage : kw.func = .getStorageParams
  · rw [if_pos hstorage] at h ⊢
    have hoptions : getParam body 3 = none := getParam_succ_none h
    rw [if_pos hstorage, Config.mtpAddStorageFromLine, hget, hget, hget, h, hoptions]
    rfl
  · rw [if_neg hstorage] at h ⊢
    rw [if_neg hstorage, hget, h]
    rfl

end Keyword

-- A line has the same effect however it ends, and none when a parameter that its
-- keyword needs is missing.
def EndsAlike (realpath : Realpath) (body comment : CString) (config : Config) : Prop :=
  executeLine realpath (body ++ [LF]) config = executeLine realpath body config ∧
    executeLine realpath (body ++ [CR, LF]) config = executeLine realpath body config ∧
    executeLine realpath (body ++ HASH :: comment) config = executeLine realpath body config ∧
    ∀ kw, keywordOf (extractCmd body) = some kw → kw.Missing body →
      executeLine realpath body config = config

-- This is so if and only if no parameter is missing, or the empty string in its
-- place changes nothing.
theorem endsAlike_iff (realpath : Realpath) (body comment : CString) (config : Config)
    (hbody : IsBody body) :
    EndsAlike realpath body comment config ↔
      ∀ kw, keywordOf (extractCmd body) = some kw → kw.Missing body →
        kw.setEmpty realpath body config = config := by
  have hlf : EndsLine [LF] := ⟨LF, [], rfl, rfl⟩
  have hcr : EndsLine [CR, LF] := ⟨CR, [LF], rfl, rfl⟩
  have hcomment : EndsLine (HASH :: comment) := ⟨HASH, comment, rfl, rfl⟩
  simp only [EndsAlike, executeLine, extractCmd_append hlf, extractCmd_append hcr,
    extractCmd_append hcomment]
  cases hkw : keywordOf (extractCmd body) with
  | none => simp
  | some kw =>
      dsimp only
      by_cases hmissing : kw.Missing body
      · have hnothing := @Keyword.callFunc_missing body kw realpath config hmissing
        rw [Keyword.callFunc_end hbody hlf (by decide) hmissing,
          Keyword.callFunc_end hbody hcr (by decide) hmissing,
          Keyword.callFunc_comment hbody hcomment rfl, hnothing]
        constructor
        · rintro ⟨hempty, -⟩ kw' hkw' -
          cases hkw'
          exact hempty
        · intro h
          have hempty := h kw rfl hmissing
          exact ⟨hempty, hempty, rfl, fun kw' hkw' _ => by cases hkw'; rfl⟩
      · rw [Keyword.callFunc_present hbody hlf hmissing,
          Keyword.callFunc_present hbody hcr hmissing,
          Keyword.callFunc_present hbody hcomment hmissing]
        refine iff_of_true ⟨rfl, rfl, rfl, fun kw' hkw' h => ?_⟩ fun kw' hkw' h => ?_
        · cases hkw'
          exact absurd h hmissing
        · cases hkw'
          exact absurd h hmissing

-- A vendor id with its value.
theorem endsAlike_iff_sample :
    EndsAlike (fun _ _ => none) (ascii "usb_vendor_id 0x1D6C") (ascii " a comment")
      defaultConfig := by
  refine (endsAlike_iff _ _ _ _ (by unfold IsBody; decide +kernel)).mpr fun kw hkw hmissing => ?_
  have hsome : keywordOf (extractCmd (ascii "usb_vendor_id 0x1D6C")) =
      some ⟨ascii "usb_vendor_id", .getHexParam, .usbVendorId⟩ := by decide +kernel
  rw [hsome] at hkw
  cases hkw
  exact absurd hmissing (by unfold Keyword.Missing; decide +kernel)

-- A vendor id without a value. The line feed makes it zero.
theorem line_feed_is_value :
    IsBody (ascii "usb_vendor_id") ∧
      (executeLine (fun _ _ => none) (ascii "usb_vendor_id") defaultConfig).usbVendorId = 0x1D6B ∧
      (executeLine (fun _ _ => none) (ascii "usb_vendor_id" ++ [LF]) defaultConfig).usbVendorId =
        0 ∧
      ¬EndsAlike (fun _ _ => none) (ascii "usb_vendor_id") [] defaultConfig := by
  have hkept : (executeLine (fun _ _ => none) (ascii "usb_vendor_id") defaultConfig).usbVendorId =
      0x1D6B := by decide +kernel
  have hset : (executeLine (fun _ _ => none) (ascii "usb_vendor_id" ++ [LF])
      defaultConfig).usbVendorId = 0 := by decide +kernel
  refine ⟨by unfold IsBody; decide +kernel, hkept, hset, fun h => ?_⟩
  rw [h.1, hkept] at hset
  exact absurd hset (by decide)

end Umtp
