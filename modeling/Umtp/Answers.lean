import Umtp.Daemon

namespace Umtp

open Lib Lib.Prog Handles

-- Whatever the system answers, the program ends with a value that meets Q.
def Returns {α : Type} (Q : α → Prop) (prog : M α) : Prop :=
  Runs (fun _ _ => True) (fun _ => True) Q prog

section Rules

variable {α β σ : Type} {Q : α → Prop} {Q' : β → Prop} {prog : M α}

theorem Returns.value (h : Returns Q prog) (os : Os σ) (w : World σ) :
    Q (exec (World.handle os) prog w).1 :=
  runs_value h _ w

theorem returns_pure {value : α} (h : Q value) : Returns Q (pure value) := h

theorem returns_bind {f : α → M β} (hp : Returns Q prog)
    (hf : ∀ value, Q value → Returns Q' (f value)) : Returns Q' (prog >>= f) :=
  runs_bind hp hf

-- What the first part ends with plays no part.
theorem returns_after (prog : M α) {f : α → M β} (hf : ∀ value, Returns Q' (f value)) :
    Returns Q' (prog >>= f) := by
  induction prog with
  | ret value => exact hf value
  | call command next ih => exact ⟨trivial, fun answer _ => ih answer⟩

end Rules

-- The codes of the responses

variable {σ : Type} {os : Os σ} {w : World σ} {Q : Nat → Prop} {hdr : Buffer} {size : Nat}

def Answers (os : Os σ) (Q : Nat → Prop) (op : M Response) : Prop :=
  ∀ w, Q (exec (World.handle os) op w).1.1

theorem Returns.answers {op : M Response} (h : Returns (fun response => Q response.1) op) :
    Answers os Q op :=
  h.value os

theorem answers_inSession {op : M Response} (hno : Q MTP_RESPONSE_SESSION_NOT_OPEN)
    (hop : Answers os Q op) : Answers os Q (inSession op) := by
  intro w
  rw [inSession, exec_getCtx_bind]
  split
  · exact hop w
  · exact hno

theorem answers_underMutex {op : M Response} (hno : Q MTP_RESPONSE_GENERAL_ERROR)
    (hop : Answers os Q op) : Answers os Q (underMutex op) := by
  intro w
  rw [underMutex, exec_act_bind]
  split
  · rw [bind_eq, exec_bind]
    exact hop _
  · exact hno

theorem answers_aboutEntry {op : EntryPtr → M Response} (hsession : Q MTP_RESPONSE_SESSION_NOT_OPEN)
    (hmutex : Q MTP_RESPONSE_GENERAL_ERROR) (hunknown : Q MTP_RESPONSE_INVALID_OBJECT_HANDLE)
    (hop : ∀ p, Answers os Q (op p)) : Answers os Q (aboutEntry hdr op) := by
  refine answers_inSession hsession (answers_underMutex hmutex fun w => ?_)
  rw [exec_getCtx_bind]
  split
  · exact hop _ w
  · exact hunknown

-- The codes of the operations

theorem returns_sendDataset {emptyResponse : Option Nat} (build : Buffer → Int → M Poked) :
    Returns (fun response => response.1 = MTP_RESPONSE_OK ∨
      response.1 = MTP_RESPONSE_GENERAL_ERROR ∨ emptyResponse = some response.1)
        (sendDataset hdr emptyResponse build) := by
  refine returns_after _ fun started => ?_
  split
  · refine returns_after _ fun ctx => returns_after _ fun out => returns_after _ fun ctx =>
      returns_after _ fun _ => ?_
    split
    · exact returns_pure (Or.inr (Or.inl rfl))
    · split
      · split
        · exact returns_after _ fun _ => returns_pure (Or.inl rfl)
        · exact returns_pure (Or.inr (Or.inr rfl))
      · exact returns_after _ fun _ => returns_pure (Or.inl rfl)
  · exact returns_pure (Or.inr (Or.inl rfl))

theorem answers_sendDataset {emptyResponse : Option Nat} (hok : Q MTP_RESPONSE_OK)
    (hno : Q MTP_RESPONSE_GENERAL_ERROR) (hempty : ∀ code, emptyResponse = some code → Q code)
    (build : Buffer → Int → M Poked) : Answers os Q (sendDataset hdr emptyResponse build) := by
  intro w
  rcases (returns_sendDataset build).value os w with h | h | h
  · rwa [h]
  · rwa [h]
  · exact hempty _ h

theorem returns_allocRootEntries (slots : List (Fin MAX_STORAGE_NB)) :
    Returns (fun response => response.1 = MTP_RESPONSE_OK ∨
      response.1 = MTP_RESPONSE_GENERAL_ERROR) (allocRootEntries slots) := by
  induction slots with
  | nil => exact returns_pure (Or.inl rfl)
  | cons i rest ih =>
      refine returns_after _ fun ctx => ?_
      split
      · refine returns_after _ fun locked => ?_
        split
        · exact returns_after _ fun mem => returns_after _ fun _ => returns_after _ fun _ => ih
        · exact returns_pure (Or.inr rfl)
      · exact returns_pure (Or.inl rfl)

-- A session is refused when its identifier is 0, and has other codes otherwise.
theorem code_openSession (os : Os σ) (hdr : Buffer) (w : World σ) :
    (param hdr 0 = 0 →
      (exec (World.handle os) (mtpOpOpenSession hdr) w).1.1 = MTP_RESPONSE_INVALID_PARAMETER) ∧
      (param hdr 0 ≠ 0 → (exec (World.handle os) (mtpOpOpenSession hdr) w).1.1 ∈
        [MTP_RESPONSE_SESSION_ALREADY_OPEN, MTP_RESPONSE_OK, MTP_RESPONSE_GENERAL_ERROR]) := by
  rw [mtpOpOpenSession, exec_getCtx_bind]
  refine ⟨fun hzero => ?_, fun hzero => ?_⟩
  · rw [if_pos hzero]
    rfl
  · rw [if_neg hzero]
    refine Returns.value (Q := fun response : Response => response.1 ∈
      [MTP_RESPONSE_SESSION_ALREADY_OPEN, MTP_RESPONSE_OK, MTP_RESPONSE_GENERAL_ERROR]) ?_ os w
    split
    · exact returns_pure List.mem_cons_self
    · refine returns_after _ fun _ => returns_after _ fun memory => ?_
      split
      · refine returns_after _ fun _ => runs_weaken (returns_allocRootEntries _) (fun _ hs => hs)
          (fun _ _ hr => hr) fun response hcode => ?_
        rcases hcode with hcode | hcode
        all_goals
          rw [hcode]
          decide
      · exact returns_pure (by decide)

-- The access to an object is refused with a code of its own.
structure TellsAccess (access : Option Nat) (code : Nat) : Prop where
  refused : ∀ refusal, access = some refusal → code = refusal
  granted : access = none → code = MTP_RESPONSE_OK ∨ code = MTP_RESPONSE_OBJECT_WRITE_PROTECTED

theorem tellsAccess_getD (access : Option Nat) :
    TellsAccess access (access.getD MTP_RESPONSE_OK) := by
  cases access with
  | some code => exact ⟨fun refusal hrefusal => Option.some.inj hrefusal, nofun⟩
  | none => exact ⟨nofun, fun _ => Or.inl rfl⟩

theorem access_deleteObject (w : World σ) :
    TellsAccess (w.ctx.checkHandleAccess none (param hdr 0) true)
      (exec (World.handle os) (deleteObject hdr) w).1.1 := by
  rw [deleteObject, exec_getCtx_bind]
  dsimp only
  cases hcheck : w.ctx.checkHandleAccess none (param hdr 0) true with
  | some code => exact ⟨fun refusal hrefusal => Option.some.inj hrefusal, nofun⟩
  | none =>
      refine ⟨nofun, fun _ => ?_⟩
      cases hp : w.ctx.getEntryByHandle (param hdr 0) with
      | some p =>
          dsimp only
          refine Returns.value (Q := fun response : Response => response.1 = MTP_RESPONSE_OK ∨
            response.1 = MTP_RESPONSE_OBJECT_WRITE_PROTECTED) ?_ os w
          have hends : ∀ code, code = MTP_RESPONSE_OK ∨ code = MTP_RESPONSE_OBJECT_WRITE_PROTECTED →
              Returns (fun response : Response => response.1 = MTP_RESPONSE_OK ∨
                response.1 = MTP_RESPONSE_OBJECT_WRITE_PROTECTED) (do
                  restoreGiduid
                  return (code, [])) := fun code hcode => returns_after _ fun _ => hcode
          refine returns_after _ fun set => ?_
          split
          · refine returns_after _ fun deleted => hends _ ?_
            cases deleted with
            | true => exact Or.inl rfl
            | false => exact Or.inr rfl
          · exact hends _ (Or.inr rfl)
      | none =>
          rw [MtpCtx.checkHandleAccess, hp] at hcheck
          cases hcheck

theorem access_beginEdit (w : World σ) :
    TellsAccess (w.ctx.checkHandleAccess none (param hdr 0) true)
      (exec (World.handle os) (do
        let ctx ← M.getCtx
        return ((ctx.checkHandleAccess none (param hdr 0) true).getD MTP_RESPONSE_OK, []) :
          M Response) w).1.1 :=
  tellsAccess_getD _

-- Closing the file leaves the objects and the storages as they are.
theorem access_endEdit (w : World σ) :
    TellsAccess (w.ctx.checkHandleAccess none (param hdr 0) true)
      (exec (World.handle os) (do
        let ctx ← M.getCtx
        entryClose (ctx.getEntryByHandle (param hdr 0))
        return ((ctx.checkHandleAccess none (param hdr 0) true).getD MTP_RESPONSE_OK, []) :
          M Response) w).1.1 := by
  rw [exec_getCtx_bind, bind_eq, exec_bind]
  exact tellsAccess_getD _

-- The operations that are answered in every state

def IsResponseCode (code : Nat) : Prop := code < MTP_RESPONSE_NO_RESPONSE

instance : DecidablePred IsResponseCode := fun _ => inferInstanceAs (Decidable (_ < _))

def accessRefusals : List Nat :=
  [MTP_RESPONSE_INVALID_STORAGE_ID, MTP_RESPONSE_STORE_NOT_AVAILABLE,
    MTP_RESPONSE_STORE_READ_ONLY, MTP_RESPONSE_INVALID_OBJECT_HANDLE]

theorem MtpCtx.checkHandleAccess_codes {ctx : MtpCtx} {entry : Option EntryPtr} {handle : Nat}
    {wraccess : Bool} {code : Nat} (h : ctx.checkHandleAccess entry handle wraccess = some code) :
    code ∈ accessRefusals := by
  unfold checkHandleAccess at h
  split at h
  · dsimp only at h
    split at h
    · cases h
      decide
    split at h
    · cases h
      decide
    split at h
    · cases h
      decide
    · cases h
  · cases h
    decide

theorem isResponseCode_of_access {ctx : MtpCtx} {entry : Option EntryPtr} {handle : Nat}
    {wraccess : Bool} {code : Nat} (h : ctx.checkHandleAccess entry handle wraccess = some code) :
    IsResponseCode code := by
  have hcodes : ∀ code ∈ accessRefusals, IsResponseCode code := by decide
  exact hcodes code (MtpCtx.checkHandleAccess_codes h)

theorem TellsAccess.isResponseCode {ctx : MtpCtx} {handle code : Nat}
    (h : TellsAccess (ctx.checkHandleAccess none handle true) code) : IsResponseCode code := by
  cases hcheck : ctx.checkHandleAccess none handle true with
  | some refusal =>
      rw [h.refused refusal hcheck]
      exact isResponseCode_of_access hcheck
  | none =>
      rcases h.granted hcheck with rfl | rfl
      all_goals decide

-- The requests that may end without a response.
def unansweredCodes : List Nat :=
  [MTP_OPERATION_GET_OBJECT, MTP_OPERATION_GET_PARTIAL_OBJECT, MTP_OPERATION_GET_PARTIAL_OBJECT_64,
    MTP_OPERATION_SEND_OBJECT, MTP_OPERATION_SEND_PARTIAL_OBJECT,
    MTP_OPERATION_SET_OBJECT_PROP_VALUE]

theorem answers_mtpOpOpenSession : Answers os IsResponseCode (mtpOpOpenSession hdr) := by
  intro w
  obtain ⟨hzero, hother⟩ := code_openSession os hdr w
  by_cases hid : param hdr 0 = 0
  · rw [hzero hid]
    decide
  · have hcodes : ∀ code ∈ [MTP_RESPONSE_SESSION_ALREADY_OPEN, MTP_RESPONSE_OK,
        MTP_RESPONSE_GENERAL_ERROR], IsResponseCode code := by decide
    exact hcodes _ (hother hid)

theorem answers_dataset {emptyResponse : Option Nat}
    (hempty : ∀ code, emptyResponse = some code → IsResponseCode code)
    (build : Buffer → Int → M Poked) :
    Answers os IsResponseCode (sendDataset hdr emptyResponse build) :=
  answers_sendDataset (by decide) (by decide) hempty build

theorem answers_dataset_none (build : Buffer → Int → M Poked) :
    Answers os IsResponseCode (sendDataset hdr none build) := by
  refine answers_dataset (fun code hcode => ?_) build
  cases hcode

theorem answers_mtpOpCloseSession : Answers os IsResponseCode mtpOpCloseSession :=
  answers_inSession (by decide) (Returns.answers (returns_after _ fun _ => returns_after _ fun _ =>
    returns_pure (by decide)))

theorem answers_mtpOpGetStorageInfo : Answers os IsResponseCode (mtpOpGetStorageInfo hdr) := by
  refine answers_inSession (by decide) fun w => ?_
  rw [exec_getCtx_bind]
  split
  · exact answers_dataset_none _ w
  · exact (by decide : IsResponseCode MTP_RESPONSE_INVALID_STORAGE_ID)

theorem answers_mtpOpGetDevicePropDesc :
    Answers os IsResponseCode (mtpOpGetDevicePropDesc hdr) := by
  have hend : ∀ prog : M Response, Returns (fun response => IsResponseCode response.1) prog →
      Returns (fun response => IsResponseCode response.1) (do
        let response ← prog
        M.act_ .unlockInotifyMutex
        return response) := fun prog hprog =>
    returns_bind hprog fun response hresponse => returns_after _ fun _ => hresponse
  refine answers_inSession (by decide) (Returns.answers (returns_after _ fun locked => ?_))
  split
  · refine hend _ (runs_weaken (returns_sendDataset _) (fun _ hs => hs) (fun _ _ hr => hr) ?_)
    rintro response (hcode | hcode | hcode)
    · rw [hcode]
      decide
    · rw [hcode]
      decide
    · rw [← Option.some.inj hcode]
      decide
  · exact hend (pure _) (returns_pure (by decide))

theorem answers_mtpOpGetObjectPropList :
    Answers os IsResponseCode (mtpOpGetObjectPropList hdr) := by
  refine answers_inSession (by decide) (answers_underMutex (by decide) fun w => ?_)
  rw [exec_getCtx_bind]
  split
  · exact (by decide : IsResponseCode MTP_RESPONSE_PARAMETER_NOT_SUPPORTED)
  · split
    · exact answers_dataset_none _ w
    · exact (by decide : IsResponseCode MTP_RESPONSE_INVALID_OBJECT_HANDLE)

theorem answers_mtpOpGetObjectHandles : Answers os IsResponseCode (mtpOpGetObjectHandles hdr) := by
  have harray : ∀ nbOfHandles, Returns (fun response => IsResponseCode response.1)
      (sendHandleArray nbOfHandles) := by
    intro nbOfHandles
    refine returns_after _ fun ctx => returns_after _ fun _ => returns_after _ fun sent => ?_
    split
    · exact returns_after _ fun _ => returns_pure (by decide)
    · exact returns_pure (by decide)
  have hanswer : ∀ prog : M (Option Nat), Returns (fun response => IsResponseCode response.1)
      (prog >>= answerHandles) := by
    intro prog
    refine returns_after _ fun listed => ?_
    cases listed with
    | some nbOfHandles => exact harray nbOfHandles
    | none => exact returns_pure (by decide)
  refine answers_inSession (by decide) (answers_underMutex (by decide) (Returns.answers ?_))
  refine returns_after _ fun started => ?_
  split
  · refine returns_after _ fun ctx => ?_
    dsimp only
    split
    · split
      · split
        · refine returns_after _ fun path => ?_
          split
          · exact hanswer _
          · exact hanswer _
        · exact hanswer _
      · exact hanswer _
    · exact returns_pure (by decide)
  · exact returns_pure (by decide)

-- The parts of a new object
theorem returns_registerFolder (name : CString) (parentHandle storageId : Nat) (made : Bool) :
    Returns (fun out => IsResponseCode out.1)
      (registerFolder name parentHandle storageId made) := by
  have hok : IsResponseCode MTP_RESPONSE_OK := by decide
  rw [registerFolder]
  split
  · refine returns_after _ fun entry => ?_
    split
    · exact returns_after _ fun _ => returns_pure hok
    · exact returns_pure hok
  · exact returns_pure (by decide)

theorem returns_createFolder (folder : EntryPtr) (name : CString) (parentHandle storageId : Nat) :
    Returns (fun out => IsResponseCode out.1)
      (createFolder folder name parentHandle storageId) := by
  refine returns_after _ fun ctx => returns_after _ fun path => ?_
  split
  · refine returns_after _ fun set => ?_
    split
    · exact returns_after _ fun _ => returns_after _ fun _ => returns_registerFolder _ _ _ _
    · exact returns_after _ fun _ => returns_after _ fun _ => returns_registerFolder _ _ _ _
  · exact returns_pure (by decide)

theorem returns_expectObject (entry : Option EntryPtr) (objectsize : Nat) :
    Returns (fun out => IsResponseCode out.1) (expectObject entry objectsize) := by
  have hok : IsResponseCode MTP_RESPONSE_OK := by decide
  cases entry with
  | some p => exact returns_after _ fun _ => returns_after _ fun _ => returns_pure hok
  | none => exact returns_after _ fun _ => returns_pure hok

theorem returns_createFile (folder : EntryPtr) (name : CString)
    (objectsize parentHandle storageId : Nat) : Returns (fun out => IsResponseCode out.1)
      (createFile folder name objectsize parentHandle storageId) := by
  have hfile : ∀ file : Int, Returns (fun out => IsResponseCode out.1) (do
      restoreGiduid
      if file = -1 then
        return (MTP_RESPONSE_ACCESS_DENIED, NO_HANDLE)
      else
        M.act (.close file)
        let entry ← addEntry ⟨false, name, objectsize⟩ parentHandle storageId
        expectObject entry objectsize) := by
    intro file
    refine returns_after _ fun _ => ?_
    split
    · exact returns_pure (by decide)
    · exact returns_after _ fun _ => returns_after _ fun entry => returns_expectObject _ _
  refine returns_after _ fun path => ?_
  split
  · refine returns_after _ fun set => ?_
    split
    · exact returns_after _ hfile
    · exact returns_after _ hfile
  · exact returns_expectObject _ _

theorem returns_parse (datain : Buffer) (parentHandle storageId : Nat) :
    Returns (fun out => IsResponseCode out.1)
      (parseIncomingDataset datain parentHandle storageId) := by
  refine returns_after _ fun ctx => ?_
  dsimp only
  split
  · exact returns_pure (by decide)
  split
  · exact returns_pure (by decide)
  split
  · split
    · split
      · split
        · split
          · exact returns_createFolder _ _ _ _
          · exact returns_createFile _ _ _ _ _
        · exact returns_pure (by decide)
      · exact returns_pure (by decide)
    · exact returns_pure (by decide)
  · exact returns_pure (by decide)

theorem answers_mtpOpSendObjectInfo : Answers os IsResponseCode (mtpOpSendObjectInfo hdr) := by
  refine answers_inSession (by decide) (answers_underMutex (by decide) (Returns.answers ?_))
  have hanswer : Returns (fun response => IsResponseCode response.1) (answerDataset hdr) := by
    refine returns_after _ fun ctx => returns_bind (returns_parse _ _ _) fun out hout => ?_
    obtain ⟨code, newHandle⟩ := out
    dsimp only
    split
    · exact hout
    · exact hout
  refine returns_after _ fun ctx => returns_after _ fun read => ?_
  split
  · exact returns_after _ fun _ => hanswer
  · exact hanswer

theorem answers_mtpOpTruncateObject : Answers os IsResponseCode (mtpOpTruncateObject hdr) := by
  have herrno : ∀ errno, IsResponseCode (posixToMtpErrcode errno) := by
    intro errno
    cases errno <;> decide
  refine answers_aboutEntry (by decide) (by decide) (by decide) fun p => Returns.answers ?_
  refine returns_after _ fun ctx => ?_
  cases hcheck : ctx.checkHandleAccess (some p) (param hdr 0) true with
  | some code => exact returns_pure (isResponseCode_of_access hcheck)
  | none =>
      refine returns_after _ fun path => ?_
      split
      · refine returns_after _ fun result => ?_
        split
        · exact returns_pure (by decide)
        · exact returns_pure (herrno _)
      · exact returns_pure (by decide)

theorem isResponseCode_response (h : w.ctx.fsDb.isSome = false ∨ hdrCode hdr ∉ unansweredCodes) :
    IsResponseCode (exec (World.handle os) (performOperation hdr size) w).1.1 := by
  have hempty : ∀ {refusal : Nat}, IsResponseCode refusal → ∀ code, some refusal = some code →
      IsResponseCode code := fun hrefusal code hcode => Option.some.inj hcode ▸ hrefusal
  have hclosed : ∀ op : M Response, (hdrCode hdr ∉ unansweredCodes → Answers os IsResponseCode op) →
      IsResponseCode (exec (World.handle os) (inSession op) w).1.1 := by
    intro op hop
    have hno : IsResponseCode MTP_RESPONSE_SESSION_NOT_OPEN := by decide
    rcases h with hs | hcode
    · rw [inSession, exec_getCtx_bind, if_neg (by rw [hs]; decide)]
      exact hno
    · exact answers_inSession hno (hop hcode) w
  unfold performOperation
  split
  · rename_i op hop
    have hm := mem_of_lookup hop
    have hlast : ∀ {code : Nat}, hdrCode hdr = code → code ∈ unansweredCodes →
        hdrCode hdr ∉ unansweredCodes → ∀ op : M Response, Answers os IsResponseCode op :=
      fun hcode hm hno => absurd (hcode ▸ hm) hno
    simp only [operations, List.mem_cons, Prod.mk.injEq, List.not_mem_nil, or_false] at hm
    rcases hm with ⟨-, rfl⟩ | ⟨-, rfl⟩ | ⟨-, rfl⟩ | ⟨-, rfl⟩ | ⟨-, rfl⟩ | ⟨-, rfl⟩ | ⟨-, rfl⟩ |
      ⟨-, rfl⟩ | ⟨-, rfl⟩ | ⟨hcode, rfl⟩ | ⟨hcode, rfl⟩ | ⟨hcode, rfl⟩ | ⟨-, rfl⟩ | ⟨hcode, rfl⟩ |
      ⟨hcode, rfl⟩ | ⟨-, rfl⟩ | ⟨-, rfl⟩ | ⟨-, rfl⟩ | ⟨-, rfl⟩ | ⟨hcode, rfl⟩ | ⟨-, rfl⟩ |
      ⟨-, rfl⟩ | ⟨-, rfl⟩ | ⟨-, rfl⟩ | ⟨-, rfl⟩
    · exact answers_mtpOpOpenSession w
    · exact answers_mtpOpCloseSession w
    · exact answers_dataset_none _ w
    · exact hclosed _ fun _ => answers_dataset_none _
    · exact answers_mtpOpGetStorageInfo w
    · exact answers_mtpOpGetDevicePropDesc w
    · exact hclosed _ fun _ => answers_underMutex (by decide)
        (answers_dataset (hempty (by decide)) _)
    · exact answers_mtpOpGetObjectHandles w
    · exact answers_aboutEntry (by decide) (by decide) (by decide)
        (fun _ => answers_dataset_none _) w
    · exact hclosed _ fun hno => hlast hcode (by decide) hno _
    · exact hclosed _ fun hno => hlast hcode (by decide) hno _
    · exact hclosed _ fun hno => hlast hcode (by decide) hno _
    · exact answers_mtpOpSendObjectInfo w
    · exact hclosed _ fun hno => hlast hcode (by decide) hno _
    · exact hclosed _ fun hno => hlast hcode (by decide) hno _
    · exact hclosed _ fun _ => answers_underMutex (by decide) fun w =>
        (access_deleteObject w).isResponseCode
    · exact hclosed _ fun _ => answers_dataset_none _
    · exact hclosed _ fun _ => answers_underMutex (by decide)
        (answers_dataset (hempty (by decide)) _)
    · exact answers_aboutEntry (by decide) (by decide) (by decide)
        (fun _ => answers_dataset_none _) w
    · exact hclosed _ fun hno => hlast hcode (by decide) hno _
    · exact answers_mtpOpGetObjectPropList w
    · exact answers_aboutEntry (by decide) (by decide) (by decide)
        (fun _ => answers_dataset_none _) w
    · exact hclosed _ fun _ => answers_underMutex (by decide) fun w =>
        (access_beginEdit w).isResponseCode
    · exact hclosed _ fun _ => answers_underMutex (by decide) fun w =>
        (access_endEdit w).isResponseCode
    · exact answers_mtpOpTruncateObject w
  · exact (by decide : IsResponseCode MTP_RESPONSE_OPERATION_NOT_SUPPORTED)

end Umtp
