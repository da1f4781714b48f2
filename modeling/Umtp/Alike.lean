import Umtp.MemOs
import Umtp.Effects.Roles

namespace Umtp

open Lib Lib.Prog Handles Text

variable {σ α β : Type} {os : Os σ} {w w' : World σ} {ctx : MtpCtx} {role : Role}

-- The states are the same up to the contents of the read buffers.
structure World.Like (w w' : World σ) : Prop where
  ctx : ∃ buffer buffer2, w'.ctx = w.ctx.withBuffers buffer buffer2
  os : w'.os = w.os

theorem World.Like.of_buffers (w : World σ) (buffer buffer2 : Buffer) :
    w.Like ⟨w.ctx.withBuffers buffer buffer2, w.os⟩ :=
  ⟨⟨buffer, buffer2, rfl⟩, rfl⟩

-- What the daemon asks of the system and of the host.
def Cmd.action : Cmd → Option Action
  | act a => some a
  | _ => none

def actions (os : Os σ) (prog : M α) (w : World σ) : List Action :=
  (trace (World.handle os) prog w).filterMap fun step => step.2.action

-- From states that are alike, the first of them in P, both programs do and
-- answer the same, and end in states that are alike.
def Alike (os : Os σ) (P : World σ → Prop) (prog prog' : M α) : Prop :=
  ∀ w w', P w → w.Like w' →
    (exec (World.handle os) prog' w').1 = (exec (World.handle os) prog w).1 ∧
      (exec (World.handle os) prog w).2.Like (exec (World.handle os) prog' w').2 ∧
      actions os prog' w' = actions os prog w

section Rules

variable {P Q : World σ → Prop}

theorem alike_ret (value : α) : Alike os P (.ret value) (.ret value) :=
  fun _ _ _ hl => ⟨rfl, hl, rfl⟩

theorem alike_of_pure {prog prog' : M α} (value : α) (h : prog = pure value)
    (h' : prog' = pure value) : Alike os P prog prog' := by
  rw [h, h']
  exact alike_ret value

theorem actions_bind (prog : M α) (f : α → M β) (w : World σ) :
    actions os (prog.bind f) w = actions os prog w ++
      actions os (f (exec (World.handle os) prog w).1) (exec (World.handle os) prog w).2 := by
  rw [actions, trace_bind, List.filterMap_append]
  rfl

theorem alike_bind {prog prog' : M α} {f f' : α → M β} (hp : Alike os P prog prog')
    (hq : ∀ w, P w → Q (exec (World.handle os) prog w).2)
    (hf : ∀ value, Alike os Q (f value) (f' value)) :
    Alike os P (prog.bind f) (prog'.bind f') := by
  intro w w' hw hl
  obtain ⟨hvalue, hlike, hacts⟩ := hp w w' hw hl
  obtain ⟨hvalue', hlike', hacts'⟩ := hf _ _ _ (hq w hw) hlike
  simp only [exec_bind, actions_bind, hvalue, hacts]
  exact ⟨hvalue', hlike', by rw [hacts']⟩

theorem alike_weaken {prog prog' : M α} (hp : Alike os P prog prog') (hq : ∀ w, Q w → P w) :
    Alike os Q prog prog' :=
  fun w w' hw hl => hp w w' (hq w hw) hl

theorem alike_getCtx {f f' : MtpCtx → M α} (hblind : Blind f')
    (hf : ∀ ctx, Alike os (fun w => P w ∧ w.ctx = ctx) (f ctx) (f' ctx)) :
    Alike os P (M.getCtx.bind f) (M.getCtx.bind f') := by
  intro w w' hw hl
  obtain ⟨buffer, buffer2, hctx⟩ := hl.ctx
  have heq : f' w'.ctx = f' w.ctx := by rw [hctx, hblind]
  have hrun := hf w.ctx w w' ⟨hw, rfl⟩ hl
  rw [← heq] at hrun
  exact hrun

-- A command that the read buffers have no part in.
theorem like_step {c : Cmd} (hc : c ≠ .getCtx) (hl : w.Like w') :
    (World.handle os c w').1 = (World.handle os c w).1 ∧
      (World.handle os c w).2.Like (World.handle os c w').2 := by
  obtain ⟨⟨buffer, buffer2, hctx⟩, hos⟩ := hl
  obtain ⟨wctx, t⟩ := w
  obtain ⟨wctx', t'⟩ := w'
  dsimp only at hctx hos
  subst hctx
  subst hos
  cases c with
  | getCtx => exact absurd rfl hc
  | setRdbuffer new => exact ⟨rfl, ⟨new, buffer2, rfl⟩, rfl⟩
  | setRdbuffer2 new => exact ⟨rfl, ⟨buffer, new, rfl⟩, rfl⟩
  | _ => exact ⟨rfl, ⟨buffer, buffer2, rfl⟩, rfl⟩

theorem alike_cmd {c : Cmd} (hc : c ≠ .getCtx) : Alike os P (M.cmd c) (M.cmd c) := by
  intro w w' _ hl
  obtain ⟨hvalue, hlike⟩ := @like_step _ os _ _ _ hc hl
  exact ⟨hvalue, hlike, rfl⟩

end Rules

-- The parts of a role that are no single commands run alike.
structure Role.RunsAlike (os : Os σ) (role : Role) : Prop where
  sees : ¬ role.sees
  command : ∀ c, role.commands c → c ≠ .getCtx
  add : role.adds → ∀ fileinfo parent storageId,
    Alike os (fun _ => True) (Umtp.addEntry fileinfo parent storageId)
      (Umtp.addEntry fileinfo parent storageId)
  openFile : role.opens → ∀ p flags,
    Alike os (fun _ => True) (Umtp.entryOpen p flags) (Umtp.entryOpen p flags)
  closeFile : role.closes → ∀ entry,
    Alike os (fun _ => True) (Umtp.entryClose entry) (Umtp.entryClose entry)
  makeFile : role.makes → ∀ storageId path,
    Alike os (fun _ => True) (Umtp.makeFile storageId path) (Umtp.makeFile storageId path)
  bracket : role.switches → ∀ {α : Type} storageId (fail : α) {body : M α},
    Made (role.inside storageId) body →
      Alike os (fun _ => True) (withStorageIds storageId fail body)
        (withStorageIds storageId fail body)
  restore : role.switches → Alike os (fun _ => True) restoreGiduid restoreGiduid

theorem Made.alike {prog : M α} (hr : role.RunsAlike os) (hm : Made role prog) :
    Alike os (fun _ => True) prog prog := by
  have hcmd : ∀ c : Cmd, c ≠ .getCtx → Alike os (fun _ => True) (M.cmd c) (M.cmd c) :=
    fun c hc => alike_cmd hc
  induction hm with
  | ret value => exact alike_ret value
  | bind first rest ihp ihf =>
      exact alike_bind (ihp hr) (fun _ _ => trivial) fun value => ihf value hr
  | getCtx blind rest ih =>
      exact alike_getCtx blind fun ctx => alike_weaken (ih ctx hr) fun _ _ => trivial
  | look h rest ih => exact absurd h hr.sees
  | ordinary c hc => exact hcmd c (by rintro rfl; cases hc)
  | command c hc => exact hcmd c (hr.command c hc)
  | send channel bytes =>
      refine alike_bind (Q := fun _ => True) (hcmd (.act .getCancelReq) (by simp))
        (fun _ _ => trivial)
        fun cancelReq => ?_
      split
      · exact alike_ret ()
      · exact hcmd (.act (.writeUsb channel bytes)) (by simp)
  | addEntry ha fileinfo parent storageId => exact hr.add ha fileinfo parent storageId
  | entryOpen ho p flags => exact hr.openFile ho p flags
  | entryClose hc entry => exact hr.closeFile hc entry
  | makeFile hm storageId path => exact hr.makeFile hm storageId path
  | bracket hs storageId fail inner _ => exact hr.bracket hs storageId fail inner
  | restore hs => exact hr.restore hs
  | receive h bytes =>
      intro w w' _ hl
      obtain ⟨⟨buffer, buffer2, hctx⟩, hos⟩ := hl
      refine ⟨rfl, ⟨⟨buffer, buffer2.write 0 bytes, ?_⟩, hos⟩, rfl⟩
      show ({ w'.ctx with rdbuffer2 := w'.ctx.rdbuffer2.write 0 bytes } : MtpCtx) = _
      rw [hctx]
      rfl

-- Single commands that do not look at the context.
def plainRole : Role where
  commands c := c ≠ .getCtx
  inner _ _ := False
  adds := False
  opens := False
  makes := False
  closes := False
  switches := False
  receives := False
  sees := False

-- Everything, without a look at the read buffers.
def blindRole : Role where
  commands c := c ≠ .getCtx
  inner _ c := c ≠ .getCtx
  adds := True
  opens := True
  makes := True
  closes := True
  switches := True
  receives := True
  sees := False

theorem alike_addEntry (fileinfo : FileFoundInfo) (parent storageId : Nat) :
    Alike os (fun _ => True) (addEntry fileinfo parent storageId)
      (addEntry fileinfo parent storageId) := by
  refine alike_getCtx (fun _ _ _ => rfl) fun ctx => ?_
  split
  · exact alike_ret _
  · exact alike_bind (Q := fun _ => True) (alike_cmd (by simp)) (fun _ _ => trivial) fun mem =>
      alike_cmd (by simp)

-- A role without parts other than new entries.
theorem runsAlike_single {role : Role} (hc : ∀ c, role.commands c → c ≠ .getCtx)
    (ho : ¬ role.opens) (hm : ¬ role.makes) (hcl : ¬ role.closes) (hs : ¬ role.switches)
    (hsees : ¬ role.sees) : role.RunsAlike os where
  sees := hsees
  command := hc
  add _ := alike_addEntry
  openFile h := absurd h ho
  closeFile h := absurd h hcl
  makeFile h := absurd h hm
  bracket h := absurd h hs
  restore h := absurd h hs

theorem blindRole_runsAlike : blindRole.RunsAlike os := by
  have hplain : plainRole.RunsAlike os := runsAlike_single (fun _ h => h) id id id id id
  have hset := @made_setGiduid_of plainRole (fun _ => by simp [plainRole])
    (fun _ => by simp [plainRole])
  exact {
    sees := id
    command := fun _ h => h
    add := fun _ => alike_addEntry
    openFile := fun _ p flags =>
      (made_entryOpen_of hset (fun _ _ _ => by simp [plainRole]) (fun _ _ => by simp [plainRole])
        p flags).alike hplain
    closeFile := fun _ entry =>
      (made_entryClose_of (fun _ => by simp [plainRole]) (fun _ => by simp [plainRole])
        (fun _ => by simp [plainRole]) entry).alike hplain
    makeFile := fun _ storageId path =>
      (made_makeFile_of hset (fun _ _ _ => by simp [plainRole]) (fun _ => by simp [plainRole])
        storageId path).alike hplain
    bracket := by
      intro _ β storageId fail body inner
      have hinner : (blindRole.inside storageId).RunsAlike os :=
        runsAlike_single (fun _ h => h.elim id id) id id id id id
      have hrestore : ∀ value : β, Alike os (fun _ => True) (do
          restoreGiduid
          return value) (do
          restoreGiduid
          return value) := fun value =>
        alike_bind ((made_restoreGiduid_of hset).alike hplain) (fun _ _ => trivial) fun _ =>
          alike_ret (P := fun _ => True) value
      refine alike_bind (Q := fun _ => True)
        ((made_setStorageGiduid_of hset storageId).alike hplain) (fun _ _ => trivial) fun set => ?_
      split
      · exact alike_bind (inner.alike hinner) (fun _ _ => trivial) hrestore
      · exact alike_bind (Q := fun _ => True) (alike_ret fail) (fun _ _ => trivial) hrestore
    restore := fun _ => (made_restoreGiduid_of hset).alike hplain }

-- All operations but the one that reads its dataset from a buffer.
theorem blindRole_performs {code : Nat} (h : code ≠ MTP_OPERATION_SEND_OBJECT_INFO) :
    blindRole.Performs code := by
  have hfree : ∀ c : Cmd, c ≠ .getCtx → blindRole.commands c := fun _ hc => hc
  have hends : blindRole.Ends :=
    ⟨trivial, fun _ => hfree _ (by simp), hfree _ (by simp), hfree _ (by simp)⟩
  have htransfers : blindRole.Transfers :=
    ⟨hends, trivial, hfree _ (by simp), hfree _ (by simp)⟩
  exact {
    opens := fun _ => ⟨fun _ => hfree _ (by simp), hfree _ (by simp), fun _ _ => hfree _ (by simp)⟩
    drops := fun _ => ⟨trivial, hfree _ (by simp)⟩
    lists := fun _ => ⟨trivial, trivial, fun _ _ => hfree _ (by simp)⟩
    transfers := fun _ => htransfers
    creates := fun heq => absurd heq h
    receives := fun _ => ⟨htransfers, trivial, fun _ _ _ => hfree _ (by simp),
      fun _ => hfree _ (by simp), fun _ _ _ => hfree _ (by simp)⟩
    removes := fun _ => ⟨fun _ => ⟨fun _ _ => Or.inl (hfree _ (by simp)),
      fun _ => Or.inl (hfree _ (by simp)), fun _ => Or.inl (hfree _ (by simp))⟩, trivial⟩
    renames := fun _ => ⟨trivial, fun _ _ _ => hfree _ (by simp), fun _ _ _ => hfree _ (by simp),
      fun _ _ => hfree _ (by simp)⟩
    closes := fun _ => trivial
    truncate := fun _ _ _ _ => hfree _ (by simp) }

-- The runs of one state

section Runs

variable {prog prog' : M α}

theorem alike_at_bind {f f' : α → M β} (hp : Alike os (· = w) prog prog')
    (hf : Alike os (· = (exec (World.handle os) prog w).2) (f (exec (World.handle os) prog w).1)
      (f' (exec (World.handle os) prog w).1)) :
    Alike os (· = w) (prog.bind f) (prog'.bind f') := by
  rintro w w' rfl hl
  obtain ⟨hvalue, hlike, hacts⟩ := hp _ w' rfl hl
  obtain ⟨hvalue', hlike', hacts'⟩ := hf _ _ rfl hlike
  simp only [exec_bind, actions_bind, hvalue, hacts]
  exact ⟨hvalue', hlike', by rw [hacts']⟩

-- Two programs that are given the contexts with their read buffers.
theorem alike_at_getCtx {f f' : MtpCtx → M α}
    (hf : ∀ buffer buffer2, Alike os (· = w) (f w.ctx) (f' (w.ctx.withBuffers buffer buffer2))) :
    Alike os (· = w) (M.getCtx.bind f) (M.getCtx.bind f') := by
  rintro w w' rfl hl
  obtain ⟨buffer, buffer2, hctx⟩ := hl.ctx
  have hrun := hf buffer buffer2 _ w' rfl hl
  rw [← hctx] at hrun
  exact hrun

theorem alike_setRdbuffer (buffer buffer' : Buffer) :
    Alike os (· = w) (M.cmd (.setRdbuffer buffer)) (M.cmd (.setRdbuffer buffer')) := by
  rintro w w' rfl ⟨⟨_, buffer2, hctx⟩, hos⟩
  refine ⟨rfl, ⟨⟨buffer', buffer2, ?_⟩, hos⟩, rfl⟩
  show ({ w'.ctx with rdbuffer := buffer' } : MtpCtx) = _
  rw [hctx]
  rfl

-- What is stored in the second buffer is read from it next.
theorem alike_stored {buffer2 buffer2' : Buffer} {f f' : MtpCtx → M α}
    (hf : ∀ buffer, Alike os (· = ⟨{ w.ctx with rdbuffer2 := buffer2 }, w.os⟩)
      (f { w.ctx with rdbuffer2 := buffer2 }) (f' (w.ctx.withBuffers buffer buffer2'))) :
    Alike os (· = w) ((M.cmd (.setRdbuffer2 buffer2)).bind fun _ => M.getCtx.bind f)
      ((M.cmd (.setRdbuffer2 buffer2')).bind fun _ => M.getCtx.bind f') := by
  rintro w w' rfl ⟨⟨buffer, old, hctx⟩, hos⟩
  have hnew : ({ w'.ctx with rdbuffer2 := buffer2' } : MtpCtx) =
      w.ctx.withBuffers buffer buffer2' := by
    rw [hctx]
    rfl
  have hrun := hf buffer _ ⟨{ w'.ctx with rdbuffer2 := buffer2' }, w'.os⟩ rfl
    ⟨⟨buffer, buffer2', hnew⟩, hos⟩
  rw [← hnew] at hrun
  exact hrun

-- The program answers at once, in all the states that are like this one.
def Stays (os : Os σ) (w : World σ) (prog : M α) (value : α) : Prop :=
  ∀ w', w.Like w' → exec (World.handle os) prog w' = (value, w') ∧ actions os prog w' = []

theorem stays_pure (value : α) : Stays os w (pure value) value := fun _ _ => ⟨rfl, rfl⟩

theorem stays_getCtx {f : MtpCtx → M α} {value : α}
    (hf : ∀ buffer buffer2, Stays os w (f (w.ctx.withBuffers buffer buffer2)) value) :
    Stays os w (M.getCtx.bind f) value := by
  intro w' hl
  obtain ⟨buffer, buffer2, hctx⟩ := hl.ctx
  have hrun := hf buffer buffer2 w' hl
  rw [← hctx] at hrun
  exact hrun

theorem stays_bind {f : α → M β} {value : α} {result : β} (h : Stays os w prog value)
    (hf : Stays os w (f value) result) : Stays os w (prog.bind f) result := by
  intro w' hl
  obtain ⟨hrun, hacts⟩ := h w' hl
  obtain ⟨hrun', hacts'⟩ := hf w' hl
  rw [exec_bind, actions_bind, hrun, hacts]
  exact ⟨hrun', hacts'⟩

theorem Stays.alike {value : α} (h : Stays os w prog value) (h' : Stays os w prog' value) :
    Alike os (· = w) prog prog' := by
  rintro w w' rfl hl
  obtain ⟨hrun, hacts⟩ := h _ ⟨⟨w.ctx.rdbuffer, w.ctx.rdbuffer2, rfl⟩, rfl⟩
  obtain ⟨hrun', hacts'⟩ := h' _ hl
  rw [hrun, hrun', hacts, hacts']
  exact ⟨rfl, hl, rfl⟩

theorem Made.alike_at (hm : Made blindRole prog) : Alike os (· = w) prog prog :=
  alike_weaken (hm.alike blindRole_runsAlike) fun _ _ => trivial

end Runs

theorem alike_inSession {op op' : M Response}
    (hop : w.ctx.fsDb.isSome = true → Alike os (· = w) op op') :
    Alike os (· = w) (inSession op) (inSession op') := by
  refine alike_at_getCtx fun buffer buffer2 => ?_
  by_cases hs : w.ctx.fsDb.isSome = true
  · rw [if_pos hs, if_pos (show (w.ctx.withBuffers buffer buffer2).fsDb.isSome = true from hs)]
    exact hop hs
  · rw [if_neg hs, if_neg (show ¬ (w.ctx.withBuffers buffer buffer2).fsDb.isSome = true from hs)]
    exact alike_ret _

theorem alike_open {body body' : M Response} (hmade : Made blindRole (inSession body))
    (h : w.ctx.fsDb.isSome = true → body = body' ∨ Alike os (· = w) body body') :
    Alike os (· = w) (inSession body) (inSession body') := by
  by_cases hs : w.ctx.fsDb.isSome = true
  · rcases h hs with rfl | hbody
    · exact hmade.alike_at
    · exact alike_inSession fun _ => hbody
  · exact alike_inSession fun hopen => absurd hopen hs

-- The mutex of the database is free for the request, and the state in which it is held.
def World.GetsMutex (os : Os σ) (w : World σ) : Prop := (os.act .lockInotifyMutex w.os).1 = true

def World.locked (os : Os σ) (w : World σ) : World σ :=
  ⟨w.ctx, (os.act .lockInotifyMutex w.os).2⟩

theorem alike_lock {α : Type} {f f' : Bool → M α}
    (hlocked : w.GetsMutex os → Alike os (· = w.locked os) (f true) (f' true))
    (hbusy : Alike os (· = w.locked os) (f false) (f' false)) :
    Alike os (· = w) ((M.act .lockInotifyMutex).bind f) ((M.act .lockInotifyMutex).bind f') := by
  refine alike_at_bind (alike_cmd (c := .act .lockInotifyMutex) (by simp)) ?_
  show Alike os (· = w.locked os) (f (os.act .lockInotifyMutex w.os).1)
    (f' (os.act .lockInotifyMutex w.os).1)
  cases hlock : (os.act .lockInotifyMutex w.os).1 with
  | true => exact hlocked hlock
  | false => exact hbusy

-- Two requests under the mutex, when they are one program or run alike.
theorem alike_underMutex {body body' : M Response}
    (hmade : Made blindRole (inSession (underMutex body)))
    (h : w.ctx.fsDb.isSome = true → w.GetsMutex os →
      body = body' ∨ Alike os (· = w.locked os) body body') :
    Alike os (· = w) (inSession (underMutex body)) (inSession (underMutex body')) := by
  by_cases hopen : w.ctx.fsDb.isSome = true ∧ w.GetsMutex os
  · rcases h hopen.1 hopen.2 with rfl | hbody
    · exact hmade.alike_at
    · refine alike_inSession fun _ => alike_lock (fun _ => ?_) (alike_ret _)
      exact alike_at_bind hbody
        (made_bind (made_act_ _ (Or.inl rfl)) fun _ => made_pure _).alike_at
  · exact alike_inSession fun hs => alike_lock (fun hl => absurd ⟨hs, hl⟩ hopen) (alike_ret _)

end Umtp
