import Umtp.MemOs
import Umtp.Effects.Roles

namespace Umtp

open Lib Lib.Prog Handles

variable {σ α β : Type} {os : Os σ} {identity : σ → Int × Int} {ctx : MtpCtx} {w : World σ}
  {ids : Int × Int} {storageId : Nat}

-- `identity` is the fsuid and the fsgid of the daemon. They are set as asked,
-- and the previous one is answered.
structure Os.HasIdentity (os : Os σ) (identity : σ → Int × Int) : Prop where
  setfsuid : ∀ uid t, (os.act (.setfsuid uid) t).1 = (identity t).1 ∧
    identity (os.act (.setfsuid uid) t).2 = (uid, (identity t).2)
  setfsgid : ∀ gid t, (os.act (.setfsgid gid) t).1 = (identity t).2 ∧
    identity (os.act (.setfsgid gid) t).2 = ((identity t).1, gid)
  kept : ∀ a t, (Cmd.act a).isIdentity = false → identity (os.act a t).2 = identity t

-- The storage of the object that a file system call is about.
def Action.calledFor : Action → Option Nat
  | mkdir storageId _ => some storageId
  | .open storageId _ _ => some storageId
  | truncate64 storageId _ _ => some storageId
  | rename storageId _ _ => some storageId
  | remove storageId _ => some storageId
  | _ => none

def Action.isTruncate : Action → Bool
  | truncate64 _ _ _ => true
  | _ => false

-- An unset id leaves the daemon's own.
def effectiveId (id own : Int) : Int := if 0 ≤ id then id else own

namespace MtpCtx

variable (ctx : MtpCtx)

def ownIds : Int × Int := (ctx.uid, ctx.gid)

-- The identity that is configured for a storage, with the defaults where it is
-- unset.
def configuredIds (storageId : Nat) : Int × Int :=
  match ctx.mtpGetStorageIndexById storageId with
  | some i =>
    (effectiveId (if (ctx.storages i).uid ≠ -1 then (ctx.storages i).uid else ctx.defaultUid)
        ctx.uid,
      effectiveId (if (ctx.storages i).gid ≠ -1 then (ctx.storages i).gid else ctx.defaultGid)
        ctx.gid)
  | none => ctx.ownIds

-- The identity that `set_storage_giduid` takes.
def takenIds (storageId : Nat) : Int × Int :=
  match ctx.mtpGetStorageIndexById storageId with
  | some i =>
    (effectiveId (if (ctx.storages i).uid ≠ -1 then (ctx.storages i).uid else ctx.defaultUid)
        ctx.uid,
      effectiveId (if (ctx.storages i).gid ≠ -1 then (ctx.storages i).uid else ctx.defaultGid)
        ctx.gid)
  | none => ctx.ownIds

-- The group of the storage is not set, or is its user.
def GidFits (storageId : Nat) : Prop :=
  ∀ i ∈ ctx.mtpGetStorageIndexById storageId, (ctx.storages i).gid = -1 ∨
    effectiveId (ctx.storages i).uid ctx.gid = effectiveId (ctx.storages i).gid ctx.gid

theorem takenIds_eq_iff (storageId : Nat) :
    ctx.takenIds storageId = ctx.configuredIds storageId ↔ ctx.GidFits storageId := by
  rw [takenIds, configuredIds, GidFits]
  cases ctx.mtpGetStorageIndexById storageId with
  | none => simp
  | some i =>
      by_cases hgid : (ctx.storages i).gid = -1
      · simp [hgid]
      · simp [hgid]

end MtpCtx

-- The identity a call is made with: TruncateObject takes none.
def MtpCtx.callIds (ctx : MtpCtx) (a : Action) (storageId : Nat) : Int × Int :=
  if a.isTruncate then ctx.ownIds else ctx.takenIds storageId

-- What the call for an object of the storage needs to be made with the
-- configured identity.
def MtpCtx.Fits (ctx : MtpCtx) (a : Action) (storageId : Nat) : Prop :=
  if a.isTruncate then ctx.configuredIds storageId = ctx.ownIds else ctx.GidFits storageId

theorem MtpCtx.callIds_eq_iff (ctx : MtpCtx) (a : Action) (storageId : Nat) :
    ctx.callIds a storageId = ctx.configuredIds storageId ↔ ctx.Fits a storageId := by
  rw [callIds, Fits]
  split
  · exact eq_comm
  · exact ctx.takenIds_eq_iff storageId

-- The daemon runs as root.
structure MtpCtx.OfRoot (ctx : MtpCtx) : Prop where
  uid : ctx.uid = 0
  gid : ctx.gid = 0

-- The configuration of the identities is the one of `ctx`, and the identity is
-- `ids`.
structure ActsAs (identity : σ → Int × Int) (ctx : MtpCtx) (ids : Int × Int) (w : World σ) :
    Prop where
  storages : w.ctx.storages = ctx.storages
  own : w.ctx.ownIds = ctx.ownIds
  defaults : (w.ctx.defaultUid, w.ctx.defaultGid) = (ctx.defaultUid, ctx.defaultGid)
  ids : identity w.os = ids

def CalledAs (identity : σ → Int × Int) (ctx : MtpCtx) (w : World σ) (c : Cmd) : Prop :=
  ∀ a storageId, c = .act a → a.calledFor = some storageId →
    identity w.os = ctx.callIds a storageId

-- Commands that neither call the file system nor change an identity or a
-- storage.
def Cmd.isCalm : Cmd → Bool
  | setStorage _ _ => false
  | act a => a.calledFor.isNone && !(act a).isIdentity
  | _ => true

def Cmd.keepsIds : Cmd → Bool
  | setStorage _ _ => false
  | act a => !(act a).isIdentity
  | _ => true

theorem keepsIds_of_isCalm {c : Cmd} (hc : c.isCalm = true) : c.keepsIds = true := by
  cases c with
  | act a => exact (Bool.and_eq_true_iff.mp hc).2
  | setStorage i storage => cases hc
  | _ => rfl

theorem actsAs_step (hos : os.HasIdentity identity) {c : Cmd} (hc : c.keepsIds = true)
    (hw : ActsAs identity ctx ids w) : ActsAs identity ctx ids (World.handle os c w).2 := by
  cases c with
  | act a =>
      have ha : (Cmd.act a).isIdentity = false := by
        simpa only [Cmd.keepsIds, Bool.not_eq_true'] using hc
      exact ⟨hw.storages, hw.own, hw.defaults, (hos.kept a w.os ha).trans hw.ids⟩
  | setStorage i storage => cases hc
  | db op => exact ⟨hw.storages, hw.own, hw.defaults, hw.ids⟩
  | flagDeleted site p => exact ⟨hw.storages, hw.own, hw.defaults, hw.ids⟩
  | _ => exact ⟨hw.storages, hw.own, hw.defaults, hw.ids⟩

theorem isCalm_of_isOrdinary {c : Cmd} (hc : c.isOrdinary = true ∨ c.isSending = true) :
    c.isCalm = true := by
  cases c with
  | act a => cases a <;> simp_all [Cmd.isCalm, Cmd.isOrdinary, Action.isOrdinary, Cmd.isSending,
      Action.calledFor, Cmd.isIdentity]
  | setStorage i storage => simp [Cmd.isOrdinary, Cmd.isSending] at hc
  | _ => rfl

section Rules

variable {ok : World σ → Cmd → Prop}

-- A part whose commands keep the identity.
theorem actsAs_keeps (hos : os.HasIdentity identity) {role : Role}
    (hcalm : ∀ w c, c.isCalm = true ∨ c.isIdentity = true → ok w c)
    (hc : ∀ c, role.commands c → c.keepsIds = true ∧
      ∀ w, ActsAs identity ctx ids w → ok w c)
    (ho : ¬ role.opens) (hm : ¬ role.makes) (hcl : ¬ role.closes) (hs : ¬ role.switches) :
    role.Keeps (World.handle os) ok (ActsAs identity ctx ids) := by
  have hkeep : ∀ c : Cmd, c.isCalm = true → ∀ w, ActsAs identity ctx ids w →
      ok w c ∧ ActsAs identity ctx ids (World.handle os c w).2 := fun c hc w hw =>
    ⟨hcalm w c (Or.inl hc), actsAs_step hos (keepsIds_of_isCalm hc) hw⟩
  have hvalid : ∀ c : Cmd, c.isCalm = true → Valid (World.handle os) ok
      (ActsAs identity ctx ids) (M.cmd c) fun _ => ActsAs identity ctx ids := fun c hc =>
    valid_command (hkeep c hc)
  exact {
    look := hkeep .getCtx rfl
    command := fun c hc' w hw => by
      rcases hc' with hc' | hc' | hc'
      · exact hkeep c (isCalm_of_isOrdinary (Or.inl hc')) w hw
      · exact hkeep c (isCalm_of_isOrdinary (Or.inr hc')) w hw
      · exact ⟨(hc c hc').2 w hw, actsAs_step hos (hc c hc').1 hw⟩
    store := fun _ buffer => hkeep (.setRdbuffer2 buffer) rfl
    add := fun _ fileinfo parent storageId => by
      refine valid_bind (hvalid .getCtx rfl) fun ctx => ?_
      split
      · exact valid_ret fun _ hw => hw
      · exact valid_bind (hvalid (.act .entryMemory) rfl) fun mem =>
          hvalid (.db (.allocEntry mem fileinfo parent storageId)) rfl
    openFile := fun h => absurd h ho
    closeFile := fun h => absurd h hcl
    makeFile := fun h => absurd h hm
    bracket := fun h => absurd h hs
    restore := fun h => absurd h hs }

-- `set_giduid`
theorem valid_setGiduid (hos : os.HasIdentity identity)
    (hcalm : ∀ w c, c.isCalm = true ∨ c.isIdentity = true → ok w c) (uid gid u g : Int) :
    Valid (World.handle os) ok (ActsAs identity ctx (u, g)) (setGiduid uid gid) fun set w =>
      (u = 0 → g = 0 → set = true) ∧
        ActsAs identity ctx (effectiveId uid u, effectiveId gid g) w := by
  have hgid : ∀ ret : Int, Valid (World.handle os) ok
      (fun w => (u = 0 → ret = 0) ∧ ActsAs identity ctx (effectiveId uid u, g) w) (do
        let ret' ← if 0 ≤ gid then M.act (.setfsgid gid) else pure 0
        return ret == 0 && ret' == 0) fun set w =>
          (u = 0 → g = 0 → set = true) ∧
            ActsAs identity ctx (effectiveId uid u, effectiveId gid g) w := by
    intro ret
    have hend : ∀ ret' : Int, Valid (World.handle os) ok
        (fun w => ((u = 0 → ret = 0) ∧ (g = 0 → ret' = 0)) ∧
          ActsAs identity ctx (effectiveId uid u, effectiveId gid g) w)
        (pure (ret == 0 && ret' == 0) : M Bool) fun set w =>
          (u = 0 → g = 0 → set = true) ∧
            ActsAs identity ctx (effectiveId uid u, effectiveId gid g) w := by
      refine fun ret' => valid_ret fun w hw => ⟨fun hu hg => ?_, hw.2⟩
      rw [hw.1.1 hu, hw.1.2 hg]
      rfl
    rw [effectiveId.eq_def gid] at hend ⊢
    split
    · rename_i hpos
      rw [if_pos hpos] at hend
      refine valid_bind (valid_perform (fun w _ => hcalm w _ (Or.inr rfl)) fun w hw => ?_) hend
      obtain ⟨hret, hset⟩ := hos.setfsgid gid w.os
      rw [hw.2.ids] at hret hset
      exact ⟨⟨hw.1, fun hg => hret.trans hg⟩, hw.2.storages, hw.2.own, hw.2.defaults, hset⟩
    · rename_i hneg
      rw [if_neg hneg] at hend
      exact valid_bind (valid_ret fun w hw => ⟨⟨hw.1, fun _ => rfl⟩, hw.2⟩) hend
  unfold setGiduid
  by_cases hpos : 0 ≤ uid
  · rw [effectiveId, if_pos hpos] at hgid ⊢
    rw [if_pos hpos]
    refine valid_bind (valid_perform (fun w _ => hcalm w _ (Or.inr rfl)) fun w hw => ?_) hgid
    obtain ⟨hret, hset⟩ := hos.setfsuid uid w.os
    rw [hw.ids] at hret hset
    exact ⟨fun hu => hret.trans hu, hw.storages, hw.own, hw.defaults, hset⟩
  · rw [effectiveId, if_neg hpos] at hgid ⊢
    rw [if_neg hpos]
    exact valid_bind (valid_ret fun w hw => ⟨fun _ => rfl, hw⟩) hgid

theorem effectiveId_root (id own : Int) (hid : id = 0) : effectiveId id own = 0 := by
  rw [hid]
  rfl

theorem valid_restoreGiduid (hos : os.HasIdentity identity) (hroot : ctx.OfRoot)
    (hcalm : ∀ w c, c.isCalm = true ∨ c.isIdentity = true → ok w c) :
    Valid (World.handle os) ok (ActsAs identity ctx ids) restoreGiduid
      fun _ => ActsAs identity ctx (0, 0) := by
  refine valid_getCtx_bind (fun w _ => hcalm w _ (Or.inl rfl)) fun ctx' => ?_
  refine @valid_of_fact _ _ _ _ _ _ _ _ _ (ctx'.ownIds = ctx.ownIds) (fun w hw => hw.2 ▸ hw.1.own)
    fun hown => ?_
  obtain ⟨huid, hgid⟩ := Prod.mk.inj hown
  have hset : Valid (World.handle os) ok (fun w => ActsAs identity ctx ids w ∧ w.ctx = ctx')
      (setGiduid ctx'.uid ctx'.gid) fun _ => ActsAs identity ctx (0, 0) := by
    refine valid_weaken (valid_setGiduid hos hcalm _ _ ids.1 ids.2) (fun w hw => hw.1)
      fun _ w hw => ?_
    have hids := hw.2
    rw [effectiveId_root _ _ (huid.trans hroot.uid), effectiveId_root _ _ (hgid.trans hroot.gid)]
      at hids
    exact hids
  exact valid_bind hset fun _ => valid_ret fun _ hw => hw

theorem valid_setStorageGiduid (hos : os.HasIdentity identity) (hroot : ctx.OfRoot)
    (hcalm : ∀ w c, c.isCalm = true ∨ c.isIdentity = true → ok w c) (storageId : Nat) :
    Valid (World.handle os) ok (ActsAs identity ctx (0, 0)) (setStorageGiduid storageId)
      fun set => ActsAs identity ctx (if set then ctx.takenIds storageId else (0, 0)) := by
  refine valid_getCtx_bind (fun w _ => hcalm w _ (Or.inl rfl)) fun ctx' => ?_
  refine @valid_of_fact _ _ _ _ _ _ _ _ _ (ctx'.storages = ctx.storages ∧
      (ctx'.defaultUid, ctx'.defaultGid) = (ctx.defaultUid, ctx.defaultGid))
      (fun w hw => hw.2 ▸ ⟨hw.1.storages, hw.1.defaults⟩) fun hsame => ?_
  obtain ⟨huid, hgid⟩ := Prod.mk.inj hsame.2
  rw [MtpCtx.index_eq_of_storages hsame.1, MtpCtx.takenIds]
  cases ctx.mtpGetStorageIndexById storageId with
  | some i =>
      dsimp only
      rw [hsame.1, huid, hgid, hroot.uid, hroot.gid]
      refine valid_weaken (valid_setGiduid hos hcalm _ _ 0 0) (fun w hw => hw.1) fun set w hw => ?_
      rw [hw.1 rfl rfl, if_pos rfl]
      exact hw.2
  | none => exact valid_ret fun w hw => hw.1

-- What runs under the identity of a storage is made with it.
theorem valid_withStorageIds (hos : os.HasIdentity identity) (hroot : ctx.OfRoot)
    (hcalm : ∀ w c, c.isCalm = true ∨ c.isIdentity = true → ok w c) (storageId : Nat) (fail : α)
    {body : M α} (hbody : Valid (World.handle os) ok (ActsAs identity ctx (ctx.takenIds storageId))
      body fun _ => ActsAs identity ctx (ctx.takenIds storageId)) :
    Valid (World.handle os) ok (ActsAs identity ctx (0, 0)) (withStorageIds storageId fail body)
      fun _ => ActsAs identity ctx (0, 0) := by
  have hrestore : ∀ ids (value : α), Valid (World.handle os) ok (ActsAs identity ctx ids) (do
      restoreGiduid
      return value) fun _ => ActsAs identity ctx (0, 0) := fun ids value =>
    valid_bind (valid_restoreGiduid hos hroot hcalm) fun _ => valid_ret fun _ hw => hw
  refine valid_bind (valid_setStorageGiduid hos hroot hcalm storageId) fun set => ?_
  cases set with
  | true => exact valid_bind hbody (hrestore _)
  | false => exact valid_bind (valid_ret fun _ hw => hw) (hrestore _)

end Rules

-- The requests. What is outside of the brackets calls the file system for
-- nothing, and what is inside calls it for the storage.

theorem calledAs_of_isCalm (w : World σ) (c : Cmd) (hc : c.isCalm = true ∨ c.isIdentity = true) :
    CalledAs identity ctx w c := by
  rintro a storageId rfl hcalled
  rcases hc with hc | hc
  · have hnone := (Bool.and_eq_true_iff.mp hc).1
    rw [hcalled] at hnone
    cases hnone
  · cases a <;> simp_all [Cmd.isIdentity, Action.calledFor]

def calmRole : Role where
  commands c := c.isCalm = true
  inner _ _ := False
  adds := True
  opens := False
  makes := False
  closes := False
  switches := False
  receives := True
  sees := True

-- Commands that call the file system for the storage only, TruncateObject apart.
def Cmd.CallsFor (storageId : Nat) (c : Cmd) : Prop :=
  c.keepsIds = true ∧ ∀ a sid, c = .act a → a.calledFor = some sid →
    sid = storageId ∧ a.isTruncate = false

def callRole : Role where
  commands c := c.isCalm = true
  inner := Cmd.CallsFor
  adds := True
  opens := True
  makes := True
  closes := True
  switches := True
  receives := True
  sees := True

theorem calm_keeps (hos : os.HasIdentity identity) (ids : Int × Int) :
    calmRole.Keeps (World.handle os) (CalledAs identity ctx) (ActsAs identity ctx ids) :=
  actsAs_keeps hos calledAs_of_isCalm
    (fun c hc => ⟨keepsIds_of_isCalm hc, fun w _ => calledAs_of_isCalm w c (Or.inl hc)⟩) id id id id

theorem calledAs_taken {c : Cmd} (hc : c.CallsFor storageId)
    (hw : ActsAs identity ctx (ctx.takenIds storageId) w) : CalledAs identity ctx w c := by
  intro a sid ha hcalled
  obtain ⟨rfl, htruncate⟩ := hc.2 a sid ha hcalled
  rw [MtpCtx.callIds, htruncate, if_neg Bool.false_ne_true]
  exact hw.ids

theorem inner_keeps (hos : os.HasIdentity identity) (storageId : Nat) :
    (callRole.inside storageId).Keeps (World.handle os) (CalledAs identity ctx)
      (ActsAs identity ctx (ctx.takenIds storageId)) := by
  refine actsAs_keeps hos calledAs_of_isCalm (fun c hc => ?_) id id id id
  rcases hc with hc | hc
  · exact ⟨keepsIds_of_isCalm hc, fun w _ => calledAs_of_isCalm w c (Or.inl hc)⟩
  · exact ⟨hc.1, fun w hw => calledAs_taken hc hw⟩

theorem valid_open (hos : os.HasIdentity identity) (storageId : Nat) (path : CString)
    (flags : OpenFlags) :
    Valid (World.handle os) (CalledAs identity ctx)
      (ActsAs identity ctx (ctx.takenIds storageId)) (M.act (.open storageId path flags))
      fun _ => ActsAs identity ctx (ctx.takenIds storageId) := by
  have hcalls : (Cmd.act (.open storageId path flags)).CallsFor storageId := by
    refine ⟨rfl, fun a sid ha hcalled => ?_⟩
    cases ha
    exact ⟨(Option.some.inj hcalled).symm, rfl⟩
  exact valid_command fun w hw => ⟨calledAs_taken hcalls hw, actsAs_step hos rfl hw⟩

theorem calls_entryOpen (hos : os.HasIdentity identity) (hroot : ctx.OfRoot) (p : EntryPtr)
    (flags : OpenFlags) :
    Valid (World.handle os) (CalledAs identity ctx) (ActsAs identity ctx (0, 0))
      (entryOpen p flags) fun _ => ActsAs identity ctx (0, 0) := by
  have hend : ∀ value : Unit, Valid (World.handle os) (CalledAs identity ctx)
      (ActsAs identity ctx (0, 0)) (do
        let ctx ← M.getCtx
        return (ctx.entry p).fileDescriptor) fun _ => ActsAs identity ctx (0, 0) := fun _ =>
    (made_getCtx (fun _ _ _ => rfl) fun _ => made_pure _).valid (calm_keeps hos (0, 0))
  have hrestore : ∀ ids, Valid (World.handle os) (CalledAs identity ctx) (ActsAs identity ctx ids)
      (do
        restoreGiduid
        let ctx ← M.getCtx
        return (ctx.entry p).fileDescriptor) fun _ => ActsAs identity ctx (0, 0) := fun ids =>
    valid_bind (valid_restoreGiduid hos hroot calledAs_of_isCalm) hend
  have hset : ∀ ids file, Valid (World.handle os) (CalledAs identity ctx)
      (ActsAs identity ctx ids) (M.db_ (.setFileDescriptor p file))
      fun _ => ActsAs identity ctx ids := fun ids file =>
    (made_db_ _ (Or.inr rfl)).valid (calm_keeps hos ids)
  unfold entryOpen
  refine valid_bind (valid_command fun w hw =>
    ⟨calledAs_of_isCalm w .getCtx (Or.inl rfl), hw⟩) fun ctx' => ?_
  split
  · exact valid_ret fun _ hw => hw
  · refine valid_bind ((made_entryPath p).valid (calm_keeps hos (0, 0))) fun found => ?_
    dsimp only
    split
    · refine valid_bind (valid_setStorageGiduid hos hroot calledAs_of_isCalm _) fun set => ?_
      cases set with
      | true =>
          refine valid_bind (valid_open hos _ _ flags) fun file => ?_
          exact valid_bind (hset _ file) fun _ => hrestore _
      | false => exact hrestore _
    · exact hend ()

theorem calls_makeFile (hos : os.HasIdentity identity) (hroot : ctx.OfRoot) (storageId : Nat)
    (path : CString) :
    Valid (World.handle os) (CalledAs identity ctx) (ActsAs identity ctx (0, 0))
      (makeFile storageId path) fun _ => ActsAs identity ctx (0, 0) := by
  refine valid_bind (valid_withStorageIds hos hroot calledAs_of_isCalm storageId (-1)
    (valid_open hos storageId path .createTruncate)) fun file => ?_
  have hclose : ∀ file, Made calmRole (M.act (.close file)) := fun file =>
    made_act _ (Or.inr rfl)
  refine Made.valid (calm_keeps hos (0, 0)) ?_
  split
  · exact made_pure _
  · exact made_bind (hclose _) fun _ => made_pure _

theorem call_keeps (hos : os.HasIdentity identity) (hroot : ctx.OfRoot) :
    callRole.Keeps (World.handle os) (CalledAs identity ctx) (ActsAs identity ctx (0, 0)) where
  look := (calm_keeps hos (0, 0)).look
  command := (calm_keeps hos (0, 0)).command
  store _ := (calm_keeps hos (0, 0)).store trivial
  add _ := (calm_keeps hos (0, 0)).add trivial
  openFile _ := calls_entryOpen hos hroot
  closeFile _ entry := (@made_entryClose_of calmRole (fun _ => rfl) (fun _ => rfl) (fun _ => rfl)
  entry).valid (calm_keeps hos (0, 0))
  makeFile _ := calls_makeFile hos hroot
  bracket _ _ storageId fail _ inner :=
    valid_withStorageIds hos hroot calledAs_of_isCalm storageId fail
      (inner.valid (inner_keeps hos storageId))
  restore _ := valid_restoreGiduid hos hroot calledAs_of_isCalm

theorem callsFor_of_isCalm {c : Cmd} (hc : c.isCalm = true) : c.CallsFor storageId := by
  refine ⟨keepsIds_of_isCalm hc, fun a sid ha hcalled => ?_⟩
  subst ha
  have hnone := (Bool.and_eq_true_iff.mp hc).1
  rw [hcalled] at hnone
  cases hnone

theorem callsFor_of_called {a : Action} (ha : a.calledFor = some storageId)
    (hi : (Cmd.act a).isIdentity = false) (ht : a.isTruncate = false) :
    (Cmd.act a).CallsFor storageId := by
  refine ⟨by rw [Cmd.keepsIds, hi]; rfl, fun a' sid heq hcalled => ?_⟩
  cases heq
  exact ⟨Option.some.inj (hcalled.symm.trans ha), ht⟩

-- DeleteObject and TruncateObject apart.
theorem callRole_performs {code : Nat} (hdelete : code ≠ MTP_OPERATION_DELETE_OBJECT)
    (htruncate : code ≠ MTP_OPERATION_TRUNCATE_OBJECT) : callRole.Performs code where
  opens _ := ⟨fun _ => rfl, rfl, fun _ _ => rfl⟩
  drops _ := ⟨trivial, rfl⟩
  lists _ := ⟨trivial, trivial, fun _ _ => callsFor_of_isCalm rfl⟩
  transfers _ := ⟨⟨trivial, fun _ => rfl, rfl, rfl⟩, trivial, rfl, rfl⟩
  creates _ := ⟨⟨trivial, trivial, trivial, fun _ _ => callsFor_of_called rfl rfl rfl,
    fun _ _ _ => rfl⟩, trivial, fun _ => rfl, fun _ => rfl⟩
  receives _ := ⟨⟨⟨trivial, fun _ => rfl, rfl, rfl⟩, trivial, rfl, rfl⟩, trivial,
    fun _ _ _ => rfl, fun _ => rfl, fun _ _ _ => rfl⟩
  removes h := absurd h hdelete
  renames _ := ⟨trivial, fun _ _ _ => callsFor_of_called rfl rfl rfl, fun _ _ _ => rfl,
    fun _ _ => rfl⟩
  closes _ := trivial
  truncate h := absurd h htruncate

-- TruncateObject

def truncateRole : Role where
  commands c := c.isCalm = true ∨
    ∃ storageId path offset, c = .act (.truncate64 storageId path offset)
  inner _ _ := False
  adds := False
  opens := False
  makes := False
  closes := False
  switches := False
  receives := False
  sees := False

theorem truncate_keeps (hos : os.HasIdentity identity) (hroot : ctx.OfRoot) :
    truncateRole.Keeps (World.handle os) (CalledAs identity ctx)
      (ActsAs identity ctx (0, 0)) := by
  refine actsAs_keeps hos calledAs_of_isCalm (fun c hc => ?_) id id id id
  rcases hc with hc | ⟨storageId, path, offset, rfl⟩
  · exact ⟨keepsIds_of_isCalm hc, fun w _ => calledAs_of_isCalm w c (Or.inl hc)⟩
  · refine ⟨rfl, fun w hw a sid ha hcalled => ?_⟩
    cases ha
    show identity w.os = (ctx.uid, ctx.gid)
    rw [hroot.uid, hroot.gid]
    exact hw.ids

-- DeleteObject: every file and folder is removed with the identity of the
-- storage of the object.

def DeletedAs (identity : σ → Int × Int) (ctx : MtpCtx) (storageId : Nat) (w : World σ) (c : Cmd) :
    Prop :=
  ∀ a sid, c = .act a → a.calledFor = some sid →
    a.changes = some sid ∧ a.isTruncate = false ∧ identity w.os = ctx.takenIds storageId

def removeRole : Role where
  commands c := c.isCalm = true ∨ ∃ storageId path, c = .act (.remove storageId path)
  inner _ _ := False
  adds := False
  opens := False
  makes := False
  closes := False
  switches := False
  receives := False
  sees := False

theorem deletedAs_of_isCalm (storageId : Nat) (w : World σ) (c : Cmd)
    (hc : c.isCalm = true ∨ c.isIdentity = true) : DeletedAs identity ctx storageId w c := by
  rintro a sid rfl hcalled
  rcases hc with hc | hc
  · have hnone := (Bool.and_eq_true_iff.mp hc).1
    rw [hcalled] at hnone
    cases hnone
  · cases a <;> simp_all [Cmd.isIdentity, Action.calledFor]

theorem remove_keeps (hos : os.HasIdentity identity) (storageId : Nat) :
    removeRole.Keeps (World.handle os) (DeletedAs identity ctx storageId)
      (ActsAs identity ctx (ctx.takenIds storageId)) := by
  refine actsAs_keeps hos (deletedAs_of_isCalm storageId) (fun c hc => ?_) id id id id
  rcases hc with hc | ⟨sid, path, rfl⟩
  · exact ⟨keepsIds_of_isCalm hc, fun w _ => deletedAs_of_isCalm _ w c (Or.inl hc)⟩
  · refine ⟨rfl, fun w hw a sid' ha hcalled => ?_⟩
    cases ha
    exact ⟨hcalled, rfl, hw.ids⟩

theorem deletedAs_mtpOpDeleteObject (hos : os.HasIdentity identity) (hroot : ctx.OfRoot)
    (hdr : Buffer) (hid : ∀ p, ctx.getEntryByHandle (param hdr 0) = some p →
      (ctx.entry p).storageId = storageId) :
    Valid (World.handle os) (DeletedAs identity ctx storageId)
      (fun w => w.ctx = ctx ∧ ActsAs identity ctx (0, 0) w) (mtpOpDeleteObject hdr)
      fun _ => ActsAs identity ctx (0, 0) := by
  have hcalm := @deletedAs_of_isCalm _ identity ctx storageId
  have hrestore : ∀ (ids : Int × Int) (code : Nat), Valid (World.handle os)
      (DeletedAs identity ctx storageId) (ActsAs identity ctx ids) (do
        restoreGiduid
        return ((code, []) : Response)) fun _ => ActsAs identity ctx (0, 0) := fun ids code =>
    valid_bind (valid_restoreGiduid hos hroot hcalm) fun _ => valid_ret fun _ hw => hw
  refine valid_inSession (fun w _ => hcalm w _ (Or.inl rfl)) (fun _ hw => hw.2) ?_
  refine valid_underMutex (fun w hw => ⟨hcalm w _ (Or.inl rfl), hw.1, actsAs_step hos rfl hw.2⟩)
    (fun _ hw => hw.2) ?_ fun _ w hw => ⟨hcalm w _ (Or.inl rfl), actsAs_step hos rfl hw⟩
  refine valid_getCtx_bind (fun w _ => hcalm w _ (Or.inl rfl)) fun ctx' => ?_
  refine @valid_of_fact _ _ _ _ _ _ _ _ _ (ctx' = ctx) (fun w hw => hw.2.symm.trans hw.1.1)
    fun heq => ?_
  subst heq
  refine valid_weaken (P := ActsAs identity ctx' (0, 0)) ?_ (fun w hw => hw.1.2) fun _ _ hw => hw
  split
  · exact valid_ret fun _ hw => hw
  · dsimp only
    split
    · rename_i p hp
      rw [hid p hp]
      refine valid_bind (valid_setStorageGiduid hos hroot hcalm storageId) fun set => ?_
      cases set with
      | true =>
          refine valid_bind ((made_deleteTree ⟨fun _ _ => Or.inr ⟨_, _, rfl⟩, fun _ => Or.inl rfl,
            fun _ => Or.inl rfl⟩ _).valid (remove_keeps hos storageId)) fun deleted => ?_
          exact valid_bind (valid_ret fun _ hw => hw) (hrestore _)
      | false => exact valid_bind (valid_ret fun _ hw => hw) (hrestore _)
    · exact valid_bind (valid_ret fun _ hw => hw) (hrestore _)

-- Removals within the storage.
def Footprint.inStorage (storageId : Nat) : Footprint where
  path _ := True
  changes sid := sid = storageId
  watches _ := True
  renames _ := True
  flags _ _ := True
  allocates _ _ := True
  searches _ _ := True

theorem calls_mtpOpDeleteObject (hos : os.HasIdentity identity) (hroot : ctx.OfRoot)
    (ho : ctx.Ordered) (hdr : Buffer) {t : σ} (hids : identity t = (0, 0)) :
    Safe (World.handle os) (CalledAs identity ctx) (mtpOpDeleteObject hdr) ⟨ctx, t⟩ ∧
      ActsAs identity ctx (0, 0) (exec (World.handle os) (mtpOpDeleteObject hdr) ⟨ctx, t⟩).2 := by
  obtain ⟨storageId, hid⟩ : ∃ storageId, ∀ p, ctx.getEntryByHandle (param hdr 0) = some p →
      (ctx.entry p).storageId = storageId := by
    cases ctx.getEntryByHandle (param hdr 0) with
    | none => exact ⟨0, fun p hp => by cases hp⟩
    | some q => exact ⟨(ctx.entry q).storageId, fun p hp => by cases hp; rfl⟩
  obtain ⟨hsafe, hend⟩ := deletedAs_mtpOpDeleteObject hos hroot hdr hid ⟨ctx, t⟩
    ⟨rfl, rfl, rfl, rfl, hids⟩
  have halters : ∀ p, ctx.getEntryByHandle (param hdr 0) = some p →
      ctx.checkHandleAccess none (param hdr 0) true = none →
      Alters (Footprint.inStorage storageId) ctx p := fun p hp _ =>
    ⟨⟨(ho.getEntryByHandle_live hp).1.1, fun _ => trivial⟩, hid p hp⟩
  have hobeys := @obeys_mtpOpDeleteObject _ os _ _ ho hdr halters (fun _ => ⟨trivial, trivial⟩)
    (fun _ _ => trivial) t
  refine ⟨fun step hstep a sid ha hcalled => ?_, hend⟩
  obtain ⟨hchanges, htruncate, hidentity⟩ := hsafe step hstep a sid ha hcalled
  have hwithin := (hobeys.1 step hstep).1
  rw [ha] at hwithin
  have hsid : sid = storageId := hwithin.2 sid (by rw [hchanges]; rfl)
  rw [MtpCtx.callIds, htruncate, if_neg Bool.false_ne_true, hsid]
  exact hidentity

theorem calls_performOperation (hos : os.HasIdentity identity) (hroot : ctx.OfRoot)
    (ho : ctx.Ordered) (hdr : Buffer) (rawsize : Nat) {t : σ} (hids : identity t = (0, 0)) :
    Safe (World.handle os) (CalledAs identity ctx) (performOperation hdr rawsize) ⟨ctx, t⟩ ∧
      ActsAs identity ctx (0, 0)
        (exec (World.handle os) (performOperation hdr rawsize) ⟨ctx, t⟩).2 := by
  have hstart : ActsAs identity ctx (0, 0) ⟨ctx, t⟩ := ⟨rfl, rfl, rfl, hids⟩
  by_cases hdelete : hdrCode hdr = MTP_OPERATION_DELETE_OBJECT
  · have hop : operations.lookup (hdrCode hdr) = some fun hdr _ => mtpOpDeleteObject hdr := by
      rw [hdelete]
      rfl
    rw [performOperation_eq hop]
    exact calls_mtpOpDeleteObject hos hroot ho hdr hids
  · by_cases htruncate : hdrCode hdr = MTP_OPERATION_TRUNCATE_OBJECT
    · have hop : operations.lookup (hdrCode hdr) = some fun hdr _ => mtpOpTruncateObject hdr := by
        rw [htruncate]
        rfl
      rw [performOperation_eq hop]
      exact (made_mtpOpTruncateObject (fun _ _ _ => Or.inr ⟨_, _, _, rfl⟩) hdr).valid
        (truncate_keeps hos hroot) _ hstart
    · exact (made_performOperation (callRole_performs hdelete htruncate) rawsize).valid
        (call_keeps hos hroot) _ hstart

-- A request is served with the own identity before it and after it.
theorem calls_mtpIncomingPacket (hos : os.HasIdentity identity) (hroot : w.ctx.OfRoot)
    (ho : w.ctx.Ordered) (hids : identity w.os = (0, 0)) (packet : List UInt8) :
    Safe (World.handle os) (CalledAs identity w.ctx) (mtpIncomingPacket packet) w ∧
      ActsAs identity w.ctx (0, 0)
        (exec (World.handle os) (mtpIncomingPacket packet) w).2 := by
  let ctx : MtpCtx := { w.ctx with rdbuffer := w.ctx.header packet }
  have hvalid : Valid (World.handle os) (CalledAs identity w.ctx) (fun w' => w' = w)
      (mtpIncomingPacket packet) fun _ => ActsAs identity w.ctx (0, 0) := by
    refine valid_getCtx_bind (fun w' _ => calledAs_of_isCalm w' _ (Or.inl rfl)) fun ctx' => ?_
    refine @valid_of_fact _ _ _ _ _ _ _ _ _ (ctx' = w.ctx)
      (fun w' hw => hw.2.symm.trans (by rw [hw.1]))
      fun heq => ?_
    subst heq
    have hset : Valid (World.handle os) (CalledAs identity w.ctx)
      (fun w' => w' = w ∧ w'.ctx = w.ctx)
        (M.cmd (.setRdbuffer (w.ctx.header packet))) fun _ w' => w' = ⟨ctx, w.os⟩ := by
      refine valid_perform (fun w' _ => calledAs_of_isCalm w' _ (Or.inl rfl)) ?_
      rintro w' ⟨rfl, -⟩
      rfl
    refine valid_bind hset fun _ => ?_
    split
    · have hperform : Valid (World.handle os) (CalledAs identity w.ctx)
          (fun w' => w' = ⟨ctx, w.os⟩)
          (performOperation (w.ctx.header packet) (packet.take w.ctx.usbRdBufferMaxSize).length)
          fun _ => ActsAs identity w.ctx (0, 0) := by
        rintro w' rfl
        obtain ⟨hsafe, hend⟩ := @calls_performOperation _ _ _ ctx hos ⟨hroot.uid, hroot.gid⟩
          ⟨ho.slots, ho.stored⟩ (w.ctx.header packet)
          (packet.take w.ctx.usbRdBufferMaxSize).length _ hids
        exact ⟨hsafe, hend.storages, hend.own, hend.defaults, hend.ids⟩
      exact valid_bind hperform fun response =>
        (made_sendResponse _ _).valid (calm_keeps hos (0, 0))
    · refine valid_ret ?_
      rintro w' rfl
      exact ⟨rfl, rfl, rfl, hids⟩
  exact hvalid w rfl

-- The events

-- A daemon of root between two events.
structure AsRoot (identity : σ → Int × Int) (w : World σ) : Prop where
  regular : w.ctx.Regular
  root : w.ctx.OfRoot
  ids : identity w.os = (0, 0)

-- Other processes do not change the identity of the daemon.
def Event.LeavesIdentity (identity : σ → Int × Int) : Event σ → Prop
  | .outside change => ∀ t, identity (change t) = identity t
  | _ => True

def manageRole : Role where
  commands c := c.isIdentity = false
  inner _ _ := False
  adds := False
  opens := False
  makes := False
  closes := False
  switches := False
  receives := False
  sees := False

theorem manage_keeps (hos : os.HasIdentity identity) :
    manageRole.Keeps (World.handle os) (fun _ _ => True)
      fun w => w.ctx.OfRoot ∧ identity w.os = (0, 0) where
  look _ hw := ⟨trivial, hw⟩
  command c hc w hw := by
    have hidentity : c.isIdentity = false := by
      rcases hc with hc | hc | hc
      · cases c with
        | act a => cases a <;> simp_all [Cmd.isOrdinary, Action.isOrdinary, Cmd.isIdentity]
        | _ => rfl
      · cases c with
        | act a => cases a <;> simp_all [Cmd.isSending, Cmd.isIdentity]
        | _ => rfl
      · exact hc
    refine ⟨trivial, ?_⟩
    cases c with
    | act a => exact ⟨hw.1, (hos.kept a w.os hidentity).trans hw.2⟩
    | _ => exact ⟨⟨hw.1.uid, hw.1.gid⟩, hw.2⟩
  store h := h.elim
  add h := h.elim
  openFile h := h.elim
  closeFile h := h.elim
  makeFile h := h.elim
  bracket h := h.elim
  restore h := h.elim

theorem ActsAs.ofRoot {w' : World σ} (h : ActsAs identity w.ctx ids w') (hroot : w.ctx.OfRoot) :
    w'.ctx.OfRoot := by
  obtain ⟨huid, hgid⟩ := Prod.mk.inj h.own
  exact ⟨huid.trans hroot.uid, hgid.trans hroot.gid⟩

theorem asRoot_step (hos : os.HasIdentity identity) (hw : AsRoot identity w) {event : Event σ}
    (hout : event.LeavesIdentity identity) : AsRoot identity (World.step os w event) := by
  have hregular := @regular_step _ os _ hw.regular event
  cases event with
  | packet bytes =>
      have hend := (calls_mtpIncomingPacket hos hw.root hw.regular.ordered hw.ids bytes).2
      exact ⟨hregular, hend.ofRoot hw.root, hend.ids⟩
  | inotify event =>
      have hend : ActsAs identity w.ctx (0, 0) (exec (World.handle os) (inotifyThread event) w).2 :=
        ((made_inotifyThread trivial (fun _ => rfl) event).valid (calm_keeps hos (0, 0)) w
          ⟨rfl, rfl, rfl, hw.ids⟩).2
      exact ⟨hregular, hend.ofRoot hw.root, hend.ids⟩
  | message text =>
      have hend := ((made_msgqueueThread ⟨fun _ _ => rfl, fun _ => rfl, fun _ _ => rfl⟩ text).valid
        (manage_keeps hos) w ⟨hw.root, hw.ids⟩).2
      exact ⟨hregular, hend.1, hend.2⟩
  | outside change => exact ⟨hregular, hw.root, (hout w.os).trans hw.ids⟩

theorem asRoot_run (hos : os.HasIdentity identity) (hw : AsRoot identity w)
    (events : List (Event σ)) (hout : ∀ event ∈ events, event.LeavesIdentity identity) :
    AsRoot identity (run (World.step os) w events) := by
  induction events generalizing w with
  | nil => exact hw
  | cons event rest ih =>
      exact ih (asRoot_step hos hw (hout event List.mem_cons_self))
        fun event' h => hout event' (List.mem_cons_of_mem _ h)

-- Each call for an object of a storage is made with the configured identity
-- exactly where the group of the storage is not set or is its user, and for
-- TruncateObject where the storage has the identity of the daemon. The daemon's
-- own is back after every request.
theorem calls_as_configured (hos : os.HasIdentity identity) {start : World σ}
    (hstart : start.ctx.Initial) (hroot : start.ctx.OfRoot) (hids : identity start.os = (0, 0))
    (events : List (Event σ)) (hout : ∀ event ∈ events, event.LeavesIdentity identity)
    (packet : List UInt8) :
    let w := run (World.step os) start events
    (∀ step ∈ w.trace os (.packet packet), ∀ a storageId, step.2 = .act a →
      a.calledFor = some storageId →
        (identity step.1.os = w.ctx.configuredIds storageId ↔ w.ctx.Fits a storageId)) ∧
      identity (World.step os w (.packet packet)).os = w.ctx.ownIds := by
  intro w
  have hw : AsRoot identity w := asRoot_run hos ⟨hstart.regular, hroot, hids⟩ events hout
  obtain ⟨hsafe, hend⟩ := calls_mtpIncomingPacket hos hw.root hw.regular.ordered hw.ids packet
  refine ⟨fun step hstep a storageId ha hcalled => ?_, ?_⟩
  · rw [hsafe step hstep a storageId ha hcalled]
    exact w.ctx.callIds_eq_iff a storageId
  · rw [MtpCtx.ownIds, hw.root.uid, hw.root.gid]
    exact hend.ids

section Samples

-- The system in memory with the identity of the daemon.
def rootOs : Os (MemSystem × Int × Int) where
  query q s := s.1.query q
  act a s :=
    match a with
    | .setfsuid uid => (s.2.1, s.1, uid, s.2.2)
    | .setfsgid gid => (s.2.2, s.1, s.2.1, gid)
    | a => ((s.1.act a).1, (s.1.act a).2, s.2)

theorem rootOs_hasIdentity : rootOs.HasIdentity Prod.snd where
  setfsuid _ _ := ⟨rfl, rfl⟩
  setfsgid _ _ := ⟨rfl, rfl⟩
  kept a t ha := by
    cases a with
    | setfsuid uid => cases ha
    | setfsgid gid => cases ha
    | _ => rfl

-- The storage "A" has the user and the group 1000, "B" the group 100.
def groupStorages (i : Fin MAX_STORAGE_NB) : MtpStorage :=
  match i.val with
  | 0 => ⟨some A_ROOT, A_STORAGE, FIRST_STORAGE_ID + i, 0, 1000, 1000⟩
  | 1 => ⟨some B_ROOT, B_STORAGE, FIRST_STORAGE_ID + i, 0, 1000, 100⟩
  | _ => freeSlot

def rootStart : World (MemSystem × Int × Int) :=
  ⟨{ startCtx groupStorages with uid := 0, gid := 0 }, sampleSystem, 0, 0⟩

theorem rootStart_initial : rootStart.ctx.Initial :=
  ⟨rfl, show ∀ i, ((rootStart.ctx.storages i).rootPath.isSome = true →
    (rootStart.ctx.storages i).storageId = FIRST_STORAGE_ID + i) by decide +kernel⟩

def listRoot (storageId : Nat) : List (Event (MemSystem × Int × Int)) :=
  [.packet (commandPacket MTP_OPERATION_OPEN_SESSION [1]),
    .packet (commandPacket MTP_OPERATION_GET_OBJECT_HANDLES [storageId, 0, 0])]

theorem calls_as_configured_sample :
    let w := run (World.step rootOs) rootStart (listRoot 0xFFFF0001)
    let packet := commandPacket MTP_OPERATION_GET_OBJECT [1]
    (∀ step ∈ w.trace rootOs (.packet packet), ∀ a storageId, step.2 = .act a →
      a.calledFor = some storageId →
        (step.1.os.2 = w.ctx.configuredIds storageId ↔ w.ctx.Fits a storageId)) ∧
      (World.step rootOs w (.packet packet)).os.2 = w.ctx.ownIds :=
  calls_as_configured rootOs_hasIdentity rootStart_initial ⟨rfl, rfl⟩ rfl (listRoot 0xFFFF0001)
    (by simp [listRoot, Event.LeavesIdentity]) (commandPacket MTP_OPERATION_GET_OBJECT [1])

def isMiscalled (w : World (MemSystem × Int × Int)) (step : World (MemSystem × Int × Int) × Cmd) :
    Bool :=
  match step.2 with
  | .act a => a.calledFor.any fun storageId => step.1.os.2 != w.ctx.configuredIds storageId
  | _ => false

theorem exists_of_isMiscalled {w : World (MemSystem × Int × Int)}
    {steps : List (World (MemSystem × Int × Int) × Cmd)} (h : steps.any (isMiscalled w) = true) :
    ∃ step ∈ steps, ∃ a storageId, step.2 = .act a ∧ a.calledFor = some storageId ∧
      step.1.os.2 ≠ w.ctx.configuredIds storageId := by
  obtain ⟨step, hstep, hbad⟩ := List.any_eq_true.mp h
  rw [isMiscalled] at hbad
  split at hbad
  · rename_i a ha
    cases hcalled : a.calledFor with
    | none =>
        rw [hcalled] at hbad
        cases hbad
    | some storageId =>
        rw [hcalled] at hbad
        exact ⟨step, hstep, a, storageId, ha, hcalled, by simpa using hbad⟩
  · cases hbad

-- The file of "B" is opened with the group 1000 instead of 100, and it is
-- truncated by root.
theorem not_as_configured_of_group :
    let w := run (World.step rootOs) rootStart (listRoot 0xFFFF0002)
    ∀ packet ∈ [commandPacket MTP_OPERATION_GET_OBJECT [1],
        commandPacket MTP_OPERATION_TRUNCATE_OBJECT [1, 1, 0]],
      ∃ step ∈ w.trace rootOs (.packet packet), ∃ a storageId, step.2 = .act a ∧
        a.calledFor = some storageId ∧ step.1.os.2 ≠ w.ctx.configuredIds storageId := by
  intro w packet hpacket
  refine exists_of_isMiscalled ?_
  rcases List.mem_cons.mp hpacket with rfl | hpacket
  · decide +kernel
  · rw [List.mem_singleton.mp hpacket]
    decide +kernel

end Samples

end Umtp
