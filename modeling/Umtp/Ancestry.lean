import Mathlib.Data.List.Find
import Umtp.Reachable

namespace Umtp

open Lib Lib.Prog Handles

variable {σ α : Type} {os : Os σ} {ctx : MtpCtx} {w : World σ}

-- Entries are added at the roots of storages and below live entries only.

theorem proper_of_manages {m : Management} {c : Cmd} (hc : c.Manages m) : c.Proper ctx := by
  cases c with
  | db op =>
      cases op with
      | allocEntry mem fileinfo parent storageId => exact hc.elim
      | renameEntry mem p name => exact hc.elim
      | _ => trivial
  | _ => trivial

theorem proper_of_managed {prog : M α} (hp : Managed slotManagement prog) (hr : w.ctx.Regular) :
    Safe (World.handle os) (fun w c => c.Proper w.ctx) prog w := by
  have hv : Valid (World.handle os) (fun w c => c.Proper w.ctx) (fun w => w.ctx.Regular) prog
      fun _ w => True ∧ w.ctx.Regular := by
    refine valid_of_runs hp fun w c hr hc => ?_
    have hids : w.ctx.HasIds slotManagement := hr.slotIds
    refine ⟨proper_of_manages hc, ?_, ordered_step hr.ordered hc, hasIds_step hids hc,
      recorded_step c hr.recorded⟩
    cases c with
    | getCtx => exact hids
    | _ => trivial
  exact (hv w hr).1

theorem Obeys.proper {fp : Footprint} {prog : M α} (h : Obeys os fp w.ctx prog) :
    Safe (World.handle os) (fun w c => c.Proper w.ctx) prog w :=
  fun step hm => ((h w.os).1 step hm).2

theorem proper_mtpIncomingPacket (hr : w.ctx.Regular) (packet : List UInt8) :
    Safe (World.handle os) (fun w c => c.Proper w.ctx) (mtpIncomingPacket packet) w := by
  by_cases hcode : hdrCode (w.ctx.header packet) = MTP_OPERATION_OPEN_SESSION ∨
      hdrCode (w.ctx.header packet) = MTP_OPERATION_CLOSE_SESSION
  · have hset : Managed slotManagement (M.cmd (.setRdbuffer (w.ctx.header packet))) :=
      ⟨trivial, fun _ _ => trivial⟩
    have hrest : Managed slotManagement (do
        M.cmd (.setRdbuffer (w.ctx.header packet))
        if packet.take w.ctx.usbRdBufferMaxSize ≠ [] then
          processInPacket (w.ctx.header packet)
            (packet.take w.ctx.usbRdBufferMaxSize).length) := by
      refine uses_bind hset fun _ => ?_
      split
      · exact uses_bind (managed_performOperation trivial _ hcode) fun _ =>
          manages_of_within (uses_sendResponse _ _)
      · exact uses_pure _
    have hproper := @proper_of_managed _ _ os _ _ hrest hr
    intro step hm
    rcases List.mem_cons.mp hm with rfl | hm
    · trivial
    · exact hproper step hm
  · rw [not_or] at hcode
    exact (obeys_mtpIncomingPacket hr.ordered packet hcode.1 hcode.2).proper

theorem proper_event (hr : w.ctx.Regular) (event : Event σ) :
    Safe (World.handle os) (fun w c => c.Proper w.ctx) event.program w := by
  cases event with
  | packet bytes => exact proper_mtpIncomingPacket hr bytes
  | inotify event => exact (obeys_inotifyThread hr.ordered event).proper
  | message text => exact proper_of_managed (managed_msgqueueThread text fun _ _ => rfl) hr
  | outside change => exact fun step hm => absurd hm List.not_mem_nil

theorem ordered_of_proper {c : Cmd} (ho : w.ctx.Ordered) (hc : c.Proper w.ctx) :
    (World.handle os c w).2.ctx.Ordered := by
  cases c with
  | db op =>
      refine (Later.of_applyDb ho ?_).ordered
      cases op with
      | renameEntry mem p name => exact hc
      | _ => trivial
  | flagDeleted site p => exact (@Later.of_applyDb _ ho (.setDeleted p) trivial).ordered
  | initFsDb => exact ⟨Slots.init, Stored.init⟩
  | dropFsDb => exact ⟨Slots.init, Stored.init⟩
  | _ => exact ⟨ho.slots, ho.stored⟩

-- The handles of the parents are below those of the entries.
def MtpCtx.Rises (ctx : MtpCtx) : Prop :=
  ∀ p ∈ ctx.db.entryList,
    (ctx.entry p).parent = 0 ∨ (ctx.entry p).parent < (ctx.entry p).handle

-- This holds as long as the counter of the handles has not wrapped.
def MtpCtx.Rising (ctx : MtpCtx) : Prop :=
  ctx.db.entryList.length < UINT32_SIZE - 1 → ctx.Rises

theorem MtpCtx.Recorded.numbered (hr : ctx.Recorded)
    (hlen : ctx.db.entryList.length < UINT32_SIZE - 1) : ∃ objects, Numbered ctx.db objects := by
  obtain ⟨ops, hops⟩ := hr
  have hrun : (run DbOp.record (initFsDb, []) ops).1 = ctx.db := by
    rw [DbOp.record_fst, hops]
  have hn := DbOp.numbered_run Slots.init Numbered.init ops (by rw [hrun]; exact hlen)
  rw [hrun] at hn
  exact ⟨_, hn⟩

-- Every handle was taken from the counter.
theorem MtpCtx.Recorded.handle_lt (hr : ctx.Recorded)
    (hlen : ctx.db.entryList.length < UINT32_SIZE - 1) {p : EntryPtr}
    (hp : p ∈ ctx.db.entryList) : (ctx.entry p).handle < ctx.db.nextHandle ∧
      (ctx.entry p).handle ≤ ctx.db.entryList.length := by
  obtain ⟨objects, hn⟩ := hr.numbered hlen
  have hnext := hn.nextHandle
  have hfewer := hn.fewer
  by_cases hobject : p ∈ objects
  · have hhandle := hn.handles p hobject
    rw [entry]
    omega
  · have hroot := hn.roots p hp hobject
    rw [entry, hroot.1]
    omega

theorem rising_step {db : FsHandlesDb} (hs : Slots db) (op : DbOp)
    (hrising : ∀ p ∈ db.entryList, (db.pool p).parent = 0 ∨ (db.pool p).parent < (db.pool p).handle)
    (hnew : ∀ mem fileinfo parent storageId, op = .allocEntry mem fileinfo parent storageId →
      parent = 0 ∨ parent < db.nextHandle) :
    ∀ p ∈ (op.step db).entryList, ((op.step db).pool p).parent = 0 ∨
      ((op.step db).pool p).parent < ((op.step db).pool p).handle := by
  intro p hp
  rcases DbOp.listed_step hs op hp with hmem | ⟨-, hcreated⟩
  · obtain ⟨hhandle, hparent⟩ := Numbered.handle_eq (DbOp.frozen_step hs op) hmem
    rw [hhandle, hparent]
    exact hrising p hmem
  · cases op with
    | allocEntry mem fileinfo parent storageId =>
        rw [← Option.some.inj hcreated]
        exact hnew _ _ _ _ rfl
    | allocRootEntry mem storageId =>
        rw [← Option.some.inj hcreated]
        exact Or.inl rfl
    | _ => simp [DbOp.created] at hcreated

theorem rising_handle {c : Cmd} (ho : w.ctx.Ordered) (hr : w.ctx.Recorded) (hrising : w.ctx.Rising)
    (hc : c.Proper w.ctx) : (World.handle os c w).2.ctx.Rising := by
  have hop : ∀ op : DbOp, Cmd.Proper w.ctx (.db op) → (w.ctx.applyDb op).Rising := by
    intro op hproper hlen
    rcases w.ctx.applyDb_cases op with heq | heq
    · rw [heq] at hlen
      have hold := hrising hlen
      intro p hp
      rw [heq] at hp
      rw [MtpCtx.entry, heq]
      exact hold p hp
    · have hgrow := (DbOp.frozen_step ho.slots op).suffix.length_le
      rw [heq] at hlen
      have hshort : w.ctx.db.entryList.length < UINT32_SIZE - 1 := by omega
      have hstep := rising_step ho.slots op (hrising hshort) fun mem fileinfo parent
        storageId h => by
        subst h
        rcases hproper with hzero | ⟨q, hlive, rfl⟩
        · exact Or.inl hzero
        · exact Or.inr (hr.handle_lt hshort hlive.1).1
      intro p hp
      rw [heq] at hp
      rw [MtpCtx.entry, heq]
      exact hstep p hp
  cases c with
  | db op => exact hop op hc
  | flagDeleted site p => exact hop (.setDeleted p) trivial
  | initFsDb => exact fun _ p hp => absurd hp List.not_mem_nil
  | dropFsDb => exact fun _ p hp => absurd hp List.not_mem_nil
  | _ => exact hrising

-- What holds in every state of the daemon.
structure MtpCtx.WellGrown (ctx : MtpCtx) : Prop extends ctx.Regular where
  rising : ctx.Rising

theorem wellGrown_step (hw : w.ctx.WellGrown) (event : Event σ) :
    (World.step os w event).ctx.WellGrown := by
  have hkeeps := @exec_keeps _ _ _ _ (World.handle os) (fun w c => c.Proper w.ctx)
    (fun w : World σ => w.ctx.Ordered ∧ w.ctx.Recorded ∧ w.ctx.Rising)
    (fun w c hi hc => ⟨ordered_of_proper hi.1 hc, recorded_step c hi.2.1,
      rising_handle hi.1 hi.2.1 hi.2.2 hc⟩) event.program w (proper_event hw.toRegular event)
      ⟨hw.ordered, hw.recorded, hw.rising⟩
  refine ⟨regular_step hw.toRegular event, ?_⟩
  cases event with
  | outside change => exact hw.rising
  | _ => exact hkeeps.2.2

theorem wellGrown_run (hw : w.ctx.WellGrown) (events : List (Event σ)) :
    (run (World.step os) w events).ctx.WellGrown := by
  induction events generalizing w with
  | nil => exact hw
  | cons event rest ih => exact ih (wellGrown_step hw event)

theorem MtpCtx.Initial.wellGrown (hi : ctx.Initial) : ctx.WellGrown := by
  have hdb : ctx.db = initFsDb := by rw [MtpCtx.db, hi.1]; rfl
  refine ⟨hi.regular, fun _ p hp => ?_⟩
  rw [hdb] at hp
  cases hp

-- The climb to the root

namespace MtpCtx

theorem climb_top {p : EntryPtr} (h : (ctx.entry p).parent = 0) (fuel : Nat) :
    ctx.climb fuel p = [p] := by
  cases fuel with
  | zero => rfl
  | succ fuel => rw [climb, if_neg fun hup => hup.1 h]

theorem climb_under {p q : EntryPtr} (hzero : (ctx.entry p).parent ≠ 0)
    (hno : (ctx.entry p).parent ≠ NO_HANDLE)
    (hq : ctx.getEntryByHandle (ctx.entry p).parent = some q) (fuel : Nat) :
    ctx.climb (fuel + 1) p = p :: ctx.climb fuel q := by
  rw [climb, if_pos ⟨hzero, hno⟩, hq]

-- Each step leads to a smaller handle, so that the climb ends by itself when there
-- are as many turns.
theorem climb_congr (ho : ctx.Ordered) (hrises : ctx.Rises) {p : EntryPtr}
    (hp : p ∈ ctx.db.entryList) {fuel fuel' : Nat} (hfuel : (ctx.entry p).handle ≤ fuel)
    (hfuel' : (ctx.entry p).handle ≤ fuel') : ctx.climb fuel p = ctx.climb fuel' p := by
  generalize hhandle : (ctx.entry p).handle = handle at hfuel hfuel'
  induction handle using Nat.strong_induction_on generalizing p fuel fuel' with
  | _ handle ih =>
      rcases hrises p hp with hzero | hless
      · rw [climb_top hzero, climb_top hzero]
      · obtain ⟨fuel, rfl⟩ := Nat.exists_eq_succ_of_ne_zero (by omega : fuel ≠ 0)
        obtain ⟨fuel', rfl⟩ := Nat.exists_eq_succ_of_ne_zero (by omega : fuel' ≠ 0)
        rw [climb, climb]
        split
        · split
          · rename_i q hq
            obtain ⟨hlive, hq, -⟩ := ho.getEntryByHandle_live hq
            exact congrArg (p :: ·) (ih (ctx.entry q).handle (by omega) hlive.1 rfl (by omega)
              (by omega))
          · rfl
        · rfl

theorem handle_of_mem_climb (ho : ctx.Ordered) (hrises : ctx.Rises) {p q : EntryPtr}
    (hp : p ∈ ctx.db.entryList) {fuel : Nat} (hq : q ∈ ctx.climb fuel p) :
    (ctx.entry q).handle ≤ (ctx.entry p).handle := by
  induction fuel generalizing p with
  | zero => rw [List.mem_singleton.mp hq]
  | succ fuel ih =>
      rcases hrises p hp with hzero | hless
      · rw [climb_top hzero] at hq
        rw [List.mem_singleton.mp hq]
      · rw [climb] at hq
        split at hq
        · split at hq
          · rename_i parent hparent
            obtain ⟨hlive, hhandle, -⟩ := ho.getEntryByHandle_live hparent
            rcases List.mem_cons.mp hq with rfl | hq
            · exact le_refl _
            · have hle := ih hlive.1 hq
              omega
          · rw [List.mem_singleton.mp hq]
        · rw [List.mem_singleton.mp hq]

-- The path of an entry is the one of its parent and its name.
theorem relativePath_under (ho : ctx.Ordered) (hrises : ctx.Rises) {p q : EntryPtr}
    (hp : p ∈ ctx.db.entryList) (hfuel : (ctx.entry p).handle ≤ ctx.db.entryList.length)
    (hzero : (ctx.entry p).parent ≠ 0) (hno : (ctx.entry p).parent ≠ NO_HANDLE)
    (hq : ctx.getEntryByHandle (ctx.entry p).parent = some q) (name : CString) :
    ctx.relativePath p name = ctx.relativePath q (ctx.entry q).name ++ SLASH :: name := by
  obtain ⟨hlive, hhandle, -⟩ := ho.getEntryByHandle_live hq
  have hless : (ctx.entry q).handle < (ctx.entry p).handle := by
    rcases hrises p hp with h | h
    · exact absurd h hzero
    · omega
  obtain ⟨turns, hturns⟩ := Nat.exists_eq_succ_of_ne_zero (by omega : ctx.db.entryList.length ≠ 0)
  have hclimb : ctx.climb ctx.db.entryList.length p =
      p :: ctx.climb ctx.db.entryList.length q := by
    rw [hturns, climb_under hzero hno hq,
      @climb_congr _ ho hrises _ hlive.1 turns turns.succ (by omega) (by omega)]
  have hothers : ∀ r ∈ ctx.climb ctx.db.entryList.length q, r ≠ p := by
    intro r hr heq
    have hle := handle_of_mem_climb ho hrises hlive.1 hr
    rw [heq] at hle
    omega
  rw [relativePath, hclimb, List.reverse_cons, List.flatMap_append, relativePath]
  congr 1
  · refine List.flatMap_congr fun r hr => ?_
    rw [if_neg (hothers r (List.mem_reverse.mp hr))]
    split
    · rename_i heq
      rw [heq]
    · rfl
  · rw [List.flatMap_singleton, if_pos rfl]

-- Looked at from the root down, the path of an entry stays what it was while other
-- entries are added.
theorem climb_later {ctx' : MtpCtx} (ho : ctx.Ordered) (hrises : ctx.Rises)
    (hparent : ∀ p ∈ ctx.db.entryList, (ctx'.entry p).parent = (ctx.entry p).parent)
    (hlook : ∀ p ∈ ctx.db.entryList, ∀ handle < (ctx.entry p).handle,
      ctx'.getEntryByHandle handle = ctx.getEntryByHandle handle) {p : EntryPtr}
    (hp : p ∈ ctx.db.entryList) (fuel : Nat) : ctx'.climb fuel p = ctx.climb fuel p := by
  induction fuel generalizing p with
  | zero => rfl
  | succ fuel ih =>
      rcases hrises p hp with hzero | hless
      · rw [climb_top hzero, climb_top ((hparent p hp).trans hzero)]
      · rw [climb, climb, hparent p hp, hlook p hp _ hless]
        split
        · split
          · rename_i q hq
            exact congrArg (p :: ·) (ih (ho.getEntryByHandle_live hq).1.1)
          · rfl
        · rfl

theorem mem_climb (ho : ctx.Ordered) {p q : EntryPtr} (hp : p ∈ ctx.db.entryList) {fuel : Nat}
    (hq : q ∈ ctx.climb fuel p) : q ∈ ctx.db.entryList := by
  induction fuel generalizing p with
  | zero => rwa [List.mem_singleton.mp hq]
  | succ fuel ih =>
      rw [climb] at hq
      split at hq
      · split at hq
        · rename_i parent hparent
          rcases List.mem_cons.mp hq with rfl | hq
          · exact hp
          · exact ih (ho.getEntryByHandle_live hparent).1.1 hq
        · rwa [List.mem_singleton.mp hq]
      · rwa [List.mem_singleton.mp hq]

theorem relativePath_later {ctx' : MtpCtx} (ho : ctx.Ordered) (hrises : ctx.Rises)
    (hentry : ∀ p ∈ ctx.db.entryList, ctx'.entry p = ctx.entry p)
    (hlook : ∀ p ∈ ctx.db.entryList, ∀ handle < (ctx.entry p).handle,
      ctx'.getEntryByHandle handle = ctx.getEntryByHandle handle)
    (hgrow : ctx.db.entryList.length ≤ ctx'.db.entryList.length) {p : EntryPtr}
    (hp : p ∈ ctx.db.entryList) (hfuel : (ctx.entry p).handle ≤ ctx.db.entryList.length)
    (name : CString) : ctx'.relativePath p name = ctx.relativePath p name := by
  have hclimb : ctx'.climb ctx'.db.entryList.length p = ctx.climb ctx.db.entryList.length p := by
    rw [climb_later ho hrises (fun q hq => by rw [hentry q hq]) hlook hp]
    exact climb_congr ho hrises hp (by omega) hfuel
  rw [relativePath, relativePath, hclimb]
  refine List.flatMap_congr fun q hq => ?_
  rw [hentry q (mem_climb ho hp (List.mem_reverse.mp hq))]

end MtpCtx

-- A new entry is found under its own handle only.
theorem getEntryByHandle_allocEntry {db : FsHandlesDb} (hs : Slots db) (hst : Stored db)
    (mem : AllocMem) (fileinfo : FileFoundInfo) (parent storageId : Nat) {handle : Nat}
    (hne : handle ≠ db.nextHandle) (storageRoot : Nat → Option CString) :
    (db.allocEntry mem fileinfo parent storageId).2.getEntryByHandle storageRoot handle =
      db.getEntryByHandle storageRoot handle := by
  have hmem : ∀ q ∈ (db.hashTableByHandle (bucketOfHandle handle)).entries, q ∈ db.entryList :=
    fun q hq => (hst.byHandle.mem _ q hq).1
  rcases FsHandlesDb.allocEntry_cases hs mem fileinfo parent storageId with
    ⟨p, db', heq, -, ha, -, -, htable⟩ | ⟨db', heq, -, hn⟩
  · have hold : ∀ q ∈ db.entryList, db'.pool q = db.pool q := fun q hq =>
      ha.pool_of_ne q fun h => ha.fresh (h ▸ hq)
    have hself : (db'.pool p).handle = db.nextHandle := by
      rw [ha.pool_self]
      rfl
    have hbucket : (db'.hashTableByHandle (bucketOfHandle handle)).entries =
          (db.hashTableByHandle (bucketOfHandle handle)).entries ∨
        (db'.hashTableByHandle (bucketOfHandle handle)).entries =
          (db.hashTableByHandle (bucketOfHandle handle)).entries ++ [p] := by
      rw [htable]
      by_cases hindex : bucketOfHandle handle = bucketOfHandle db.nextHandle
      · rw [hindex, Function.update_self]
        exact (HashNode.insertEntryGeneric_cases (hst.soundHandle _) p _).2
      · rw [Function.update_of_ne hindex]
        exact Or.inl rfl
    rw [heq, FsHandlesDb.getEntryByHandle, FsHandlesDb.getEntryByHandle]
    have hsame : ((db.hashTableByHandle (bucketOfHandle handle)).entries.find? fun q =>
        !(db'.pool q).isDeleted && (db'.pool q).handle == handle &&
          (storageRoot (db'.pool q).storageId).isSome) =
        (db.hashTableByHandle (bucketOfHandle handle)).entries.find? fun q =>
          !(db.pool q).isDeleted && (db.pool q).handle == handle &&
            (storageRoot (db.pool q).storageId).isSome :=
      List.find?_congr fun q hq => by rw [hold q (hmem q hq)]
    rcases hbucket with hbucket | hbucket
    · rw [hbucket, hsame]
    · rw [hbucket, List.find?_append, hsame]
      have hnone : ((db'.pool p).handle == handle) = false := by
        rw [hself, beq_eq_false_iff_ne]
        exact hne.symm
      simp [hnone]
  · rw [heq, FsHandlesDb.getEntryByHandle, FsHandlesDb.getEntryByHandle, hn.hashTableByHandle]
    exact List.find?_congr fun q hq => by rw [hn.pool q (hmem q hq)]

end Umtp
