import Umtp.Uploads
import Umtp.Encoding
import Umtp.Mutex
import Umtp.Scans
import Umtp.Lib.Mirror

namespace Umtp

open Lib Lib.Prog Handles Text

variable {σ α β : Type} {os : Os σ} {ctx ctx' ctx'' : MtpCtx} {w : World σ}

section Containers

def eventCode : UpdateKind → Nat
  | .added => MTP_EVENT_OBJECT_ADDED
  | .removed => MTP_EVENT_OBJECT_REMOVED
  | .changed => MTP_EVENT_OBJECT_INFO_CHANGED

-- The container of an event: its size and the other fields.
def eventFields (sessionId code : Nat) (parameters : List Nat) : List UInt8 :=
  littleEndian 2 MTP_CONTAINER_TYPE_EVENT ++ (littleEndian 2 code ++ (littleEndian 4 sessionId ++
    parameters.flatMap (littleEndian 4)))

def eventContainer (sessionId code : Nat) (parameters : List Nat) : List UInt8 :=
  littleEndian 4 (MTP_HEADER_SIZE + 4 * parameters.length) ++ eventFields sessionId code parameters

theorem length_eventFields (sessionId code : Nat) (parameters : List Nat) :
    4 + (eventFields sessionId code parameters).length =
      MTP_HEADER_SIZE + 4 * parameters.length := by
  have hheader : MTP_HEADER_SIZE = 12 := rfl
  simp only [eventFields, List.length_append, length_littleEndian, length_flatMap_littleEndian]
  omega

theorem encodes_event {maxsize : Int} (sessionId code : Nat) (parameters : List Nat) :
    Encodes maxsize (fun dst => parameters.foldl (fun dst parameter => poke32 maxsize parameter dst)
      (poke32 maxsize sessionId (poke16 maxsize code (poke16 maxsize MTP_CONTAINER_TYPE_EVENT
        (poke32 maxsize 0 dst)))))
      (littleEndian 4 0 ++ eventFields sessionId code parameters) := by
  have hparameters := encodes_foldl (fun parameter => @encodes_poke32 maxsize parameter) parameters
  have hall := hparameters.comp ((encodes_poke32 sessionId).comp ((encodes_poke16 code).comp
    ((encodes_poke16 MTP_CONTAINER_TYPE_EVENT).comp (encodes_poke32 0))))
  simp only [List.append_assoc] at hall
  exact hall

-- It fits into the buffer with up to twelve parameters.
theorem buildEventDataset_eq (ctx : MtpCtx) (buffer : Buffer) (code : Nat) {parameters : List Nat}
    (hfew : parameters.length ≤ 12) :
    (buildEventDataset ctx buffer EVENT_BUFFER_SIZE code parameters).2 =
        (MTP_HEADER_SIZE + 4 * parameters.length : Nat) ∧
      (buildEventDataset ctx buffer EVENT_BUFFER_SIZE code parameters).1.read 0
        (MTP_HEADER_SIZE + 4 * parameters.length) =
          eventContainer ctx.sessionId code parameters := by
  have hheader : MTP_HEADER_SIZE = 12 := rfl
  have hroom : EVENT_BUFFER_SIZE = 64 := rfl
  have hlen : (littleEndian 4 0 ++ eventFields ctx.sessionId code parameters).length =
      MTP_HEADER_SIZE + 4 * parameters.length := by
    rw [List.length_append, length_littleEndian, length_eventFields]
  have hfits := (@encodes_event EVENT_BUFFER_SIZE ctx.sessionId code parameters).fits buffer 0
    (by rw [hlen]; omega)
  have hread := Buffer.read_write_self buffer 0
    (littleEndian 4 0 ++ eventFields ctx.sessionId code parameters)
  rw [hlen] at hfits hread
  rw [Nat.zero_add] at hfits
  have hsize : u32 ((MTP_HEADER_SIZE + 4 * parameters.length : Nat) : Int) =
      MTP_HEADER_SIZE + 4 * parameters.length := by
    rw [u32]
    omega
  -- the size is put over the first field at last
  have hsized := (@encodes_poke32 EVENT_BUFFER_SIZE (MTP_HEADER_SIZE + 4 * parameters.length)).fits
    (buffer.write 0 (littleEndian 4 0 ++ eventFields ctx.sessionId code parameters)) 0
    (by rw [length_littleEndian]; omega)
  have heq : buildEventDataset ctx buffer EVENT_BUFFER_SIZE code parameters =
      ((buffer.write 0 (littleEndian 4 0 ++ eventFields ctx.sessionId code parameters)).write 0
        (littleEndian 4 (MTP_HEADER_SIZE + 4 * parameters.length)),
        ((MTP_HEADER_SIZE + 4 * parameters.length : Nat) : Int)) := by
    rw [show ((0 : Nat) : Int) = 0 from rfl] at hfits hsized
    unfold buildEventDataset
    dsimp only at hfits ⊢
    rw [hfits]
    dsimp only
    rw [if_pos (by omega), hsize, hsized]
  rw [heq]
  refine ⟨rfl, ?_⟩
  exact Buffer.read_write_over _ hread (by rw [length_littleEndian, length_littleEndian])

end Containers

section Notices

-- The containers that were sent to the interrupt endpoint.
def noteEvent : Cmd → List (List UInt8) → List (List UInt8)
  | .act (.writeUsb .interruptIn bytes), told => told ++ [bytes]
  | _, told => told

def tell {σ : Type} (os : Os σ) : Handler Cmd Cmd.Ans (World σ × List (List UInt8)) :=
  observe (World.handle os) fun c _ _ told => noteEvent c told

-- The commands that send no event.
def Cmd.IsUntold : Cmd → Prop
  | act (.writeUsb .interruptIn _) => False
  | _ => True

theorem noteEvent_of_isUntold {c : Cmd} (hc : c.IsUntold) (told : List (List UInt8)) :
    noteEvent c told = told := by
  unfold noteEvent
  split
  · exact hc.elim
  · rfl

theorem exec_tell_untold {prog : M α} (hp : Uses AnyAnswer Cmd.IsUntold prog)
    (s : World σ × List (List UInt8)) :
    exec (tell os) prog s = ((exec (World.handle os) prog s.1).1,
      (exec (World.handle os) prog s.1).2, s.2) := by
  induction prog generalizing s with
  | ret value => rfl
  | call c next ih =>
      have hrest := ih (World.handle os c s.1).1 (hp.2 _ trivial)
        ((World.handle os c s.1).2, noteEvent c s.2)
      have hnote := noteEvent_of_isUntold hp.1 s.2
      rw [hnote] at hrest
      refine Eq.trans ?_ hrest
      change exec (tell os) (next (World.handle os c s.1).1)
        ((World.handle os c s.1).2, noteEvent c s.2) = _
      rw [hnote]

theorem exec_tell_getCtx_bind (f : MtpCtx → M α) (s : World σ × List (List UInt8)) :
    exec (tell os) (M.getCtx >>= f) s = exec (tell os) (f s.1.ctx) s := rfl

theorem exec_tell_act_bind {a : Action} (ha : (Cmd.act a).IsUntold) (f : a.Ans → M α)
    (s : World σ × List (List UInt8)) :
    exec (tell os) (M.act a >>= f) s =
      exec (tell os) (f (os.act a s.1.os).1) (⟨s.1.ctx, (os.act a s.1.os).2⟩, s.2) := by
  have hnote := noteEvent_of_isUntold ha s.2
  change exec (tell os) (f (os.act a s.1.os).1) (⟨s.1.ctx, (os.act a s.1.os).2⟩,
    noteEvent (.act a) s.2) = _
  rw [hnote]

-- An event is sent unless a transfer is being cancelled.
theorem exec_mtpPushEvent (code : Nat) {parameters : List Nat} (hfew : parameters.length ≤ 12)
    (told : List (List UInt8)) :
    ∃ s, exec (tell os) (mtpPushEvent code parameters) (w, told) = ((), ⟨w.ctx, s⟩,
      if (os.act .getCancelReq w.os).1 then told
      else told ++ [eventContainer w.ctx.sessionId code parameters]) := by
  obtain ⟨hsize, hread⟩ := buildEventDataset_eq w.ctx (fun _ => 0) code hfew
  have hbytes : (buildEventDataset w.ctx (fun _ => 0) EVENT_BUFFER_SIZE code parameters).1.read 0
      (buildEventDataset w.ctx (fun _ => 0) EVENT_BUFFER_SIZE code parameters).2.toNat =
        eventContainer w.ctx.sessionId code parameters := by
    rw [hsize, Int.toNat_natCast, hread]
  have hexec : exec (tell os) (mtpPushEvent code parameters) (w, told) =
      exec (tell os) (writeUsb .interruptIn (eventContainer w.ctx.sessionId code parameters))
        (w, told) := by
    rw [mtpPushEvent, exec_tell_getCtx_bind]
    dsimp only
    rw [if_pos (by rw [hsize]; omega), hbytes]
  rw [hexec]
  change ∃ s, exec (tell os) (if (os.act .getCancelReq w.os).1 = true then pure () else
    M.act (.writeUsb .interruptIn (eventContainer w.ctx.sessionId code parameters)))
      (⟨w.ctx, (os.act .getCancelReq w.os).2⟩, told) = _
  by_cases hcancel : (os.act .getCancelReq w.os).1 = true
  · rw [if_pos hcancel, if_pos hcancel]
    exact ⟨_, rfl⟩
  · rw [if_neg hcancel, if_neg hcancel]
    exact ⟨_, rfl⟩

-- The handles of the objects that the client can use.
def MtpCtx.objectHandles (ctx : MtpCtx) : Set Nat :=
  {handle | handle ≠ 0 ∧ ∃ p, ctx.db.Live p ∧ (ctx.entry p).handle = handle}

-- The updates that are about objects: the entries of the roots have no handle.
def aboutObjects (updates : List (Update Nat)) : List (Update Nat) :=
  updates.filter fun update => update.key != 0

-- What has happened to the database, with the updates that tell of it.
structure Reported (ctx ctx' : MtpCtx) (updates : List (Update Nat)) : Prop where
  ordered : ctx'.Ordered
  recorded : ctx'.Recorded
  sessionId : ctx'.sessionId = ctx.sessionId
  grow : ctx.db.entryList.length ≤ ctx'.db.entryList.length
  follows : ctx'.db.entryList.length < UINT32_SIZE - 1 →
    Follows ctx.objectHandles (aboutObjects updates) ctx'.objectHandles

namespace Reported

variable {updates updates' : List (Update Nat)}

theorem refl (ho : ctx.Ordered) (hr : ctx.Recorded) : Reported ctx ctx [] where
  ordered := ho
  recorded := hr
  sessionId := rfl
  grow := le_refl _
  follows _ := .nil

theorem trans (h : Reported ctx ctx' updates) (h' : Reported ctx' ctx'' updates') :
    Reported ctx ctx'' (updates ++ updates') where
  ordered := h'.ordered
  recorded := h'.recorded
  sessionId := h'.sessionId.trans h.sessionId
  grow := h.grow.trans h'.grow
  follows hlen := by
    rw [aboutObjects, List.filter_append]
    exact (h.follows (h'.grow.trans_lt hlen)).append (h'.follows hlen)

-- The live entries and their handles stay.
theorem of_live (ho : ctx'.Ordered) (hr : ctx'.Recorded) (hsession : ctx'.sessionId = ctx.sessionId)
    (hlist : ctx'.db.entryList = ctx.db.entryList)
    (hentry : ∀ q ∈ ctx.db.entryList, (ctx'.entry q).isDeleted = (ctx.entry q).isDeleted ∧
      (ctx'.entry q).handle = (ctx.entry q).handle) : Reported ctx ctx' [] where
  ordered := ho
  recorded := hr
  sessionId := hsession
  grow := by rw [hlist]
  follows _ := by
    have hsame : ctx'.objectHandles = ctx.objectHandles := by
      ext handle
      refine and_congr_right fun _ => exists_congr fun q => ?_
      by_cases hq : q ∈ ctx.db.entryList
      · have hdel : (ctx'.db.pool q).isDeleted = (ctx.db.pool q).isDeleted := (hentry q hq).1
        rw [FsHandlesDb.Live, FsHandlesDb.Live, hlist, hdel, (hentry q hq).2]
      · exact iff_of_false (fun h => hq (hlist ▸ h.1.1)) fun h => hq h.1.1
    rw [hsame]
    exact .nil

end Reported

-- The updates that tell of what is done for an entry.
def updatesOf (kind : UpdateKind) (ctx : MtpCtx) (changed : Option EntryPtr) :
    List (Update Nat) :=
  changed.toList.map fun p => ⟨kind, (ctx.entry p).handle⟩

theorem updatesOf_some (kind : UpdateKind) (ctx : MtpCtx) (p : EntryPtr) :
    updatesOf kind ctx (some p) = [⟨kind, (ctx.entry p).handle⟩] := rfl

theorem aboutObjects_one {kind : UpdateKind} {handle : Nat} (h : handle ≠ 0) :
    aboutObjects [⟨kind, handle⟩] = [⟨kind, handle⟩] :=
  List.filter_cons_of_pos (by simpa using h)

theorem objectHandles_of_new {p : EntryPtr} (hlist : ctx'.db.entryList = p :: ctx.db.entryList)
    (hkept : ∀ q ∈ ctx.db.entryList, ctx'.entry q = ctx.entry q)
    (hdel : (ctx'.entry p).isDeleted = false) (hpos : (ctx'.entry p).handle ≠ 0) :
    ctx'.objectHandles = insert (ctx'.entry p).handle ctx.objectHandles := by
  have hold : ∀ q ∈ ctx.db.entryList, ctx'.db.Live q ↔ ctx.db.Live q := by
    intro q hq
    have hsame : ctx'.db.pool q = ctx.db.pool q := hkept q hq
    rw [FsHandlesDb.Live, FsHandlesDb.Live, hlist, hsame]
    exact and_congr_left fun _ => iff_of_true (List.mem_cons_of_mem p hq) hq
  ext handle
  rw [Set.mem_insert_iff]
  constructor
  · rintro ⟨hne, q, hq, hqh⟩
    have hmem := hq.1
    rw [hlist] at hmem
    rcases List.mem_cons.mp hmem with rfl | hmem
    · exact Or.inl hqh.symm
    · exact Or.inr ⟨hne, q, (hold q hmem).mp hq, hkept q hmem ▸ hqh⟩
  · rintro (rfl | ⟨hne, q, hq, hqh⟩)
    · exact ⟨hpos, p, ⟨by rw [hlist]; exact List.mem_cons_self, hdel⟩, rfl⟩
    · exact ⟨hne, q, (hold q hq.1).mpr hq, (hkept q hq.1).symm ▸ hqh⟩

theorem reported_allocEntry (ho : ctx.Ordered) (hr : ctx.Recorded) {fileinfo : FileFoundInfo}
    {parent storageId : Nat} (hsearch : ctx.db.searchEntryByInfo fileinfo parent storageId = none)
    (mem : AllocMem) :
    let ctx' := ctx.applyDb (.allocEntry mem fileinfo parent storageId)
    Reported ctx ctx' (updatesOf .added ctx'
      (ctx.fsDb.bind fun db => (DbOp.apply db (.allocEntry mem fileinfo parent storageId)).1)) := by
  have hreg := registered_applyDb ho hsearch mem
  have hrecorded := recorded_applyDb hr (.allocEntry mem fileinfo parent storageId)
  have hsession : (ctx.applyDb (.allocEntry mem fileinfo parent storageId)).sessionId =
      ctx.sessionId := rfl
  intro ctx'
  cases hdb : ctx.fsDb with
  | none =>
      have hsame : ctx' = ctx := by
        change ctx.applyDb _ = ctx
        rw [MtpCtx.applyDb, hdb, Option.map_none, ← hdb]
      rw [hsame]
      exact .refl ho hr
  | some db =>
      have hold : ctx.db = db := by rw [MtpCtx.db, hdb, Option.getD_some]
      have hnew : ctx'.db = (db.allocEntry mem fileinfo parent storageId).2 := by
        change (ctx.applyDb _).db = _
        rw [MtpCtx.applyDb, MtpCtx.db, hdb]
        rfl
      rcases FsHandlesDb.allocEntry_cases (hold ▸ ho.slots) mem fileinfo parent storageId with
        ⟨p, db', heq, -, ha, -⟩ | ⟨db', heq, -, hn⟩
      · have hresult : (some db).bind (fun db =>
            (DbOp.apply db (.allocEntry mem fileinfo parent storageId)).1) = some p :=
          congrArg Prod.fst heq
        rw [hresult]
        rw [heq] at hnew
        have hlist : ctx'.db.entryList = p :: ctx.db.entryList := by
          rw [hnew, hold]
          exact ha.entryList
        have hentry : ctx'.entry p =
            FsHandlesDb.newEntry fileinfo ctx.db.nextHandle parent storageId := by
          rw [MtpCtx.entry, hnew, hold]
          exact ha.pool_self
        refine ⟨hreg.ordered, hrecorded, hsession, hreg.grow ho, fun hlen => ?_⟩
        have hshort := (hreg.grow ho).trans_lt hlen
        obtain ⟨objects, hnumbered⟩ := hr.numbered hshort
        have hnext := hnumbered.nextHandle
        have hhandle : (ctx'.entry p).handle = ctx.db.nextHandle := by rw [hentry]; rfl
        have hfresh : ctx.db.nextHandle ∉ ctx.objectHandles := by
          rintro ⟨-, q, hq, hsame⟩
          exact (hr.handle_lt hshort hq.1).1.ne hsame
        have hpos : (ctx'.entry p).handle ≠ 0 := by omega
        rw [updatesOf_some, aboutObjects_one hpos, objectHandles_of_new hlist
          (fun q hq => (hreg.kept q hq).2) (by rw [hentry]; exact isDeleted_newEntry _ _ _ _) hpos,
          hhandle]
        exact .added hfresh .nil
      · have hresult : (some db).bind (fun db =>
            (DbOp.apply db (.allocEntry mem fileinfo parent storageId)).1) = none :=
          congrArg Prod.fst heq
        rw [hresult]
        rw [heq] at hnew
        refine .of_live hreg.ordered hrecorded hsession ?_ fun q hq => ?_
        · rw [hnew, hold]
          exact hn.entryList
        · rw [(hreg.kept q hq).2]
          exact ⟨rfl, rfl⟩

theorem reported_setDeleted (ho : ctx.Ordered) (hr : ctx.Recorded) {p : EntryPtr}
    (hp : ctx.db.Live p) :
    Reported ctx (ctx.applyDb (.setDeleted p)) [⟨.removed, (ctx.entry p).handle⟩] := by
  have hsession : ctx.fsDb.isSome = true := by
    cases hdb : ctx.fsDb with
    | some db => rfl
    | none =>
        have hlisted := hp.1
        rw [MtpCtx.db, hdb] at hlisted
        cases hlisted
  have hput : ctx.applyDb (.setDeleted p) = ctx.putEntry p (ctx.entry p).setDeleted :=
    MtpCtx.applyDb_eq_putEntry FsEntry.setDeleted fun _ => rfl
  have hself := @MtpCtx.entry_putEntry_self ctx hsession p (ctx.entry p).setDeleted
  have hothers := fun q hne => @MtpCtx.entry_putEntry_of_ne ctx p q hne (ctx.entry p).setDeleted
  have hlist : (ctx.putEntry p (ctx.entry p).setDeleted).db.entryList = ctx.db.entryList := by
    rcases ctx.putEntry_eq p (ctx.entry p).setDeleted with heq | ⟨db, hdb, heq⟩
    · rw [heq]
    · rw [heq, MtpCtx.db, MtpCtx.db, hdb]
      rfl
  have hordered := (@Later.of_applyDb _ ho (.setDeleted p) trivial).ordered
  have hrecorded := recorded_applyDb hr (.setDeleted p)
  rw [hput] at hordered hrecorded ⊢
  have hsame : (ctx.putEntry p (ctx.entry p).setDeleted).sessionId = ctx.sessionId := rfl
  generalize ctx.putEntry p (ctx.entry p).setDeleted = ctx' at *
  have hgone : (ctx'.entry p).isDeleted = true := by
    rw [hself]
    exact FsEntry.isDeleted_setDeleted _
  refine ⟨hordered, hrecorded, hsame, by rw [hlist], fun hlen => ?_⟩
  rw [hlist] at hlen
  have hset : ctx'.objectHandles = ctx.objectHandles \ {(ctx.entry p).handle} := by
    ext handle
    rw [Set.mem_sdiff_singleton]
    constructor
    · rintro ⟨hpos, q, ⟨hq, hdel⟩, hqh⟩
      have hne : q ≠ p := by
        rintro rfl
        exact Bool.false_ne_true (hdel.symm.trans hgone)
      have heq := hothers q hne
      rw [hlist] at hq
      rw [heq] at hqh
      have hdel' : (ctx.entry q).isDeleted = false := by
        rw [← heq]
        exact hdel
      have hlive : ctx.db.Live q := ⟨hq, hdel'⟩
      refine ⟨⟨hpos, q, hlive, hqh⟩, fun hboth => hne ?_⟩
      exact hr.handle_inj hlen hq hp.1 (hqh ▸ hpos) (hqh.trans hboth)
    · rintro ⟨⟨hpos, q, hq, hqh⟩, hother⟩
      have hne : q ≠ p := by
        rintro rfl
        exact hother hqh.symm
      have heq := hothers q hne
      have hdel : (ctx'.entry q).isDeleted = false := by
        rw [heq]
        exact hq.2
      exact ⟨hpos, q, ⟨hlist ▸ hq.1, hdel⟩, by rw [heq, hqh]⟩
  rw [hset]
  by_cases hzero : (ctx.entry p).handle = 0
  · have hnone : aboutObjects [⟨.removed, (ctx.entry p).handle⟩] = [] := by
      rw [hzero]
      rfl
    rw [hnone, Set.sdiff_singleton_eq_self fun h => h.1 hzero]
    exact .nil
  · rw [aboutObjects_one hzero]
    exact .removed ⟨hzero, p, hp, rfl⟩ .nil

theorem reported_setWatchDescriptor (ho : ctx.Ordered) (hr : ctx.Recorded) (p : EntryPtr)
    (wd : Int) : Reported ctx (ctx.putEntry p { ctx.entry p with watchDescriptor := wd }) [] := by
  rw [← applyDb_setWatchDescriptor]
  refine .of_live (@Later.of_applyDb _ ho (.setWatchDescriptor p wd) trivial).ordered
    (recorded_applyDb hr _) rfl ?_ fun q _ => ?_
  · rcases ctx.applyDb_cases (.setWatchDescriptor p wd) with heq | heq
    · rw [heq]
    · rw [heq]
      rfl
  · rcases ctx.applyDb_cases (.setWatchDescriptor p wd) with heq | heq
    · rw [MtpCtx.entry, MtpCtx.entry, heq]
      exact ⟨rfl, rfl⟩
    · rw [MtpCtx.entry, MtpCtx.entry, heq]
      exact ⟨@FsHandlesDb.setEntry_keeps_key ctx.db _ FsEntry.isDeleted p
          { ctx.db.pool p with watchDescriptor := wd } rfl q,
        @FsHandlesDb.setEntry_keeps_key ctx.db _ FsEntry.handle p
          { ctx.db.pool p with watchDescriptor := wd } rfl q⟩

theorem handle_putEntry {p : EntryPtr} {entry : FsEntry}
    (h : entry.handle = (ctx.entry p).handle) :
    ((ctx.putEntry p entry).entry p).handle = (ctx.entry p).handle := by
  rcases ctx.putEntry_eq p entry with heq | ⟨db, hdb, heq⟩
  · rw [heq]
  · rw [MtpCtx.entry_putEntry_self (by rw [hdb]; rfl), h]

-- What the change of a folder does to the database, and the entry it gives.
structure Changes (os : Os σ) (kind : UpdateKind) (change : EntryPtr → M (Option EntryPtr)) :
    Prop where
  untold : ∀ folder, Uses AnyAnswer Cmd.IsUntold (change folder)
  reported : ∀ (w : World σ) folder, w.ctx.Ordered → w.ctx.Recorded →
    Reported w.ctx (exec (World.handle os) (change folder) w).2.ctx
      (updatesOf kind (exec (World.handle os) (change folder) w).2.ctx
        (exec (World.handle os) (change folder) w).1)

theorem changes_entryCreated : Changes os .added entryCreated where
  untold folder := by
    refine uses_bind (uses_cmd trivial) fun ctx => ?_
    dsimp only
    split
    · exact uses_pure _
    · refine uses_bind (uses_cmd trivial) fun ctx => ?_
      split
      · exact uses_pure _
      · exact uses_bind (uses_act_of trivial) fun mem => uses_cmd trivial
  reported w folder ho hr := by
    rw [entryCreated, exec_getCtx_bind]
    dsimp only
    cases hsearch : w.ctx.db.searchEntryByInfo w.ctx.inotifyFileInfo (w.ctx.entry folder).handle
        (w.ctx.entry folder).storageId with
    | some p => exact .refl ho hr
    | none =>
        dsimp only
        rw [addEntry, exec_getCtx_bind, hsearch]
        dsimp only
        rw [exec_act_bind]
        exact reported_allocEntry ho hr hsearch _

theorem changes_entryModified : Changes os .changed entryModified where
  untold folder := ⟨trivial, fun ctx _ => uses_pure _⟩
  reported w folder ho hr := by
    rw [entryModified, exec_getCtx_bind]
    change Reported w.ctx w.ctx (updatesOf .changed w.ctx (w.ctx.db.searchEntryByInfo
      w.ctx.inotifyFileInfo (w.ctx.entry folder).handle (w.ctx.entry folder).storageId))
    cases hsearch : w.ctx.db.searchEntryByInfo w.ctx.inotifyFileInfo (w.ctx.entry folder).handle
        (w.ctx.entry folder).storageId with
    | none => exact .refl ho hr
    | some p =>
        obtain ⟨hlive, -⟩ := ho.stored.findEntry_live hsearch
        refine ⟨ho, hr, rfl, le_refl _, fun _ => ?_⟩
        rw [updatesOf_some]
        by_cases hzero : (w.ctx.entry p).handle = 0
        · rw [hzero]
          exact .nil
        · rw [aboutObjects_one hzero]
          exact .changed ⟨hzero, p, hlive, rfl⟩ .nil

theorem untold_dropWatch (p : EntryPtr) : Uses AnyAnswer Cmd.IsUntold (dropWatch p) := by
  refine uses_bind (uses_cmd trivial) fun ctx => ?_
  split
  · refine uses_bind (uses_bind (uses_cmd trivial) fun ctx => ?_) fun _ => uses_db_ trivial
    split
    · exact uses_act_of trivial
    · exact uses_pure _
  · exact uses_pure _

theorem changes_entryDeleted : Changes os .removed entryDeleted where
  untold folder := by
    refine uses_bind (uses_cmd trivial) fun ctx => ?_
    dsimp only
    split
    · exact uses_bind (uses_cmd trivial) fun _ =>
        uses_bind (untold_dropWatch _) fun _ => uses_pure _
    · exact uses_pure _
  reported w folder ho hr := by
    rw [entryDeleted, exec_getCtx_bind]
    dsimp only
    cases hsearch : w.ctx.db.searchEntryByInfo w.ctx.inotifyFileInfo (w.ctx.entry folder).handle
        (w.ctx.entry folder).storageId with
    | none => exact .refl ho hr
    | some p =>
        obtain ⟨hlive, -⟩ := ho.stored.findEntry_live hsearch
        obtain ⟨s, -, hdrop⟩ := @exec_dropWatch _ os ⟨w.ctx.applyDb (.setDeleted p), w.os⟩ p
        have hexec : exec (World.handle os) (M.flagDeleted .inotifyThread p >>= fun _ =>
            dropWatch p >>= fun _ => pure (some p)) w = (some p, (exec (World.handle os)
              (dropWatch p) ⟨w.ctx.applyDb (.setDeleted p), w.os⟩).2) := by
          change exec (World.handle os) (dropWatch p >>= fun _ => pure (some p))
            ⟨w.ctx.applyDb (.setDeleted p), w.os⟩ = _
          rw [bind_eq, exec_bind]
          rfl
        dsimp only
        rw [hexec, hdrop]
        dsimp only
        have hfirst := reported_setDeleted ho hr hlive
        have hsecond := reported_setWatchDescriptor hfirst.ordered hfirst.recorded p (-1)
        have hhandle : (((w.ctx.applyDb (.setDeleted p)).putEntry p { (w.ctx.applyDb
            (.setDeleted p)).entry p with watchDescriptor := -1 }).entry p).handle =
              (w.ctx.entry p).handle := by
          have hput : w.ctx.applyDb (.setDeleted p) = w.ctx.putEntry p (w.ctx.entry p).setDeleted :=
            MtpCtx.applyDb_eq_putEntry FsEntry.setDeleted fun _ => rfl
          have hmarked : ((w.ctx.applyDb (.setDeleted p)).entry p).handle =
              (w.ctx.entry p).handle := by
            rw [hput]
            exact handle_putEntry (rfl : (w.ctx.entry p).setDeleted.handle = _)
          exact Eq.trans (handle_putEntry (by rfl)) hmarked
        rw [updatesOf_some, hhandle]
        exact hfirst.trans hsecond

def noticeOf (sessionId : Nat) (update : Update Nat) : List UInt8 :=
  eventContainer sessionId (eventCode update.kind) [update.key]

-- What the client is told of the changes since a context. Nothing but a cancelled
-- transfer makes an update be left out.
def Told (os : Os σ) (ctx : MtpCtx) (told : List (List UInt8))
    (s : World σ × List (List UInt8)) : Prop :=
  ∃ updates notices, s.2 = told ++ notices ∧
    notices.Sublist (updates.map (noticeOf ctx.sessionId)) ∧
    ((∀ s', (os.act .getCancelReq s').1 = false) →
      notices = updates.map (noticeOf ctx.sessionId)) ∧
    Reported ctx s.1.ctx updates

theorem Told.of_reported {updates : List (Update Nat)} {told : List (List UInt8)}
    {s : World σ × List (List UInt8)} (hrep : Reported ctx ctx' updates)
    (h : Told os ctx' told s) {front : List (List UInt8)}
    (hsub : front.Sublist (updates.map (noticeOf ctx.sessionId)))
    (hall : (∀ s', (os.act .getCancelReq s').1 = false) →
      front = updates.map (noticeOf ctx.sessionId)) {start : List (List UInt8)}
    (htold : told = start ++ front) : Told os ctx start s := by
  obtain ⟨updates', notices, htold', hsub', hall', hrep'⟩ := h
  rw [hrep.sessionId] at hsub' hall'
  refine ⟨updates ++ updates', front ++ notices, ?_, ?_, fun hos => ?_, hrep.trans hrep'⟩
  · rw [htold', htold, List.append_assoc]
  · rw [List.map_append]
    exact hsub.append hsub'
  · rw [List.map_append, hall hos, hall' hos]

def Tells (os : Os σ) (prog : M α) : Prop :=
  ∀ (w : World σ) told, w.ctx.Ordered → w.ctx.Recorded →
    Told os w.ctx told (exec (tell os) prog (w, told)).2

theorem tells_bind {p : M α} {f : α → M β} (hp : Tells os p) (hf : ∀ a, Tells os (f a)) :
    Tells os (p >>= f) := by
  intro w told ho hr
  obtain ⟨updates, notices, htold, hsub, hall, hrep⟩ := hp w told ho hr
  rw [bind_eq, exec_bind]
  exact .of_reported hrep (hf _ _ _ hrep.ordered hrep.recorded) hsub hall htold

theorem tells_untold {prog : M α} (hp : Uses AnyAnswer Cmd.IsUntold prog)
    (h : ∀ w : World σ, w.ctx.Ordered → w.ctx.Recorded →
      Reported w.ctx (exec (World.handle os) prog w).2.ctx []) : Tells os prog := by
  intro w told ho hr
  rw [exec_tell_untold hp]
  exact ⟨[], [], (List.append_nil _).symm, List.nil_sublist _, fun _ => rfl, h w ho hr⟩

theorem tells_pure (a : α) : Tells os (pure a) :=
  tells_untold (uses_pure a) fun _ ho hr => .refl ho hr

theorem tells_getCtx_bind {f : MtpCtx → M α} (hf : ∀ ctx, Tells os (f ctx)) :
    Tells os (M.getCtx >>= f) := fun w told ho hr => hf w.ctx w told ho hr

-- The commands that leave the database and the client alone.
def Cmd.IsUnseen : Cmd → Prop
  | getCtx | query _ | setInotifyFileInfo _ | act .malloc | act .lockInotifyMutex
  | act .unlockInotifyMutex => True
  | _ => False

theorem unseen_builds : Builds Cmd.IsUnseen where
  getCtx := trivial
  query _ := trivial
  malloc := trivial

theorem unseen_getFileInfo (event : InotifyEvent) (entry : Option EntryPtr) (deleted : Bool) :
    Uses AnyAnswer Cmd.IsUnseen (getFileInfo event entry deleted) := by
  unfold getFileInfo
  split
  · refine uses_bind (unseen_builds.entryPath _) fun path => ?_
    split
    · refine uses_bind (uses_act_of trivial) fun memory => ?_
      split
      · split
        · exact uses_bind (uses_cmd trivial) fun _ => uses_pure _
        · refine uses_bind (uses_cmd trivial) fun ctx => uses_bind ?_ fun found =>
            uses_bind (uses_cmd trivial) fun _ => uses_pure _
          refine uses_bind (uses_cmd trivial) fun stat => ?_
          cases stat <;> exact uses_pure _
      · exact uses_pure _
    · exact uses_pure _
  · exact uses_pure _

theorem isUntold_of_isUnseen {c : Cmd} (hc : c.IsUnseen) : c.IsUntold := by
  cases c with
  | act a => cases a <;> trivial
  | _ => trivial

theorem tells_unseen {prog : M α} (hp : Uses AnyAnswer Cmd.IsUnseen prog) : Tells os prog := by
  have huntold : Uses AnyAnswer Cmd.IsUntold prog :=
    uses_mono hp fun _ hc => isUntold_of_isUnseen hc
  refine tells_untold huntold fun w ho hr => ?_
  have hsafe : Safe (World.handle os) (fun _ c => c.IsUnseen) prog w := uses_trace hp _ w
  refine exec_keeps (I := fun w' : World σ => Reported w.ctx w'.ctx []) (fun w' c hrep hc => ?_)
    prog w hsafe (.refl ho hr)
  have hsame : Reported w'.ctx (World.handle os c w').2.ctx [] := by
    cases c with
    | act a => exact .refl hrep.ordered hrep.recorded
    | getCtx => exact .refl hrep.ordered hrep.recorded
    | query q => exact .refl hrep.ordered hrep.recorded
    | setInotifyFileInfo fileinfo =>
        exact .of_live ⟨hrep.ordered.slots, hrep.ordered.stored⟩ hrep.recorded rfl rfl
          fun _ _ => ⟨rfl, rfl⟩
    | _ => exact hc.elim
  exact hrep.trans hsame

-- The end of a turn sends the event of the change.
theorem told_endTurn {kind : UpdateKind} (hos : MutexSucceeds os) {next : M Bool}
    (hnext : Tells os next) (changed : Option EntryPtr) {w' : World σ}
    (hrep : Reported ctx w'.ctx (updatesOf kind w'.ctx changed)) (told : List (List UInt8)) :
    Told os ctx told (exec (tell os) (endTurn (eventCode kind) changed next) (w', told)).2 := by
  have hunlock : ∀ rest : Bool → M Bool, exec (tell os) (M.act .unlockInotifyMutex >>= rest)
      (w', told) = exec (tell os) (rest true) (⟨w'.ctx, (os.act .unlockInotifyMutex w'.os).2⟩,
        told) := by
    intro rest
    rw [@exec_tell_act_bind _ _ _ .unlockInotifyMutex trivial, hos.unlock]
  cases changed with
  | none =>
      have hend : exec (tell os) (endTurn (eventCode kind) none next) (w', told) =
          exec (tell os) next (⟨w'.ctx, (os.act .unlockInotifyMutex w'.os).2⟩, told) := by
        unfold endTurn
        rw [exec_tell_getCtx_bind, hunlock]
        rfl
      rw [hend]
      exact .of_reported hrep (hnext ⟨w'.ctx, (os.act .unlockInotifyMutex w'.os).2⟩ told
        hrep.ordered hrep.recorded) (List.nil_sublist []) (fun _ => rfl) (List.append_nil _).symm
  | some p =>
      have hend : exec (tell os) (endTurn (eventCode kind) (some p) next) (w', told) =
          exec (tell os) (mtpPushEvent (eventCode kind) [(w'.ctx.entry p).handle] >>= fun _ => next)
            (⟨w'.ctx, (os.act .unlockInotifyMutex w'.os).2⟩, told) := by
        unfold endTurn
        rw [exec_tell_getCtx_bind, hunlock]
        rfl
      obtain ⟨s, hpush⟩ := @exec_mtpPushEvent _ os ⟨w'.ctx, (os.act .unlockInotifyMutex w'.os).2⟩
        (eventCode kind) [(w'.ctx.entry p).handle] (by simp) told
      rw [hend, bind_eq, exec_bind, hpush]
      dsimp only
      generalize hcancel : (os.act .getCancelReq (os.act .unlockInotifyMutex w'.os).2).1 = cancel
      have hnotice : eventContainer w'.ctx.sessionId (eventCode kind) [(w'.ctx.entry p).handle] =
          noticeOf ctx.sessionId ⟨kind, (w'.ctx.entry p).handle⟩ := by
        rw [hrep.sessionId]
        rfl
      rw [hnotice]
      have hrest := fun told => hnext ⟨w'.ctx, s⟩ told hrep.ordered hrep.recorded
      cases cancel with
      | true =>
          refine .of_reported hrep (hrest _) (List.nil_sublist _) (fun hnever => ?_)
            (List.append_nil _).symm
          rw [hnever] at hcancel
          cases hcancel
      | false => exact .of_reported hrep (hrest _) (List.Sublist.refl _) (fun _ => rfl) rfl

theorem tells_forWatchedFolders (hos : MutexSucceeds os) (event : InotifyEvent) (deleted : Bool)
    {kind : UpdateKind} {change : EntryPtr → M (Option EntryPtr)}
    (hchange : Changes os kind change) (fuel : Nat) (start : List EntryPtr) :
    Tells os (forWatchedFolders event deleted (eventCode kind) change fuel start) := by
  induction fuel generalizing start with
  | zero => exact tells_pure true
  | succ fuel ih =>
      unfold forWatchedFolders
      refine tells_bind (tells_unseen (uses_act_of trivial)) fun locked => ?_
      split
      · refine tells_getCtx_bind fun ctx => tells_bind (tells_unseen (unseen_getFileInfo _ _ _))
          fun known => ?_
        have hnext : Tells os (if (ctx.db.getEntryByWd event.wd start).tail ≠ [] then
            forWatchedFolders event deleted (eventCode kind) change fuel
              (ctx.db.getEntryByWd event.wd start).tail
          else
            pure true) := by
          split
          · exact ih _
          · exact tells_pure true
        have hnone : Tells os (endTurn (eventCode kind) none
            (if (ctx.db.getEntryByWd event.wd start).tail ≠ [] then
              forWatchedFolders event deleted (eventCode kind) change fuel
                (ctx.db.getEntryByWd event.wd start).tail
            else
              pure true)) := fun w told ho hr =>
          @told_endTurn _ _ _ kind hos _ hnext none w (.refl ho hr) told
        cases hfolder : (ctx.db.getEntryByWd event.wd start).head? with
        | none => exact hnone
        | some folder =>
            cases known with
            | false => exact hnone
            | true =>
                intro w told ho hr
                dsimp only
                rw [bind_eq, exec_bind, exec_tell_untold (hchange.untold folder)]
                exact told_endTurn hos hnext _ (hchange.reported w folder ho hr) told
      · exact tells_pure false

theorem tells_inotifyThread (hos : MutexSucceeds os) (event : InotifyEvent) :
    Tells os (inotifyThread event) := by
  have hcreated := fun fuel => tells_forWatchedFolders hos event false changes_entryCreated fuel []
  have hmodified := fun fuel => tells_forWatchedFolders hos event true changes_entryModified fuel []
  have hdeleted := fun fuel => tells_forWatchedFolders hos event true changes_entryDeleted fuel []
  have hlast : ∀ (goesOn : Bool) fuel, Tells os (do
      if goesOn && hasAnyFlag event.mask IN_DELETE IN_MOVED_FROM then
        let _ ← forWatchedFolders event true MTP_EVENT_OBJECT_REMOVED entryDeleted fuel []) := by
    intro goesOn fuel
    split
    · exact tells_bind (hdeleted fuel) fun _ => tells_pure _
    · exact tells_pure _
  have hmiddle : ∀ (goesOn : Bool) fuel, Tells os (do
      let goesOn ←
        if goesOn && hasFlag event.mask IN_MODIFY then
          forWatchedFolders event true MTP_EVENT_OBJECT_INFO_CHANGED entryModified fuel []
        else
          pure goesOn
      if goesOn && hasAnyFlag event.mask IN_DELETE IN_MOVED_FROM then
        let _ ← forWatchedFolders event true MTP_EVENT_OBJECT_REMOVED entryDeleted fuel []) := by
    intro goesOn fuel
    split
    · exact tells_bind (hmodified fuel) fun goesOn => hlast goesOn fuel
    · exact tells_bind (tells_pure _) fun goesOn => hlast goesOn fuel
  unfold inotifyThread
  split
  · refine tells_getCtx_bind fun ctx => ?_
    dsimp only
    split
    · exact tells_bind (hcreated _) fun goesOn => hmiddle goesOn _
    · exact tells_bind (tells_pure _) fun goesOn => hmiddle goesOn _
  · exact tells_pure _

-- The events of files, and what other processes do meanwhile.
def Event.IsFile : Event σ → Prop
  | inotify _ | outside _ => True
  | _ => False

-- A step of the daemon, with the events it sends.
def World.tell (os : Os σ) (s : World σ × List (List UInt8)) (event : Event σ) :
    World σ × List (List UInt8) :=
  (World.step os s.1 event, match event with
    | .outside _ => s.2
    | event => (exec (Umtp.tell os) event.program s).2.2)

theorem told_event (hos : MutexSucceeds os) {s : World σ × List (List UInt8)} {event : Event σ}
    (hfile : event.IsFile) (ho : s.1.ctx.Ordered) (hr : s.1.ctx.Recorded) :
    Told os s.1.ctx s.2 (World.tell os s event) := by
  cases event with
  | inotify event =>
      have htold := tells_inotifyThread hos event s.1 s.2 ho hr
      have hstep : (exec (tell os) (inotifyThread event) s).2.1 =
          (exec (World.handle os) (inotifyThread event) s.1).2 := (exec_observe _ _ s).2
      have hsame : World.tell os s (.inotify event) = (exec (tell os) (inotifyThread event) s).2 :=
        Prod.ext hstep.symm rfl
      rw [hsame]
      exact htold
  | outside change =>
      exact ⟨[], [], (List.append_nil _).symm, List.nil_sublist _, fun _ => rfl, .refl ho hr⟩
  | packet bytes => exact hfile.elim
  | message text => exact hfile.elim

theorem told_run (hos : MutexSucceeds os) {s : World σ × List (List UInt8)}
    {events : List (Event σ)} (hfile : ∀ event ∈ events, event.IsFile) (ho : s.1.ctx.Ordered)
    (hr : s.1.ctx.Recorded) : Told os s.1.ctx s.2 (run (World.tell os) s events) := by
  induction events generalizing s with
  | nil => exact ⟨[], [], (List.append_nil _).symm, List.nil_sublist _, fun _ => rfl, .refl ho hr⟩
  | cons event rest ih =>
      obtain ⟨updates, notices, htold, hsub, hall, hrep⟩ :=
        told_event hos (hfile event List.mem_cons_self) ho hr
      have hrest := @ih (World.tell os s event)
        (fun e he => hfile e (List.mem_cons_of_mem _ he)) hrep.ordered hrep.recorded
      exact .of_reported hrep hrest hsub hall htold

theorem run_tell_fst (s : World σ × List (List UInt8)) (events : List (Event σ)) :
    (run (World.tell os) s events).1 = run (World.step os) s.1 events := by
  induction events generalizing s with
  | nil => rfl
  | cons event rest ih => exact ih (World.tell os s event)

-- Whatever happens to the files, the events keep a client up to date: applied to the
-- handles of the objects it knew, they give the handles there are, and none of them
-- is idle. An event is left out only when a transfer is being cancelled.
theorem file_events_mirrored (hos : MutexSucceeds os) {start : World σ}
    (hstart : start.ctx.Initial) (before events : List (Event σ))
    (hfile : ∀ event ∈ events, event.IsFile)
    (hcount : (run (World.step os) (run (World.step os) start before)
      events).ctx.db.entryList.length < UINT32_SIZE - 1) :
    let w := run (World.step os) start before
    let w' := run (World.step os) w events
    let told := (run (World.tell os) (w, []) events).2
    ∃ updates : List (Update Nat),
      Follows w.ctx.objectHandles (aboutObjects updates) w'.ctx.objectHandles ∧
      (aboutObjects updates).foldl Update.apply w.ctx.objectHandles = w'.ctx.objectHandles ∧
      told.Sublist (updates.map (noticeOf w.ctx.sessionId)) ∧
      ((∀ s, (os.act .getCancelReq s).1 = false) →
        told = updates.map (noticeOf w.ctx.sessionId)) := by
  have hregular : (run (World.step os) start before).ctx.Regular :=
    regular_run before hstart.regular
  intro w w' told
  obtain ⟨updates, notices, htold, hsub, hall, hrep⟩ :=
    @told_run _ os hos (w, []) events hfile hregular.ordered hregular.recorded
  have hlast : (run (World.tell os) (w, []) events).1 = w' := run_tell_fst _ _
  have hnotices : told = notices := htold
  rw [hlast] at hrep
  have hfollows := hrep.follows hcount
  rw [hnotices]
  exact ⟨updates, hfollows, hfollows.foldl_apply, hsub, hall⟩

-- A file is made and changed, and another one goes.
def fileChanges : List (Event MemSystem) :=
  [.outside fun sys => sys.setNode (A_ROOT ++ SLASH :: GONE_NAME) (some [7]),
    .inotify ⟨1, IN_CREATE, GONE_NAME⟩, .inotify ⟨1, IN_MODIFY, GONE_NAME⟩,
    .outside fun sys => (sys.act (.remove FIRST_STORAGE_ID (A_ROOT ++ SLASH :: F_NAME))).2,
    .inotify ⟨1, IN_DELETE, F_NAME⟩, .inotify ⟨1, IN_DELETE, F_NAME⟩]

theorem file_events_mirrored_sample :
    let w := run (World.step memOs) twoStorages
      [openSession, getObjectHandles FIRST_STORAGE_ID 0]
    let w' := run (World.step memOs) w fileChanges
    let told := (run (World.tell memOs) (w, []) fileChanges).2
    ∃ updates : List (Update Nat),
      Follows w.ctx.objectHandles (aboutObjects updates) w'.ctx.objectHandles ∧
      (aboutObjects updates).foldl Update.apply w.ctx.objectHandles = w'.ctx.objectHandles ∧
      told.Sublist (updates.map (noticeOf w.ctx.sessionId)) ∧
      ((∀ s, (memOs.act .getCancelReq s).1 = false) →
        told = updates.map (noticeOf w.ctx.sessionId)) :=
  file_events_mirrored ⟨fun _ => rfl, fun _ => rfl⟩ twoStorages_initial
    [openSession, getObjectHandles FIRST_STORAGE_ID 0] fileChanges
    (by simp [fileChanges, Event.IsFile]) (by decide +kernel)

-- Three events are sent: the last one would be idle.
example : (run (World.tell memOs) (run (World.step memOs) twoStorages
    [openSession, getObjectHandles FIRST_STORAGE_ID 0], []) fileChanges).2.length = 3 := by
  decide +kernel

end Notices

section Additions

variable {folder : Folder} {root base name : CString} {parent storageId : Nat} {quiet : σ → Prop}
  {p : EntryPtr} {event : InotifyEvent}

-- A folder whose path stays, as the thread of the events sees it.
structure Os.Watches (os : Os σ) (base : CString) (quiet : σ → Prop) (ctx : MtpCtx)
    (p : EntryPtr) : Prop where
  path : ∀ s, quiet s → ∃ s', quiet s' ∧
    exec (World.handle os) (entryPath p) ⟨ctx, s⟩ = (some base, ⟨ctx, s'⟩)
  lock : ∀ s, quiet s → quiet (os.act .lockInotifyMutex s).2

theorem exec_getFileInfo (hkeeps : os.Keeps base folder quiet)
    (hwatches : os.Watches base quiet ctx p) {s : σ} (hquiet : quiet s) (hbase : base ≠ [])
    (hname : IsFileName event.name) (hlen : event.name.length ≤ FS_HANDLE_MAX_FILENAME_SIZE) :
    ∃ s', quiet s' ∧ exec (World.handle os) (getFileInfo event (some p) false) ⟨ctx, s⟩ =
      (true, ⟨{ ctx with inotifyFileInfo := (folder.info event.name ctx.inotifyFileInfo).2 },
        s'⟩) := by
  obtain ⟨s1, hquiet1, hpath⟩ := hwatches.path s hquiet
  obtain ⟨hmem, hquiet2⟩ := hkeeps.malloc s1 hquiet1
  refine ⟨_, hquiet2, ?_⟩
  rw [getFileInfo, bind_eq, exec_bind, hpath]
  dsimp only
  rw [exec_act_bind, hmem, if_pos rfl, if_neg Bool.false_ne_true, exec_getCtx_bind]
  have hstat := exec_fsEntryStat (w := ⟨ctx, (os.act .malloc s1).2⟩) hkeeps hquiet2 hbase hname hlen
    ctx.inotifyFileInfo
  rw [bind_eq, exec_bind]
  dsimp only
  rw [hstat]
  rfl

theorem db_addEntry (hsession : w.ctx.fsDb.isSome = true)
    (hmem : (os.act .entryMemory w.os).1 = AllocMem.success) (fileinfo : FileFoundInfo)
    (parent storageId : Nat) :
    (exec (World.handle os) (addEntry fileinfo parent storageId) w).2.ctx.db =
      (w.ctx.db.addEntry AllocMem.success fileinfo parent storageId).2 := by
  obtain ⟨db, hdb⟩ := Option.isSome_iff_exists.mp hsession
  have hold : w.ctx.db = db := by rw [MtpCtx.db, hdb, Option.getD_some]
  rw [addEntry, exec_getCtx_bind, FsHandlesDb.addEntry]
  cases hsearch : w.ctx.db.searchEntryByInfo fileinfo parent storageId with
  | some p => rfl
  | none =>
      dsimp only
      rw [exec_act_bind, hmem]
      change (w.ctx.applyDb (.allocEntry AllocMem.success fileinfo parent storageId)).db = _
      rw [MtpCtx.applyDb, MtpCtx.db, hdb, hold]
      rfl

theorem db_entryCreated (hsession : w.ctx.fsDb.isSome = true)
    (hmem : (os.act .entryMemory w.os).1 = AllocMem.success) (folder : EntryPtr) :
    (exec (World.handle os) (entryCreated folder) w).2.ctx.db =
      (w.ctx.db.addEntry AllocMem.success w.ctx.inotifyFileInfo (w.ctx.entry folder).handle
        (w.ctx.entry folder).storageId).2 := by
  rw [entryCreated, exec_getCtx_bind]
  dsimp only
  cases hsearch : w.ctx.db.searchEntryByInfo w.ctx.inotifyFileInfo (w.ctx.entry folder).handle
      (w.ctx.entry folder).storageId with
  | some p =>
      rw [FsHandlesDb.addEntry, hsearch]
      rfl
  | none => exact db_addEntry hsession hmem _ _ _

-- An entry is added exactly when there is none of the name.
theorem addEntry_eq_self_iff {db : FsHandlesDb} (hs : Slots db) (fileinfo : FileFoundInfo)
    (parent storageId : Nat) :
    (db.addEntry AllocMem.success fileinfo parent storageId).2 = db ↔
      (db.searchEntryByInfo fileinfo parent storageId).isSome = true := by
  rw [FsHandlesDb.addEntry]
  cases hsearch : db.searchEntryByInfo fileinfo parent storageId with
  | some p => exact iff_of_true rfl rfl
  | none =>
      refine iff_of_false (fun heq => ?_) (by simp)
      rcases FsHandlesDb.allocEntry_cases hs AllocMem.success fileinfo parent storageId with
        ⟨p, db', hstep, -, ha, -⟩ | ⟨db', hstep, -⟩
      · dsimp only at heq
        rw [hstep] at heq
        have hlist := congrArg (fun db => db.entryList.length) heq
        dsimp only at hlist
        rw [ha.entryList, List.length_cons] at hlist
        omega
      · have hnone := congrArg Prod.fst hstep
        rw [FsHandlesDb.allocEntry] at hnone
        obtain ⟨slot, hslot⟩ := Option.isSome_iff_exists.mp (takeSlot_success db)
        simp [AllocMem.success, hslot] at hnone

theorem addEntry_kept {db : FsHandlesDb} (hs : Slots db) (fileinfo : FileFoundInfo)
    (parent storageId : Nat) {q : EntryPtr} (hq : q ∈ db.entryList) :
    (db.addEntry AllocMem.success fileinfo parent storageId).2.pool q = db.pool q := by
  rw [FsHandlesDb.addEntry]
  cases hsearch : db.searchEntryByInfo fileinfo parent storageId with
  | some p => rfl
  | none =>
      rcases FsHandlesDb.allocEntry_cases hs AllocMem.success fileinfo parent storageId with
        ⟨p, db', hstep, -, ha, -⟩ | ⟨db', hstep, -, hn⟩
      · dsimp only
        rw [hstep]
        exact ha.pool_of_ne q fun hqp => ha.fresh (hqp ▸ hq)
      · dsimp only
        rw [hstep]
        exact hn.pool q hq

theorem exec_endTurn (hos : MutexSucceeds os) (code : Nat) (changed : Option EntryPtr)
    (next : M Bool) (w : World σ) :
    ∃ s, exec (World.handle os) (endTurn code changed next) w =
      exec (World.handle os) next ⟨w.ctx, s⟩ := by
  unfold endTurn
  rw [exec_getCtx_bind, exec_act_bind, hos.unlock, if_pos rfl]
  cases changed with
  | none => exact ⟨_, rfl⟩
  | some p =>
      obtain ⟨s, hpush⟩ := @exec_mtpPushEvent _ os ⟨w.ctx, (os.act .unlockInotifyMutex w.os).2⟩
        code [(w.ctx.entry p).handle] (by simp) []
      have hworld := (exec_observe (h := World.handle os) (fun c _ _ told => noteEvent c told)
        (mtpPushEvent code [(w.ctx.entry p).handle])
          (⟨w.ctx, (os.act .unlockInotifyMutex w.os).2⟩, ([] : List (List UInt8)))).2
      refine ⟨s, ?_⟩
      dsimp only
      rw [bind_eq, exec_bind, ← hworld]
      exact congrArg (fun r => exec (World.handle os) next r.2.1) hpush

-- A turn for which no folder is left.
theorem exec_forWatchedFolders_nil (hos : MutexSucceeds os) {deleted : Bool} {code : Nat}
    {change : EntryPtr → M (Option EntryPtr)} {start : List EntryPtr} (fuel : Nat)
    (hnone : w.ctx.db.getEntryByWd event.wd start = []) :
    (exec (World.handle os) (forWatchedFolders event deleted code change fuel start) w).2.ctx =
      w.ctx := by
  cases fuel with
  | zero => rfl
  | succ fuel =>
      rw [forWatchedFolders, exec_act_bind, hos.lock, if_pos rfl, exec_getCtx_bind]
      dsimp only
      rw [hnone]
      obtain ⟨s, hend⟩ := exec_endTurn hos code none (pure true)
        (⟨w.ctx, (os.act .lockInotifyMutex w.os).2⟩ : World σ)
      exact congrArg (fun r => r.2.ctx) hend

-- No other folder has the watch descriptor.
def MtpCtx.WatchesOnly (ctx : MtpCtx) (wd : Nat) (p : EntryPtr) : Prop :=
  ctx.db.Live p ∧ (ctx.entry p).watchDescriptor = wd ∧
    ∀ q, ctx.db.Live q → (ctx.entry q).watchDescriptor = wd → q = p

theorem getEntryByWd_eq {wd : Nat} (honly : ctx.WatchesOnly wd p)
    (hnodup : ctx.db.entryList.Nodup) :
    ∃ rest, ctx.db.getEntryByWd wd [] = p :: rest ∧ ∀ q ∈ rest, q ∈ ctx.db.entryList ∧ q ≠ p := by
  obtain ⟨⟨hlisted, hdel⟩, hwd, hunique⟩ := honly
  have hwalk : ctx.db.getEntryByWd wd [] = ctx.db.entryList.dropWhile fun q =>
      !(!(ctx.db.pool q).isDeleted && (ctx.db.pool q).watchDescriptor == (wd : Int)) := rfl
  have hhead := List.head?_dropWhile_not (fun q =>
    !(!(ctx.db.pool q).isDeleted && (ctx.db.pool q).watchDescriptor == (wd : Int)))
      ctx.db.entryList
  have hsuffix := List.dropWhile_suffix (l := ctx.db.entryList) (fun q =>
    !(!(ctx.db.pool q).isDeleted && (ctx.db.pool q).watchDescriptor == (wd : Int)))
  rw [← hwalk] at hhead hsuffix
  cases hfound : ctx.db.getEntryByWd wd [] with
  | nil =>
      rw [hwalk, List.dropWhile_eq_nil_iff] at hfound
      have hpassed := hfound p hlisted
      have hentry : (ctx.db.pool p).watchDescriptor = wd := hwd
      simp [hdel, hentry] at hpassed
  | cons q rest =>
      rw [hfound] at hhead hsuffix
      have hq : q = p := by
        have hstop : (ctx.db.pool q).isDeleted = false ∧
            (ctx.db.pool q).watchDescriptor = (wd : Int) := by simpa using hhead
        exact hunique q ⟨hsuffix.subset List.mem_cons_self, hstop.1⟩ hstop.2
      subst hq
      have hrest := (List.nodup_cons.mp (hnodup.sublist hsuffix.sublist)).1
      refine ⟨rest, rfl, fun r hr => ⟨hsuffix.subset (List.mem_cons_of_mem q hr), ?_⟩⟩
      rintro rfl
      exact hrest hr

-- One folder is watched: its turn is the only one that does something.
theorem db_forWatchedFolders (hkeeps : os.Keeps base folder quiet) (hos : MutexSucceeds os)
    (hquiet : quiet w.os) (hwatches : os.Watches base quiet w.ctx p) (hbase : base ≠ [])
    (hname : IsFileName event.name) (hlen : event.name.length ≤ FS_HANDLE_MAX_FILENAME_SIZE)
    (hsession : w.ctx.fsDb.isSome = true) (ho : w.ctx.Ordered)
    (honly : w.ctx.WatchesOnly event.wd p) (code fuel : Nat) :
    let w' := (exec (World.handle os)
      (forWatchedFolders event false code entryCreated (fuel + 1) []) w).2
    w'.ctx.db = (w.ctx.db.addEntry AllocMem.success
      (folder.info event.name w.ctx.inotifyFileInfo).2 (w.ctx.entry p).handle
        (w.ctx.entry p).storageId).2 := by
  obtain ⟨rest, hfound, hrest⟩ := getEntryByWd_eq honly ho.slots.nodup
  obtain ⟨s, hs, hinfo⟩ := exec_getFileInfo hkeeps hwatches (hwatches.lock w.os hquiet) hbase
    hname hlen
  rw [forWatchedFolders, exec_act_bind, hos.lock, if_pos rfl, exec_getCtx_bind]
  dsimp only
  rw [hfound, List.head?_cons, List.tail_cons, bind_eq, exec_bind, hinfo]
  dsimp only
  generalize hnext : (if rest ≠ [] then forWatchedFolders event false code entryCreated fuel rest
    else pure true) = next
  have hturn : exec (World.handle os) (entryCreated p >>= fun changed => endTurn code changed next)
      ⟨{ w.ctx with inotifyFileInfo := (folder.info event.name w.ctx.inotifyFileInfo).2 }, s⟩ =
        exec (World.handle os) (endTurn code (exec (World.handle os) (entryCreated p)
          ⟨{ w.ctx with inotifyFileInfo := (folder.info event.name w.ctx.inotifyFileInfo).2 },
            s⟩).1 next) (exec (World.handle os) (entryCreated p)
          ⟨{ w.ctx with inotifyFileInfo := (folder.info event.name w.ctx.inotifyFileInfo).2 },
            s⟩).2 := by
    rw [bind_eq, exec_bind]
  refine (congrArg (fun r => r.2.ctx.db) hturn).trans ?_
  have hcreated := @db_entryCreated _ os
    ⟨{ w.ctx with inotifyFileInfo := (folder.info event.name w.ctx.inotifyFileInfo).2 }, s⟩ hsession
    (hkeeps.entryMemory s hs).1 p
  generalize exec (World.handle os) (entryCreated p)
    ⟨{ w.ctx with inotifyFileInfo := (folder.info event.name w.ctx.inotifyFileInfo).2 }, s⟩ = r
    at hcreated ⊢
  obtain ⟨s', hend⟩ := exec_endTurn hos code r.1 next r.2
  have hdb : r.2.ctx.db = (w.ctx.db.addEntry AllocMem.success
      (folder.info event.name w.ctx.inotifyFileInfo).2 (w.ctx.entry p).handle
        (w.ctx.entry p).storageId).2 := hcreated
  rw [hend, ← hdb, ← hnext]
  by_cases hempty : rest = []
  · rw [if_neg fun h => h hempty]
    rfl
  · rw [if_pos hempty]
    refine congrArg MtpCtx.db (exec_forWatchedFolders_nil hos fuel ?_)
    -- the entries that are left are not watched
    have hpool : ∀ q ∈ rest, r.2.ctx.db.pool q = w.ctx.db.pool q := by
      intro q hq
      rw [hdb]
      exact addEntry_kept ho.slots _ _ _ (hrest q hq).1
    rw [FsHandlesDb.getEntryByWd, FsHandlesDb.walkFrom, if_neg hempty, List.dropWhile_eq_nil_iff]
    intro q hq
    dsimp only
    rw [hpool q hq]
    by_contra hwatched
    have hboth : (w.ctx.db.pool q).isDeleted = false ∧
        (w.ctx.db.pool q).watchDescriptor = (event.wd : Int) := by simpa using hwatched
    exact (hrest q hq).2 (honly.2.2 q ⟨(hrest q hq).1, hboth.1⟩ hboth.2)

-- What a scan makes of one name.
theorem db_addFolderEntries_one (hkeeps : os.Keeps base folder quiet) (hquiet : quiet w.os)
    (hbase : base ≠ []) (hname : IsFileName name)
    (hlen : name.length ≤ FS_HANDLE_MAX_FILENAME_SIZE) (hsession : w.ctx.fsDb.isSome = true) :
    (exec (World.handle os) (addFolderEntries base parent storageId [name]) w).2.ctx.db =
      if (folder.stat name).isSome ∧ isListedName w.ctx.usbCfg.showHiddenFiles name = true then
        (w.ctx.db.addEntry AllocMem.success (folder.info name w.ctx.inotifyFileInfo).2 parent
          storageId).2
      else w.ctx.db := by
  obtain ⟨hmem, hquiet'⟩ := hkeeps.malloc w.os hquiet
  rw [addFolderEntries, exec_act_bind, hmem, if_pos rfl, bind_eq, exec_bind,
    exec_fsEntryStat hkeeps hquiet' hbase hname hlen, Folder.info, Folder.info]
  cases hstat : folder.stat name with
  | none =>
      rw [if_neg fun h => Bool.false_ne_true h.1]
      rfl
  | some stat =>
      dsimp only
      rw [if_pos rfl, exec_getCtx_bind]
      by_cases hlisted : isListedName w.ctx.usbCfg.showHiddenFiles name = true
      · rw [if_pos hlisted, if_pos ⟨rfl, hlisted⟩]
        simp only [bind_eq, exec_bind]
        exact @db_addEntry _ os ⟨w.ctx, (os.act .malloc w.os).2⟩ hsession
          (hkeeps.entryMemory _ hquiet').1 _ _ _
      · rw [if_neg hlisted, if_neg fun h => hlisted h.2]
        rfl

-- The event leads to what a scan would make of the name.
def MtpCtx.AgreesOn (ctx : MtpCtx) (folder : Folder) (name : CString) (parent storageId : Nat) :
    Prop :=
  if (folder.stat name).isSome then
    isListedName ctx.usbCfg.showHiddenFiles name = true ∨
      (ctx.db.findEntry name parent storageId).isSome = true
  else
    (ctx.db.findEntry [] parent storageId).isSome = true

-- The event is about a name that came to the folder.
def InotifyEvent.IsAddition (event : InotifyEvent) : Prop :=
  hasAnyFlag event.mask IN_CREATE IN_MOVED_TO = true ∧ hasFlag event.mask IN_MODIFY = false ∧
    hasAnyFlag event.mask IN_DELETE IN_MOVED_FROM = false

instance (event : InotifyEvent) : Decidable event.IsAddition :=
  inferInstanceAs (Decidable (_ ∧ _ ∧ _))

theorem db_inotifyThread_created (hmask : event.IsAddition) (hname : event.name ≠ []) :
    (exec (World.handle os) (inotifyThread event) w).2.ctx.db =
      (exec (World.handle os) (forWatchedFolders event false MTP_EVENT_OBJECT_ADDED entryCreated
        (w.ctx.db.entryList.length + 1) []) w).2.ctx.db := by
  obtain ⟨hadded, hmodified, hremoved⟩ := hmask
  rw [inotifyThread, if_pos hname, exec_getCtx_bind]
  dsimp only
  rw [if_pos hadded, bind_eq, exec_bind, hmodified, hremoved]
  simp only [Bool.and_false, if_neg Bool.false_ne_true]
  rfl

-- A file event and a scan of the folder leave the same database exactly when the name
-- is listed or has an entry already. The event adds hidden files, too, and where the
-- file is gone meanwhile it adds an entry without a name.
theorem event_adds_like_scan_iff (hkeeps : os.Keeps base folder quiet) (hos : MutexSucceeds os)
    (hquiet : quiet w.os) (hwatches : os.Watches base quiet w.ctx p) (hbase : base ≠ [])
    (hname : IsFileName event.name) (hlen : event.name.length ≤ FS_HANDLE_MAX_FILENAME_SIZE)
    (hsession : w.ctx.fsDb.isSome = true) (ho : w.ctx.Ordered)
    (honly : w.ctx.WatchesOnly event.wd p) (hmask : event.IsAddition) :
    (exec (World.handle os) (inotifyThread event) w).2.ctx.db =
        (exec (World.handle os) (addFolderEntries base (w.ctx.entry p).handle
          (w.ctx.entry p).storageId [event.name]) w).2.ctx.db ↔
      w.ctx.AgreesOn folder event.name (w.ctx.entry p).handle (w.ctx.entry p).storageId := by
  rw [db_inotifyThread_created hmask hname.1, db_forWatchedFolders hkeeps hos hquiet hwatches hbase
    hname hlen hsession ho honly, db_addFolderEntries_one hkeeps hquiet hbase hname hlen hsession,
    MtpCtx.AgreesOn, Folder.info]
  have hself := fun fileinfo => addEntry_eq_self_iff ho.slots fileinfo (w.ctx.entry p).handle
    (w.ctx.entry p).storageId
  cases hstat : folder.stat event.name with
  | none =>
      rw [if_neg fun h => Bool.false_ne_true h.1, Option.isSome_none, if_neg Bool.false_ne_true]
      exact hself _
  | some stat =>
      rw [Option.isSome_some, if_pos rfl]
      by_cases hlisted : isListedName w.ctx.usbCfg.showHiddenFiles event.name = true
      · rw [if_pos ⟨rfl, hlisted⟩]
        exact iff_of_true rfl (Or.inl hlisted)
      · rw [if_neg fun h => hlisted h.2, or_iff_right hlisted]
        exact hself _

-- The root of "/a" is watched.
def watchedRoot : EntryPtr := ⟨1, 1023⟩

def watchedSession : World MemSystem :=
  ⟨{ startCtx (storagesOf [(A_ROOT, A_STORAGE, 0)]) with
      fsDb := some (run DbOp.step initFsDb [.allocRootEntry AllocMem.success FIRST_STORAGE_ID,
        .setWatchDescriptor watchedRoot 1]) },
    { sampleSystem with nodes := nodesAfter }⟩

theorem watches_watchedRoot :
    memOs.Watches A_ROOT (fun sys => sys.nodes = nodesAfter) watchedSession.ctx watchedRoot where
  path sys h := by
    obtain ⟨nodes, opened, lastFile, lastWatch, host, sent, cancelReq⟩ := sys
    obtain rfl : nodes = nodesAfter := h
    exact ⟨_, rfl, rfl⟩
  lock sys h := h

def hiddenCreated : InotifyEvent := ⟨1, IN_CREATE, [DOT, 0x67]⟩

-- A scan passes over the hidden file, and the event adds it.
theorem event_adds_like_scan_iff_sample :
    (exec (World.handle memOs) (inotifyThread hiddenCreated) watchedSession).2.ctx.db ≠
      (exec (World.handle memOs) (addFolderEntries A_ROOT 0 FIRST_STORAGE_ID [hiddenCreated.name])
        watchedSession).2.ctx.db := by
  have honly : watchedSession.ctx.WatchesOnly 1 watchedRoot := by
    refine ⟨by decide +kernel, by decide +kernel, fun q hq _ => ?_⟩
    have hlist : watchedSession.ctx.db.entryList = [watchedRoot] := by decide +kernel
    have hmem := hq.1
    rw [hlist] at hmem
    exact List.mem_singleton.mp hmem
  have hordered : watchedSession.ctx.Ordered := by
    have hslots := DbOp.slots_step Slots.init (.allocRootEntry AllocMem.success FIRST_STORAGE_ID)
    have hstored := DbOp.stored_step Slots.init Stored.init
      (.allocRootEntry AllocMem.success FIRST_STORAGE_ID) trivial
    exact ⟨DbOp.slots_step hslots (.setWatchDescriptor watchedRoot 1),
      DbOp.stored_step hslots hstored (.setWatchDescriptor watchedRoot 1) trivial⟩
  have hfile : IsFileName hiddenCreated.name ∧
      hiddenCreated.name.length ≤ FS_HANDLE_MAX_FILENAME_SIZE := by decide
  have hiff := event_adds_like_scan_iff keeps_nodesAfter ⟨fun _ => rfl, fun _ => rfl⟩ rfl
    watches_watchedRoot (by decide) hfile.1 hfile.2 rfl hordered honly (by decide)
  intro heq
  have hagrees := hiff.mp heq
  revert hagrees
  rw [MtpCtx.AgreesOn]
  decide +kernel

end Additions

end Umtp
