import Umtp.Effects.Phases

namespace Umtp

open Lib Lib.Prog Handles

variable {σ α β : Type} {os : Os σ} {fp : Footprint} {ctx ctx' : MtpCtx} {p : EntryPtr}

-- An entry whose files are within the footprint, and one whose files may be
-- changed.
structure Touches (fp : Footprint) (ctx : MtpCtx) (p : EntryPtr) : Prop where
  listed : p ∈ ctx.db.entryList
  below : fp.Below (ctx.rootOf p)

structure Alters (fp : Footprint) (ctx : MtpCtx) (p : EntryPtr) : Prop extends
    Touches fp ctx p where
  changes : fp.changes (ctx.entry p).storageId

section Known

variable {child : EntryPtr → Prop} {fp' : Footprint}

theorem Touches.covers (h : Touches fp ctx p) (hpath : fp'.path = fp.path) :
    Covers (Knows ctx child) fp' p := by
  intro ctx' hl rest
  have hroot : ctx'.rootOf p = ctx.rootOf p := Later.rootOf_eq hl h.listed
  have hbelow := h.below rest
  rw [← hroot] at hbelow
  rw [hpath]
  exact hbelow

theorem Alters.owns (h : Alters fp ctx p) (hchanges : fp'.changes = fp.changes) :
    Owns (Knows ctx child) fp' p := by
  intro ctx' hl
  have hid : (ctx'.entry p).storageId = (ctx.entry p).storageId := (Later.entry_eq hl h.listed).2.2
  rw [hid, hchanges]
  exact h.changes

theorem Touches.later (h : Touches fp ctx p) (hl : Later ctx ctx') : Touches fp ctx' p :=
  ⟨hl.mem h.listed, by rw [hl.rootOf_eq h.listed]; exact h.below⟩

theorem Alters.later (h : Alters fp ctx p) (hl : Later ctx ctx') : Alters fp ctx' p :=
  ⟨h.toTouches.later hl, by rw [(hl.entry_eq h.listed).2.2]; exact h.changes⟩

end Known

theorem obeys_inSession {op : M Response} (ho : ctx.Ordered) (h : Obeys os fp ctx op) :
    Obeys os fp ctx (inSession op) := by
  refine obeys_getCtx_bind ?_
  split
  · exact h
  · exact obeys_pure ho _

theorem obeys_underMutex {op : M Response} (ho : ctx.Ordered) (h : Obeys os fp ctx op) :
    Obeys os fp ctx (underMutex op) := by
  refine obeys_plain_bind _ rfl fun locked => ?_
  split
  · refine obeys_bind h fun response ctx' hl => ?_
    exact obeys_still hl.ordered (uses_bind (uses_plain_ _ rfl) fun _ => uses_pure _)
  · exact obeys_pure ho _

-- The requests about one object.
theorem obeys_aboutEntry (ho : ctx.Ordered) (hdr : Buffer) {op : EntryPtr → M Response}
    (h : ∀ p, ctx.getEntryByHandle (param hdr 0) = some p → Obeys os fp ctx (op p)) :
    Obeys os fp ctx (aboutEntry hdr op) := by
  refine obeys_inSession ho (obeys_underMutex ho (obeys_getCtx_bind ?_))
  split
  · rename_i p hfind
    exact h p hfind
  · exact obeys_pure ho _

theorem obeys_mtpOpGetObjectInfo (ho : ctx.Ordered) (hdr : Buffer)
    (h : ∀ p, ctx.getEntryByHandle (param hdr 0) = some p → Touches fp ctx p) :
    Obeys os fp ctx (mtpOpGetObjectInfo hdr) := by
  refine obeys_aboutEntry ho hdr fun p hfind => obeys_still ho ?_
  have hcovers : Covers (Knows ctx fun _ => True) (fp.still ctx) p := (h p hfind).covers rfl
  exact uses_sendDataset _ _ fun _ _ => uses_buildObjectinfoDataset hcovers _ _

theorem obeys_mtpOpGetObjectPropValue (ho : ctx.Ordered) (hdr : Buffer) :
    Obeys os fp ctx (mtpOpGetObjectPropValue hdr) :=
  obeys_aboutEntry ho hdr fun _ _ => obeys_still ho <| uses_sendDataset _ _ fun _ _ =>
    uses_getCtx_bind fun _ _ => uses_pure _

theorem obeys_mtpOpGetObjectReferences (ho : ctx.Ordered) (hdr : Buffer) :
    Obeys os fp ctx (mtpOpGetObjectReferences hdr) :=
  obeys_aboutEntry ho hdr fun _ _ => obeys_still ho <| uses_sendDataset _ _ fun _ _ =>
    uses_pure _

theorem obeys_mtpOpGetObjectPropList (ho : ctx.Ordered) (hdr : Buffer)
    (h : ∀ p, ctx.getEntryByHandle (param hdr 0) = some p → Touches fp ctx p) :
    Obeys os fp ctx (mtpOpGetObjectPropList hdr) := by
  refine obeys_inSession ho (obeys_underMutex ho (obeys_getCtx_bind ?_))
  split
  · exact obeys_pure ho _
  · split
    · rename_i p hfind
      have hcovers : Covers (Knows ctx fun _ => True) (fp.still ctx) p := (h p hfind).covers rfl
      exact obeys_still ho <| uses_sendDataset _ _ fun _ _ =>
        uses_buildObjectproplistDataset hcovers _ _ _ _
    · exact obeys_pure ho _

-- Reading, writing and removing objects

theorem obeys_mtpOpGetObject (ho : ctx.Ordered) (hdr : Buffer)
    (h : ∀ p, ctx.getEntryByHandle (param hdr 0) = some p →
      ctx.checkHandleAccess (some p) (param hdr 0) false = none → Touches fp ctx p) :
    Obeys os fp ctx (mtpOpGetObject hdr) := by
  refine obeys_aboutEntry ho hdr fun p hfind => obeys_getCtx_bind ?_
  split
  · exact obeys_pure ho _
  · rename_i hcheck
    have hsend := @uses_sendFileData (Knows ctx fun _ => True) (fp.still ctx) _
      ((h p hfind hcheck).covers rfl) 0 (ctx.entry p).size
    refine obeys_still ho (uses_bind (uses_startData hdr) fun started => ?_)
    grind

theorem obeys_mtpOpGetPartialObject (ho : ctx.Ordered) (hdr : Buffer)
    (h : ∀ p, ctx.getEntryByHandle (param hdr 0) = some p →
      ctx.checkHandleAccess (some p) (param hdr 0) false = none → Touches fp ctx p) :
    Obeys os fp ctx (mtpOpGetPartialObject hdr) := by
  unfold mtpOpGetPartialObject
  refine obeys_inSession ho (obeys_underMutex ho ?_)
  simp only []
  refine obeys_getCtx_bind ?_
  split
  · exact obeys_pure ho _
  · rename_i p hcheck hfind
    rw [hfind] at hcheck
    have hsend := fun offset maxsize => @uses_sendFileData (Knows ctx fun _ => True) (fp.still ctx)
      _ ((h p hfind hcheck).covers rfl) offset maxsize
    refine obeys_still ho (uses_bind (uses_startData hdr) fun started => ?_)
    grind
  · exact obeys_pure ho _

theorem obeys_mtpOpBeginEditObject (ho : ctx.Ordered) (hdr : Buffer) :
    Obeys os fp ctx (mtpOpBeginEditObject hdr) :=
  obeys_inSession ho (obeys_underMutex ho (obeys_getCtx_bind (obeys_pure ho _)))

theorem obeys_mtpOpEndEditObject (ho : ctx.Ordered) (hdr : Buffer) :
    Obeys os fp ctx (mtpOpEndEditObject hdr) :=
  obeys_inSession ho <| obeys_underMutex ho <| obeys_getCtx_bind <|
    obeys_still ho <| uses_bind (uses_entryClose _) fun _ => uses_pure _

theorem uses_truncate64 {R : (c : Cmd) → c.Ans → Prop} {storageId : Nat} {path : CString}
    (offset : Int) (hp : fp.path path) (hs : fp.changes storageId) :
    Uses R (Cmd.Within fp) (M.act (.truncate64 storageId path offset)) :=
  uses_act _ (by simpa [Action.paths] using hp) (by simpa [Action.changes] using hs)

theorem obeys_mtpOpTruncateObject (ho : ctx.Ordered) (hdr : Buffer)
    (h : ∀ p, ctx.getEntryByHandle (param hdr 0) = some p →
      ctx.checkHandleAccess (some p) (param hdr 0) true = none → Alters fp ctx p) :
    Obeys os fp ctx (mtpOpTruncateObject hdr) := by
  refine obeys_aboutEntry ho hdr fun p hfind => obeys_getCtx_bind ?_
  split
  · exact obeys_pure ho _
  · rename_i hcheck
    have hp := h p hfind hcheck
    refine obeys_still ho (uses_entryPath_bind (hp.covers rfl) fun found hfound => ?_)
    split
    · have htruncate := fun offset => @uses_truncate64 (fp.still ctx) (Knows ctx fun _ => True) _
        _ offset (Footprint.Below.self hfound) hp.changes
      grind
    · exact uses_pure _

theorem obeys_sendObjectData (ho : ctx.Ordered) (hdr : Buffer) (size : Nat)
    (h : ∀ p, ctx.getEntryByHandle ctx.sendObjInfoHandle = some p →
      ctx.checkHandleAccess (some p) 0 true = none → Alters fp ctx p) :
    Obeys os fp ctx (sendObjectData hdr size) := by
  unfold sendObjectData
  refine obeys_getCtx_bind ?_
  dsimp only
  split
  · rename_i p hfind
    split
    · exact obeys_pure ho _
    · rename_i hcheck
      have hp := h p hfind hcheck
      have hcovers : Covers (Knows ctx fun _ => True) (fp.still ctx) p := hp.covers rfl
      have howns : Owns (Knows ctx fun _ => True) (fp.still ctx) p := hp.owns rfl
      refine obeys_still ho (uses_bind (uses_entryOpen hcovers (Or.inr howns)) fun file => ?_)
      have hreceive := fun isPartial => uses_receiveObject howns hdr size isPartial file
      grind
  · exact obeys_pure ho _

-- The command phase of SendPartialObject comes with no data.
theorem obeys_sendObjectPhase (ho : ctx.Ordered) (hdr : Buffer) (size : Nat)
    (h : hdrOperation hdr = MTP_CONTAINER_TYPE_DATA →
      ∀ p, ctx.getEntryByHandle ctx.sendObjInfoHandle = some p →
      ctx.checkHandleAccess (some p) 0 true = none → Alters fp ctx p) :
    Obeys os fp ctx (sendObjectPhase hdr size) := by
  have hphase : ∀ ctx', ctx'.Ordered →
      (hdrOperation hdr = MTP_CONTAINER_TYPE_DATA → ctx' = ctx) →
      Obeys os fp ctx' (sendObjectRest hdr size) := by
    intro ctx' ho' hsame
    refine obeys_getCtx_bind ?_
    split
    · exact obeys_pure ho' _
    · split
      · rename_i hdata
        rw [hsame hdata]
        exact obeys_sendObjectData ho hdr size (h hdata)
      · split
        · split <;> exact obeys_pure ho' _
        · exact obeys_pure ho' _
  unfold sendObjectPhase
  dsimp only
  split
  · rename_i hcommand
    refine obeys_buffer_bind (.setSendObjInfo _ _ _) rfl ho fun ctx' hdb hs _ => ?_
    refine hphase ctx' (Later.of_eq ho hdb hs).ordered fun hdata => ?_
    rw [hcommand.2] at hdata
    exact absurd hdata (by decide)
  · exact hphase ctx ho fun _ => rfl

theorem obeys_mtpOpSendObject (ho : ctx.Ordered) (hdr : Buffer) (size : Nat)
    (h : hdrOperation hdr = MTP_CONTAINER_TYPE_DATA →
      ∀ p, ctx.getEntryByHandle ctx.sendObjInfoHandle = some p →
      ctx.checkHandleAccess (some p) 0 true = none → Alters fp ctx p) :
    Obeys os fp ctx (mtpOpSendObject hdr size) := by
  unfold mtpOpSendObject
  refine obeys_inSession ho (obeys_plain_bind _ rfl fun locked => ?_)
  split
  · refine obeys_bind (obeys_sendObjectPhase ho hdr size h) fun phase ctx' hl => ?_
    exact obeys_still hl.ordered (uses_bind (uses_plain _ rfl) fun _ => uses_pure _)
  · exact obeys_pure ho _

theorem obeys_mtpOpSetObjectPropValue (ho : ctx.Ordered) (hdr : Buffer)
    (h : hdrOperation hdr = MTP_CONTAINER_TYPE_DATA →
      ∀ p, ctx.getEntryByHandle ctx.setObjectPropValueHandle = some p →
      ctx.checkHandleAccess (some p) 0 true = none → Alters fp ctx p ∧ fp.renames p) :
    Obeys os fp ctx (mtpOpSetObjectPropValue hdr) := by
  unfold mtpOpSetObjectPropValue
  refine obeys_inSession ho ?_
  split
  · exact obeys_still ho (uses_bind (uses_buffer _ rfl) fun _ => uses_pure _)
  · split
    · rename_i hdata
      refine obeys_getCtx_bind ?_
      refine obeys_bind ?_ fun code ctx' hl => ?_
      · unfold setObjectPropValue
        split
        · exact obeys_pure ho _
        · split
          · refine obeys_getCtx_bind ?_
            split
            · rename_i p hfind
              split
              · exact obeys_pure ho _
              · rename_i hcheck
                obtain ⟨hp, hrename⟩ := h hdata p hfind hcheck
                have hstill : (fp.still ctx).renames p := ⟨hrename, hp.listed⟩
                have hcovers : Covers (Knows ctx fun _ => True) (fp.still ctx) p := hp.covers rfl
                exact obeys_still ho (uses_renameObject hcovers (hp.owns rfl) hstill hdr)
            · exact obeys_pure ho _
          · exact obeys_pure ho _
      · exact obeys_still hl.ordered (uses_bind (uses_buffer _ rfl) fun _ => uses_pure _)
    · exact obeys_pure ho _

-- The file system identity is no part of the context.
theorem exec_setGiduid (uid gid : Int) (s : σ) :
    ∃ value s', exec (World.handle os) (setGiduid uid gid) ⟨ctx, s⟩ = (value, ⟨ctx, s'⟩) := by
  unfold setGiduid
  split <;> split <;> exact ⟨_, _, rfl⟩

theorem exec_setStorageGiduid (storageId : Nat) (s : σ) :
    ∃ value s', exec (World.handle os) (setStorageGiduid storageId) ⟨ctx, s⟩ =
      (value, ⟨ctx, s'⟩) := by
  rw [setStorageGiduid, exec_getCtx_bind]
  split
  · exact exec_setGiduid _ _ s
  · exact ⟨_, _, rfl⟩

theorem obeys_setStorageGiduid_bind (ho : ctx.Ordered) (storageId : Nat) {f : Bool → M α}
    (hf : ∀ value, Obeys os fp ctx (f value)) :
    Obeys os fp ctx (setStorageGiduid storageId >>= f) :=
  obeys_bind_same (obeys_still ho (uses_setStorageGiduid storageId))
    (exec_setStorageGiduid storageId) hf

-- The entries that the search of a removal comes to are in the storage of the
-- entry that is removed.
theorem removable_of_child {storageId : Nat}
    (hbelow : fp.Below ((ctx.mtpGetStorageRoot storageId).getD []))
    (hchanges : fp.changes storageId)
    (hflags : ∀ p, fp.flags .deleteDbTree p ∧ fp.flags .deleteTree p)
    (hsearches : ∀ parent id, fp.searches parent id)
    (hp : p ∈ ctx.db.entryList ∧ (ctx.entry p).storageId = storageId) :
    Removable (Knows ctx fun p => p ∈ ctx.db.entryList ∧ (ctx.entry p).storageId = storageId)
      (fp.searching ctx storageId) p := by
  have ha : Alters fp ctx p :=
    ⟨⟨hp.1, by rw [MtpCtx.rootOf, hp.2]; exact hbelow⟩, by rw [hp.2]; exact hchanges⟩
  refine ⟨ha.covers rfl, ha.owns rfl, hflags p, fun ctx' hl => ⟨hsearches _ _, ?_⟩⟩
  exact (Later.entry_eq hl hp.1).2.2.trans hp.2

theorem obeys_deleteDbTree (ho : ctx.Ordered) (ha : Alters fp ctx p)
    (hflags : ∀ p, fp.flags .deleteDbTree p ∧ fp.flags .deleteTree p)
    (hsearches : ∀ parent id, fp.searches parent id) (levels : Nat) :
    Obeys os fp ctx (deleteDbTree levels p) := by
  have hrest : ∀ (storageId : Nat) (ctx' : MtpCtx), Later ctx ctx' →
      (ctx.entry p).storageId = storageId → Searched ctx' storageId ctx' →
      ∀ deleteSubTree : EntryPtr → M Nat,
      (∀ R fp', (∀ q, ChildOf R q → Removable R fp' q) → ∀ q, Removable R fp' q →
        Uses R (Cmd.Within fp') (deleteSubTree q)) →
      Obeys os fp ctx' (childFuel >>= fun fuel => deleteChildren deleteSubTree fuel 0) := by
    intro storageId ctx' hl hid hs deleteSubTree hsub
    have ha' := ha.later hl
    have hid' : (ctx'.entry p).storageId = storageId := (hl.entry_eq ha.listed).2.2.trans hid
    have hbelow := ha'.below
    have hchanges := ha'.changes
    rw [MtpCtx.rootOf, hid'] at hbelow
    rw [hid'] at hchanges
    refine obeys_searching hl.ordered hs (uses_bind uses_childFuel fun fuel => ?_)
    have hchild := fun q (hq : ChildOf (Knows ctx' fun p =>
        p ∈ ctx'.db.entryList ∧ (ctx'.entry p).storageId = storageId) q) =>
      removable_of_child hbelow hchanges hflags hsearches (hq q rfl)
    exact uses_deleteChildren hchild (hsub _ _ hchild) _ _
  cases levels with
  | zero =>
      unfold deleteDbTree
      refine obeys_getCtx_bind (obeys_initSearchHandle_bind ho (hsearches _ _) fun ctx' hl hs => ?_)
      exact hrest _ ctx' hl rfl hs _ fun _ _ _ _ _ => uses_pure _
  | succ levels =>
      unfold deleteDbTree
      refine obeys_getCtx_bind (obeys_initSearchHandle_bind ho (hsearches _ _) fun ctx' hl hs => ?_)
      exact hrest _ ctx' hl rfl hs _ fun _ _ hchild _ hq => uses_deleteDbTree hchild levels hq

theorem obeys_deleteEntry (ho : ctx.Ordered) (ha : Alters fp ctx p)
    (hflags : ∀ p, fp.flags .deleteDbTree p ∧ fp.flags .deleteTree p)
    (hsearches : ∀ parent id, fp.searches parent id) :
    Obeys os fp ctx (deleteEntry p) := by
  unfold deleteEntry
  refine obeys_getCtx_bind ?_
  have hcovers : Covers (Knows ctx fun _ => True) (fp.still ctx) p := ha.covers rfl
  refine obeys_still_bind ho (runs_entryPath hcovers) fun found ctx1 hfound hl1 => ?_
  split
  · rename_i path
    have hflag : (fp.still ctx1).flags .deleteTree p := (hflags p).2
    have hchanges : (fp.still ctx1).changes (ctx.entry p).storageId := ha.changes
    have hbelow : (fp.still ctx1).Below path := hfound
    split
    · refine obeys_bind (obeys_deleteDbTree hl1.ordered (ha.later hl1) hflags hsearches _) ?_
      intro cnt ctx2 hl2
      refine obeys_still hl2.ordered ?_
      have hflag : (fp.still ctx2).flags .deleteTree p := (hflags p).2
      have hchanges : (fp.still ctx2).changes (ctx.entry p).storageId := ha.changes
      have hbelow : (fp.still ctx2).Below path := hfound
      have htree := uses_fsRemoveTree (R := Knows ctx2 fun _ => True) hchanges PATH_MAX hbelow
      grind
    · refine obeys_still hl1.ordered ?_
      have hpath := hbelow.self
      grind
  · exact obeys_pure hl1.ordered _

theorem obeys_mtpOpDeleteObject (ho : ctx.Ordered) (hdr : Buffer)
    (h : ∀ p, ctx.getEntryByHandle (param hdr 0) = some p →
      ctx.checkHandleAccess none (param hdr 0) true = none → Alters fp ctx p)
    (hflags : ∀ p, fp.flags .deleteDbTree p ∧ fp.flags .deleteTree p)
    (hsearches : ∀ parent id, fp.searches parent id) :
    Obeys os fp ctx (mtpOpDeleteObject hdr) := by
  unfold mtpOpDeleteObject
  refine obeys_inSession ho (obeys_underMutex ho (obeys_getCtx_bind ?_))
  split
  · exact obeys_pure ho _
  · rename_i hcheck
    split
    · rename_i p hfind
      have hdelete : Obeys os fp ctx (deleteTree (param hdr 0)) := by
        refine obeys_getCtx_bind ?_
        rw [hfind]
        exact obeys_deleteEntry ho (h p hfind hcheck) hflags hsearches
      refine obeys_setStorageGiduid_bind ho _ fun set => ?_
      split
      · refine obeys_bind hdelete fun deleted ctx' hl => ?_
        exact obeys_still hl.ordered <| uses_bind (uses_pure _) fun _ =>
          uses_bind uses_restoreGiduid fun _ => uses_pure _
      · exact obeys_still ho <| uses_bind (uses_pure _) fun _ =>
          uses_bind uses_restoreGiduid fun _ => uses_pure _
    · refine obeys_still ho ?_
      grind

-- The handles of a folder

theorem obeys_startData_bind (ho : ctx.Ordered) (hdr : Buffer) {f : Bool → M α}
    (hf : ∀ ctx', ctx'.fsDb = ctx.fsDb → ctx'.storages = ctx.storages →
      ∀ value, Obeys os fp ctx' (f value)) : Obeys os fp ctx (startData hdr >>= f) :=
  obeys_getCtx_bind (obeys_buffer_bind _ rfl ho fun ctx' hdb hs _ => hf ctx' hdb hs _)

-- A folder that is scanned: its path, and the handle and storage that its entries
-- get.
structure Scans (fp : Footprint) (ctx : MtpCtx) (base : CString) (parent storageId : Nat) :
    Prop where
  base : fp.Below base
  root : fp.Below ((ctx.mtpGetStorageRoot storageId).getD [])
  allocates : fp.allocates parent storageId
  parent : parent = 0 ∨ ∃ q, ctx.db.Live q ∧ (ctx.entry q).handle = parent
  flags : ∀ p, fp.flags .scanAndAddFolder p
  searches : ∀ parent id, fp.searches parent id

theorem obeys_refreshFolder (ho : ctx.Ordered) {storageId : Nat}
    (hroot : fp.Below ((ctx.mtpGetStorageRoot storageId).getD []))
    (hflags : ∀ p, fp.flags .scanAndAddFolder p) (hs : Searched ctx storageId ctx) (dir : Bool) :
    Obeys os fp ctx (do
      let fuel ← childFuel
      refreshChildren fuel
      return dir) := by
  refine obeys_searching ho hs (uses_bind uses_childFuel fun fuel => ?_)
  refine uses_bind (uses_refreshChildren (fun p hp => ?_) fuel) fun _ => uses_pure _
  obtain ⟨hmem, hid⟩ := hp p rfl
  have ht : Touches fp ctx p := ⟨hmem, by rw [MtpCtx.rootOf, hid]; exact hroot⟩
  exact ⟨ht.covers rfl, hflags p⟩

theorem obeys_scanAndAddFolder (ho : ctx.Ordered) {base : CString} {parent storageId : Nat}
    (h : Scans fp ctx base parent storageId) :
    Obeys os fp ctx (scanAndAddFolder base parent storageId) := by
  have hrest : ∀ ctx', Later ctx ctx' → ∀ dir : Bool, Obeys os fp ctx' (do
      M.db_ (.initSearchHandle parent storageId)
      let fuel ← childFuel
      refreshChildren fuel
      return dir) := by
    intro ctx' hl dir
    refine obeys_initSearchHandle_bind hl.ordered (h.searches _ _) fun ctx'' hl' hs => ?_
    refine obeys_refreshFolder hl'.ordered ?_ h.flags hs dir
    rw [MtpCtx.root_eq_of_storages (hl.trans hl').storages]
    exact h.root
  unfold scanAndAddFolder
  refine obeys_query_bind _ (by simpa [Query.paths] using h.base.self) fun names => ?_
  split
  · refine obeys_bind (obeys_adding ho ?_) fun dir ctx' hl => hrest ctx' hl dir
    have hadding : (fp.adding ctx).allocates parent storageId := ⟨h.allocates, h.parent⟩
    have hbase : (fp.adding ctx).Below base := h.base
    exact uses_addFolderEntries hbase hadding _
  · exact hrest ctx (Later.refl ho) _

theorem obeys_listFolder (ho : ctx.Ordered) {entry : Option EntryPtr} {fullPath : CString}
    {parentHandle storageid : Nat} (h : Scans fp ctx fullPath parentHandle storageid)
    (hw : ∀ p, entry = some p →
      p ∈ ctx.db.entryList ∧ ((ctx.entry p).isDir = true → fp.watches p)) :
    Obeys os fp ctx (listFolder entry fullPath parentHandle storageid) := by
  have hrest : ∀ ctx', Later ctx ctx' → ∀ scanned : Bool, Obeys os fp ctx' (do
      restoreGiduid
      if scanned then
        M.db_ (.initSearchHandle parentHandle storageid)
        let fuel ← childFuel
        let nbOfHandles ← countChildren fuel 0
        M.db_ (.initSearchHandle parentHandle storageid)
        watchFolder entry fullPath
        return some nbOfHandles
      else
        return none) := by
    intro ctx' hl scanned
    have hsearch := @uses_initSearchHandle (Knows ctx' fun _ => True) (fp.still ctx') _
      _ (h.searches parentHandle storageid)
    have hbase : (fp.still ctx').Below fullPath := h.base
    have hwatch : Uses (Knows ctx' fun _ => True) (Cmd.Within (fp.still ctx'))
        (watchFolder entry fullPath) := by
      refine uses_watchFolder hbase fun ctx'' hl' p hp hdir => ?_
      obtain ⟨hmem, hwatches⟩ := hw p hp
      exact hwatches (((hl.trans hl').isDir_eq hmem).symm.trans hdir)
    refine obeys_still hl.ordered (uses_bind uses_restoreGiduid fun _ => ?_)
    split
    · exact uses_bind hsearch fun _ => uses_bind uses_childFuel fun fuel =>
        uses_bind (uses_countChildren fuel 0) fun count => uses_bind hsearch fun _ =>
        uses_bind hwatch fun _ => uses_pure _
    · exact uses_pure _
  unfold listFolder
  refine obeys_setStorageGiduid_bind ho _ fun set => ?_
  split
  · exact obeys_bind (obeys_scanAndAddFolder ho h) fun scanned ctx' hl => hrest ctx' hl scanned
  · exact hrest ctx (Later.refl ho) false

theorem Scans.later {base : CString} {parent storageId : Nat}
    (h : Scans fp ctx base parent storageId) (hl : Later ctx ctx')
    (hlive : ∀ q, ctx.db.Live q → ctx'.db.Live q) : Scans fp ctx' base parent storageId := by
  refine ⟨h.base, ?_, h.allocates, h.parent.imp id ?_, h.flags, h.searches⟩
  · rw [MtpCtx.root_eq_of_storages hl.storages]
    exact h.root
  · rintro ⟨q, hq, hhandle⟩
    exact ⟨q, hlive q hq, (hl.entry_eq hq.1).1.trans hhandle⟩

-- What GetObjectHandles lists: the root of the storage, or the folder with the
-- parent handle, for which the entries go to the storage of the request.
structure Lists (fp : Footprint) (ctx : MtpCtx) (storageid parentHandle : Nat) : Prop where
  flags : ∀ p, fp.flags .scanAndAddFolder p
  searches : ∀ parent id, fp.searches parent id
  below : ∀ root, ctx.mtpGetStorageRoot storageid = some root → fp.Below root
  root : parentHandle = 0 ∨ parentHandle = NO_HANDLE → fp.allocates 0 storageid ∧
    ∀ p, ctx.getEntryByHandleAndStorageid 0 storageid = some p →
      (ctx.entry p).isDir = true → fp.watches p
  folder : parentHandle ≠ 0 ∧ parentHandle ≠ NO_HANDLE →
    ∀ p, ctx.getEntryByHandle parentHandle = some p →
      Touches fp ctx p ∧ fp.allocates parentHandle storageid ∧
        ((ctx.entry p).isDir = true → fp.watches p)

theorem Lists.congr {storageid parentHandle : Nat} (h : Lists fp ctx storageid parentHandle)
    (hdb : ctx'.fsDb = ctx.fsDb) (hs : ctx'.storages = ctx.storages) :
    Lists fp ctx' storageid parentHandle := by
  have heq : ctx'.db = ctx.db := by rw [MtpCtx.db, MtpCtx.db, hdb]
  have hroot := MtpCtx.root_eq_of_storages hs
  refine ⟨h.flags, h.searches, by rw [hroot]; exact h.below, fun hp => ?_, fun hp p hfind => ?_⟩
  · refine ⟨(h.root hp).1, fun p hfind hdir => ?_⟩
    rw [MtpCtx.getEntryByHandleAndStorageid, heq] at hfind
    rw [MtpCtx.entry, heq] at hdir
    exact (h.root hp).2 p hfind hdir
  · rw [MtpCtx.getEntryByHandle, heq, hroot] at hfind
    obtain ⟨ht, halloc, hw⟩ := h.folder hp p hfind
    refine ⟨⟨by rw [heq]; exact ht.listed, ?_⟩, halloc, by rw [MtpCtx.entry, heq]; exact hw⟩
    rw [MtpCtx.rootOf, hroot, MtpCtx.entry, heq]
    exact ht.below

theorem obeys_mtpOpGetObjectHandles (ho : ctx.Ordered) (hdr : Buffer)
    (h : Lists fp ctx (param hdr 0) (param hdr 2)) :
    Obeys os fp ctx (mtpOpGetObjectHandles hdr) := by
  have hsend : ∀ ctx', Later ctx ctx' → ∀ listed : Option Nat,
      Obeys os fp ctx' (answerHandles listed) := by
    intro ctx' hl listed
    unfold answerHandles
    split
    · exact obeys_still hl.ordered (uses_sendHandleArray _)
    · exact obeys_pure hl.ordered _
  unfold mtpOpGetObjectHandles
  refine obeys_inSession ho (obeys_underMutex ho ?_)
  dsimp only
  refine obeys_startData_bind ho hdr fun ctx1 hdb hs started => ?_
  have hl1 := Later.of_eq ho hdb hs
  have h1 := h.congr hdb hs
  split
  · refine obeys_getCtx_bind ?_
    split
    · rename_i root hroot
      have hbelow : fp.Below ((ctx1.mtpGetStorageRoot (param hdr 0)).getD []) := by
        rw [hroot]
        exact h1.below root hroot
      split
      · rename_i hparent
        split
        · rename_i p hfind
          obtain ⟨ht, halloc, hwatch⟩ := h1.folder hparent p hfind
          obtain ⟨hlive, hhandle, -⟩ := hl1.ordered.getEntryByHandle_live hfind
          have hcovers : Covers (Knows ctx1 fun _ => True) (fp.adding ctx1) p := ht.covers rfl
          refine obeys_adding_bind hl1.ordered (runs_entryPath hcovers) ?_
          intro found ctx2 hfound hl2 hlive2
          split
          · rename_i path
            have hscans : Scans fp ctx1 path (param hdr 2) (param hdr 0) :=
              ⟨hfound, hbelow, halloc, Or.inr ⟨p, hlive, hhandle⟩, h1.flags, h1.searches⟩
            refine obeys_bind (obeys_listFolder hl2.ordered (hscans.later hl2 hlive2) ?_)
              fun listed ctx3 hl3 => hsend ctx3 ((hl1.trans hl2).trans hl3) listed
            intro q hq
            obtain rfl : p = q := Option.some.inj hq
            exact ⟨hl2.mem hlive.1, by rw [hl2.isDir_eq hlive.1]; exact hwatch⟩
          · exact hsend ctx2 (hl1.trans hl2) (some 0)
        · exact hsend ctx1 hl1 (some 0)
      · rename_i hparent
        obtain ⟨halloc, hwatch⟩ := h1.root (by omega)
        have hscans : Scans fp ctx1 root 0 (param hdr 0) :=
          ⟨h1.below root hroot, hbelow, halloc, Or.inl rfl, h1.flags, h1.searches⟩
        refine obeys_bind (obeys_listFolder hl1.ordered hscans fun q hq => ?_)
          fun listed ctx2 hl2 => hsend ctx2 (hl1.trans hl2) listed
        exact ⟨(MtpCtx.getEntryByHandleAndStorageid_live hq).1.1, hwatch q hq⟩
    · exact obeys_pure hl1.ordered _
  · exact obeys_pure hl1.ordered _

-- The folder that SendObjectInfo puts a new object in.
def Accepts (fp : Footprint) (ctx : MtpCtx) (storageid parentHandle : Nat) : Prop :=
  ∀ folder, ctx.getEntryByHandleAndStorageid parentHandle storageid = some folder →
    (ctx.entry folder).isDir = true →
    ctx.mtpGetStorageFlags storageid ≠ NO_STORAGE_FLAGS →
    hasFlag (ctx.mtpGetStorageFlags storageid) UMTP_STORAGE_READONLY = false →
    Alters fp ctx folder ∧ fp.allocates parentHandle storageid

theorem Accepts.congr {storageid parentHandle : Nat} (h : Accepts fp ctx storageid parentHandle)
    (hdb : ctx'.fsDb = ctx.fsDb) (hs : ctx'.storages = ctx.storages) :
    Accepts fp ctx' storageid parentHandle := by
  have heq : ctx'.db = ctx.db := by rw [MtpCtx.db, MtpCtx.db, hdb]
  intro folder hfind hdir hflags hro
  rw [MtpCtx.getEntryByHandleAndStorageid, heq] at hfind
  rw [MtpCtx.entry, heq] at hdir
  rw [MtpCtx.flags_eq_of_storages hs] at hflags hro
  obtain ⟨ha, halloc⟩ := h folder hfind hdir hflags hro
  refine ⟨⟨⟨by rw [heq]; exact ha.listed, ?_⟩, by rw [MtpCtx.entry, heq]; exact ha.changes⟩, halloc⟩
  rw [MtpCtx.rootOf, MtpCtx.root_eq_of_storages hs, MtpCtx.entry, heq]
  exact ha.below

theorem obeys_parseIncomingDataset (ho : ctx.Ordered) (datain : Buffer)
    {parentHandle storageId : Nat}
    (h : Accepts fp ctx storageId (if parentHandle = NO_HANDLE then 0 else parentHandle)) :
    Obeys os fp ctx (parseIncomingDataset datain parentHandle storageId) := by
  unfold parseIncomingDataset
  dsimp only
  generalize (if parentHandle = NO_HANDLE then 0 else parentHandle) = parent at h
  refine obeys_getCtx_bind ?_
  split
  · exact obeys_pure ho _
  rename_i hflags
  split
  · exact obeys_pure ho _
  rename_i hro
  split
  · split
    · split
      · rename_i folder hfind
        split
        · rename_i hdir
          obtain ⟨ha, halloc⟩ := h folder hfind hdir hflags (by simpa using hro)
          obtain ⟨hlive, hhandle, hid⟩ := MtpCtx.getEntryByHandleAndStorageid_live hfind
          have hchanges : (fp.adding ctx).changes storageId := hid ▸ ha.changes
          have hadd : Addable (Knows ctx fun _ => True) (fp.adding ctx) folder parent storageId :=
            ⟨ha.covers rfl, ha.owns rfl, hchanges, halloc, Or.inr ⟨folder, hlive, hhandle⟩⟩
          split
          · exact obeys_adding ho (uses_createFolder hadd _)
          · exact obeys_adding ho (uses_createFile hadd _ _)
        · exact obeys_pure ho _
      · exact obeys_pure ho _
    · exact obeys_pure ho _
  · exact obeys_pure ho _

theorem obeys_mtpOpSendObjectInfo (ho : ctx.Ordered) (hdr : Buffer)
    (h : Accepts fp ctx (param hdr 0) (if param hdr 1 = NO_HANDLE then 0 else param hdr 1)) :
    Obeys os fp ctx (mtpOpSendObjectInfo hdr) := by
  have hparse : ∀ ctx', ctx'.fsDb = ctx.fsDb → ctx'.storages = ctx.storages →
      Obeys os fp ctx' (answerDataset hdr) := by
    intro ctx' hdb hs
    refine obeys_getCtx_bind ?_
    refine obeys_bind (obeys_parseIncomingDataset (Later.of_eq ho hdb hs).ordered _
      (h.congr hdb hs)) fun answer ctx'' hl => ?_
    split
    split <;> exact obeys_pure hl.ordered _
  unfold mtpOpSendObjectInfo
  refine obeys_inSession ho (obeys_underMutex ho ?_)
  dsimp only
  refine obeys_getCtx_bind (obeys_plain_bind _ rfl fun received => ?_)
  split
  · exact obeys_buffer_bind (.setRdbuffer2 _) rfl ho fun ctx' hdb hs _ => hparse ctx' hdb hs
  · exact hparse ctx rfl rfl

end Umtp
