import Umtp.Effects.Opening
import Umtp.Effects.Roles
import Umtp.Ancestry
import Umtp.FileTree
import Umtp.ObjectInfo

namespace Umtp

open Lib Lib.Prog Handles Text

variable {σ α β : Type} {os : Os σ} {tree : σ → FileTree} {ctx ctx' : MtpCtx} {w : World σ}

namespace MtpCtx

-- The path that is put together for an entry below a parent.
def pathBelow (ctx : MtpCtx) (parent : Nat) (name : CString) : CString :=
  if parent ≠ 0 ∧ parent ≠ NO_HANDLE then
    match ctx.getEntryByHandle parent with
    | some q => ctx.relativePath q (ctx.entry q).name ++ SLASH :: name
    | none => SLASH :: name
  else
    SLASH :: name

-- What `build_full_path` gives for an entry when its memory allocations succeed.
def resolved (ctx : MtpCtx) (fs : CString → Except Errno CString) (p : EntryPtr) :
    Option CString :=
  (ctx.mtpGetStorageRoot (ctx.entry p).storageId).bind fun root =>
    (resolution fs (root ++ ctx.relativePath p (ctx.entry p).name) (ctx.entry p).name).bind
      (checkRoot root)

theorem climb_head (p : EntryPtr) (fuel : Nat) : ∃ above, ctx.climb fuel p = p :: above := by
  cases fuel with
  | zero => exact ⟨[], rfl⟩
  | succ fuel =>
      rw [climb]
      split
      · split
        · exact ⟨_, rfl⟩
        · exact ⟨[], rfl⟩
      · exact ⟨[], rfl⟩

theorem relativePath_eq (p : EntryPtr) (name : CString) :
    ∃ front, ctx.relativePath p name = front ++ SLASH :: name := by
  obtain ⟨above, habove⟩ := @climb_head ctx p ctx.db.entryList.length
  rw [relativePath, habove, List.reverse_cons, List.flatMap_append, List.flatMap_singleton,
    if_pos rfl]
  exact ⟨_, rfl⟩

theorem relativePath_alone {p : EntryPtr} (h : ctx.climb ctx.db.entryList.length p = [p])
    (name : CString) : ctx.relativePath p name = SLASH :: name := by
  rw [relativePath, h, List.reverse_singleton, List.flatMap_singleton, if_pos rfl]

theorem relativePath_pathBelow (ho : ctx.Ordered) (hrises : ctx.Rises) {p : EntryPtr}
    (hp : p ∈ ctx.db.entryList) (hfuel : (ctx.entry p).handle ≤ ctx.db.entryList.length)
    (name : CString) : ctx.relativePath p name = ctx.pathBelow (ctx.entry p).parent name := by
  have hturn : ∃ fuel, ctx.db.entryList.length = fuel + 1 :=
    Nat.exists_eq_succ_of_ne_zero (List.length_pos_of_mem hp).ne'
  obtain ⟨fuel, hturn⟩ := hturn
  rw [pathBelow]
  split
  · rename_i hup
    split
    · rename_i q hq
      exact relativePath_under ho hrises hp hfuel hup.1 hup.2 hq name
    · rename_i hnone
      refine relativePath_alone ?_ name
      rw [hturn, climb, if_pos hup, hnone]
  · rename_i hup
    refine relativePath_alone ?_ name
    rw [hturn, climb, if_neg hup]

end MtpCtx

-- The resolution of an absolute path looks at absolute paths.
theorem resolution_congr {fs fs' : CString → Except Errno CString}
    (h : ∀ path, path.head? = some SLASH → fs path = fs' path) {front : CString}
    (hfront : front.head? = some SLASH) (name : CString) :
    resolution fs (front ++ name) name = resolution fs' (front ++ name) name := by
  have hne : front ≠ [] := fun hnil => by rw [hnil] at hfront; cases hfront
  have hwhole : (front ++ name).head? = some SLASH := by
    rw [List.head?_append_of_ne_nil _ hne, hfront]
  have htake : (front ++ name).take ((front ++ name).length - name.length) = front := by
    rw [List.length_append, Nat.add_sub_cancel, List.take_left]
  rw [resolution, resolution, htake, h _ hwhole, h _ hfront]

theorem head_of_canonical {root : CString} (hroot : Canonical SLASH root) :
    root.head? = some SLASH := by
  rcases hroot with rfl | ⟨names, hnames, -, rfl⟩
  · rfl
  · obtain ⟨name, rest, rfl⟩ := List.exists_cons_of_ne_nil hnames
    rfl

theorem head_of_front {root path : CString} (hroot : root.head? = some SLASH)
    (hunder : root <+: path) : path.head? = some SLASH := by
  obtain ⟨rest, rfl⟩ := hunder
  cases root with
  | nil => cases hroot
  | cons c root => exact hroot

theorem MtpCtx.prefix_of_resolved {fs : CString → Except Errno CString} {p : EntryPtr}
    {root path : CString} (hroot : ctx.mtpGetStorageRoot (ctx.entry p).storageId = some root)
    (h : ctx.resolved fs p = some path) : root <+: path := by
  rw [resolved, hroot, Option.bind_some] at h
  obtain ⟨found, -, hcheck⟩ := Option.bind_eq_some_iff.mp h
  obtain ⟨rfl, hunder⟩ := checkRoot_eq_some.mp hcheck
  exact hunder

-- With the files of the system in view
theorem exec_buildFullPath (hlinks : os.HasLinks tree) {p : EntryPtr} {root path : CString}
    (habsolute : root.head? = some SLASH)
    (h : (exec (World.handle os) (buildFullPath (some root) p) w).1 = some path) :
    (resolution (tree w.os).realpath (root ++ w.ctx.relativePath p (w.ctx.entry p).name)
      (w.ctx.entry p).name).bind (checkRoot root) = some path := by
  rw [buildFullPath, exec_getCtx_bind] at h
  have hbuilt := @exec_buildFullPathNamed _ os
    (fun path => os.query (.realpath path) (os.act .malloc w.os).2) root (w.ctx.entry p).name p w
    fun _ => rfl
  rcases hbuilt with ⟨hnone, -⟩ | heq
  · rw [hnone] at h
    cases h
  · rw [heq] at h
    obtain ⟨front, hfront⟩ := @MtpCtx.relativePath_eq w.ctx p (w.ctx.entry p).name
    have hhead : (root ++ (front ++ [SLASH])).head? = some SLASH :=
      head_of_front habsolute (List.prefix_append _ _)
    have hsplit : root ++ w.ctx.relativePath p (w.ctx.entry p).name =
        root ++ (front ++ [SLASH]) ++ (w.ctx.entry p).name := by
      rw [hfront]
      simp
    have hsame : ∀ path, path.head? = some SLASH →
        os.query (.realpath path) (os.act .malloc w.os).2 = (tree w.os).realpath path := by
      intro path hpath
      rw [hlinks.realpath path _ hpath, hlinks.malloc]
    rw [hsplit, ← resolution_congr hsame hhead (w.ctx.entry p).name, ← hsplit]
    exact h

theorem exec_entryPath (hlinks : os.HasLinks tree) {p : EntryPtr} {root path : CString}
    (hroot : w.ctx.mtpGetStorageRoot (w.ctx.entry p).storageId = some root)
    (habsolute : root.head? = some SLASH)
    (h : (exec (World.handle os) (entryPath p) w).1 = some path) :
    w.ctx.resolved (tree w.os).realpath p = some path := by
  rw [entryPath, exec_getCtx_bind, hroot] at h
  rw [MtpCtx.resolved, hroot, Option.bind_some]
  exact exec_buildFullPath hlinks habsolute h

-- The commands around the opening of a new file.
def Cmd.KeepsFiles : Cmd → Prop
  | getCtx | query _ | act .malloc | act .entryMemory | act (.close _) | act (.setfsuid _)
  | act (.setfsgid _) | db _ | setSendObjInfo _ _ _ => True
  | _ => False

theorem keepsFiles_identifies : Identifies Cmd.KeepsFiles where
  getCtx := trivial
  query _ := trivial
  malloc := trivial
  setfsuid _ := trivial
  setfsgid _ := trivial

theorem Os.HasLinks.kept (hlinks : os.HasLinks tree) {prog : M α}
    (hp : Uses AnyAnswer Cmd.KeepsFiles prog) (w : World σ) :
    tree (exec (World.handle os) prog w).2.os = tree w.os := by
  refine uses_exec (I := fun w' : World σ => tree w'.os = tree w.os) hp ?_ rfl
  intro w' c hc hi
  cases c with
  | act a =>
      cases a with
      | malloc => exact (hlinks.malloc _).trans hi
      | entryMemory => exact (hlinks.entryMemory _).trans hi
      | close file => exact (hlinks.close _ _).trans hi
      | setfsuid uid => exact (hlinks.setfsuid _ _).trans hi
      | setfsgid gid => exact (hlinks.setfsgid _ _).trans hi
      | _ => exact hc.elim
  | _ => exact hi

-- A file is made or emptied at the place.
def OpensAt (os : Os σ) (tree : σ → FileTree) (prog : M α) (w : World σ)
    (place : List FileName) : Prop :=
  ∃ step ∈ trace (World.handle os) prog w, ∃ storageId path left,
    step.2 = .act (.open storageId path .createTruncate) ∧
    (os.act (.open storageId path .createTruncate) step.1.os).1 ≠ -1 ∧
    (tree step.1.os).lookup path = .ok (place, left)

section OpensAt

variable {place : List FileName}

theorem opensAt_bind {prog : M α} {f : α → M β} (h : OpensAt os tree (prog.bind f) w place) :
    OpensAt os tree prog w place ∨
      OpensAt os tree (f (exec (World.handle os) prog w).1) (exec (World.handle os) prog w).2
        place := by
  obtain ⟨step, hm, hopen⟩ := h
  rw [trace_bind] at hm
  rcases List.mem_append.mp hm with hm | hm
  · exact Or.inl ⟨step, hm, hopen⟩
  · exact Or.inr ⟨step, hm, hopen⟩

theorem not_opensAt {prog : M α} (hp : Uses AnyAnswer Cmd.KeepsFiles prog) (w : World σ)
    (place : List FileName) : ¬ OpensAt os tree prog w place := by
  rintro ⟨step, hm, storageId, path, left, hstep, -⟩
  have hkeeps := uses_trace hp (World.handle os) w step hm
  rw [hstep] at hkeeps
  exact hkeeps

theorem opensAt_rest {prog : M α} {f : α → M β} (hp : Uses AnyAnswer Cmd.KeepsFiles prog)
    (h : OpensAt os tree (prog.bind f) w place) :
    OpensAt os tree (f (exec (World.handle os) prog w).1) (exec (World.handle os) prog w).2
      place :=
  (opensAt_bind h).resolve_left (not_opensAt hp w place)

-- What is known of a file that was made.
structure MadeAt (tree : σ → FileTree) (path : CString) (w w' : World σ)
    (place : List FileName) : Prop where
  lookup : ∃ left, (tree w.os).lookup path = .ok (place, left)
  ctx : w'.ctx = w.ctx
  files : path.head? = some SLASH →
    (tree w.os).Leaf place ∧ tree w'.os = (tree w.os).create place

theorem opensAt_makeFile (hlinks : os.HasLinks tree) {storageId : Nat} {path : CString}
    (h : OpensAt os tree (makeFile storageId path) w place) :
    (exec (World.handle os) (makeFile storageId path) w).1 = true ∧
      MadeAt tree path w (exec (World.handle os) (makeFile storageId path) w).2 place := by
  have hset : Uses AnyAnswer Cmd.KeepsFiles (setStorageGiduid storageId) :=
    keepsFiles_identifies.setStorageGiduid storageId
  have hrestore : Uses AnyAnswer Cmd.KeepsFiles restoreGiduid :=
    keepsFiles_identifies.restoreGiduid
  have hctx1 := @looks_exec _ _ os _ (looks_setStorageGiduid storageId) w
  have htree1 := hlinks.kept hset w
  have hmake : makeFile storageId path = (setStorageGiduid storageId).bind fun set =>
      (if set then M.act (.open storageId path .createTruncate) else pure (-1)).bind fun file =>
        restoreGiduid.bind fun _ =>
          if file = -1 then pure false else (M.act (.close file)).bind fun _ => pure true := by
    simp only [makeFile, withStorageIds, bind_eq, Prog.bind_assoc, pure_eq, ret_bind]
    refine congrArg (setStorageGiduid storageId).bind (funext fun set => ?_)
    cases set with
    | false => simp [Prog.bind_assoc]
    | true => simp [Prog.bind_assoc]
  have hlast : ∀ file : Int, Uses AnyAnswer Cmd.KeepsFiles
      (restoreGiduid.bind fun _ =>
        if file = -1 then pure false else (M.act (.close file)).bind fun _ => pure true) := by
    intro file
    refine uses_bind hrestore fun _ => ?_
    split
    · exact uses_pure _
    · exact uses_bind (uses_act_of trivial) fun _ => uses_pure _
  rw [hmake] at h ⊢
  have h1 := opensAt_rest hset h
  rw [exec_bind]
  generalize exec (World.handle os) (setStorageGiduid storageId) w = set1 at *
  obtain ⟨set, w1⟩ := set1
  dsimp only at h1 hctx1 htree1 ⊢
  cases set with
  | false => exact absurd (opensAt_rest (uses_pure _) h1) (not_opensAt (hlast _) _ _)
  | true =>
      rw [if_pos rfl] at h1 ⊢
      rcases opensAt_bind h1 with hopen | hopen
      · obtain ⟨step, hm, storageId', path', left, hstep, hanswer, hlookup⟩ := hopen
        obtain rfl : step = (w1, .act (.open storageId path .createTruncate)) := by
          simpa [M.act] using hm
        obtain ⟨rfl, rfl⟩ : storageId' = storageId ∧ path' = path := by
          simpa using hstep.symm
        dsimp only at hanswer hlookup
        have hexec : exec (World.handle os) (M.act (.open storageId' path' .createTruncate)) w1 =
            ((os.act (.open storageId' path' .createTruncate) w1.os).1,
              ⟨w1.ctx, (os.act (.open storageId' path' .createTruncate) w1.os).2⟩) := rfl
        have hctx2 := @looks_exec _ _ os _ looks_restoreGiduid
          ⟨w1.ctx, (os.act (.open storageId' path' .createTruncate) w1.os).2⟩
        have htree2 := hlinks.kept hrestore
          ⟨w1.ctx, (os.act (.open storageId' path' .createTruncate) w1.os).2⟩
        rw [exec_bind, hexec, exec_bind, if_neg hanswer]
        refine ⟨rfl, ⟨left, by rw [← htree1]; exact hlookup⟩, hctx2.trans hctx1, fun habs => ?_⟩
        obtain ⟨place', left', hfound, hleaf, hcreate⟩ := hlinks.opened _ _ _ habs hanswer
        rw [hlookup] at hfound
        obtain ⟨rfl, -⟩ := Prod.mk.inj (Except.ok.inj hfound)
        rw [← htree1]
        exact ⟨hleaf, (hlinks.close _ _).trans (htree2.trans hcreate)⟩
      · exact absurd hopen (not_opensAt (hlast _) _ _)

end OpensAt

-- What `add_entry` leaves, and the entry it gives.
structure Registered (ctx ctx' : MtpCtx) (fileinfo : FileFoundInfo) (parent storageId : Nat)
    (result : Option EntryPtr) : Prop where
  storages : ctx'.storages = ctx.storages
  ordered : ctx'.Ordered
  same : (ctx.db.searchEntryByInfo fileinfo parent storageId).isSome = true → ctx'.db = ctx.db
  db : ctx'.db = ctx.db ∨ ∃ mem, ctx'.db = (ctx.db.allocEntry mem fileinfo parent storageId).2
  kept : ∀ q ∈ ctx.db.entryList, q ∈ ctx'.db.entryList ∧ ctx'.entry q = ctx.entry q
  listed : ∀ p ∈ result, ctx'.db.Live p ∧ (ctx'.entry p).name = fileinfo.filename ∧
    (ctx'.entry p).parent = parent ∧ (ctx'.entry p).storageId = storageId
  fresh : ∀ p ∈ result, ctx.db.searchEntryByInfo fileinfo parent storageId = some p ∨
    p ∉ ctx.db.entryList ∧ ctx'.entry p =
      FsHandlesDb.newEntry fileinfo ctx.db.nextHandle parent storageId
  unlisted : result = none → ctx'.db.entryList = ctx.db.entryList

theorem isDeleted_newEntry (fileinfo : FileFoundInfo) (handle parent storageId : Nat) :
    (FsHandlesDb.newEntry fileinfo handle parent storageId).isDeleted = false := by
  obtain ⟨isDirectory, filename, size⟩ := fileinfo
  cases isDirectory with
  | false => exact (by decide : hasFlag 0#32 ENTRY_IS_DELETED = false)
  | true => exact (by decide : hasFlag ENTRY_IS_DIR ENTRY_IS_DELETED = false)

theorem isDir_newEntry (fileinfo : FileFoundInfo) (handle parent storageId : Nat) :
    (FsHandlesDb.newEntry fileinfo handle parent storageId).isDir = fileinfo.isDirectory := by
  obtain ⟨isDirectory, filename, size⟩ := fileinfo
  cases isDirectory with
  | false => exact (by decide : hasFlag 0#32 ENTRY_IS_DIR = false)
  | true => exact (by decide : hasFlag ENTRY_IS_DIR ENTRY_IS_DIR = true)

theorem registered_of_search (ho : ctx.Ordered) {fileinfo : FileFoundInfo} {parent storageId : Nat}
    {p : EntryPtr} (h : ctx.db.searchEntryByInfo fileinfo parent storageId = some p) :
    Registered ctx ctx fileinfo parent storageId (some p) where
  storages := rfl
  ordered := ho
  same _ := rfl
  db := Or.inl rfl
  kept q hq := ⟨hq, rfl⟩
  listed q hq := by
    obtain rfl := Option.mem_some_iff.mp hq
    exact ho.stored.findEntry_live h
  fresh q hq := Or.inl (h.trans (Option.mem_def.mp hq))
  unlisted hnone := by cases hnone

theorem registered_applyDb (ho : ctx.Ordered) {fileinfo : FileFoundInfo} {parent storageId : Nat}
    (h : ctx.db.searchEntryByInfo fileinfo parent storageId = none) (mem : AllocMem) :
    Registered ctx (ctx.applyDb (.allocEntry mem fileinfo parent storageId)) fileinfo
    parent storageId
      (ctx.fsDb.bind fun db => (DbOp.apply db (.allocEntry mem fileinfo parent storageId)).1) := by
  have hordered : (ctx.applyDb (.allocEntry mem fileinfo parent storageId)).Ordered :=
    (@Later.of_applyDb _ ho (.allocEntry mem fileinfo parent storageId) trivial).ordered
  have hnone : ¬ (ctx.db.searchEntryByInfo fileinfo parent storageId).isSome = true := by
    rw [h]
    exact Bool.false_ne_true
  cases hdb : ctx.fsDb with
  | none =>
      have hsame : (ctx.applyDb (.allocEntry mem fileinfo parent storageId)).db = ctx.db := by
        rw [MtpCtx.db, MtpCtx.applyDb, MtpCtx.db, hdb]
        rfl
      exact ⟨rfl, hordered, fun hsome => absurd hsome hnone, Or.inl hsame,
        fun q hq => ⟨hsame ▸ hq, by rw [MtpCtx.entry, hsame]; rfl⟩,
        fun q hq => absurd hq (Option.not_mem_none q),
        fun q hq => absurd hq (Option.not_mem_none q), fun _ => by rw [hsame]⟩
  | some db =>
      have hold : ctx.db = db := by rw [MtpCtx.db, hdb]; rfl
      have hnew : (ctx.applyDb (.allocEntry mem fileinfo parent storageId)).db =
          (db.allocEntry mem fileinfo parent storageId).2 := by
        rw [MtpCtx.db, MtpCtx.applyDb, hdb]
        rfl
      have hvalue : (some db).bind (fun db =>
          (DbOp.apply db (.allocEntry mem fileinfo parent storageId)).1) =
            (db.allocEntry mem fileinfo parent storageId).1 := rfl
      rw [hvalue]
      rcases FsHandlesDb.allocEntry_cases (hold ▸ ho.slots) mem fileinfo parent storageId with
        ⟨p, db', heq, -, ha, -⟩ | ⟨db', heq, -, hn⟩
      · rw [heq] at hnew ⊢
        refine ⟨rfl, hordered, fun hsome => absurd hsome hnone, Or.inr ⟨mem, ?_⟩, fun q hq => ?_,
          fun q hq => ?_, fun q hq => ?_, fun hnone => absurd hnone (Option.some_ne_none p)⟩
        · rw [hnew, hold, heq]
        · rw [hold] at hq
          refine ⟨by rw [hnew, ha.entryList]; exact List.mem_cons_of_mem _ hq, ?_⟩
          rw [MtpCtx.entry, MtpCtx.entry, hnew, hold]
          exact ha.pool_of_ne q fun h => ha.fresh (h ▸ hq)
        · obtain rfl := Option.mem_some_iff.mp hq
          rw [MtpCtx.entry, hnew, ha.pool_self]
          refine ⟨⟨by rw [ha.entryList]; exact List.mem_cons_self, ?_⟩, rfl, rfl, rfl⟩
          rw [ha.pool_self]
          exact isDeleted_newEntry _ _ _ _
        · obtain rfl := Option.mem_some_iff.mp hq
          refine Or.inr ⟨hold ▸ ha.fresh, ?_⟩
          rw [MtpCtx.entry, hnew, ha.pool_self, hold]
      · rw [heq] at hnew ⊢
        refine ⟨rfl, hordered, fun hsome => absurd hsome hnone, Or.inr ⟨mem, ?_⟩, fun q hq => ?_,
          fun q hq => absurd hq (Option.not_mem_none q),
          fun q hq => absurd hq (Option.not_mem_none q), fun _ => ?_⟩
        · rw [hnew, hold, heq]
        · rw [hold] at hq
          refine ⟨by rw [hnew, hn.entryList]; exact hq, ?_⟩
          rw [MtpCtx.entry, MtpCtx.entry, hnew, hold]
          exact hn.pool q hq
        · rw [hnew, hold, hn.entryList]

theorem exec_addEntry (ho : w.ctx.Ordered) (fileinfo : FileFoundInfo) (parent storageId : Nat) :
    Registered w.ctx (exec (World.handle os) (addEntry fileinfo parent storageId) w).2.ctx fileinfo
      parent storageId (exec (World.handle os) (addEntry fileinfo parent storageId) w).1 := by
  rw [addEntry, exec_getCtx_bind]
  cases hsearch : w.ctx.db.searchEntryByInfo fileinfo parent storageId with
  | some p => exact registered_of_search ho hsearch
  | none =>
      dsimp only
      rw [exec_act_bind]
      exact registered_applyDb ho hsearch _

namespace Registered

variable {fileinfo : FileFoundInfo} {parent storageId : Nat} {result : Option EntryPtr}

theorem of_db (ha : Registered ctx w.ctx fileinfo parent storageId result)
    (hdb : ctx'.db = w.ctx.db)
    (hstorages : ctx'.storages = w.ctx.storages) :
    Registered ctx ctx' fileinfo parent storageId result where
  storages := hstorages.trans ha.storages
  ordered := ⟨by rw [hdb]; exact ha.ordered.slots, by rw [hdb]; exact ha.ordered.stored⟩
  same h := hdb.trans (ha.same h)
  db := by rw [hdb]; exact ha.db
  kept := by
    simp only [MtpCtx.entry, hdb]
    exact ha.kept
  listed := by
    simp only [MtpCtx.entry, hdb]
    exact ha.listed
  fresh := by
    simp only [MtpCtx.entry, hdb]
    exact ha.fresh
  unlisted h := by rw [hdb]; exact ha.unlisted h

theorem mtpGetStorageRoot (ha : Registered ctx ctx' fileinfo parent storageId result) (id : Nat) :
    ctx'.mtpGetStorageRoot id = ctx.mtpGetStorageRoot id := by
  rw [MtpCtx.mtpGetStorageRoot, MtpCtx.mtpGetStorageRoot, MtpCtx.mtpGetStorageIndexById,
    MtpCtx.mtpGetStorageIndexById, ha.storages]

theorem getEntryByHandle (ha : Registered ctx ctx' fileinfo parent storageId result)
    (ho : ctx.Ordered) {handle : Nat} (hne : handle ≠ ctx.db.nextHandle) :
    ctx'.getEntryByHandle handle = ctx.getEntryByHandle handle := by
  have hroots : ctx'.mtpGetStorageRoot = ctx.mtpGetStorageRoot := funext ha.mtpGetStorageRoot
  rw [MtpCtx.getEntryByHandle, MtpCtx.getEntryByHandle, hroots]
  rcases ha.db with heq | ⟨mem, heq⟩
  · rw [heq]
  · rw [heq]
    exact getEntryByHandle_allocEntry ho.slots ho.stored mem fileinfo parent storageId hne _

theorem rises (ha : Registered ctx ctx' fileinfo parent storageId result) (ho : ctx.Ordered)
    (hrises : ctx.Rises) (hparent : parent = 0 ∨ parent < ctx.db.nextHandle) : ctx'.Rises := by
  rcases ha.db with heq | ⟨mem, heq⟩
  · intro p hp
    rw [heq] at hp
    rw [MtpCtx.entry, heq]
    exact hrises p hp
  · have hstep := rising_step ho.slots (.allocEntry mem fileinfo parent storageId) hrises
      fun mem' fileinfo' parent' storageId' h => by
        obtain ⟨-, -, rfl, -⟩ := DbOp.allocEntry.inj h
        exact hparent
    intro p hp
    rw [heq] at hp
    rw [MtpCtx.entry, heq]
    exact hstep p hp

theorem grow (ha : Registered ctx ctx' fileinfo parent storageId result) (ho : ctx.Ordered) :
    ctx.db.entryList.length ≤ ctx'.db.entryList.length := by
  rcases ha.db with heq | ⟨mem, heq⟩
  · rw [heq]
  · rw [heq]
    exact (DbOp.frozen_step ho.slots
      (.allocEntry mem fileinfo parent storageId)).suffix.length_le

-- The path of an added entry is the one its parent had before.
theorem relativePath (ha : Registered ctx ctx' fileinfo parent storageId result)
    (hw : ctx.WellGrown) (hrecorded : ctx'.Recorded)
    (hlen : ctx'.db.entryList.length < UINT32_SIZE - 1)
    (hparent : parent = 0 ∨ parent < ctx.db.nextHandle) {p : EntryPtr} (hp : p ∈ result)
    (name : CString) : ctx'.relativePath p name = ctx.pathBelow parent name := by
  have ho := hw.ordered
  have hshort : ctx.db.entryList.length < UINT32_SIZE - 1 := lt_of_le_of_lt (ha.grow ho) hlen
  have hrises := hw.rising hshort
  obtain ⟨hlive, -, hup, -⟩ := ha.listed p hp
  rw [MtpCtx.relativePath_pathBelow ha.ordered (ha.rises ho hrises hparent) hlive.1
    (hrecorded.handle_lt hlen hlive.1).2, hup, MtpCtx.pathBelow, MtpCtx.pathBelow]
  split
  · rename_i hcond
    have hless : parent ≠ ctx.db.nextHandle := by
      rcases hparent with h | h
      · exact absurd h hcond.1
      · omega
    rw [ha.getEntryByHandle ho hless]
    split
    · rename_i q hq
      have hlisted := (ho.getEntryByHandle_live hq).1.1
      have hbelow : ∀ r ∈ ctx.db.entryList, (ctx.entry r).handle < ctx.db.nextHandle ∧
          (ctx.entry r).handle ≤ ctx.db.entryList.length :=
        fun r hr => hw.recorded.handle_lt hshort hr
      rw [(ha.kept q hlisted).2, MtpCtx.relativePath_later ho hrises (fun r hr => (ha.kept r hr).2)
        (fun r hr handle hhandle => ha.getEntryByHandle ho (hhandle.trans (hbelow r hr).1).ne)
        (ha.grow ho) hlisted (hbelow q hlisted).2]
    · rfl
  · rfl

end Registered

-- The making of a file in a folder

section Making

variable {folder : EntryPtr} {root name : CString} {parent storageId objectsize : Nat}
  {place : List FileName}

theorem exec_newObjectPath {tmpPath : CString}
    (h : (exec (World.handle os) (newObjectPath folder name) w).1 = some tmpPath) :
    ∃ path, (exec (World.handle os) (entryPath folder) w).1 = some path ∧
      tmpPath = path ++ SLASH :: name := by
  rw [newObjectPath, bind_eq, exec_bind] at h
  cases hpath : (exec (World.handle os) (entryPath folder) w).1 with
  | none =>
      rw [hpath] at h
      cases h
  | some path =>
      rw [hpath] at h
      dsimp only at h
      rw [exec_act_bind] at h
      split at h
      · exact ⟨path, rfl, (Option.some.inj h).symm⟩
      · cases h

theorem Builds.newObjectPath {S : Cmd → Prop} (h : Builds S) (folder : EntryPtr) (name : CString) :
    Uses AnyAnswer S (newObjectPath folder name) := by
  refine uses_bind (h.entryPath folder) fun found => ?_
  split
  · exact uses_bind (uses_act_of h.malloc) fun memory => uses_pure _
  · exact uses_pure _

theorem looks_newObjectPath (folder : EntryPtr) (name : CString) :
    Looks (newObjectPath folder name) := by
  refine uses_bind (looks_entryPath folder) fun found => ?_
  split
  · exact uses_bind (looks_act _) fun memory => uses_pure _
  · exact uses_pure _

theorem Builds.addEntry {S : Cmd → Prop} (h : Builds S) (hmem : S (.act .entryMemory))
    (hdb : ∀ op, S (.db op)) (fileinfo : FileFoundInfo) (parent storageId : Nat) :
    Uses AnyAnswer S (addEntry fileinfo parent storageId) := by
  refine h.getCtx_bind fun ctx => ?_
  split
  · exact uses_pure _
  · exact uses_bind (uses_act_of hmem) fun mem => uses_cmd (hdb _)

theorem keepsFiles_newObjectPath (folder : EntryPtr) (name : CString) :
    Uses AnyAnswer Cmd.KeepsFiles (newObjectPath folder name) :=
  keepsFiles_identifies.toBuilds.newObjectPath folder name

theorem keepsFiles_addEntry (fileinfo : FileFoundInfo) (parent storageId : Nat) :
    Uses AnyAnswer Cmd.KeepsFiles (addEntry fileinfo parent storageId) :=
  keepsFiles_identifies.toBuilds.addEntry trivial (fun _ => trivial) fileinfo parent storageId

theorem keepsFiles_expectObject (entry : Option EntryPtr) (objectsize : Nat) :
    Uses AnyAnswer Cmd.KeepsFiles (expectObject entry objectsize) := by
  cases entry with
  | none => exact uses_bind (uses_cmd trivial) fun _ => uses_pure _
  | some p =>
      exact keepsFiles_identifies.toBuilds.getCtx_bind fun ctx =>
        uses_bind (uses_cmd trivial) fun _ => uses_pure _

-- The handle that is answered for an entry.
def MtpCtx.handleOf (ctx : MtpCtx) (entry : Option EntryPtr) : Nat :=
  entry.elim NO_HANDLE fun p => (ctx.entry p).handle

theorem exec_expectObject (entry : Option EntryPtr) (objectsize : Nat) (w : World σ) :
    (exec (World.handle os) (expectObject entry objectsize) w).1 =
        (MTP_RESPONSE_OK, w.ctx.handleOf entry) ∧
      (exec (World.handle os) (expectObject entry objectsize) w).2.ctx.db = w.ctx.db ∧
      (exec (World.handle os) (expectObject entry objectsize) w).2.ctx.storages =
        w.ctx.storages := by
  cases entry with
  | none => exact ⟨rfl, rfl, rfl⟩
  | some p => exact ⟨rfl, rfl, rfl⟩

-- A file is made at the end of the path of the folder and the name, and an entry
-- is added for it.
theorem opensAt_createFile (hlinks : os.HasLinks tree) (ho : w.ctx.Ordered)
    (hsid : (w.ctx.entry folder).storageId = storageId)
    (hroot : w.ctx.mtpGetStorageRoot storageId = some root) (habs : root.head? = some SLASH)
    (h : OpensAt os tree (createFile folder name objectsize parent storageId) w place) :
    let result := exec (World.handle os) (createFile folder name objectsize parent storageId) w
    ∃ path entry, w.ctx.resolved (tree w.os).realpath folder = some path ∧
      (∃ left, (tree w.os).lookup (path ++ SLASH :: name) = .ok (place, left)) ∧
      (tree w.os).Leaf place ∧ tree result.2.os = (tree w.os).create place ∧
      Registered w.ctx result.2.ctx ⟨false, name, objectsize⟩ parent storageId entry ∧
      result.1 = (MTP_RESPONSE_OK, result.2.ctx.handleOf entry) := by
  intro result
  have hresult : result =
      exec (World.handle os) (createFile folder name objectsize parent storageId) w := rfl
  rw [createFile_eq, bind_eq] at h
  rw [createFile_eq, bind_eq, exec_bind] at hresult
  have h1 := opensAt_rest (keepsFiles_newObjectPath folder name) h
  have htree1 := hlinks.kept (keepsFiles_newObjectPath folder name) w
  have hctx1 := @looks_exec _ _ os _ (looks_newObjectPath folder name) w
  cases hvalue : (exec (World.handle os) (newObjectPath folder name) w).1 with
  | none =>
      rw [hvalue] at h1
      exact absurd h1 (not_opensAt (keepsFiles_expectObject none objectsize) _ _)
  | some tmpPath =>
      obtain ⟨path, hpath, rfl⟩ := exec_newObjectPath hvalue
      have hresolved := exec_entryPath hlinks (hsid ▸ hroot) habs hpath
      rw [hvalue] at h1 hresult
      generalize (exec (World.handle os) (newObjectPath folder name) w).2 = w1 at *
      dsimp only at h1 hresult
      have hlater : ∀ made : Bool, Uses AnyAnswer Cmd.KeepsFiles
          (if made then (do
            let entry ← addEntry ⟨false, name, objectsize⟩ parent storageId
            expectObject entry objectsize)
          else return (MTP_RESPONSE_ACCESS_DENIED, NO_HANDLE)) := by
        intro made
        split
        · exact uses_bind (keepsFiles_addEntry _ _ _) fun _ => keepsFiles_expectObject _ _
        · exact uses_pure _
      have hmake : OpensAt os tree (makeFile storageId (path ++ SLASH :: name)) w1 place :=
        (opensAt_bind h1).resolve_right (not_opensAt (hlater _) _ _)
      obtain ⟨hmade, hat⟩ := opensAt_makeFile hlinks hmake
      rw [bind_eq, exec_bind, hmade, if_pos rfl] at hresult
      generalize (exec (World.handle os) (makeFile storageId (path ++ SLASH :: name))
      w1).2 = w2 at *
      rw [bind_eq, exec_bind] at hresult
      have hctx2 : w2.ctx = w.ctx := hat.ctx.trans hctx1
      have hadd := @exec_addEntry _ os w2 (by rw [hctx2]; exact ho) ⟨false, name, objectsize⟩
        parent storageId
      have htree2 := hlinks.kept (keepsFiles_addEntry ⟨false, name, objectsize⟩ parent storageId) w2
      generalize exec (World.handle os) (addEntry ⟨false, name, objectsize⟩ parent storageId) w2 =
        added at *
      obtain ⟨entry, w3⟩ := added
      dsimp only at hresult hadd htree2
      obtain ⟨hvalue3, hdb3, hstorages3⟩ := @exec_expectObject _ os entry objectsize w3
      have htree3 := hlinks.kept (keepsFiles_expectObject entry objectsize) w3
      rw [← hresult] at hvalue3 hdb3 hstorages3 htree3
      have habspath : (path ++ SLASH :: name).head? = some SLASH :=
        head_of_front habs ((MtpCtx.prefix_of_resolved (hsid ▸ hroot) hresolved).trans
          (List.prefix_append _ _))
      obtain ⟨hleaf, hcreate⟩ := hat.files habspath
      rw [htree1] at hleaf hcreate
      rw [hctx2] at hadd
      refine ⟨path, entry, hresolved, ?_, hleaf, ?_, hadd.of_db hdb3 hstorages3, ?_⟩
      · rw [← htree1]
        exact hat.lookup
      · rw [htree3, htree2, hcreate]
      · rw [hvalue3, MtpCtx.handleOf, MtpCtx.handleOf]
        simp only [MtpCtx.entry, hdb3]

end Making

-- Sanitized names

theorem stripTrailing_front (str : CString) : stripTrailing str <+: str := by
  rw [stripTrailing, ← List.reverse_suffix, List.reverse_reverse]
  exact List.dropWhile_suffix _

theorem getLast_stripTrailing {str : CString} {c : UInt8}
    (h : (stripTrailing str).getLast? = some c) : (c == DOT || c == SPACE) = false := by
  rw [stripTrailing, List.getLast?_reverse] at h
  have hnot := List.head?_dropWhile_not (fun c => c == DOT || c == SPACE) str.reverse
  rw [h] at hnot
  simpa using hnot

theorem head_stripLeading {str : CString} {c : UInt8}
    (h : (stripLeading str).head? = some c) : (c == SPACE || c == SLASH) = false := by
  rw [stripLeading] at h
  have hnot := List.head?_dropWhile_not (fun c => c == SPACE || c == SLASH) str
  rw [h] at hnot
  simpa using hnot

theorem dropWhile_eq_self {p : UInt8 → Bool} {str : CString}
    (h : ∀ c ∈ str.head?, p c = false) : str.dropWhile p = str := by
  cases str with
  | nil => rfl
  | cons c str => rw [List.dropWhile_cons_of_neg (by rw [h c rfl]; exact Bool.false_ne_true)]

-- What a sanitized name is like.
structure IsSanitized (name : CString) : Prop where
  ne_nil : name ≠ []
  allowed : replaceForbidden name = name
  head : ∀ c ∈ name.head?, (c == SPACE || c == SLASH) = false
  last : ∀ c ∈ name.getLast?, (c == DOT || c == SPACE) = false
  noSlash : SLASH ∉ name

theorem isSanitized_of_sanitizeName {str name : CString} {maxLen : Nat}
    (h : sanitizeName str maxLen = some name) : IsSanitized name := by
  have hmem := fun c => mem_sanitizeName (c := c) h
  have hstrip : name = stripTrailing (stripLeading (replaceForbidden str)) ∧ name ≠ [] := by
    unfold sanitizeName at h
    split at h
    · cases h
    split at h
    · cases h
    split at h
    · cases h
    dsimp only at h
    split at h
    · cases h
    · rename_i hne
      cases h
      exact ⟨rfl, hne⟩
  obtain ⟨heq, hne⟩ := hstrip
  have hbyte : ∀ d : UInt8,
      (if (if d < 0x80 && isForbiddenAscii d then UNDERSCORE else d) < 0x80 &&
          isForbiddenAscii (if d < 0x80 && isForbiddenAscii d then UNDERSCORE else d) then
        UNDERSCORE else if d < 0x80 && isForbiddenAscii d then UNDERSCORE else d) =
      (if d < 0x80 && isForbiddenAscii d then UNDERSCORE else d) ∧
      (if d < 0x80 && isForbiddenAscii d then UNDERSCORE else d) ≠ SLASH := by
    refine forall_byte ?_
    set_option maxRecDepth 4000 in decide
  refine ⟨hne, ?_, ?_, ?_, ?_⟩
  · refine List.map_congr_left (fun c hc => ?_) |>.trans (List.map_id _)
    obtain ⟨d, -, rfl⟩ := List.mem_map.mp (hmem c hc)
    exact (hbyte d).1
  · intro c hc
    refine @head_stripLeading (replaceForbidden str) _ ?_
    obtain ⟨rest, hrest⟩ := stripTrailing_front (stripLeading (replaceForbidden str))
    rw [← heq] at hrest
    rw [← hrest, List.head?_append_of_ne_nil _ hne]
    exact hc
  · intro c hc
    refine @getLast_stripTrailing (stripLeading (replaceForbidden str)) _ ?_
    rw [← heq]
    exact hc
  · intro hc
    obtain ⟨d, -, hd⟩ := List.mem_map.mp (hmem _ hc)
    exact (hbyte d).2 hd

theorem IsSanitized.isFileName {name : CString} (hn : IsSanitized name) : IsFileName name := by
  refine ⟨hn.ne_nil, hn.noSlash, ?_, ?_⟩
  · rintro rfl
    exact absurd (hn.last DOT rfl) (by decide)
  · rintro rfl
    exact absurd (hn.last DOT rfl) (by decide)

-- Sanitizing such a name again changes nothing.
theorem IsSanitized.sanitizeName {name name' : CString} {maxLen : Nat} (hn : IsSanitized name)
    (h : sanitizeName name maxLen = some name') : name' = name := by
  have hsame : stripTrailing (stripLeading (replaceForbidden name)) = name := by
    rw [hn.allowed, stripLeading, dropWhile_eq_self hn.head, stripTrailing,
      dropWhile_eq_self (by rw [List.head?_reverse]; exact hn.last), List.reverse_reverse]
  unfold Text.sanitizeName at h
  split at h
  · cases h
  split at h
  · cases h
  split at h
  · cases h
  dsimp only at h
  rw [hsame, if_neg hn.ne_nil] at h
  exact (Option.some.inj h).symm

-- Where a new object is found

namespace MtpCtx

-- The lookup of the handle finds the folder. Not so when there was no memory to
-- list it under its handle, or when the root of a storage was renamed.
def FindsAgain (ctx : MtpCtx) (folder : EntryPtr) : Prop :=
  if (ctx.entry folder).handle = 0 then (ctx.entry folder).name = [SLASH]
  else ctx.getEntryByHandle (ctx.entry folder).handle = some folder

-- The path of a new object, its links followed, leads to a place in the storage.
-- For a folder that is not found again it must be where the path that is used to
-- make the object leads, too.
structure LeadsInside (ctx : MtpCtx) (tree : FileTree) (root : CString) (folder : EntryPtr)
    (name : CString) (place : List FileName) : Prop where
  lookup : ∃ left, tree.lookup (root ++ ctx.pathBelow (ctx.entry folder).handle name) =
    .ok (place, left)
  inside : InSubtree SLASH root (render place)
  parent : ctx.FindsAgain folder ∨ ∃ path left, ctx.resolved tree.realpath folder = some path ∧
    tree.lookup (path ++ SLASH :: name) = .ok (place, left)

theorem pathBelow_eq (parent : Nat) (name : CString) :
    ∃ front, ctx.pathBelow parent name = front ++ SLASH :: name := by
  rw [pathBelow]
  split
  · split
    · exact ⟨_, rfl⟩
    · exact ⟨[], rfl⟩
  · exact ⟨[], rfl⟩

theorem resolution_of_realpath {tree : FileTree} {path name : CString} {place : List FileName}
    {left : Nat} (h : tree.lookup path = .ok (place, left)) (hexists : tree.exists? place = true) :
    resolution tree.realpath path name = some (render place) := by
  rw [resolution, FileTree.realpath_of_lookup h hexists]

theorem exists_of_dir {tree : FileTree} {dir : List FileName} (h : tree.Dir dir) :
    tree.exists? dir = true := by
  by_cases hnil : dir = []
  · rw [hnil]
    rfl
  · rw [Tree.exists?, h dir (List.prefix_refl _) hnil]
    exact Bool.or_true _

-- A path that goes on from the folder goes through the directory that the path of
-- the folder leads to.
theorem lookup_through {tree : FileTree} {path : CString} {name : FileName}
    {found : List FileName × Nat} (h : tree.lookup (path ++ SLASH :: name.val) = .ok found) :
    ∃ dir left, tree.lookup path = .ok (dir, left) ∧ tree.Dir dir ∧
      tree.walk left dir [.into name] = .ok found := by
  rw [FileTree.lookup, partsOf_append, partsOf_name] at h
  exact Tree.walk_append (List.cons_ne_nil _ _) Tree.Dir.top h

theorem lookup_render {tree : FileTree} {dir place : List FileName} {name : FileName}
    {links left : Nat} (hlinks : links ≤ MAXSYMLINKS) (hdir : tree.Dir dir)
    (h : tree.walk links dir [.into name] = .ok (place, left)) :
    ∃ left', tree.lookup (render dir ++ SLASH :: name.val) = .ok (place, left') := by
  have hmore := Tree.walk_mono h (MAXSYMLINKS - links)
  rw [Nat.add_sub_cancel' hlinks] at hmore
  rw [FileTree.lookup_name hdir]
  exact ⟨_, hmore⟩

-- The folder is resolved to a directory from which the name leads to the same
-- place.
theorem FindsAgain.lookup {tree : FileTree} {root path : CString} {folder : EntryPtr}
    {name : FileName} {place : List FileName} {left : Nat} (hfinds : ctx.FindsAgain folder)
    (hno : (ctx.entry folder).handle ≠ NO_HANDLE)
    (htop : (ctx.entry folder).handle = 0 → (ctx.entry folder).parent = 0)
    (hroot : ctx.mtpGetStorageRoot (ctx.entry folder).storageId = some root)
    (hpath : ctx.resolved tree.realpath folder = some path)
    (h : tree.lookup (root ++ ctx.pathBelow (ctx.entry folder).handle name.val) =
      .ok (place, left)) : ∃ left', tree.lookup (path ++ SLASH :: name.val) = .ok
      (place, left') := by
  have hfolder : ∃ dir left, tree.lookup (root ++ ctx.relativePath folder (ctx.entry folder).name) =
      .ok (dir, left) ∧ tree.Dir dir ∧ left ≤ MAXSYMLINKS ∧
        ∃ left', tree.walk left dir [.into name] = .ok (place, left') := by
    rw [FindsAgain] at hfinds
    rw [pathBelow] at h
    by_cases hzero : (ctx.entry folder).handle = 0
    · rw [if_pos hzero] at hfinds
      rw [if_neg fun hup => hup.1 hzero] at h
      obtain ⟨dir, left', hdirpath, hdir, hrest⟩ := lookup_through h
      have halone : ctx.relativePath folder (ctx.entry folder).name = SLASH :: [SLASH] := by
        rw [relativePath_alone (climb_top (htop hzero) _), hfinds]
      refine ⟨dir, left', ?_, hdir, Tree.walk_le hdirpath, left, hrest⟩
      rw [halone, FileTree.lookup, partsOf_append,
        Tree.walk_from (by decide) Tree.Dir.top hdirpath hdir,
        show partsOf [SLASH] = [.stay, .stay] from rfl, Tree.walk_stay_cons, Tree.walk_stay_cons,
        Tree.walk_eq]
      rfl
    · rw [if_neg hzero] at hfinds
      rw [if_pos ⟨hzero, hno⟩, hfinds] at h
      dsimp only at h
      rw [← List.append_assoc] at h
      obtain ⟨dir, left', hdirpath, hdir, hrest⟩ := lookup_through h
      exact ⟨dir, left', hdirpath, hdir, Tree.walk_le hdirpath, left, hrest⟩
  obtain ⟨dir, left', hdirpath, hdir, hle, left'', hrest⟩ := hfolder
  rw [resolved, hroot, Option.bind_some, resolution_of_realpath hdirpath (exists_of_dir hdir),
    Option.bind_some] at hpath
  obtain ⟨rfl, -⟩ := checkRoot_eq_some.mp hpath
  exact lookup_render hle hdir hrest

end MtpCtx

-- After the file is made, its path is resolved to it if the path leads there.

section Resolved

variable {fileTree : FileTree} {root front : CString} {name : FileName} {place : List FileName}

theorem lookup_create (hleaf : fileTree.Leaf place) {path : CString}
    {found : List FileName × Nat} :
    FileTree.lookup (fileTree.create place) path = .ok found ↔ fileTree.lookup path = .ok found :=
  Tree.walk_create hleaf.node

theorem exists_create (place : List FileName) : (fileTree.create place).exists? place = true := by
  rw [Tree.exists?, Tree.create, if_pos rfl]
  exact Bool.or_true _

-- When the whole path is missing, the folder of it does not have the file.
theorem resolution_create (hleaf : fileTree.Leaf place) (hn : IsSanitized name.val)
    (h : resolution (FileTree.realpath (fileTree.create place)) (front ++ SLASH :: name.val)
      name.val = some (render place)) :
    ∃ left, fileTree.lookup (front ++ SLASH :: name.val) = .ok (place, left) := by
  rw [resolution] at h
  cases hreal : FileTree.realpath (fileTree.create place) (front ++ SLASH :: name.val) with
  | ok path =>
      rw [hreal] at h
      obtain ⟨place', left, hlookup, -, rfl⟩ := FileTree.lookup_of_realpath hreal
      obtain rfl := render_inj (Option.some.inj h)
      exact ⟨left, (lookup_create hleaf).mp hlookup⟩
  | error errno =>
      have htake : (front ++ SLASH :: name.val).take
          ((front ++ SLASH :: name.val).length - name.val.length) = front ++ SLASH :: [] := by
        rw [List.append_cons, List.length_append, Nat.add_sub_cancel, List.take_left]
      rw [hreal, htake] at h
      cases errno with
      | ENOENT =>
          dsimp only at h
          cases hparent : FileTree.realpath (fileTree.create place) (front ++ SLASH :: []) with
          | error errno =>
              rw [hparent] at h
              cases h
          | ok parentPath =>
              rw [hparent] at h
              dsimp only at h
              obtain ⟨sanitized, hsanitized, heq⟩ := Option.map_eq_some_iff.mp h
              rw [hn.sanitizeName hsanitized] at heq
              obtain ⟨dir, left, hlookup, -, rfl⟩ := FileTree.lookup_of_realpath hparent
              have hplace := eq_of_render_name heq
              rw [FileTree.lookup, partsOf_append] at hlookup
              obtain ⟨dir', left', hdirpath, hdir, hrest⟩ :=
                Tree.walk_append (by decide) Tree.Dir.top hlookup
              rw [show partsOf [] = [.stay] from rfl, Tree.walk_stay_cons, Tree.walk_eq] at hrest
              obtain ⟨rfl, rfl⟩ := Prod.mk.inj (Except.ok.inj hrest)
              have hfound : FileTree.lookup (fileTree.create place)
                  (front ++ SLASH :: name.val) = .ok (place, left') := by
                rw [FileTree.lookup, partsOf_append, partsOf_name,
                  Tree.walk_from (List.cons_ne_nil _ _) Tree.Dir.top hdirpath hdir, Tree.walk_eq,
                  Tree.leg, ← hplace, Tree.create, if_pos rfl]
                rfl
              rw [FileTree.realpath_of_lookup hfound (exists_create place)] at hreal
              cases hreal
      | _ => cases h

end Resolved

section Contained

variable {folder : EntryPtr} {root : CString} {parent storageId objectsize : Nat}
  {place : List FileName}

-- Entries with handle 0 are at the top of a storage.
theorem MtpCtx.Recorded.parent_of_top (hr : ctx.Recorded)
    (hlen : ctx.db.entryList.length < UINT32_SIZE - 1) {p : EntryPtr}
    (hp : p ∈ ctx.db.entryList) (hzero : (ctx.entry p).handle = 0) : (ctx.entry p).parent = 0 := by
  obtain ⟨objects, hn⟩ := hr.numbered hlen
  have hno : p ∉ objects := fun hmem => (hn.handles p hmem).1.ne' hzero
  exact (hn.roots p hp hno).2

-- The handle that is answered designates the entry that was added.
theorem Registered.mem_of_handle {fileinfo : FileFoundInfo} {result : Option EntryPtr}
    (ha : Registered ctx ctx' fileinfo parent storageId result) (hrecorded : ctx'.Recorded)
    (hlen : ctx'.db.entryList.length < UINT32_SIZE - 1) {p : EntryPtr}
    (hpos : ctx'.handleOf result ≠ 0) (hp : ctx'.getEntryByHandle (ctx'.handleOf result) = some p) :
    p ∈ result := by
  obtain ⟨hlive, hhandle, -⟩ := ha.ordered.getEntryByHandle_live hp
  cases result with
  | none =>
      have hbound := (hrecorded.handle_lt hlen hlive.1).2
      have hnone : ctx'.handleOf none = NO_HANDLE := rfl
      rw [hhandle, hnone, NO_HANDLE] at hbound
      rw [UINT32_SIZE] at hlen
      omega
  | some q =>
      have hsome : ctx'.handleOf (some q) = (ctx'.entry q).handle := rfl
      rw [hsome] at hpos hhandle
      exact Option.mem_some_iff.mpr (hrecorded.handle_inj hlen (ha.listed q rfl).1.1 hlive.1 hpos
        hhandle.symm)

-- Of a file that is made in a folder.
theorem createFile_contained_iff (hlinks : os.HasLinks tree) (hw : w.ctx.WellGrown)
    {name : FileName} (hn : IsSanitized name.val)
    (hfolder : w.ctx.getEntryByHandleAndStorageid parent storageId = some folder)
    (hroot : w.ctx.mtpGetStorageRoot storageId = some root) (hcanon : Canonical SLASH root)
    (hopen : OpensAt os tree (createFile folder name.val objectsize parent storageId) w place)
    {result : (Nat × Nat) × World σ}
    (hresult : exec (World.handle os) (createFile folder name.val objectsize parent storageId) w =
      result) (hlen : result.2.ctx.db.entryList.length < UINT32_SIZE - 1) :
    (∀ q, w.ctx.LeadsInside (tree w.os) root folder name.val q →
      InSubtree SLASH root (render place)) ∧
    ∀ p, result.1.2 ≠ 0 → result.2.ctx.getEntryByHandle result.1.2 = some p →
      (InSubtree SLASH root (render place) ∧
          result.2.ctx.resolved (tree result.2.os).realpath p = some (render place) ↔
        ∃ q, w.ctx.LeadsInside (tree w.os) root folder name.val q) := by
  obtain ⟨hlive, hhandle, hsid⟩ := MtpCtx.getEntryByHandleAndStorageid_live hfolder
  have hrootFolder : w.ctx.mtpGetStorageRoot (w.ctx.entry folder).storageId = some root := by
    rw [hsid]
    exact hroot
  have habs := head_of_canonical hcanon
  have hmade := opensAt_createFile hlinks hw.ordered hsid hroot habs hopen
  rw [hresult] at hmade
  obtain ⟨path, entry, hpath, hlookup, hleaf, htree, hadd, hvalue⟩ := hmade
  have hrecorded : result.2.ctx.Recorded := by
    rw [← hresult]
    exact recorded_exec _ hw.recorded
  have hshort : w.ctx.db.entryList.length < UINT32_SIZE - 1 :=
    lt_of_le_of_lt (hadd.grow hw.ordered) hlen
  obtain ⟨hbelow, hbound⟩ := hw.recorded.handle_lt hshort hlive.1
  have hno : (w.ctx.entry folder).handle ≠ NO_HANDLE := by
    have hmax : UINT32_SIZE - 1 = NO_HANDLE := rfl
    omega
  have hsame : ∀ q, w.ctx.LeadsInside (tree w.os) root folder name.val q → q = place := by
    intro q hq
    obtain ⟨left, hleft⟩ := hlookup
    obtain ⟨left', hleft'⟩ := hq.lookup
    have hleads : ∃ left, (tree w.os).lookup (path ++ SLASH :: name.val) = .ok (q, left) := by
      rcases hq.parent with hfinds | ⟨path', left, hpath', hlookup'⟩
      · exact hfinds.lookup hno (hw.recorded.parent_of_top hshort hlive.1) hrootFolder hpath hleft'
      · obtain rfl := Option.some.inj (hpath.symm.trans hpath')
        exact ⟨left, hlookup'⟩
    obtain ⟨left'', hq'⟩ := hleads
    rw [hleft] at hq'
    exact (Prod.mk.inj (Except.ok.inj hq')).1.symm
  refine ⟨fun q hq => hsame q hq ▸ hq.inside, fun p hpos hp => ?_⟩
  rw [hvalue] at hpos hp
  have hmem := hadd.mem_of_handle hrecorded hlen hpos hp
  obtain ⟨-, hname, -, hpsid⟩ := hadd.listed p hmem
  have hresolved : result.2.ctx.resolved (tree result.2.os).realpath p =
      (resolution (FileTree.realpath ((tree w.os).create place))
        (root ++ w.ctx.pathBelow parent name.val) name.val).bind (checkRoot root) := by
    rw [MtpCtx.resolved, hpsid, hadd.mtpGetStorageRoot, hroot, Option.bind_some, hname, htree,
      hadd.relativePath hw hrecorded hlen (Or.inr (hhandle ▸ hbelow)) hmem]
  rw [hresolved]
  constructor
  · rintro ⟨hin, hfound⟩
    obtain ⟨found, hfound, hcheck⟩ := Option.bind_eq_some_iff.mp hfound
    obtain ⟨rfl, -⟩ := checkRoot_eq_some.mp hcheck
    obtain ⟨front, hfront⟩ := @MtpCtx.pathBelow_eq w.ctx parent name.val
    rw [hfront, ← List.append_assoc] at hfound
    have hplace := resolution_create hleaf hn hfound
    rw [List.append_assoc, ← hfront] at hplace
    obtain ⟨left, hleft⟩ := hlookup
    exact ⟨place, hhandle ▸ hplace, hin, Or.inr ⟨path, left, hpath, hleft⟩⟩
  · rintro ⟨q, hq⟩
    obtain rfl := hsame q hq
    obtain ⟨left, hleft⟩ := hq.lookup
    rw [hhandle] at hleft
    refine ⟨hq.inside, ?_⟩
    rw [MtpCtx.resolution_of_realpath ((lookup_create hleaf).mpr hleft) (exists_create q),
      Option.bind_some]
    exact checkRoot_eq_some.mpr ⟨rfl, hcanon.prefix_of_inSubtree (canonical_render q) hq.inside⟩

end Contained

-- Commands that are not the opening of a new file.
def Cmd.NoCreate (c : Cmd) : Prop :=
  ∀ storageId path, c ≠ .act (.open storageId path .createTruncate)

theorem noCreate_identifies : Identifies Cmd.NoCreate where
  getCtx _ _ h := by cases h
  query _ _ _ h := by cases h
  malloc _ _ h := by cases h
  setfsuid _ _ _ h := by cases h
  setfsgid _ _ _ h := by cases h

theorem noCreate_createFolder (folder : EntryPtr) (name : CString) (parentHandle storageId : Nat) :
    Uses AnyAnswer Cmd.NoCreate (createFolder folder name parentHandle storageId) := by
  refine noCreate_identifies.toBuilds.getCtx_bind fun ctx =>
    uses_bind (noCreate_identifies.toBuilds.newObjectPath _ _) fun tmpPath => ?_
  split
  · rename_i path
    have hlast : ∀ made : Bool, Uses AnyAnswer Cmd.NoCreate (do
        restoreGiduid
        registerFolder name parentHandle storageId made) := by
      intro made
      refine uses_bind noCreate_identifies.restoreGiduid fun _ => ?_
      unfold registerFolder
      split
      · refine uses_bind (noCreate_identifies.toBuilds.addEntry (fun _ _ h => by cases h)
          (fun _ _ _ h => by cases h) _ _ _) fun entry => ?_
        split
        · exact noCreate_identifies.toBuilds.getCtx_bind fun ctx => uses_pure _
        · exact uses_pure _
      · exact uses_pure _
    refine uses_bind (noCreate_identifies.setStorageGiduid _) fun set => ?_
    split
    · exact uses_bind (uses_act_of fun _ _ h => by cases h) hlast
    · exact hlast false
  · exact uses_pure _

theorem not_opensAt_noCreate {prog : M α} (hp : Uses AnyAnswer Cmd.NoCreate prog) (w : World σ)
    (place : List FileName) : ¬ OpensAt os tree prog w place := by
  rintro ⟨step, hm, storageId, path, left, hstep, -⟩
  exact uses_trace hp (World.handle os) w step hm storageId path hstep

theorem opensAt_getCtx_bind {f : MtpCtx → M α} {place : List FileName}
    (h : OpensAt os tree (M.getCtx >>= f) w place) : OpensAt os tree (f w.ctx) w place := by
  have hget : Uses AnyAnswer Cmd.KeepsFiles M.getCtx := uses_cmd (c := .getCtx) trivial
  exact opensAt_rest hget h

-- A file is made for an object that is no folder, in a folder of the database, and
-- nothing comes before it but a look at the context.
theorem opensAt_parseIncomingDataset {datain : Buffer} {parentHandle parent storageId : Nat}
    {place : List FileName}
    (hparent : (if parentHandle = NO_HANDLE then 0 else parentHandle) = parent)
    (h : OpensAt os tree (parseIncomingDataset datain parentHandle storageId) w place) :
    ∃ object folder, decodeObjectInfo (datain.shift MTP_HEADER_SIZE) = some object ∧
      w.ctx.getEntryByHandleAndStorageid parent storageId = some folder ∧
      (∃ f, parseIncomingDataset datain parentHandle storageId = M.getCtx >>= f ∧
        f w.ctx = createFile folder object.name object.size parent storageId) ∧
      OpensAt os tree (createFile folder object.name object.size parent storageId) w place := by
  have hnone : ∀ value : Nat × Nat, ¬ OpensAt os tree (pure value : M (Nat × Nat)) w place :=
    fun value => not_opensAt (uses_pure _) w place
  by_cases hcode : hdrCode datain = MTP_OPERATION_SEND_OBJECT_INFO
  · rw [parseIncomingDataset_eq hcode] at h ⊢
    unfold acceptObject at h ⊢
    rw [hparent] at h ⊢
    have h1 := opensAt_getCtx_bind h
    dsimp only at h1
    split at h1
    · exact absurd h1 (hnone _)
    rename_i hflags
    split at h1
    · exact absurd h1 (hnone _)
    rename_i hreadonly
    cases hobject : decodeObjectInfo (datain.shift MTP_HEADER_SIZE) with
    | none =>
        rw [hobject] at h1
        exact absurd h1 (hnone _)
    | some object =>
        rw [hobject] at h1
        dsimp only at h1
        cases hfolder : w.ctx.getEntryByHandleAndStorageid parent storageId with
        | none =>
            rw [hfolder] at h1
            exact absurd h1 (hnone _)
        | some folder =>
            rw [hfolder] at h1
            dsimp only at h1
            split at h1
            · rename_i hdir
              split at h1
              · exact absurd h1 (not_opensAt_noCreate (noCreate_createFolder _ _ _ _) w place)
              · rename_i hfile
                refine ⟨object, folder, rfl, rfl, ⟨_, rfl, ?_⟩, h1⟩
                dsimp only
                rw [if_neg hflags, if_neg hreadonly, hfolder]
                dsimp only
                rw [if_pos hdir, if_neg hfile]
            · exact absurd h1 (hnone _)
  · unfold parseIncomingDataset at h
    have h1 := opensAt_getCtx_bind h
    dsimp only at h1
    rw [if_neg hcode] at h1
    split at h1
    · exact absurd h1 (hnone _)
    split at h1
    · exact absurd h1 (hnone _)
    · exact absurd h1 (hnone _)

theorem isSanitized_of_decode {dataset : Buffer} {object : ObjectInfo}
    (h : decodeObjectInfo dataset = some object) : IsSanitized object.name := by
  obtain ⟨name, hname, rfl⟩ := Option.map_eq_some_iff.mp h
  exact isSanitized_of_sanitizeName hname

theorem MtpCtx.WellGrown.withBuffers (hw : ctx.WellGrown) (buffer buffer2 : Buffer) :
    (ctx.withBuffers buffer buffer2).WellGrown :=
  ⟨⟨⟨hw.ordered.slots, hw.ordered.stored⟩, hw.slotIds, hw.recorded⟩, hw.rising⟩

section Samples

-- The system in memory with a tree for the files that are made.
def treeOs : Os (MemSystem × FileTree) where
  query q s :=
    match q with
    | .realpath path => s.2.realpath path
    | q => s.1.query q
  act a s :=
    match a with
    | .open _ path .createTruncate =>
      match s.2.lookup path with
      | .ok (place, _) =>
        if place ≠ [] ∧ s.2 place ≠ some .dir then (3, (s.1, s.2.create place)) else (-1, s)
      | .error _ => (-1, s)
    | a => ((s.1.act a).1, ((s.1.act a).2, s.2))

theorem treeOs_hasLinks : treeOs.HasLinks Prod.snd where
  realpath _ _ _ := rfl
  opened storageId path s _ h := by
    cases hlookup : s.2.lookup path with
    | error error => simp [treeOs, hlookup] at h
    | ok found =>
        obtain ⟨place, left⟩ := found
        by_cases hcond : place ≠ [] ∧ s.2 place ≠ some .dir
        · refine ⟨place, left, rfl, ?_, ?_⟩
          · rcases Tree.walk_ok Tree.Dir.top hlookup with hdir | hleaf
            · exact absurd (hdir place (List.prefix_refl _) hcond.1) hcond.2
            · exact hleaf
          · simp [treeOs, hlookup, hcond]
        · simp [treeOs, hlookup, hcond] at h
  malloc _ := rfl
  entryMemory _ := rfl
  close _ _ := rfl
  setfsuid _ _ := rfl
  setfsgid _ _ := rfl

def opensHere (os : Os σ) (tree : σ → FileTree) (place : List FileName)
    (step : World σ × Cmd) : Bool :=
  match step.2 with
  | .act (.open storageId path .createTruncate) =>
    decide ((os.act (.open storageId path .createTruncate) step.1.os).1 ≠ -1) &&
      match (tree step.1.os).lookup path with
      | .ok found => found.1 == place
      | .error _ => false
  | _ => false

theorem opensAt_of_any {prog : M α} {place : List FileName}
    (h : (trace (World.handle os) prog w).any (opensHere os tree place) = true) :
    OpensAt os tree prog w place := by
  obtain ⟨step, hm, hhere⟩ := List.any_eq_true.mp h
  unfold opensHere at hhere
  split at hhere
  · rename_i storageId path hstep
    obtain ⟨hanswer, hhere⟩ := Bool.and_eq_true_iff.mp hhere
    split at hhere
    · rename_i found hlookup
      obtain ⟨place', left⟩ := found
      obtain rfl := beq_iff_eq.mp hhere
      exact ⟨step, hm, storageId, path, left, hstep, of_decide_eq_true hanswer, hlookup⟩
    · cases hhere
  · cases hhere

def A_FILE : FileName := ⟨[0x61], by decide⟩
def B_FILE : FileName := ⟨[0x62], by decide⟩
def F_FILE : FileName := ⟨F_NAME, by decide⟩
def G_FILE : FileName := ⟨[0x67], by decide⟩

end Samples

end Umtp
