import Umtp.Handles.Names
import Umtp.Listings
import Umtp.WholeNames

namespace Umtp

open Lib Lib.Prog Handles Text

variable {σ α : Type} {os : Os σ} {ctx ctx' : MtpCtx} {w : World σ}

-- A folder as a scan sees it: the names that `readdir` gives, and what `stat64`
-- tells of a name in it.
structure Folder where
  names : List CString
  stat : CString → Option Stat

namespace Folder

-- The objects that are listed.
def Shows (folder : Folder) (showHidden : Bool) (name : CString) (stat : Stat) : Prop :=
  name ∈ folder.names ∧ isListedName showHidden name = true ∧ folder.stat name = some stat

-- The file info of a name that is gone through.
def info (folder : Folder) (name : CString) (fileinfo : FileFoundInfo) : Bool × FileFoundInfo :=
  match folder.stat name with
  | some stat => (true, ⟨stat.isDir, name, stat.size⟩)
  | none => (false, { fileinfo with filename := [], size := 0 })

-- What the path of an entry leads to. Where there is no object of the name, the name
-- is sanitized, which fails or gives the path of another object.
def found (folder : Folder) (name : CString) : Option (Option Stat) :=
  match folder.stat name with
  | some stat => some (some stat)
  | none => (sanitizeName name name.length).map folder.stat

-- What a scan makes of the entry of a child.
def refresh (folder : Folder) (entry : FsEntry) : FsEntry :=
  match folder.found entry.name with
  | some (some stat) => { entry with size := stat.size }
  | some none => { entry.setDeleted with watchDescriptor := -1 }
  | none => entry

variable {folder : Folder} {entry : FsEntry}

@[simp] theorem refresh_name : (folder.refresh entry).name = entry.name := by
  rw [refresh]
  cases folder.found entry.name with
  | none => rfl
  | some found => cases found <;> rfl

@[simp] theorem refresh_identity : (folder.refresh entry).identity = entry.identity := by
  rw [refresh]
  cases folder.found entry.name with
  | none => rfl
  | some found => cases found <;> rfl

@[simp] theorem refresh_isDir : (folder.refresh entry).isDir = entry.isDir := by
  rw [refresh]
  cases folder.found entry.name with
  | none => rfl
  | some found =>
      cases found with
      | none => exact FsEntry.isDir_setDeleted entry
      | some stat => rfl

theorem isDeleted_refresh (hlive : entry.isDeleted = false) :
    (folder.refresh entry).isDeleted = true ↔ folder.found entry.name = some none := by
  rw [refresh]
  cases folder.found entry.name with
  | none => simp [hlive]
  | some found =>
      cases found with
      | none => exact iff_of_true (FsEntry.isDeleted_setDeleted entry) rfl
      | some stat =>
          refine iff_of_false ?_ (by simp)
          exact fun h => Bool.false_ne_true (hlive.symm.trans h)

theorem refresh_refresh (hfound : folder.found entry.name ≠ some none) :
    folder.refresh (folder.refresh entry) = folder.refresh entry := by
  have hname : (folder.refresh entry).name = entry.name := refresh_name
  rw [refresh, hname]
  cases h : folder.found entry.name with
  | none => rfl
  | some found =>
      cases found with
      | none => exact absurd h hfound
      | some stat =>
          dsimp only
          rw [refresh, h]

end Folder

-- The folder does not change and has no links in it, and there is memory.
structure Os.Keeps (os : Os σ) (base : CString) (folder : Folder) (quiet : σ → Prop) :
    Prop where
  opendir : ∀ s, quiet s → os.query (.opendir base) s = some folder.names
  stat : ∀ s, quiet s → ∀ name, IsFileName name →
    os.query (.stat64 (base ++ SLASH :: name)) s = folder.stat name
  realpath : ∀ s, quiet s → ∀ name, IsFileName name →
    os.query (.realpath (base ++ SLASH :: name)) s =
      if (folder.stat name).isSome then .ok (base ++ SLASH :: name) else .error .ENOENT
  realpathFolder : ∀ s, quiet s → os.query (.realpath (base ++ [SLASH])) s = .ok base
  names : ∀ name ∈ folder.names, name = DOT_NAME ∨ name = DOTDOT_NAME ∨
    IsFileName name ∧ name.length ≤ FS_HANDLE_MAX_FILENAME_SIZE
  malloc : ∀ s, quiet s → (os.act .malloc s).1 = true ∧ quiet (os.act .malloc s).2
  entryMemory : ∀ s, quiet s →
    (os.act .entryMemory s).1 = AllocMem.success ∧ quiet (os.act .entryMemory s).2
  rmWatch : ∀ s wd, quiet s → quiet (os.act (.inotifyRmWatch wd) s).2

section Children

variable {root base : CString} {folder : Folder} {quiet : σ → Prop} {p : EntryPtr}

-- The path that is built for a child.
def Folder.childPath (folder : Folder) (base name : CString) : Option CString :=
  if (folder.stat name).isSome then some (base ++ SLASH :: name)
  else (sanitizeName name name.length).map (base ++ SLASH :: ·)

theorem checkRoot_below {path : CString} (hbelow : root <+: base) :
    checkRoot root (base ++ SLASH :: path) = some (base ++ SLASH :: path) :=
  checkRoot_eq_some.mpr ⟨rfl, hbelow.trans (List.prefix_append _ _)⟩

theorem exec_resolveChild (hkeeps : os.Keeps base folder quiet) (hquiet : quiet w.os)
    (hbelow : root <+: base) (name : CString) :
    ∃ s, quiet s ∧
      exec (World.handle os) (resolveNewObject root (base ++ SLASH :: name) name) w =
        ((sanitizeName name name.length).map (base ++ SLASH :: ·), ⟨w.ctx, s⟩) := by
  have htake : (base ++ SLASH :: name).take ((base ++ SLASH :: name).length - name.length) =
      base ++ [SLASH] := by
    rw [List.append_cons, List.length_append, Nat.add_sub_cancel, List.take_left]
  obtain ⟨hmem, hquiet'⟩ := hkeeps.malloc w.os hquiet
  refine ⟨_, hquiet', ?_⟩
  rw [resolveNewObject, exec_query_bind, htake, hkeeps.realpathFolder w.os hquiet]
  dsimp only
  rw [exec_act_bind, hmem, if_pos rfl]
  cases sanitizeName name name.length with
  | none => rfl
  | some sanitized =>
      dsimp only
      rw [checkRoot_below hbelow]
      rfl

theorem exec_entryPath_child (hkeeps : os.Keeps base folder quiet) (hquiet : quiet w.os)
    (hroot : w.ctx.mtpGetStorageRoot (w.ctx.entry p).storageId = some root) (hbelow : root <+: base)
    (hname : IsFileName (w.ctx.entry p).name)
    (hpath : root ++ w.ctx.relativePath p (w.ctx.entry p).name =
      base ++ SLASH :: (w.ctx.entry p).name) :
    ∃ s, quiet s ∧ exec (World.handle os) (entryPath p) w =
      (folder.childPath base (w.ctx.entry p).name, ⟨w.ctx, s⟩) := by
  obtain ⟨hmem, hquiet'⟩ := hkeeps.malloc w.os hquiet
  rw [entryPath, exec_getCtx_bind, buildFullPath, exec_getCtx_bind, hroot, buildFullPathNamed,
    exec_getCtx_bind, exec_act_bind, hmem, if_pos rfl]
  dsimp only
  rw [exec_query_bind, hpath, hkeeps.realpath _ hquiet' _ hname, Folder.childPath]
  by_cases hsome : (folder.stat (w.ctx.entry p).name).isSome = true
  · rw [if_pos hsome, if_pos hsome]
    dsimp only
    rw [checkRoot_below hbelow]
    exact ⟨_, hquiet', rfl⟩
  · rw [if_neg hsome, if_neg hsome]
    exact exec_resolveChild hkeeps (w := ⟨w.ctx, (os.act .malloc w.os).2⟩) hquiet' hbelow _

-- What `stat64` tells of the path of a child.
theorem exec_stat_child (hkeeps : os.Keeps base folder quiet) {s : σ} (hquiet : quiet s)
    {name path : CString} (hname : IsFileName name)
    (hpath : folder.childPath base name = some path) :
    folder.found name = some (os.query (.stat64 path) s) := by
  rw [Folder.childPath] at hpath
  rw [Folder.found]
  cases hstat : folder.stat name with
  | some stat =>
      rw [hstat, Option.isSome_some, if_pos rfl] at hpath
      obtain rfl := Option.some.inj hpath
      dsimp only
      rw [hkeeps.stat s hquiet name hname, hstat]
  | none =>
      rw [hstat, Option.isSome_none, if_neg Bool.false_ne_true] at hpath
      obtain ⟨sanitized, hsanitized, rfl⟩ := Option.map_eq_some_iff.mp hpath
      dsimp only
      rw [hsanitized, Option.map_some,
        hkeeps.stat s hquiet sanitized (isSanitized_of_sanitizeName hsanitized).isFileName]

theorem found_eq_none {name : CString} (hpath : folder.childPath base name = none) :
    folder.found name = none := by
  rw [Folder.childPath] at hpath
  rw [Folder.found]
  cases hstat : folder.stat name with
  | some stat =>
      rw [hstat, Option.isSome_some, if_pos rfl] at hpath
      cases hpath
  | none =>
      rw [hstat, Option.isSome_none, if_neg Bool.false_ne_true] at hpath
      dsimp only
      rw [Option.map_eq_none_iff.mp hpath, Option.map_none]

-- The context with another entry in a slot.
def MtpCtx.putEntry (ctx : MtpCtx) (p : EntryPtr) (entry : FsEntry) : MtpCtx :=
  { ctx with fsDb := ctx.fsDb.map fun db => db.setEntry p entry }

namespace MtpCtx

theorem putEntry_eq (ctx : MtpCtx) (p : EntryPtr) (entry : FsEntry) :
    ctx.putEntry p entry = ctx ∨ ∃ db, ctx.fsDb = some db ∧
      ctx.putEntry p entry = { ctx with fsDb := some (db.setEntry p entry) } := by
  cases hdb : ctx.fsDb with
  | none =>
      refine Or.inl ?_
      rw [putEntry, hdb, Option.map_none, ← hdb]
  | some db => exact Or.inr ⟨db, rfl, by rw [putEntry, hdb, Option.map_some]⟩

theorem putEntry_self (ctx : MtpCtx) (p : EntryPtr) : ctx.putEntry p (ctx.entry p) = ctx := by
  rcases ctx.putEntry_eq p (ctx.entry p) with heq | ⟨db, hdb, heq⟩
  · exact heq
  · have hset : db.setEntry p (ctx.entry p) = db := by
      rw [entry, MtpCtx.db, hdb, Option.getD_some, FsHandlesDb.setEntry]
      congr 1
      funext q
      split
      · rename_i hq
        rw [hq]
      · rfl
    rw [heq, hset, ← hdb]

theorem putEntry_putEntry (ctx : MtpCtx) (p : EntryPtr) (entry entry' : FsEntry) :
    (ctx.putEntry p entry).putEntry p entry' = ctx.putEntry p entry' := by
  rw [putEntry, putEntry, putEntry]
  dsimp only
  rw [Option.map_map]
  congr 1
  refine congrArg (ctx.fsDb.map ·) (funext fun db => ?_)
  rw [Function.comp_apply, FsHandlesDb.setEntry, FsHandlesDb.setEntry, FsHandlesDb.setEntry]
  congr 1
  funext q
  dsimp only
  split <;> rfl

theorem entry_putEntry_self (hsession : ctx.fsDb.isSome = true) (p : EntryPtr) (entry : FsEntry) :
    (ctx.putEntry p entry).entry p = entry := by
  obtain ⟨db, hdb⟩ := Option.isSome_iff_exists.mp hsession
  rw [MtpCtx.entry, MtpCtx.db, putEntry, hdb, Option.map_some, Option.getD_some]
  exact FsHandlesDb.setEntry_pool_self _ _ _

theorem entry_putEntry_of_ne {p q : EntryPtr} (hne : q ≠ p) (entry : FsEntry) :
    (ctx.putEntry p entry).entry q = ctx.entry q := by
  rcases ctx.putEntry_eq p entry with heq | ⟨db, hdb, heq⟩
  · rw [heq]
  · rw [heq, MtpCtx.entry, MtpCtx.entry, MtpCtx.db, MtpCtx.db, hdb, Option.getD_some,
      Option.getD_some]
    exact FsHandlesDb.setEntry_pool_of_ne _ _ hne

theorem applyDb_eq_putEntry {op : DbOp} {p : EntryPtr} (change : FsEntry → FsEntry)
    (h : ∀ db, op.step db = db.setEntry p (change (db.pool p))) :
    ctx.applyDb op = ctx.putEntry p (change (ctx.entry p)) := by
  rw [applyDb, putEntry]
  cases hdb : ctx.fsDb with
  | none => rfl
  | some db =>
      rw [Option.map_some, Option.map_some, h, MtpCtx.entry, MtpCtx.db, hdb, Option.getD_some]

end MtpCtx

theorem exec_db_ (op : DbOp) (w : World σ) :
    exec (World.handle os) (M.db_ op) w = ((), ⟨w.ctx.applyDb op, w.os⟩) := rfl

theorem applyDb_setWatchDescriptor (ctx : MtpCtx) (p : EntryPtr) (wd : Int) :
    ctx.applyDb (.setWatchDescriptor p wd) =
      ctx.putEntry p { ctx.entry p with watchDescriptor := wd } :=
  MtpCtx.applyDb_eq_putEntry (fun entry => { entry with watchDescriptor := wd }) fun _ => rfl

theorem exec_dropWatch (w : World σ) (p : EntryPtr) :
    ∃ s, (s = w.os ∨ ∃ wd, s = (os.act (.inotifyRmWatch wd) w.os).2) ∧
      exec (World.handle os) (dropWatch p) w =
        ((), ⟨w.ctx.putEntry p { w.ctx.entry p with watchDescriptor := -1 }, s⟩) := by
  rw [dropWatch, exec_getCtx_bind]
  by_cases hwatch : (w.ctx.entry p).watchDescriptor = -1
  · rw [if_neg fun h => h hwatch]
    have hsame : { w.ctx.entry p with watchDescriptor := -1 } = w.ctx.entry p := by
      rw [← hwatch]
    rw [hsame, MtpCtx.putEntry_self]
    exact ⟨w.os, Or.inl rfl, rfl⟩
  · rw [if_pos hwatch, inotifyHandlerRmwatch, bind_eq, exec_bind, exec_getCtx_bind,
      ← applyDb_setWatchDescriptor]
    by_cases hfd : w.ctx.inotifyFd ≠ -1 ∧ (w.ctx.entry p).watchDescriptor ≠ -1
    · rw [if_pos hfd]
      exact ⟨_, Or.inr ⟨(w.ctx.entry p).watchDescriptor, rfl⟩, rfl⟩
    · rw [if_neg hfd]
      exact ⟨w.os, Or.inl rfl, rfl⟩

theorem exec_refreshChild (hkeeps : os.Keeps base folder quiet) (hquiet : quiet w.os)
    (hsession : w.ctx.fsDb.isSome = true)
    (hroot : w.ctx.mtpGetStorageRoot (w.ctx.entry p).storageId = some root) (hbelow : root <+: base)
    (hname : IsFileName (w.ctx.entry p).name)
    (hpath : root ++ w.ctx.relativePath p (w.ctx.entry p).name =
      base ++ SLASH :: (w.ctx.entry p).name) :
    ∃ s, quiet s ∧ exec (World.handle os) (refreshChild p) w =
      ((), ⟨w.ctx.putEntry p (folder.refresh (w.ctx.entry p)), s⟩) := by
  obtain ⟨s, hquiet', hexec⟩ := exec_entryPath_child hkeeps hquiet hroot hbelow hname hpath
  rw [refreshChild, bind_eq, exec_bind, hexec]
  dsimp only
  rw [Folder.refresh]
  cases hchild : folder.childPath base (w.ctx.entry p).name with
  | none =>
      rw [found_eq_none hchild, MtpCtx.putEntry_self]
      exact ⟨s, hquiet', rfl⟩
  | some path =>
      rw [exec_stat_child hkeeps hquiet' hname hchild]
      dsimp only
      rw [exec_query_bind]
      cases os.query (.stat64 path) s with
      | some stat =>
          have hset : w.ctx.applyDb (.setSize p stat.size) =
              w.ctx.putEntry p { w.ctx.entry p with size := stat.size } :=
            MtpCtx.applyDb_eq_putEntry (fun entry => { entry with size := stat.size }) fun _ => rfl
          dsimp only
          rw [exec_db_, hset]
          exact ⟨s, hquiet', rfl⟩
      | none =>
          have hset : w.ctx.applyDb (.setDeleted p) =
              w.ctx.putEntry p (w.ctx.entry p).setDeleted :=
            MtpCtx.applyDb_eq_putEntry FsEntry.setDeleted fun _ => rfl
          obtain ⟨s', hs', hdrop⟩ := @exec_dropWatch _ os ⟨w.ctx.applyDb (.setDeleted p), s⟩ p
          have hquiet'' : quiet s' := by
            rcases hs' with rfl | ⟨wd, rfl⟩
            · exact hquiet'
            · exact hkeeps.rmWatch s wd hquiet'
          refine ⟨s', hquiet'', hdrop.trans ?_⟩
          dsimp only
          rw [hset, MtpCtx.putEntry_putEntry, MtpCtx.entry_putEntry_self hsession]

-- What a scan of the children of a folder leaves as it was.
structure SameNames (parent : Nat) (ctx ctx' : MtpCtx) : Prop where
  storages : ctx'.storages = ctx.storages
  session : ctx'.fsDb.isSome = ctx.fsDb.isSome
  entryList : ctx'.db.entryList = ctx.db.entryList
  byName : ctx'.db.hashTableByName = ctx.db.hashTableByName
  byHandle : ctx'.db.hashTableByHandle = ctx.db.hashTableByHandle
  name : ∀ q, (ctx'.entry q).name = (ctx.entry q).name
  identity : ∀ q, (ctx'.entry q).identity = (ctx.entry q).identity
  look : ∀ handle ≤ parent, ctx'.getEntryByHandle handle = ctx.getEntryByHandle handle

namespace SameNames

variable {parent storageId : Nat} {ctx'' : MtpCtx}

theorem refl (ctx : MtpCtx) : SameNames parent ctx ctx :=
  ⟨rfl, rfl, rfl, rfl, rfl, fun _ => rfl, fun _ => rfl, fun _ _ => rfl⟩

theorem trans (h : SameNames parent ctx ctx') (h' : SameNames parent ctx' ctx'') :
    SameNames parent ctx ctx'' where
  storages := h'.storages.trans h.storages
  session := h'.session.trans h.session
  entryList := h'.entryList.trans h.entryList
  byName := h'.byName.trans h.byName
  byHandle := h'.byHandle.trans h.byHandle
  name q := (h'.name q).trans (h.name q)
  identity q := (h'.identity q).trans (h.identity q)
  look handle hle := (h'.look handle hle).trans (h.look handle hle)

theorem parent_eq (h : SameNames parent ctx ctx') (q : EntryPtr) :
    (ctx'.entry q).parent = (ctx.entry q).parent := congrArg (·.2.1) (h.identity q)

theorem storageId_eq (h : SameNames parent ctx ctx') (q : EntryPtr) :
    (ctx'.entry q).storageId = (ctx.entry q).storageId := congrArg (·.2.2) (h.identity q)

theorem climb (h : SameNames parent ctx ctx') (ho : ctx.Ordered) (hrises : ctx.Rises)
    (hp : p ∈ ctx.db.entryList) (hle : (ctx.entry p).parent ≤ parent) (fuel : Nat) :
    ctx'.climb fuel p = ctx.climb fuel p := by
  induction fuel generalizing p with
  | zero => rfl
  | succ fuel ih =>
      rw [MtpCtx.climb, MtpCtx.climb, h.parent_eq, h.look _ hle]
      split
      · split
        · rename_i q hq
          obtain ⟨hlive, hhandle, -⟩ := ho.getEntryByHandle_live hq
          refine congrArg (p :: ·) (ih hlive.1 ?_)
          rcases hrises q hlive.1 with hzero | hless <;> omega
        · rfl
      · rfl

theorem relativePath (h : SameNames parent ctx ctx') (ho : ctx.Ordered) (hrises : ctx.Rises)
    (hp : p ∈ ctx.db.entryList) (hle : (ctx.entry p).parent ≤ parent) (name : CString) :
    ctx'.relativePath p name = ctx.relativePath p name := by
  rw [MtpCtx.relativePath, MtpCtx.relativePath, h.entryList, h.climb ho hrises hp hle]
  refine List.flatMap_congr fun q _ => ?_
  rw [h.name]

end SameNames

theorem getEntryByHandle_putEntry {entry : FsEntry} {handle : Nat}
    (hid : entry.identity = (ctx.entry p).identity) (hne : handle ≠ (ctx.entry p).handle) :
    (ctx.putEntry p entry).getEntryByHandle handle = ctx.getEntryByHandle handle := by
  have hhandle : entry.handle = (ctx.entry p).handle := congrArg (·.1) hid
  rcases ctx.putEntry_eq p entry with heq | ⟨db, hdb, heq⟩
  · rw [heq]
  · have hroot : ({ ctx with fsDb := some (db.setEntry p entry) } : MtpCtx).mtpGetStorageRoot =
        ctx.mtpGetStorageRoot := rfl
    rw [heq, MtpCtx.getEntryByHandle, MtpCtx.getEntryByHandle, hroot, MtpCtx.db, MtpCtx.db, hdb,
      Option.getD_some, Option.getD_some, FsHandlesDb.getEntryByHandle,
      FsHandlesDb.getEntryByHandle]
    refine List.find?_congr fun q _ => ?_
    by_cases hq : q = p
    · subst hq
      rw [MtpCtx.entry, MtpCtx.db, hdb, Option.getD_some] at hne hhandle
      have hold : ((db.pool q).handle == handle) = false := beq_eq_false_iff_ne.mpr hne.symm
      rw [FsHandlesDb.setEntry_pool_self, hhandle, hold]
      simp
    · rw [FsHandlesDb.setEntry_pool_of_ne _ _ hq]

-- Another entry for a child, with the same name and place.
theorem sameNames_putEntry {parent : Nat} {entry : FsEntry}
    (hname : entry.name = (ctx.entry p).name)
    (hid : entry.identity = (ctx.entry p).identity) (hhandle : parent < (ctx.entry p).handle) :
    SameNames parent ctx (ctx.putEntry p entry) := by
  have hlook : ∀ handle ≤ parent, (ctx.putEntry p entry).getEntryByHandle handle =
      ctx.getEntryByHandle handle := fun handle hle => getEntryByHandle_putEntry hid (by omega)
  have hentry : ∀ q, (ctx.putEntry p entry).entry q = ctx.entry q ∨
      q = p ∧ (ctx.putEntry p entry).entry q = entry := by
    intro q
    by_cases hq : q = p
    · rcases ctx.putEntry_eq p entry with heq | ⟨db, hdb, heq⟩
      · exact Or.inl (by rw [heq])
      · refine Or.inr ⟨hq, ?_⟩
        rw [hq]
        exact MtpCtx.entry_putEntry_self (by rw [hdb]; rfl) p entry
    · exact Or.inl (MtpCtx.entry_putEntry_of_ne hq entry)
  refine ⟨rfl, ?_, ?_, ?_, ?_, fun q => ?_, fun q => ?_, hlook⟩
  · exact Option.isSome_map ..
  · rcases ctx.putEntry_eq p entry with heq | ⟨db, hdb, heq⟩
    · rw [heq]
    · rw [heq, MtpCtx.db, MtpCtx.db, hdb]
      rfl
  · rcases ctx.putEntry_eq p entry with heq | ⟨db, hdb, heq⟩
    · rw [heq]
    · rw [heq, MtpCtx.db, MtpCtx.db, hdb]
      rfl
  · rcases ctx.putEntry_eq p entry with heq | ⟨db, hdb, heq⟩
    · rw [heq]
    · rw [heq, MtpCtx.db, MtpCtx.db, hdb]
      rfl
  · rcases hentry q with heq | ⟨rfl, heq⟩
    · rw [heq]
    · rw [heq, hname]
  · rcases hentry q with heq | ⟨rfl, heq⟩
    · rw [heq]
    · rw [heq, hid]

-- The search moves its cursor only.
theorem sameNames_search {parent : Nat} {op : DbOp}
    (h : ∀ db, ∃ list handle storageId, op.step db = { db with
      searchEntry := list, handleSearch := handle, storageSearch := storageId }) :
    SameNames parent ctx (ctx.applyDb op) := by
  cases hdb : ctx.fsDb with
  | none =>
      have hsame : ctx.applyDb op = ctx := by
        rw [MtpCtx.applyDb, hdb, Option.map_none, ← hdb]
      rw [hsame]
      exact SameNames.refl ctx
  | some db =>
      obtain ⟨list, handle, storageId, hstep⟩ := h db
      have hnew : ctx.applyDb op = { ctx with fsDb := some { db with
          searchEntry := list, handleSearch := handle, storageSearch := storageId } } := by
        rw [MtpCtx.applyDb, hdb, Option.map_some, hstep]
      have hold : ctx.db = db := by rw [MtpCtx.db, hdb, Option.getD_some]
      rw [hnew]
      refine ⟨rfl, by rw [hdb]; rfl, ?_, ?_, ?_, fun q => ?_, fun q => ?_, fun handle _ => ?_⟩
      · rw [hold]; rfl
      · rw [hold]; rfl
      · rw [hold]; rfl
      · rw [MtpCtx.entry, MtpCtx.entry, hold]; rfl
      · rw [MtpCtx.entry, MtpCtx.entry, hold]; rfl
      · rw [MtpCtx.getEntryByHandle, MtpCtx.getEntryByHandle, hold]; rfl

-- A child of the folder, with its path.
structure ChildAt (ctx : MtpCtx) (root base : CString) (parent storageId : Nat) (p : EntryPtr) :
    Prop where
  listed : p ∈ ctx.db.entryList
  under : (ctx.entry p).parent = parent
  stored : (ctx.entry p).storageId = storageId
  above : parent < (ctx.entry p).handle
  isFileName : IsFileName (ctx.entry p).name
  path : root ++ ctx.relativePath p (ctx.entry p).name = base ++ SLASH :: (ctx.entry p).name

theorem ChildAt.later {parent storageId : Nat} (hc : ChildAt ctx root base parent storageId p)
    (h : SameNames parent ctx ctx') (ho : ctx.Ordered) (hrises : ctx.Rises) :
    ChildAt ctx' root base parent storageId p where
  listed := h.entryList ▸ hc.listed
  under := (h.parent_eq p).trans hc.under
  stored := (h.storageId_eq p).trans hc.stored
  above := by
    have hhandle : (ctx'.entry p).handle = (ctx.entry p).handle := congrArg (·.1) (h.identity p)
    rw [hhandle]
    exact hc.above
  isFileName := h.name p ▸ hc.isFileName
  path := by
    rw [h.name, h.relativePath ho hrises hc.listed hc.under.le]
    exact hc.path

-- The entry of a child that is found is put away, and the search goes on with the
-- others.
theorem unfound_putEntry {entry : FsEntry} (hno : p ∉ ctx.db.unfound)
    (hchild : ctx.db.isSearchedChild p = true) :
    (ctx.putEntry p entry).db.unfound = ctx.db.unfound := by
  rcases ctx.putEntry_eq p entry with heq | ⟨db, hdb, heq⟩
  · rw [heq]
  · have hold : ctx.db = db := by rw [MtpCtx.db, hdb, Option.getD_some]
    have hnew : (ctx.putEntry p entry).db = db.setEntry p entry := by
      rw [heq, MtpCtx.db, Option.getD_some]
    rw [hold] at hno hchild
    rw [hnew, hold, FsHandlesDb.unfound, FsHandlesDb.unfound]
    refine List.filter_congr fun q hq => ?_
    have hne : q ≠ p := by
      rintro rfl
      exact hno (List.mem_filter.mpr ⟨hq, hchild⟩)
    rw [FsHandlesDb.isSearchedChild, FsHandlesDb.isSearchedChild,
      FsHandlesDb.setEntry_pool_of_ne _ _ hne]
    rfl

-- Every child is visited once.
theorem exec_refreshChildren {start : MtpCtx} {parent storageId fuel : Nat}
    (ho : start.Ordered) (hrises : start.Rises) (hkeeps : os.Keeps base folder quiet)
    (hquiet : quiet w.os) (hbelow : root <+: base)
    (hroot : start.mtpGetStorageRoot storageId = some root)
    (hsession : start.fsDb.isSome = true) (hsame : SameNames parent start w.ctx)
    (hchildren : ∀ p ∈ w.ctx.db.unfound, ChildAt start root base parent storageId p)
    (hnodup : w.ctx.db.unfound.Nodup) (hfuel : w.ctx.db.unfound.length < fuel) :
    ∃ ctx' s, quiet s ∧ exec (World.handle os) (refreshChildren fuel) w = ((), ⟨ctx', s⟩) ∧
      SameNames parent start ctx' ∧ ctx'.usbCfg = w.ctx.usbCfg ∧
      ∀ q, ctx'.entry q =
        if q ∈ w.ctx.db.unfound then folder.refresh (w.ctx.entry q) else w.ctx.entry q := by
  induction fuel generalizing w with
  | zero => omega
  | succ fuel ih =>
      obtain ⟨hhead, htail, hentry, -⟩ := @handle_getNextChildHandle _ os w
      have hstep : ∀ f : Option EntryPtr → M Unit,
          exec (World.handle os) (M.db .getNextChildHandle >>= f) w =
            exec (World.handle os) (f (World.handle os (.db .getNextChildHandle) w).1)
              (World.handle os (.db .getNextChildHandle) w).2 := fun f => exec_bind _ _ f w
      have hsame' : SameNames parent w.ctx (World.handle os (.db .getNextChildHandle) w).2.ctx :=
        sameNames_search fun db => ⟨_, _, _, FsHandlesDb.getNextChildHandle_snd db⟩
      have hcfg : (World.handle os (.db .getNextChildHandle) w).2.ctx.usbCfg = w.ctx.usbCfg := rfl
      have hos : quiet (World.handle os (.db .getNextChildHandle) w).2.os := hquiet
      have hchild : ∀ q, (World.handle os (.db .getNextChildHandle) w).2.ctx.db.isSearchedChild q =
          w.ctx.db.isSearchedChild q := by
        intro q
        rcases w.ctx.applyDb_cases .getNextChildHandle with heq | heq
        · exact congrArg (·.isSearchedChild q) heq
        · have hstep' : DbOp.getNextChildHandle.step w.ctx.db = { w.ctx.db with
              searchEntry := w.ctx.db.getNextChildHandle.2.searchEntry } :=
            FsHandlesDb.getNextChildHandle_snd w.ctx.db
          exact congrArg (·.isSearchedChild q) (heq.trans hstep')
      rw [refreshChildren, hstep, hhead]
      generalize (World.handle os (.db .getNextChildHandle) w).2 = w' at *
      cases hunfound : w.ctx.db.unfound with
      | nil =>
          refine ⟨w'.ctx, w'.os, hos, rfl, hsame.trans hsame', hcfg, fun q => ?_⟩
          rw [if_neg List.not_mem_nil, hentry]
      | cons p rest =>
          rw [hunfound] at htail hfuel hchildren hnodup
          obtain ⟨hfresh, hrest⟩ := List.nodup_cons.mp hnodup
          rw [List.length_cons] at hfuel
          rw [List.tail_cons] at htail
          have hc := (hchildren p List.mem_cons_self).later (hsame.trans hsame') ho hrises
          have hroot' : w'.ctx.mtpGetStorageRoot (w'.ctx.entry p).storageId = some root := by
            rw [hc.stored, MtpCtx.root_eq_of_storages (hsame.trans hsame').storages, hroot]
          obtain ⟨s, hs, hexec⟩ := exec_refreshChild hkeeps hos
            ((hsame.trans hsame').session.trans hsession) hroot' hbelow hc.isFileName hc.path
          have hput : SameNames parent w'.ctx
              (w'.ctx.putEntry p (folder.refresh (w'.ctx.entry p))) :=
            sameNames_putEntry Folder.refresh_name Folder.refresh_identity hc.above
          have hsearched : w'.ctx.db.isSearchedChild p = true := by
            have hmem : p ∈ w.ctx.db.unfound := by rw [hunfound]; exact List.mem_cons_self
            rw [hchild]
            exact (List.mem_filter.mp hmem).2
          have hleft : (w'.ctx.putEntry p (folder.refresh (w'.ctx.entry p))).db.unfound = rest := by
            rw [unfound_putEntry (by rw [htail]; exact hfresh) hsearched, htail]
          obtain ⟨ctx', s', hs', hexec', hsame'', hcfg', hfinal⟩ :=
            @ih ⟨w'.ctx.putEntry p (folder.refresh (w'.ctx.entry p)), s⟩ hs
              ((hsame.trans hsame').trans hput)
              (by rw [hleft]; exact fun q hq => hchildren q (List.mem_cons_of_mem _ hq))
              (by rw [hleft]; exact hrest) (by rw [hleft]; omega)
          refine ⟨ctx', s', hs', ?_, hsame'', hcfg'.trans hcfg, fun q => ?_⟩
          · dsimp only [List.head?_cons]
            rw [bind_eq, exec_bind, hexec]
            exact hexec'
          · rw [hfinal, hleft]
            by_cases hq : q = p
            · subst hq
              rw [if_neg hfresh, if_pos List.mem_cons_self, MtpCtx.entry_putEntry_self
                ((hsame.trans hsame').session.trans hsession), hentry]
            · rw [MtpCtx.entry_putEntry_of_ne hq, hentry]
              simp only [List.mem_cons, hq, false_or]

end Children

-- A session whose lookups find every entry.
structure MtpCtx.Catalogued (ctx : MtpCtx) : Prop where
  session : ctx.fsDb.isSome = true
  ordered : ctx.Ordered
  recorded : ctx.Recorded
  rises : ctx.Rises
  indexed : Indexed ctx.db

-- The handle is the one of the roots or of an entry.
def MtpCtx.IsParent (ctx : MtpCtx) (parent : Nat) : Prop :=
  parent = 0 ∨ ∃ q ∈ ctx.db.entryList, (ctx.entry q).handle = parent

theorem MtpCtx.Catalogued.parent_lt {parent : Nat} (hcat : ctx.Catalogued)
    (hparent : ctx.IsParent parent) (hlen : ctx.db.entryList.length < UINT32_SIZE - 1) :
    parent < ctx.db.nextHandle := by
  obtain ⟨objects, hnumbered⟩ := hcat.recorded.numbered hlen
  have hnext := hnumbered.nextHandle
  rcases hparent with rfl | ⟨q, hq, rfl⟩
  · omega
  · exact (hcat.recorded.handle_lt hlen hq).1

section Additions

variable {folder : Folder} {showHidden : Bool} {parent storageId : Nat} {name : CString}
  {names : List CString}

-- The path below a parent that is there already.
theorem Registered.pathBelow_eq {fileinfo : FileFoundInfo} {result : Option EntryPtr}
    (ha : Registered ctx ctx' fileinfo parent storageId result) (hcat : ctx.Catalogued)
    (hparent : ctx.IsParent parent) (hlen : ctx.db.entryList.length < UINT32_SIZE - 1)
    (name : CString) : ctx'.pathBelow parent name = ctx.pathBelow parent name := by
  have hless := hcat.parent_lt hparent hlen
  rw [MtpCtx.pathBelow, MtpCtx.pathBelow, ha.getEntryByHandle hcat.ordered (by omega)]
  split
  · split
    · rename_i q hq
      have hlisted := (hcat.ordered.getEntryByHandle_live hq).1.1
      have hbelow := fun r hr => hcat.recorded.handle_lt hlen (p := r) hr
      rw [(ha.kept q hlisted).2, MtpCtx.relativePath_later hcat.ordered hcat.rises
        (fun r hr => (ha.kept r hr).2)
        (fun r hr handle hhandle =>
          ha.getEntryByHandle hcat.ordered (hhandle.trans (hbelow r hr).1).ne)
        (ha.grow hcat.ordered) hlisted (hbelow q hlisted).2]
    · rfl
  · rfl

-- What the names of a folder leave that are gone through so far.
structure Gathered (folder : Folder) (showHidden : Bool) (parent storageId : Nat)
    (names : List CString) (ctx ctx' : MtpCtx) : Prop where
  catalogued : ctx'.Catalogued
  storages : ctx'.storages = ctx.storages
  usbCfg : ctx'.usbCfg = ctx.usbCfg
  grow : ctx.db.entryList.length ≤ ctx'.db.entryList.length
  length : ctx'.db.entryList.length ≤ ctx.db.entryList.length + names.length
  kept : ∀ q ∈ ctx.db.entryList, q ∈ ctx'.db.entryList ∧ ctx'.entry q = ctx.entry q
  path : ∀ name, ctx'.pathBelow parent name = ctx.pathBelow parent name
  added : ∀ p ∈ ctx'.db.entryList, p ∉ ctx.db.entryList → ∃ name stat handle,
    name ∈ names ∧ folder.Shows showHidden name stat ∧ parent < handle ∧
      ctx'.entry p = FsHandlesDb.newEntry ⟨stat.isDir, name, stat.size⟩ handle parent storageId ∧
        ∀ q, ctx'.db.Live q → (ctx'.entry q).place = (name, parent, storageId) → q = p
  covers : ∀ name ∈ names, ∀ stat, folder.Shows showHidden name stat →
    ∃ p, ctx'.db.Live p ∧ (ctx'.entry p).place = (name, parent, storageId)

namespace Gathered

theorem unchanged (hcat : ctx.Catalogued) (hcovers : ∀ name ∈ names, ∀ stat,
    folder.Shows showHidden name stat →
      ∃ p, ctx.db.Live p ∧ (ctx.entry p).place = (name, parent, storageId)) :
    Gathered folder showHidden parent storageId names ctx ctx where
  catalogued := hcat
  storages := rfl
  usbCfg := rfl
  grow := le_refl _
  length := Nat.le_add_right _ _
  kept _ hq := ⟨hq, rfl⟩
  path _ := rfl
  added _ hp hno := absurd hp hno
  covers := hcovers

variable {ctx'' : MtpCtx}

theorem live (h : Gathered folder showHidden parent storageId names ctx ctx') {p : EntryPtr}
    (hp : ctx.db.Live p) : ctx'.db.Live p ∧ ctx'.entry p = ctx.entry p := by
  obtain ⟨hlisted, heq⟩ := h.kept p hp.1
  have hdel : (ctx'.entry p).isDeleted = false := by
    rw [heq]
    exact hp.2
  exact ⟨⟨hlisted, hdel⟩, heq⟩

theorem trans (h : Gathered folder showHidden parent storageId [name] ctx ctx')
    (h' : Gathered folder showHidden parent storageId names ctx' ctx'') :
    Gathered folder showHidden parent storageId (name :: names) ctx ctx'' where
  catalogued := h'.catalogued
  storages := h'.storages.trans h.storages
  usbCfg := h'.usbCfg.trans h.usbCfg
  grow := h.grow.trans h'.grow
  length := by
    have hlen := h.length
    have hlen' := h'.length
    rw [List.length_singleton] at hlen
    rw [List.length_cons]
    omega
  kept q hq := by
    obtain ⟨hmem, heq⟩ := h.kept q hq
    obtain ⟨hmem', heq'⟩ := h'.kept q hmem
    exact ⟨hmem', heq'.trans heq⟩
  path name := (h'.path name).trans (h.path name)
  added p hp hno := by
    by_cases hmid : p ∈ ctx'.db.entryList
    · obtain ⟨n, stat, handle, hn, hshows, hless, hentry, hunique⟩ := h.added p hmid hno
      have hlater := (h'.kept p hmid).2
      refine ⟨n, stat, handle, ?_, hshows, hless, hlater.trans hentry, fun q hq hplace => ?_⟩
      · exact List.mem_cons.mpr (Or.inl (List.mem_singleton.mp hn))
      · by_cases hqmid : q ∈ ctx'.db.entryList
        · have hqlater := (h'.kept q hqmid).2
          have hdel : (ctx'.entry q).isDeleted = false := by
            rw [← hqlater]
            exact hq.2
          exact hunique q ⟨hqmid, hdel⟩ (by rw [← hqlater]; exact hplace)
        · -- an entry that came later would have found this one
          obtain ⟨n', stat', handle', -, -, -, hentry', hunique'⟩ := h'.added q hq.1 hqmid
          have hsame : n' = n := by
            rw [hentry'] at hplace
            exact congrArg (·.1) hplace
          have hdel : (ctx'.entry p).isDeleted = false := by
            rw [hentry]
            exact isDeleted_newEntry _ _ _ _
          refine (hunique' p (h'.live ⟨hmid, hdel⟩).1 ?_).symm
          rw [hlater, hentry, hsame]
          rfl
    · obtain ⟨n, stat, handle, hn, hrest⟩ := h'.added p hp hmid
      exact ⟨n, stat, handle, List.mem_cons_of_mem _ hn, hrest⟩
  covers n hn stat hshows := by
    rcases List.mem_cons.mp hn with rfl | hn
    · obtain ⟨p, hp, hplace⟩ := h.covers n (List.mem_singleton_self n) stat hshows
      obtain ⟨hp', heq⟩ := h'.live hp
      exact ⟨p, hp', by rw [heq]; exact hplace⟩
    · exact h'.covers n hn stat hshows

end Gathered

-- A new entry of the folder.
theorem gathered_allocEntry {stat : Stat} (hcat : ctx.Catalogued) (hparent : ctx.IsParent parent)
    (hshows : folder.Shows showHidden name stat)
    (hsearch : ctx.db.findEntry name parent storageId = none)
    (hroom : ctx.db.entryList.length < NODE_CAPACITY_LIMIT) :
    Gathered folder showHidden parent storageId [name] ctx (ctx.applyDb
      (.allocEntry AllocMem.success ⟨stat.isDir, name, stat.size⟩ parent storageId)) := by
  have hlimit := node_capacity_limit_eq
  have hshort : ctx.db.entryList.length < UINT32_SIZE - 1 := by
    rw [UINT32_SIZE]
    omega
  have hless := hcat.parent_lt hparent hshort
  have hreg := @registered_applyDb ctx hcat.ordered ⟨stat.isDir, name, stat.size⟩ parent storageId
    hsearch AllocMem.success
  have hpath := hreg.pathBelow_eq hcat hparent hshort
  obtain ⟨db, hdb⟩ := Option.isSome_iff_exists.mp hcat.session
  have hold : ctx.db = db := by rw [MtpCtx.db, hdb, Option.getD_some]
  have hnew : (ctx.applyDb (.allocEntry AllocMem.success ⟨stat.isDir, name, stat.size⟩ parent
      storageId)).db = (DbOp.allocEntry AllocMem.success ⟨stat.isDir, name, stat.size⟩ parent
        storageId).step ctx.db := by
    rw [MtpCtx.applyDb, MtpCtx.db, MtpCtx.db, hdb]
    rfl
  have hsession : (ctx.applyDb (.allocEntry AllocMem.success ⟨stat.isDir, name, stat.size⟩ parent
      storageId)).fsDb.isSome = true := by
    rw [MtpCtx.applyDb, hdb]
    rfl
  have hcfg : (ctx.applyDb (.allocEntry AllocMem.success ⟨stat.isDir, name, stat.size⟩ parent
      storageId)).usbCfg = ctx.usbCfg := rfl
  have hrecorded := recorded_applyDb hcat.recorded
    (.allocEntry AllocMem.success ⟨stat.isDir, name, stat.size⟩ parent storageId)
  have hrises := hreg.rises hcat.ordered hcat.rises (Or.inr hless)
  rcases FsHandlesDb.allocEntry_cases hcat.ordered.slots AllocMem.success
    ⟨stat.isDir, name, stat.size⟩ parent storageId with ⟨p, db', heq, -, ha, -⟩ | ⟨db', heq, -⟩
  · have hlist : (ctx.applyDb (.allocEntry AllocMem.success ⟨stat.isDir, name, stat.size⟩ parent
        storageId)).db.entryList = p :: ctx.db.entryList := by
      rw [hnew, DbOp.step, DbOp.apply, heq, ha.entryList]
    have hentry : (ctx.applyDb (.allocEntry AllocMem.success ⟨stat.isDir, name, stat.size⟩ parent
        storageId)).entry p = FsHandlesDb.newEntry ⟨stat.isDir, name, stat.size⟩
          ctx.db.nextHandle parent storageId := by
      rw [MtpCtx.entry, hnew, DbOp.step, DbOp.apply, heq, ha.pool_self]
    have hindexed : Indexed (ctx.applyDb (.allocEntry AllocMem.success
        ⟨stat.isDir, name, stat.size⟩ parent storageId)).db := by
      have hfit : BucketsFit (ctx.applyDb (.allocEntry AllocMem.success
          ⟨stat.isDir, name, stat.size⟩ parent storageId)).db := by
        refine bucketsFit_of_length_le ?_
        rw [hlist, List.length_cons]
        omega
      rw [hnew] at hfit ⊢
      exact DbOp.indexed_step hcat.ordered.slots hcat.ordered.stored hcat.indexed _ trivial rfl hfit
    generalize ctx.applyDb (.allocEntry AllocMem.success ⟨stat.isDir, name, stat.size⟩ parent
      storageId) = ctx' at *
    have hlive : ctx'.db.Live p := by
      refine ⟨by rw [hlist]; exact List.mem_cons_self, ?_⟩
      have hdel : (ctx'.entry p).isDeleted = false := by
        rw [hentry]
        exact isDeleted_newEntry _ _ _ _
      exact hdel
    have hplace : (ctx'.entry p).place = (name, parent, storageId) := by
      rw [hentry]
      rfl
    refine ⟨⟨hsession, hreg.ordered, hrecorded, hrises, hindexed⟩, hreg.storages, hcfg,
      hreg.grow hcat.ordered, ?_, hreg.kept, hpath, fun q hq hno => ?_, fun n hn stat' _ => ?_⟩
    · rw [hlist, List.length_cons, List.length_singleton]
    · have hqp : q = p := by
        rw [hlist] at hq
        exact (List.mem_cons.mp hq).resolve_right hno
      subst hqp
      refine ⟨name, stat, _, List.mem_singleton_self _, hshows, hless, hentry, fun r hr hr' => ?_⟩
      by_contra hne
      -- another one would have been found
      have hmem : r ∈ ctx.db.entryList := by
        have hlisted := hr.1
        rw [hlist] at hlisted
        exact (List.mem_cons.mp hlisted).resolve_left hne
      have hsame := (hreg.kept r hmem).2
      have hdel : (ctx.entry r).isDeleted = false := by
        rw [← hsame]
        exact hr.2
      rw [hsame, FsEntry.place, Prod.mk.injEq, Prod.mk.injEq] at hr'
      exact (hcat.indexed.findEntry_eq_none name parent storageId).mp hsearch r ⟨hmem, hdel⟩ hr'
    · rw [List.mem_singleton.mp hn]
      exact ⟨p, hlive, hplace⟩
  · have hnone := congrArg Prod.fst heq
    rw [FsHandlesDb.allocEntry] at hnone
    obtain ⟨slot, hslot⟩ := Option.isSome_iff_exists.mp (takeSlot_success ctx.db)
    simp [AllocMem.success, hslot] at hnone

theorem MtpCtx.IsParent.later (h : ctx.IsParent parent)
    (hkept : ∀ q ∈ ctx.db.entryList, q ∈ ctx'.db.entryList ∧ ctx'.entry q = ctx.entry q) :
    ctx'.IsParent parent := by
  rcases h with hzero | ⟨q, hq, hhandle⟩
  · exact Or.inl hzero
  · exact Or.inr ⟨q, (hkept q hq).1, by rw [(hkept q hq).2]; exact hhandle⟩

variable {base : CString} {quiet : σ → Prop}

theorem gathered_addEntry {stat : Stat} (hkeeps : os.Keeps base folder quiet) (hquiet : quiet w.os)
    (hcat : w.ctx.Catalogued) (hparent : w.ctx.IsParent parent)
    (hshows : folder.Shows showHidden name stat)
    (hroom : w.ctx.db.entryList.length < NODE_CAPACITY_LIMIT) (storageId : Nat) :
    let w' := (exec (World.handle os) (addEntry ⟨stat.isDir, name, stat.size⟩ parent storageId) w).2
    quiet w'.os ∧ Gathered folder showHidden parent storageId [name] w.ctx w'.ctx := by
  rw [addEntry, exec_getCtx_bind]
  cases hsearch : w.ctx.db.searchEntryByInfo ⟨stat.isDir, name, stat.size⟩ parent storageId with
  | some p =>
      refine ⟨hquiet, Gathered.unchanged hcat fun n hn _ _ => ?_⟩
      obtain ⟨hlive, hname, hparent', hsid⟩ := hcat.ordered.stored.findEntry_live hsearch
      rw [List.mem_singleton.mp hn]
      exact ⟨p, hlive, Prod.ext hname (Prod.ext hparent' hsid)⟩
  | none =>
      obtain ⟨hmem, hquiet'⟩ := hkeeps.entryMemory w.os hquiet
      dsimp only
      rw [exec_act_bind, hmem]
      exact ⟨hquiet', gathered_allocEntry hcat hparent hshows hsearch hroom⟩

-- The info of a name in the folder.
theorem exec_fsEntryStat (hkeeps : os.Keeps base folder quiet) (hquiet : quiet w.os)
    (hbase : base ≠ []) (hname : IsFileName name)
    (hlen : name.length ≤ FS_HANDLE_MAX_FILENAME_SIZE) (fileinfo : FileFoundInfo) :
    exec (World.handle os) (fsEntryStat (base ++ SLASH :: name) fileinfo) w =
      (folder.info name fileinfo, w) := by
  rw [fsEntryStat, exec_query_bind, hkeeps.stat _ hquiet name hname, Folder.info]
  cases folder.stat name with
  | none => rfl
  | some stat =>
      dsimp only
      rw [lastComponent_append hbase hname.2.1, List.take_of_length_le hlen]
      rfl

-- The names "." and ".." are passed over.
theorem not_listed_dots (hbase : base ≠ []) (hname : name = DOT_NAME ∨ name = DOTDOT_NAME)
    (fileinfo : FileFoundInfo) (showHidden : Bool) :
    ∃ found, exec (World.handle os) (fsEntryStat (base ++ SLASH :: name) fileinfo) w = (found, w) ∧
      (found.1 = true → isListedName showHidden found.2.filename = false) := by
  have hslash : SLASH ∉ name := by
    rcases hname with rfl | rfl <;> decide
  have htake : name.take FS_HANDLE_MAX_FILENAME_SIZE = name := by
    rcases hname with rfl | rfl <;> rfl
  have hno : isListedName showHidden name = false := by
    rcases hname with rfl | rfl <;> cases showHidden <;> decide
  rw [fsEntryStat, exec_query_bind]
  cases os.query (.stat64 (base ++ SLASH :: name)) w.os with
  | none => exact ⟨_, rfl, fun h => absurd h Bool.false_ne_true⟩
  | some stat =>
      refine ⟨_, rfl, fun _ => ?_⟩
      dsimp only
      rw [lastComponent_append hbase hslash, htake]
      exact hno

-- All the names that are gone through.
theorem gathered_addFolderEntries (hkeeps : os.Keeps base folder quiet) (hquiet : quiet w.os)
    (hbase : base ≠ []) (hcat : w.ctx.Catalogued) (hparent : w.ctx.IsParent parent)
    (hnames : ∀ name ∈ names, name ∈ folder.names)
    (hroom : w.ctx.db.entryList.length + names.length ≤ NODE_CAPACITY_LIMIT) (storageId : Nat) :
    let w' := (exec (World.handle os) (addFolderEntries base parent storageId names) w).2
    quiet w'.os ∧
      Gathered folder w.ctx.usbCfg.showHiddenFiles parent storageId names w.ctx w'.ctx := by
  induction names generalizing w with
  | nil => exact ⟨hquiet, Gathered.unchanged hcat fun _ hn => absurd hn List.not_mem_nil⟩
  | cons name names ih =>
      rw [List.length_cons] at hroom
      obtain ⟨hmem, hquiet'⟩ := hkeeps.malloc w.os hquiet
      have hrest := fun n hn => hnames n (List.mem_cons_of_mem name hn)
      -- the first name leaves a state that the others go on from
      have hgo : ∀ w' : World σ, quiet w'.os →
          Gathered folder w.ctx.usbCfg.showHiddenFiles parent storageId [name] w.ctx w'.ctx →
          let w'' := (exec (World.handle os) (addFolderEntries base parent storageId names) w').2
          quiet w''.os ∧ Gathered folder w.ctx.usbCfg.showHiddenFiles parent storageId
            (name :: names) w.ctx w''.ctx := by
        intro w' hos hfirst
        have hlen := hfirst.length
        rw [List.length_singleton] at hlen
        obtain ⟨hos', hothers⟩ := ih hos hfirst.catalogued (hparent.later hfirst.kept) hrest
          (by omega)
        rw [hfirst.usbCfg] at hothers
        exact ⟨hos', hfirst.trans hothers⟩
      have hskip : (∀ stat, ¬ folder.Shows w.ctx.usbCfg.showHiddenFiles name stat) →
          Gathered folder w.ctx.usbCfg.showHiddenFiles parent storageId [name] w.ctx w.ctx := by
        intro hno
        refine Gathered.unchanged hcat fun n hn stat hshows => ?_
        rw [List.mem_singleton.mp hn] at hshows
        exact absurd hshows (hno stat)
      rw [addFolderEntries, exec_act_bind, hmem, if_pos rfl, bind_eq, exec_bind]
      by_cases hfile : IsFileName name ∧ name.length ≤ FS_HANDLE_MAX_FILENAME_SIZE
      · rw [exec_fsEntryStat hkeeps hquiet' hbase hfile.1 hfile.2, Folder.info]
        cases hstat : folder.stat name with
        | none =>
            refine hgo ⟨w.ctx, _⟩ hquiet' (hskip fun stat hshows => ?_)
            have hsome := hshows.2.2
            rw [hstat] at hsome
            cases hsome
        | some stat =>
            dsimp only
            rw [if_pos rfl, exec_getCtx_bind]
            by_cases hlisted : isListedName w.ctx.usbCfg.showHiddenFiles name = true
            · have hadd := gathered_addEntry (w := ⟨w.ctx, (os.act .malloc w.os).2⟩)
                hkeeps hquiet' hcat hparent ⟨hnames name List.mem_cons_self, hlisted, hstat⟩
                (show w.ctx.db.entryList.length < NODE_CAPACITY_LIMIT by omega) storageId
              rw [if_pos hlisted]
              simp only [bind_eq, exec_bind]
              exact hgo _ hadd.1 hadd.2
            · rw [if_neg hlisted]
              simp only [bind_eq, exec_bind]
              exact hgo ⟨w.ctx, _⟩ hquiet' (hskip fun _ hshows => hlisted hshows.2.1)
      · have hdots : name = DOT_NAME ∨ name = DOTDOT_NAME := by
          rcases hkeeps.names name (hnames name List.mem_cons_self) with h | h | h
          · exact Or.inl h
          · exact Or.inr h
          · exact absurd h hfile
        obtain ⟨found, hexec, hno⟩ := @not_listed_dots _ os ⟨w.ctx, (os.act .malloc w.os).2⟩ name
          base hbase hdots ⟨false, [], 0⟩ w.ctx.usbCfg.showHiddenFiles
        have hfirst : Gathered folder w.ctx.usbCfg.showHiddenFiles parent storageId [name] w.ctx
            w.ctx := by
          refine hskip fun stat hshows => ?_
          have hlisted := hshows.2.1
          rcases hdots with rfl | rfl <;> cases w.ctx.usbCfg.showHiddenFiles <;> cases hlisted
        rw [hexec]
        dsimp only
        by_cases hfound : found.1 = true
        · have hskipped : ¬ isListedName w.ctx.usbCfg.showHiddenFiles found.2.filename = true := by
            rw [hno hfound]
            exact Bool.false_ne_true
          rw [if_pos hfound, exec_getCtx_bind, if_neg hskipped]
          simp only [bind_eq, exec_bind]
          exact hgo ⟨w.ctx, _⟩ hquiet' hfirst
        · rw [if_neg hfound]
          exact hgo ⟨w.ctx, _⟩ hquiet' hfirst

end Additions

section Scan

variable {folder : Folder} {parent storageId : Nat} {root base : CString} {quiet : σ → Prop}
  {p : EntryPtr}

theorem MtpCtx.mem_childrenOf : p ∈ ctx.childrenOf parent storageId ↔
    ctx.db.Live p ∧ (ctx.entry p).parent = parent ∧ (ctx.entry p).storageId = storageId ∧
      (ctx.entry p).handle ≠ parent := by
  rw [childrenOf, List.mem_filter]
  simp only [Bool.and_eq_true, Bool.not_eq_true', beq_iff_eq, bne_iff_ne]
  constructor
  · rintro ⟨hp, ⟨⟨hdel, hparent⟩, hsid⟩, hne⟩
    exact ⟨⟨hp, hdel⟩, hparent, hsid, hparent ▸ hne⟩
  · rintro ⟨⟨hp, hdel⟩, hparent, hsid, hne⟩
    exact ⟨hp, ⟨⟨hdel, hparent⟩, hsid⟩, hparent.symm ▸ hne⟩

theorem MtpCtx.Catalogued.childAt (hcat : ctx.Catalogued)
    (hlen : ctx.db.entryList.length < UINT32_SIZE - 1)
    (hpath : ∀ name, root ++ ctx.pathBelow parent name = base ++ SLASH :: name)
    (hp : p ∈ ctx.childrenOf parent storageId) (hname : IsFileName (ctx.entry p).name) :
    ChildAt ctx root base parent storageId p := by
  obtain ⟨hlive, hunder, hsid, hne⟩ := mem_childrenOf.mp hp
  refine ⟨hlive.1, hunder, hsid, ?_, hname, ?_⟩
  · rcases hcat.rises p hlive.1 with hzero | hless <;> omega
  · rw [relativePath_pathBelow hcat.ordered hcat.rises hlive.1
      (hcat.recorded.handle_lt hlen hlive.1).2, hunder, hpath]

theorem Folder.Shows.isFileName {showHidden : Bool} {name : CString} {stat : Stat}
    (h : folder.Shows showHidden name stat) (hkeeps : os.Keeps base folder quiet) :
    IsFileName name := by
  have hlisted := h.2.1
  rcases hkeeps.names name h.1 with rfl | rfl | hname
  · cases showHidden <;> cases hlisted
  · cases showHidden <;> cases hlisted
  · exact hname.1

-- The children that were there are the same when the names are gone through.
theorem Gathered.mem_childrenOf {showHidden : Bool} {names : List CString}
    (hg : Gathered folder showHidden parent storageId names ctx ctx') (hp : p ∈ ctx.db.entryList) :
    p ∈ ctx'.childrenOf parent storageId ↔ p ∈ ctx.childrenOf parent storageId := by
  obtain ⟨hp', heq⟩ := hg.kept p hp
  have hdel : (ctx'.entry p).isDeleted = (ctx.entry p).isDeleted := congrArg (·.isDeleted) heq
  have hlive : ctx'.db.Live p ↔ ctx.db.Live p :=
    ⟨fun h => ⟨hp, hdel ▸ h.2⟩, fun h => ⟨hp', hdel.symm ▸ h.2⟩⟩
  rw [MtpCtx.mem_childrenOf, MtpCtx.mem_childrenOf, heq, hlive]

theorem Gathered.isFileName {showHidden : Bool} {names : List CString}
    (hg : Gathered folder showHidden parent storageId names ctx ctx')
    (hkeeps : os.Keeps base folder quiet)
    (hnames : ∀ p ∈ ctx.childrenOf parent storageId, IsFileName (ctx.entry p).name) :
    ∀ p ∈ ctx'.childrenOf parent storageId, IsFileName (ctx'.entry p).name := by
  intro p hp
  by_cases hold : p ∈ ctx.db.entryList
  · rw [(hg.kept p hold).2]
    exact hnames p ((hg.mem_childrenOf hold).mp hp)
  · obtain ⟨name, stat, handle, -, hshows, -, hentry, -⟩ :=
      hg.added p (MtpCtx.mem_childrenOf.mp hp).1.1 hold
    rw [hentry]
    exact hshows.isFileName hkeeps

-- The entries of the roots have the names they got.
def MtpCtx.RootsNamed (ctx : MtpCtx) : Prop :=
  ∀ p, ctx.db.Live p → (ctx.entry p).handle = 0 → (ctx.entry p).name = [SLASH]

-- The folder stands in the database under its path.
structure MtpCtx.Scannable (ctx : MtpCtx) (root base : CString) (parent storageId : Nat) :
    Prop where
  catalogued : ctx.Catalogued
  rootsNamed : ctx.RootsNamed
  isParent : ctx.IsParent parent
  stored : ctx.mtpGetStorageRoot storageId = some root
  based : base ≠ []
  path : ∀ name, root ++ ctx.pathBelow parent name = base ++ SLASH :: name
  names : ∀ p ∈ ctx.childrenOf parent storageId, IsFileName (ctx.entry p).name

-- A scan adds what is listed and goes through the children then.
theorem exec_scanAndAddFolder (hkeeps : os.Keeps base folder quiet) (hquiet : quiet w.os)
    (hscan : w.ctx.Scannable root base parent storageId)
    (hroom : w.ctx.db.entryList.length + folder.names.length ≤ NODE_CAPACITY_LIMIT) :
    ∃ ctx1, Gathered folder w.ctx.usbCfg.showHiddenFiles parent storageId folder.names w.ctx ctx1 ∧
      let w' := (exec (World.handle os) (scanAndAddFolder base parent storageId) w).2
      quiet w'.os ∧ SameNames parent ctx1 w'.ctx ∧ w'.ctx.usbCfg = w.ctx.usbCfg ∧
        ∀ q, w'.ctx.entry q = if q ∈ ctx1.childrenOf parent storageId then
          folder.refresh (ctx1.entry q) else ctx1.entry q := by
  have hlimit := node_capacity_limit_eq
  obtain ⟨hquiet1, hgathered⟩ := gathered_addFolderEntries hkeeps hquiet hscan.based
    hscan.catalogued hscan.isParent (fun _ hn => hn) hroom storageId
  rw [scanAndAddFolder, exec_query_bind, hkeeps.opendir w.os hquiet]
  simp only [bind_eq, exec_bind]
  generalize (exec (World.handle os) (addFolderEntries base parent storageId folder.names) w).2 = w1
    at hquiet1 hgathered ⊢
  refine ⟨w1.ctx, hgathered, ?_⟩
  have hcat1 := hgathered.catalogued
  have hlen1 := hgathered.length
  have hshort : w1.ctx.db.entryList.length < UINT32_SIZE - 1 := by
    rw [UINT32_SIZE]
    omega
  have hfileName := hgathered.isFileName hkeeps hscan.names
  obtain ⟨hunfound, -⟩ := @unfound_initSearchHandle _ os parent storageId w1
  have hsearch : SameNames parent w1.ctx
      (World.handle os (.db (.initSearchHandle parent storageId)) w1).2.ctx :=
    sameNames_search fun db => ⟨_, _, _, rfl⟩
  have hentry : (World.handle os (.db (.initSearchHandle parent storageId)) w1).2.ctx.entry =
      w1.ctx.entry := by
    rcases w1.ctx.applyDb_cases (.initSearchHandle parent storageId) with heq | heq
    · exact congrArg FsHandlesDb.pool heq
    · exact (congrArg FsHandlesDb.pool heq).trans rfl
  have hfuel : (w1.ctx.childrenOf parent storageId).length < w1.ctx.db.entryList.length + 1 :=
    Nat.lt_succ_of_le (List.length_filter_le ..)
  rw [← hunfound, ← hsearch.entryList] at hfuel
  have hnodup : (w1.ctx.childrenOf parent storageId).Nodup :=
    hcat1.ordered.slots.nodup.filter _
  have hchildren := fun p hp => hcat1.childAt hshort (fun name => by
    rw [hgathered.path]
    exact hscan.path name) hp (hfileName p hp)
  rw [← hunfound] at hnodup hchildren
  have hroot1 : w1.ctx.mtpGetStorageRoot storageId = some root := by
    rw [MtpCtx.root_eq_of_storages hgathered.storages, hscan.stored]
  obtain ⟨front, hfront⟩ := @MtpCtx.pathBelow_eq w.ctx parent []
  have hbelow : root <+: base := by
    have hpath' := hscan.path []
    rw [hfront, ← List.append_assoc] at hpath'
    rw [← List.append_cancel_right hpath']
    exact List.prefix_append _ _
  obtain ⟨ctx', s, hs, hexec, hsame, hcfg, hfinal⟩ := exec_refreshChildren
    (w := (World.handle os (.db (.initSearchHandle parent storageId)) w1).2) hcat1.ordered
    hcat1.rises hkeeps hquiet1 hbelow hroot1 hcat1.session hsearch hchildren hnodup hfuel
  have hend : (exec (World.handle os) (refreshChildren
      ((World.handle os (.db (.initSearchHandle parent storageId)) w1).2.ctx.db.entryList.length +
        1)) (World.handle os (.db (.initSearchHandle parent storageId)) w1).2).2 = ⟨ctx', s⟩ := by
    rw [hexec]
  refine ⟨?_, ?_, ?_, fun q => ?_⟩
  · exact (congrArg (fun w => quiet w.os) hend).mpr hs
  · exact (congrArg (fun w => SameNames parent w1.ctx w.ctx) hend).mpr hsame
  · exact (congrArg (fun w => w.ctx.usbCfg) hend).trans (hcfg.trans hgathered.usbCfg)
  · refine (congrArg (fun w => w.ctx.entry q) hend).trans ((hfinal q).trans ?_)
    rw [hunfound, hentry]

-- A scan neither renames an entry nor ends the session.
def Cmd.IsScan : Cmd → Prop
  | db (.renameEntry _ _ _) => False
  | initFsDb => False
  | dropFsDb => False
  | _ => True

theorem isScan_scansFolders : ScansFolders Cmd.IsScan where
  getCtx := trivial
  query _ := trivial
  malloc := trivial
  setfsuid _ := trivial
  setfsgid _ := trivial
  entryMemory := trivial
  allocEntry _ _ _ _ := trivial
  flagDeleted _ := trivial
  setSize _ _ := trivial
  setWatchDescriptor _ _ := trivial
  initSearchHandle _ _ := trivial
  getNextChildHandle := trivial
  addWatch _ := trivial
  rmWatch _ := trivial

theorem ordered_of_isScan {c : Cmd} (ho : w.ctx.Ordered) (hc : c.IsScan) :
    (World.handle os c w).2.ctx.Ordered := by
  cases c with
  | db op =>
      refine (Later.of_applyDb ho ?_).ordered
      cases op with
      | renameEntry mem p name => exact hc.elim
      | _ => trivial
  | flagDeleted site p => exact (@Later.of_applyDb _ ho (.setDeleted p) trivial).ordered
  | initFsDb => exact hc.elim
  | dropFsDb => exact hc.elim
  | _ => exact ⟨ho.slots, ho.stored⟩

theorem exec_scan_ordered (ho : w.ctx.Ordered) (hr : w.ctx.Recorded) (base : CString)
    (parent storageId : Nat) :
    let w' := (exec (World.handle os) (scanAndAddFolder base parent storageId) w).2
    w'.ctx.Ordered ∧ w'.ctx.Recorded := by
  have hsafe : Safe (World.handle os) (fun _ c => c.IsScan)
      (scanAndAddFolder base parent storageId) w :=
    uses_trace (isScan_scansFolders.scanAndAddFolder base parent storageId) _ w
  exact @exec_keeps _ _ _ _ (World.handle os) (fun _ c => c.IsScan)
    (fun w : World σ => w.ctx.Ordered ∧ w.ctx.Recorded)
    (fun w c hi hc => ⟨ordered_of_isScan hi.1 hc, recorded_step c hi.2⟩) _ w hsafe ⟨ho, hr⟩

theorem SameNames.catalogued (h : SameNames parent ctx ctx') (hcat : ctx.Catalogued)
    (ho : ctx'.Ordered) (hr : ctx'.Recorded) : ctx'.Catalogued where
  session := h.session.trans hcat.session
  ordered := ho
  recorded := hr
  rises p hp := by
    rw [h.entryList] at hp
    rw [h.parent_eq, show (ctx'.entry p).handle = (ctx.entry p).handle from
      congrArg (·.1) (h.identity p)]
    exact hcat.rises p hp
  indexed := hcat.indexed.keep h.entryList (fun q _ => h.name q)
    (fun q _ => congrArg (·.1) (h.identity q)) h.byName h.byHandle

theorem SameNames.pathBelow (h : SameNames parent ctx ctx') (hcat : ctx.Catalogued)
    (name : CString) : ctx'.pathBelow parent name = ctx.pathBelow parent name := by
  rw [MtpCtx.pathBelow, MtpCtx.pathBelow, h.look parent (le_refl parent)]
  by_cases hroot : parent ≠ 0 ∧ parent ≠ NO_HANDLE
  · rw [if_pos hroot, if_pos hroot]
    cases hq : ctx.getEntryByHandle parent with
    | none => rfl
    | some q =>
        obtain ⟨hlive, hhandle, -⟩ := hcat.ordered.getEntryByHandle_live hq
        have hle : (ctx.entry q).parent ≤ parent := by
          rcases hcat.rises q hlive.1 with hzero | hless <;> omega
        dsimp only
        rw [h.name, h.relativePath hcat.ordered hcat.rises hlive.1 hle]
  · rw [if_neg hroot, if_neg hroot]

-- The names that a scan lists.
def Folder.Shown (folder : Folder) (showHidden : Bool) (name : CString) : Prop :=
  ∃ stat, folder.Shows showHidden name stat

-- A child of that name is in the database.
def MtpCtx.HasChild (ctx : MtpCtx) (parent storageId : Nat) (name : CString) : Prop :=
  ∃ p ∈ ctx.childrenOf parent storageId, (ctx.entry p).name = name

-- No two children have the same name.
def MtpCtx.ChildrenApart (ctx : MtpCtx) (parent storageId : Nat) : Prop :=
  ∀ p ∈ ctx.childrenOf parent storageId, ∀ q ∈ ctx.childrenOf parent storageId,
    (ctx.entry p).name = (ctx.entry q).name → p = q

-- What a scan makes of the database.
structure Reconciled (folder : Folder) (parent storageId : Nat) (ctx ctx' : MtpCtx) : Prop where
  kept : ∀ q ∈ ctx.db.entryList, q ∈ ctx'.db.entryList ∧
    ctx'.entry q = if q ∈ ctx.childrenOf parent storageId then folder.refresh (ctx.entry q)
      else ctx.entry q
  added : ∀ q ∈ ctx'.db.entryList, q ∉ ctx.db.entryList → ∃ name stat handle,
    folder.Shows ctx.usbCfg.showHiddenFiles name stat ∧ ¬ ctx.HasChild parent storageId name ∧
      ctx'.entry q = FsHandlesDb.newEntry ⟨stat.isDir, name, stat.size⟩ handle parent storageId
  names : ∀ name, ctx'.HasChild parent storageId name ↔
    folder.Shown ctx.usbCfg.showHiddenFiles name ∨
      ∃ p ∈ ctx.childrenOf parent storageId, (ctx.entry p).name = name ∧
        folder.found name ≠ some none
  apart : ctx.ChildrenApart parent storageId → ctx'.ChildrenApart parent storageId

theorem Folder.found_of_stat {name : CString} {stat : Stat} (h : folder.stat name = some stat) :
    folder.found name = some (some stat) := by
  rw [Folder.found, h]

theorem Folder.refresh_newEntry {name : CString} {stat : Stat} (h : folder.stat name = some stat)
    (handle parent storageId : Nat) :
    folder.refresh (FsHandlesDb.newEntry ⟨stat.isDir, name, stat.size⟩ handle parent storageId) =
      FsHandlesDb.newEntry ⟨stat.isDir, name, stat.size⟩ handle parent storageId := by
  have hfound : folder.found (FsHandlesDb.newEntry ⟨stat.isDir, name, stat.size⟩ handle parent
      storageId).name = some (some stat) := Folder.found_of_stat h
  rw [Folder.refresh, hfound]
  rfl

theorem mem_childrenOf_refreshed {q : EntryPtr} (hsame : SameNames parent ctx ctx')
    (hentry : ∀ q, ctx'.entry q = if q ∈ ctx.childrenOf parent storageId then
      folder.refresh (ctx.entry q) else ctx.entry q) :
    q ∈ ctx'.childrenOf parent storageId ↔
      q ∈ ctx.childrenOf parent storageId ∧ folder.found (ctx.entry q).name ≠ some none := by
  have hhandle : (ctx'.entry q).handle = (ctx.entry q).handle := congrArg (·.1) (hsame.identity q)
  have hlive : ctx'.db.Live q ↔ q ∈ ctx.db.entryList ∧ (ctx'.entry q).isDeleted = false := by
    rw [← hsame.entryList]
    rfl
  rw [MtpCtx.mem_childrenOf, hlive, hsame.parent_eq, hsame.storageId_eq, hhandle]
  by_cases hq : q ∈ ctx.childrenOf parent storageId
  · have hmem := MtpCtx.mem_childrenOf.mp hq
    have hdel : (folder.refresh (ctx.entry q)).isDeleted = true ↔
        folder.found (ctx.entry q).name = some none := Folder.isDeleted_refresh hmem.1.2
    rw [hentry, if_pos hq, ← Bool.not_eq_true, hdel]
    constructor
    · rintro ⟨⟨-, hno⟩, -⟩
      exact ⟨hq, hno⟩
    · rintro ⟨-, hno⟩
      exact ⟨⟨hmem.1.1, hno⟩, hmem.2⟩
  · rw [hentry, if_neg hq]
    exact iff_of_false (fun h => hq (MtpCtx.mem_childrenOf.mpr ⟨⟨h.1.1, h.1.2⟩, h.2⟩))
      fun h => hq h.1

-- What the additions and the visits make together.
theorem Gathered.reconciled {ctx1 : MtpCtx} (hkeeps : os.Keeps base folder quiet)
    (hcat : ctx.Catalogued) (hroots : ctx.RootsNamed)
    (hg : Gathered folder ctx.usbCfg.showHiddenFiles parent storageId folder.names ctx ctx1)
    (hsame : SameNames parent ctx1 ctx')
    (hentry : ∀ q, ctx'.entry q = if q ∈ ctx1.childrenOf parent storageId then
      folder.refresh (ctx1.entry q) else ctx1.entry q) :
    Reconciled folder parent storageId ctx ctx' := by
  have hmem := fun q => @mem_childrenOf_refreshed ctx1 ctx' folder parent storageId q hsame hentry
  have hname : ∀ q, (ctx'.entry q).name = (ctx1.entry q).name := hsame.name
  have hnew : ∀ q ∈ ctx1.db.entryList, q ∉ ctx.db.entryList →
      ∀ r ∈ ctx1.childrenOf parent storageId, (ctx1.entry r).name = (ctx1.entry q).name →
        r = q := by
    intro q hq hno r hr hsameName
    obtain ⟨name, stat, handle, -, -, -, heq, hunique⟩ := hg.added q hq hno
    obtain ⟨hlive, hunder, hstored, -⟩ := MtpCtx.mem_childrenOf.mp hr
    refine hunique r hlive (Prod.ext ?_ (Prod.ext hunder hstored))
    rw [heq] at hsameName
    exact hsameName
  refine ⟨fun q hq => ?_, fun q hq hno => ?_, fun name => ⟨?_, ?_⟩, ?_⟩
  · obtain ⟨hq1, heq⟩ := hg.kept q hq
    refine ⟨hsame.entryList ▸ hq1, ?_⟩
    rw [hentry, heq]
    by_cases hchild : q ∈ ctx.childrenOf parent storageId
    · rw [if_pos hchild, if_pos ((hg.mem_childrenOf hq).mpr hchild)]
    · rw [if_neg hchild, if_neg fun h => hchild ((hg.mem_childrenOf hq).mp h)]
  · rw [hsame.entryList] at hq
    obtain ⟨name, stat, handle, -, hshows, -, heq, -⟩ := hg.added q hq hno
    refine ⟨name, stat, handle, hshows, ?_, ?_⟩
    · rintro ⟨r, hr, hr'⟩
      have hlisted := (MtpCtx.mem_childrenOf.mp hr).1.1
      have hrq := hnew q hq hno r ((hg.mem_childrenOf hlisted).mpr hr) (by
        rw [(hg.kept r hlisted).2, hr', heq]
        rfl)
      exact hno (hrq ▸ hlisted)
    · rw [hentry, heq, Folder.refresh_newEntry hshows.2.2, ite_self]
  · rintro ⟨q, hq, rfl⟩
    obtain ⟨hchild, hfound⟩ := (hmem q).mp hq
    rw [hname]
    by_cases hlisted : q ∈ ctx.db.entryList
    · have heq := (hg.kept q hlisted).2
      rw [heq] at hfound ⊢
      exact Or.inr ⟨q, (hg.mem_childrenOf hlisted).mp hchild, rfl, hfound⟩
    · obtain ⟨name, stat, handle, -, hshows, -, heq, -⟩ :=
        hg.added q (MtpCtx.mem_childrenOf.mp hchild).1.1 hlisted
      rw [heq]
      exact Or.inl ⟨stat, hshows⟩
  · rintro (⟨stat, hshows⟩ | ⟨q, hq, rfl, hfound⟩)
    · obtain ⟨q, hlive, hplace⟩ := hg.covers name hshows.1 stat hshows
      have hqname : (ctx1.entry q).name = name := congrArg (·.1) hplace
      have hqparent : (ctx1.entry q).parent = parent := congrArg (·.2.1) hplace
      have hne : (ctx1.entry q).handle ≠ parent := by
        intro hself
        by_cases hlisted : q ∈ ctx.db.entryList
        · -- only the entries of the roots are below themselves
          have heq := (hg.kept q hlisted).2
          rw [heq] at hself hqparent hqname
          have hzero : (ctx.entry q).handle = 0 := by
            rcases hcat.rises q hlisted with h | h <;> omega
          have hdel : (ctx.entry q).isDeleted = false := by
            rw [← heq]
            exact hlive.2
          have hslash := hroots q ⟨hlisted, hdel⟩ hzero
          have hfile := (hshows.isFileName hkeeps).2.1
          rw [← hqname, hslash] at hfile
          exact hfile List.mem_cons_self
        · obtain ⟨n, stat', handle, -, -, hless, heq, -⟩ := hg.added q hlive.1 hlisted
          rw [heq] at hself
          exact hless.ne' hself
      refine ⟨q, (hmem q).mpr ⟨?_, ?_⟩, (hname q).trans hqname⟩
      · exact MtpCtx.mem_childrenOf.mpr ⟨hlive, hqparent, congrArg (·.2.2) hplace, hne⟩
      · rw [hqname, Folder.found_of_stat hshows.2.2]
        simp
    · have hlisted := (MtpCtx.mem_childrenOf.mp hq).1.1
      have heq := (hg.kept q hlisted).2
      refine ⟨q, (hmem q).mpr ⟨(hg.mem_childrenOf hlisted).mpr hq, ?_⟩, ?_⟩
      · rw [heq]
        exact hfound
      · rw [hname, heq]
  · intro hapart q hq r hr hqr
    rw [hname, hname] at hqr
    have hq1 := ((hmem q).mp hq).1
    have hr1 := ((hmem r).mp hr).1
    have hqin := (MtpCtx.mem_childrenOf.mp hq1).1.1
    have hrin := (MtpCtx.mem_childrenOf.mp hr1).1.1
    by_cases hqold : q ∈ ctx.db.entryList
    · by_cases hrold : r ∈ ctx.db.entryList
      · rw [(hg.kept q hqold).2, (hg.kept r hrold).2] at hqr
        exact hapart q ((hg.mem_childrenOf hqold).mp hq1) r ((hg.mem_childrenOf hrold).mp hr1) hqr
      · exact hnew r hrin hrold q hq1 hqr
    · exact (hnew q hqin hqold r hr1 hqr.symm).symm

-- The folder can be scanned again.
theorem Gathered.scannable {ctx1 : MtpCtx} (hkeeps : os.Keeps base folder quiet)
    (hscan : ctx.Scannable root base parent storageId)
    (hg : Gathered folder ctx.usbCfg.showHiddenFiles parent storageId folder.names ctx ctx1)
    (hsame : SameNames parent ctx1 ctx') (ho : ctx'.Ordered) (hr : ctx'.Recorded)
    (hentry : ∀ q, ctx'.entry q = if q ∈ ctx1.childrenOf parent storageId then
      folder.refresh (ctx1.entry q) else ctx1.entry q) :
    ctx'.Scannable root base parent storageId where
  catalogued := hsame.catalogued hg.catalogued ho hr
  rootsNamed q hq hzero := by
    have hhandle : (ctx'.entry q).handle = (ctx1.entry q).handle :=
      congrArg (·.1) (hsame.identity q)
    have hlisted : q ∈ ctx1.db.entryList := hsame.entryList ▸ hq.1
    have hlive : (ctx1.entry q).isDeleted = false := by
      have hdel : (ctx'.entry q).isDeleted = false := hq.2
      by_cases hchild : q ∈ ctx1.childrenOf parent storageId
      · exact (MtpCtx.mem_childrenOf.mp hchild).1.2
      · rw [hentry, if_neg hchild] at hdel
        exact hdel
    rw [hhandle] at hzero
    rw [hsame.name]
    by_cases hold : q ∈ ctx.db.entryList
    · have heq := (hg.kept q hold).2
      rw [heq] at hzero hlive ⊢
      exact hscan.rootsNamed q ⟨hold, hlive⟩ hzero
    · obtain ⟨name, stat, handle, -, -, hless, heq, -⟩ := hg.added q hlisted hold
      rw [heq] at hzero
      have hpos : handle = 0 := hzero
      omega
  isParent := by
    rcases hscan.isParent.later hg.kept with hzero | ⟨q, hq, hhandle⟩
    · exact Or.inl hzero
    · refine Or.inr ⟨q, hsame.entryList ▸ hq, ?_⟩
      exact (congrArg (·.1) (hsame.identity q)).trans hhandle
  stored := by
    rw [MtpCtx.root_eq_of_storages hsame.storages, MtpCtx.root_eq_of_storages hg.storages,
      hscan.stored]
  based := hscan.based
  path name := by
    rw [hsame.pathBelow hg.catalogued, hg.path, hscan.path]
  names q hq := by
    rw [hsame.name]
    exact hg.isFileName hkeeps hscan.names q ((mem_childrenOf_refreshed hsame hentry).mp hq).1

theorem exec_scan_reconciled (hkeeps : os.Keeps base folder quiet) (hquiet : quiet w.os)
    (hscan : w.ctx.Scannable root base parent storageId)
    (hroom : w.ctx.db.entryList.length + folder.names.length ≤ NODE_CAPACITY_LIMIT) :
    let w' := (exec (World.handle os) (scanAndAddFolder base parent storageId) w).2
    quiet w'.os ∧ w'.ctx.Scannable root base parent storageId ∧ w'.ctx.usbCfg = w.ctx.usbCfg ∧
      w'.ctx.db.entryList.length ≤ w.ctx.db.entryList.length + folder.names.length ∧
        Reconciled folder parent storageId w.ctx w'.ctx := by
  obtain ⟨ctx1, hg, hquiet', hsame, hcfg, hentry⟩ :=
    exec_scanAndAddFolder hkeeps hquiet hscan hroom
  obtain ⟨ho, hr⟩ := @exec_scan_ordered _ os _ hscan.catalogued.ordered hscan.catalogued.recorded
    base parent storageId
  refine ⟨hquiet', hg.scannable hkeeps hscan hsame ho hr hentry, hcfg, ?_,
    hg.reconciled hkeeps hscan.catalogued hscan.rootsNamed hsame hentry⟩
  rw [hsame.entryList]
  exact hg.length

end Scan

section Samples

def GONE_NAME : CString := [0x67]

-- "/a" as a folder in memory.
def folderOfNodes (nodes : List (CString × Option (List UInt8))) : Folder :=
  let sys := { sampleSystem with nodes := nodes }
  ⟨(sys.names A_ROOT).getD [], fun name => sys.stat (A_ROOT ++ SLASH :: name)⟩

-- "g" goes, the file "f" gets shorter, and ".." and a hidden file come.
def nodesBefore : List (CString × Option (List UInt8)) :=
  [(A_ROOT, none), (A_ROOT ++ SLASH :: F_NAME, some [1, 2, 3]),
    (A_ROOT ++ SLASH :: GONE_NAME, some [4])]

def nodesAfter : List (CString × Option (List UInt8)) :=
  [(A_ROOT, none), (A_ROOT ++ SLASH :: F_NAME, some [1]), (A_ROOT ++ SLASH :: [DOT, DOT], none),
    (A_ROOT ++ SLASH :: [DOT, 0x67], some []), (A_ROOT ++ SLASH :: [0x68], none)]

theorem canonicalPath_child {name : CString} (hname : IsFileName name) :
    MemSystem.canonicalPath (A_ROOT ++ SLASH :: name) = A_ROOT ++ SLASH :: name := by
  have hparts : components SLASH (A_ROOT ++ SLASH :: name) = [[0x61], name] := by
    have hone := components_name hname.1 hname.2.1 [] (by simp)
    rw [List.append_nil] at hone
    rw [components_append_sep, hone]
    rfl
  rw [MemSystem.canonicalPath, hparts]
  simp [A_ROOT]

theorem memOs_keeps {nodes : List (CString × Option (List UInt8))}
    (hdir : ({ sampleSystem with nodes := nodes } : MemSystem).names A_ROOT ≠ none)
    (hself : (nodes.lookup A_ROOT).isSome = true)
    (hnames : ∀ name ∈ (folderOfNodes nodes).names, name = DOT_NAME ∨ name = DOTDOT_NAME ∨
      IsFileName name ∧ name.length ≤ FS_HANDLE_MAX_FILENAME_SIZE) :
    memOs.Keeps A_ROOT (folderOfNodes nodes) fun sys => sys.nodes = nodes where
  opendir sys h := by
    obtain ⟨names, heq⟩ := Option.ne_none_iff_exists'.mp hdir
    have hsys : sys.names A_ROOT = some names := by
      rw [← heq, MemSystem.names, MemSystem.names, MemSystem.node, MemSystem.node, h]
    have hfolder : (folderOfNodes nodes).names = names := by
      rw [folderOfNodes, heq]
      rfl
    rw [hfolder]
    exact hsys
  stat sys h name _ := by
    subst h
    rfl
  realpath sys h name hname := by
    subst h
    change (if (sys.node (MemSystem.canonicalPath (A_ROOT ++ SLASH :: name))).isSome then
      Except.ok (MemSystem.canonicalPath (A_ROOT ++ SLASH :: name)) else .error Errno.ENOENT) = _
    have hsome : ((folderOfNodes sys.nodes).stat name).isSome =
        (sys.node (A_ROOT ++ SLASH :: name)).isSome := Option.isSome_map ..
    rw [canonicalPath_child hname, hsome]
  realpathFolder sys h := by
    subst h
    exact if_pos hself
  names := hnames
  malloc sys h := ⟨rfl, h⟩
  entryMemory sys h := ⟨rfl, h⟩
  rmWatch sys wd h := h

theorem keeps_nodesBefore :
    memOs.Keeps A_ROOT (folderOfNodes nodesBefore) fun sys => sys.nodes = nodesBefore :=
  memOs_keeps (by decide) (by decide) (by decide)

theorem keeps_nodesAfter :
    memOs.Keeps A_ROOT (folderOfNodes nodesAfter) fun sys => sys.nodes = nodesAfter :=
  memOs_keeps (by decide) (by decide) (by decide)

def emptySession : World MemSystem :=
  ⟨{ startCtx (storagesOf [(A_ROOT, A_STORAGE, 0)]) with fsDb := some initFsDb },
    { sampleSystem with nodes := nodesBefore }⟩

theorem scannable_emptySession :
    emptySession.ctx.Scannable A_ROOT A_ROOT 0 FIRST_STORAGE_ID where
  catalogued := ⟨rfl, ⟨Slots.init, Stored.init⟩, ⟨[], rfl⟩, fun p hp => (by cases hp), Indexed.init⟩
  rootsNamed p hp := by cases hp.1
  isParent := Or.inl rfl
  stored := by decide
  based := by decide
  path name := rfl
  names p hp := by cases hp

-- The first scan, and the folder changes.
def scannedOnce : World MemSystem :=
  ⟨(exec (World.handle memOs) (scanAndAddFolder A_ROOT 0 FIRST_STORAGE_ID) emptySession).2.ctx,
    { sampleSystem with nodes := nodesAfter }⟩

end Samples

end Umtp
