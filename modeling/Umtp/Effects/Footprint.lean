import Umtp.Daemon

namespace Umtp

open Lib Lib.Prog Handles

-- What a part of the daemon may touch: the paths it names, the storages it
-- changes files of, the entries it watches, renames and flags, the parents and
-- storages it adds objects to, and the folders it goes through.
structure Footprint where
  path : CString → Prop
  changes : Nat → Prop
  watches : EntryPtr → Prop
  renames : EntryPtr → Prop
  flags : Site → EntryPtr → Prop
  allocates : Nat → Nat → Prop
  searches : Nat → Nat → Prop

-- Everything under a folder.
def Footprint.Below (fp : Footprint) (folder : CString) : Prop :=
  ∀ rest, fp.path (folder ++ rest)

-- A path that was found, if one was, is in the scope with everything under it.
@[simp, grind =] def Footprint.Holds (fp : Footprint) : Option CString → Prop
  | some path => fp.Below path
  | none => True

-- The file a query is about. The free space of a storage is left out.
@[grind =] def Query.paths : Query → List CString
  | stat64 path => [path]
  | lstat64 path => [path]
  | opendir path => [path]
  | realpath path => [path]
  | statvfs _ | localtime _ | batteryLevel _ | usbBacklog => []

@[grind =] def Action.paths : Action → List CString
  | mkdir _ path => [path]
  | .open _ path _ => [path]
  | truncate64 _ path _ => [path]
  | rename _ path path2 => [path, path2]
  | remove _ path => [path]
  | inotifyAddWatch path => [path]
  | _ => []

-- The storage an action changes a file of.
@[grind =] def Action.changes : Action → Option Nat
  | mkdir storageId _ => some storageId
  | .open _ _ .readOnly => none
  | .open storageId _ _ => some storageId
  | truncate64 storageId _ _ => some storageId
  | rename storageId _ _ => some storageId
  | remove storageId _ => some storageId
  | write storageId _ _ => some storageId
  | _ => none

-- Actions on no file, or on a file that is open.
@[grind =] def Action.isPlain : Action → Bool
  | malloc | entryMemory | lseekSet _ _ | lseekEnd _ | read _ _ | fsync _ | close _
  | inotifyRmWatch _ | readUsb _ | writeUsb _ _ | getCancelReq | clearCancelReq | setfsuid _
  | setfsgid _ | lockInotifyMutex | unlockInotifyMutex | lockCancelMutex | unlockCancelMutex => true
  | _ => false

-- Commands that stay within a footprint. The storages and the session are left
-- alone.
def Cmd.Within (fp : Footprint) : Cmd → Prop
  | db (.allocEntry _ _ parent storageId) => fp.allocates parent storageId
  | db (.renameEntry _ p _) => fp.renames p
  | db (.setWatchDescriptor p wd) => wd = -1 ∨ fp.watches p
  | db (.initSearchHandle parent storageId) => fp.searches parent storageId
  | db (.allocRootEntry _ _) | db (.setDeleted _) => False
  | flagDeleted site p => fp.flags site p
  | initFsDb | dropFsDb | setSessionId _ | setStorage _ _ => False
  | query q => ∀ path ∈ q.paths, fp.path path
  | act a => (∀ path ∈ a.paths, fp.path path) ∧ ∀ id ∈ a.changes, fp.changes id
  | _ => True

variable {R : (c : Cmd) → c.Ans → Prop} {fp : Footprint} {α : Type}

-- What is known of the context may be used after it is read.
theorem runs_getCtx_bind {Q : α → Prop} {f : MtpCtx → M α}
    (hf : ∀ ctx, R .getCtx ctx → Runs R (Cmd.Within fp) Q (f ctx)) :
    Runs R (Cmd.Within fp) Q (M.getCtx >>= f) :=
  ⟨trivial, hf⟩

theorem uses_getCtx_bind {f : MtpCtx → M α}
    (hf : ∀ ctx, R .getCtx ctx → Uses R (Cmd.Within fp) (f ctx)) :
    Uses R (Cmd.Within fp) (M.getCtx >>= f) :=
  runs_getCtx_bind hf

theorem uses_query (q : Query) (hq : ∀ path ∈ q.paths, fp.path path) :
    Uses R (Cmd.Within fp) (M.query q) :=
  ⟨hq, fun _ _ => trivial⟩

theorem uses_act (a : Action) (ha : ∀ path ∈ a.paths, fp.path path)
    (hc : ∀ id ∈ a.changes, fp.changes id) :
    Uses R (Cmd.Within fp) (M.act a) :=
  ⟨⟨ha, hc⟩, fun _ _ => trivial⟩

theorem uses_plain (a : Action) (ha : a.isPlain = true) :
    Uses R (Cmd.Within fp) (M.act a) := by
  refine uses_act a ?_ ?_
  · cases a <;> simp_all [Action.isPlain, Action.paths]
  · cases a <;> simp_all [Action.isPlain, Action.changes]

theorem uses_plain_ (a : Action) (ha : a.isPlain = true) :
    Uses R (Cmd.Within fp) (M.act_ a) :=
  uses_bind (uses_plain a ha) fun _ => uses_pure ()

theorem uses_open {id : Nat} {path : CString} {flags : OpenFlags} (hpath : fp.Below path)
    (h : flags = .readOnly ∨ fp.changes id) :
    Uses R (Cmd.Within fp) (M.act (.open id path flags)) := by
  refine uses_act _ ?_ ?_
  · simpa [Action.paths] using hpath []
  · cases flags <;> simp_all [Action.changes]

theorem uses_setSize (p : EntryPtr) (size : Int) :
    Uses R (Cmd.Within fp) (M.db_ (.setSize p size)) :=
  uses_bind ⟨trivial, fun _ _ => trivial⟩ fun _ => uses_pure ()

theorem uses_setFileDescriptor (p : EntryPtr) (file : Int) :
    Uses R (Cmd.Within fp) (M.db_ (.setFileDescriptor p file)) :=
  uses_bind ⟨trivial, fun _ _ => trivial⟩ fun _ => uses_pure ()

theorem uses_setWatchDescriptor {p : EntryPtr} {wd : Int}
    (hw : wd = -1 ∨ fp.watches p) :
    Uses R (Cmd.Within fp) (M.db_ (.setWatchDescriptor p wd)) :=
  uses_bind ⟨hw, fun _ _ => trivial⟩ fun _ => uses_pure ()

attribute [grind ←] uses_getCtx_bind uses_query uses_plain uses_plain_
  uses_open uses_setSize uses_setFileDescriptor uses_setWatchDescriptor

-- mtp_helpers.c

theorem uses_setGiduid (uid gid : Int) : Uses R (Cmd.Within fp) (setGiduid uid gid) := by
  unfold setGiduid
  grind

attribute [grind ←] uses_setGiduid

theorem uses_restoreGiduid : Uses R (Cmd.Within fp) restoreGiduid := by
  unfold restoreGiduid
  grind

theorem uses_setStorageGiduid (storageId : Nat) :
    Uses R (Cmd.Within fp) (setStorageGiduid storageId) := by
  unfold setStorageGiduid
  grind

attribute [grind ←] uses_restoreGiduid uses_setStorageGiduid

-- fs_handles_db.c

-- The files of the entry are within the scope, and it may change them.
def Covers (R : (c : Cmd) → c.Ans → Prop) (fp : Footprint) (p : EntryPtr) : Prop :=
  ∀ ctx, R .getCtx ctx →
    fp.Below ((ctx.mtpGetStorageRoot (ctx.entry p).storageId).getD [])

def Owns (R : (c : Cmd) → c.Ans → Prop) (fp : Footprint) (p : EntryPtr) : Prop :=
  ∀ ctx, R .getCtx ctx → fp.changes (ctx.entry p).storageId

theorem Footprint.Below.append {folder : CString} (h : fp.Below folder) (rest : CString) :
    fp.Below (folder ++ rest) :=
  fun more => by rw [List.append_assoc]; exact h _

theorem Footprint.Below.self {folder : CString} (h : fp.Below folder) : fp.path folder := by
  simpa using h []

theorem checkRoot_holds {rootPath path : CString} (h : fp.Below rootPath) :
    fp.Holds (checkRoot rootPath path) := by
  rw [checkRoot]
  split
  · rename_i hunder
    obtain ⟨rest, rfl⟩ := List.isPrefixOf_iff_prefix.mp hunder
    exact h.append rest
  · trivial

-- The relative path ends with the name of the entry.
theorem relativePath_eq (ctx : MtpCtx) (p : EntryPtr) (name : CString) :
    ∃ front, ctx.relativePath p name = front ++ SLASH :: name := by
  have hhead : ∃ rest, ctx.climb ctx.db.entryList.length p = p :: rest := by
    cases ctx.db.entryList.length with
    | zero => exact ⟨[], rfl⟩
    | succ fuel =>
        rw [MtpCtx.climb]
        split
        · split
          · exact ⟨_, rfl⟩
          · exact ⟨[], rfl⟩
        · exact ⟨[], rfl⟩
  obtain ⟨rest, hrest⟩ := hhead
  rw [MtpCtx.relativePath, hrest]
  simp [List.flatMap_append]

theorem runs_resolveNewObject {rootPath relative name : CString} (h : fp.Below rootPath)
    (hname : name.length ≤ relative.length) :
    Runs R (Cmd.Within fp) fp.Holds (resolveNewObject rootPath (rootPath ++ relative) name) := by
  have hlen : (rootPath ++ relative).length - name.length =
      rootPath.length + (relative.length - name.length) := by
    rw [List.length_append]
    omega
  have htake : fp.path ((rootPath ++ relative).take
      ((rootPath ++ relative).length - name.length)) := by
    rw [hlen, List.take_length_add_append]
    exact h _
  unfold resolveNewObject
  refine runs_bind (uses_query _ (by simpa [Query.paths] using htake)) fun found _ => ?_
  split
  · refine runs_bind (uses_plain .malloc rfl) fun memory _ => ?_
    split
    · split
      · exact checkRoot_holds h
      · simp
    · simp
  · simp

variable {p : EntryPtr}

theorem runs_buildFullPathNamed {rootPath : Option CString} {name : CString}
    (h : fp.Below (rootPath.getD [])) :
    Runs R (Cmd.Within fp) fp.Holds (buildFullPathNamed rootPath p name) := by
  unfold buildFullPathNamed
  refine runs_getCtx_bind fun ctx _ => ?_
  refine runs_bind (uses_plain .malloc rfl) fun memory _ => ?_
  split
  · cases rootPath with
    | none => simpa [Footprint.Below] using h.append (ctx.relativePath p name)
    | some root =>
        refine runs_bind (uses_query _ (by simpa [Query.paths] using h _)) fun found _ => ?_
        split
        · exact checkRoot_holds h
        · obtain ⟨front, hfront⟩ := relativePath_eq ctx p name
          refine runs_resolveNewObject h ?_
          rw [hfront, List.length_append, List.length_cons]
          omega
        · simp
  · simp

theorem runs_buildFullPath {rootPath : Option CString} (h : fp.Below (rootPath.getD [])) :
    Runs R (Cmd.Within fp) fp.Holds (buildFullPath rootPath p) :=
  runs_getCtx_bind fun _ _ => runs_buildFullPathNamed h

theorem runs_entryPath (hc : Covers R fp p) : Runs R (Cmd.Within fp) fp.Holds (entryPath p) :=
  runs_getCtx_bind fun ctx hr => runs_buildFullPath (hc ctx hr)

theorem uses_entryPath_bind {f : Option CString → M α} (hc : Covers R fp p)
    (hf : ∀ found, fp.Holds found → Uses R (Cmd.Within fp) (f found)) :
    Uses R (Cmd.Within fp) (entryPath p >>= f) :=
  runs_bind (runs_entryPath hc) hf

attribute [grind ←] uses_entryPath_bind
attribute [grind →] Footprint.Below.self

theorem uses_entryOpen (hc : Covers R fp p) {flags : OpenFlags}
    (ho : flags = .readOnly ∨ Owns R fp p) : Uses R (Cmd.Within fp) (entryOpen p flags) := by
  unfold entryOpen
  refine uses_getCtx_bind fun ctx hr => ?_
  have hopen : flags = .readOnly ∨ fp.changes (ctx.entry p).storageId :=
    ho.imp id fun h => h ctx hr
  split
  · grind
  · refine uses_entryPath_bind hc fun found hfound => ?_
    split
    · refine uses_bind (uses_setStorageGiduid _) fun set => ?_
      grind
    · grind

theorem uses_entryRead (offset : Int) (size : Nat) :
    Uses R (Cmd.Within fp) (entryRead p offset size) := by
  unfold entryRead
  grind

theorem uses_entryClose (entry : Option EntryPtr) :
    Uses R (Cmd.Within fp) (entryClose entry) := by
  unfold entryClose
  grind

attribute [grind ←] uses_entryOpen uses_entryRead uses_entryClose

-- inotify.c

theorem uses_addwatch {path : CString} (h : fp.Below path) :
    Uses R (Cmd.Within fp) (inotifyHandlerAddwatch path) := by
  have hact : Uses R (Cmd.Within fp) (M.act (.inotifyAddWatch path)) :=
    uses_act _ (by simpa [Action.paths] using h.self) (by simp [Action.changes])
  unfold inotifyHandlerAddwatch
  grind

theorem uses_rmwatch (wd : Int) : Uses R (Cmd.Within fp) (inotifyHandlerRmwatch wd) := by
  unfold inotifyHandlerRmwatch
  grind

attribute [grind ←] uses_addwatch uses_rmwatch

theorem uses_dropWatch : Uses R (Cmd.Within fp) (dropWatch p) := by
  unfold dropWatch
  grind

attribute [grind ←] uses_dropWatch

end Umtp
