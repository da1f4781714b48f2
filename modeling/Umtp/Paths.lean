import Umtp.Ctx

namespace Umtp

open Lib Handles Text

-- mtp_helpers.c

-- `set_giduid`, true when it returns 0. setfsuid and setfsgid answer the
-- previous identity.
def setGiduid (uid gid : Int) : M Bool := do
  let ret ← if 0 ≤ uid then M.act (.setfsuid uid) else pure 0
  let ret' ← if 0 ≤ gid then M.act (.setfsgid gid) else pure 0
  return ret == 0 && ret' == 0

def restoreGiduid : M Unit := do
  let ctx ← M.getCtx
  let _ ← setGiduid ctx.uid ctx.gid
  return ()

def setStorageGiduid (storageId : Nat) : M Bool := do
  let ctx ← M.getCtx
  match ctx.mtpGetStorageIndexById storageId with
  | some i =>
    let storage := ctx.storages i
    let uid := if storage.uid ≠ -1 then storage.uid else ctx.defaultUid
    let gid := if storage.gid ≠ -1 then storage.uid else ctx.defaultGid
    setGiduid uid gid
  | none => return false

-- fs_handles_db.c

namespace MtpCtx

variable (ctx : MtpCtx)

-- The entry and the entries above it, as far as they are found.
def climb : Nat → EntryPtr → List EntryPtr
  | 0, p => [p]
  | fuel + 1, p =>
    let parent := (ctx.entry p).parent
    if parent ≠ 0 ∧ parent ≠ NO_HANDLE then
      match ctx.getEntryByHandle parent with
      | some q => p :: climb fuel q
      | none => [p]
    else
      [p]

-- Each entry adds a slash and its name. `name` stands for the name of `p`.
def relativePath (p : EntryPtr) (name : CString) : CString :=
  (ctx.climb ctx.db.entryList.length p).reverse.flatMap fun q =>
    SLASH :: if q = p then name else (ctx.entry q).name

end MtpCtx

-- A resolved path outside the storage root is refused.
def checkRoot (rootPath path : CString) : Option CString :=
  if rootPath.isPrefixOf path then some path else none

-- The final object probably does not exist yet: the parent folder is resolved
-- and the sanitized name put after it.
def resolveNewObject (rootPath fullPath name : CString) : M (Option CString) := do
  match ← M.query (.realpath (fullPath.take (fullPath.length - name.length))) with
  | .ok parentPath =>
    let memory ← M.act .malloc
    if memory then
      match sanitizeName name name.length with
      | some sanitized => return checkRoot rootPath (parentPath ++ SLASH :: sanitized)
      | none => return none
    else
      return none
  | .error _ => return none

-- `build_full_path` for an entry that has `name` as its name.
def buildFullPathNamed (rootPath : Option CString) (p : EntryPtr) (name : CString) :
    M (Option CString) := do
  let ctx ← M.getCtx
  let memory ← M.act .malloc
  if memory then
    let relative := ctx.relativePath p name
    match rootPath with
    | some root =>
      match ← M.query (.realpath (root ++ relative)) with
      | .ok path => return checkRoot root path
      | .error .ENOENT => resolveNewObject root (root ++ relative) name
      | .error _ => return none
    | none => return some relative
  else
    return none

def buildFullPath (rootPath : Option CString) (p : EntryPtr) : M (Option CString) := do
  let ctx ← M.getCtx
  buildFullPathNamed rootPath p (ctx.entry p).name

-- The path of an entry under the root of its storage.
def entryPath (p : EntryPtr) : M (Option CString) := do
  let ctx ← M.getCtx
  buildFullPath (ctx.mtpGetStorageRoot (ctx.entry p).storageId) p

def entryOpen (p : EntryPtr) (flags : OpenFlags) : M Int := do
  let ctx ← M.getCtx
  if 0 < (ctx.entry p).fileDescriptor then
    return (ctx.entry p).fileDescriptor
  else
    match ← entryPath p with
    | some path =>
      if ← setStorageGiduid (ctx.entry p).storageId then
        let file ← M.act (.open (ctx.entry p).storageId path flags)
        M.db_ (.setFileDescriptor p file)
      restoreGiduid
    | none => pure ()
    let ctx ← M.getCtx
    return (ctx.entry p).fileDescriptor

-- The bytes read, `none` for an error.
def entryRead (p : EntryPtr) (offset : Int) (size : Nat) : M (Option (List UInt8)) := do
  let ctx ← M.getCtx
  let file := (ctx.entry p).fileDescriptor
  if file ≠ -1 then
    M.act (.lseekSet file offset)
    M.act (.read file size)
  else
    return some []

def entryClose (entry : Option EntryPtr) : M Unit := do
  match entry with
  | some p =>
    let ctx ← M.getCtx
    let file := (ctx.entry p).fileDescriptor
    if file ≠ -1 then
      if ctx.syncWhenClose then
        M.act (.fsync file)
      M.act (.close file)
    M.db_ (.setFileDescriptor p (-1))
  | none => return ()

-- inotify.c

def inotifyHandlerAddwatch (path : CString) : M Int := do
  let ctx ← M.getCtx
  if ctx.inotifyFd ≠ -1 ∧ ctx.noInotify = false then
    M.act (.inotifyAddWatch path)
  else
    return -1

def inotifyHandlerRmwatch (watchDescriptor : Int) : M Unit := do
  let ctx ← M.getCtx
  if ctx.inotifyFd ≠ -1 ∧ watchDescriptor ≠ -1 then
    M.act (.inotifyRmWatch watchDescriptor)

-- What every place that flags an entry as deleted does with its watch point.
def dropWatch (p : EntryPtr) : M Unit := do
  let ctx ← M.getCtx
  if (ctx.entry p).watchDescriptor ≠ -1 then
    inotifyHandlerRmwatch (ctx.entry p).watchDescriptor
    M.db_ (.setWatchDescriptor p (-1))

end Umtp
