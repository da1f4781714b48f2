import Umtp.Paths

namespace Umtp

open Lib Handles Text

-- fs_handles_db.c

-- What follows the last slash, the first character not being looked at.
def lastComponent (path : CString) : CString :=
  if path.tail.contains SLASH then
    (path.reverse.takeWhile (· ≠ SLASH)).reverse
  else
    path

-- The file info of a path that could not be read keeps its kind.
def fsEntryStat (path : CString) (fileinfo : FileFoundInfo) : M (Bool × FileFoundInfo) := do
  match ← M.query (.stat64 path) with
  | some stat =>
    return (true, ⟨stat.isDir, (lastComponent path).take FS_HANDLE_MAX_FILENAME_SIZE, stat.size⟩)
  | none => return (false, { fileinfo with filename := [], size := 0 })

def addEntry (fileinfo : FileFoundInfo) (parent storageId : Nat) : M (Option EntryPtr) := do
  let ctx ← M.getCtx
  match ctx.db.searchEntryByInfo fileinfo parent storageId with
  | some p => return some p
  | none =>
    let mem ← M.act .entryMemory
    M.db (.allocEntry mem fileinfo parent storageId)

def DOTDOT_NAME : CString := [DOT, DOT]
def DOT_NAME : CString := [DOT]

-- Hidden files are listed only on demand.
def isListedName (showHiddenFiles : Bool) (name : CString) : Bool :=
  name != DOTDOT_NAME && name != DOT_NAME && (showHiddenFiles || name.head? != some DOT)

-- The loops over `fs_find_first_file` and `fs_find_next_file`: the names whose
-- file can be read are visited. True when there was one.
def addFolderEntries (base : CString) (parent storageId : Nat) : List CString → M Bool
  | [] => return false
  | name :: names => do
    let memory ← M.act .malloc
    let found ← if memory then fsEntryStat (base ++ SLASH :: name) ⟨false, [], 0⟩
      else pure (false, ⟨false, [], 0⟩)
    if found.1 then
      let ctx ← M.getCtx
      if isListedName ctx.usbCfg.showHiddenFiles found.2.filename then
        let _ ← addEntry found.2 parent storageId
      let _ ← addFolderEntries base parent storageId names
      return true
    else
      addFolderEntries base parent storageId names

-- Flags a child whose file is gone, and updates the size of the others.
def refreshChild (p : EntryPtr) : M Unit := do
  match ← entryPath p with
  | some path =>
    match ← M.query (.stat64 path) with
    | some stat => M.db_ (.setSize p stat.size)
    | none =>
      M.flagDeleted .scanAndAddFolder p
      dropWatch p
  | none => return ()

-- The loop over `get_next_child_handle`. Each turn moves the cursor towards the
-- end of the list, so there are no more turns than entries.
def refreshChildren : Nat → M Unit
  | 0 => return ()
  | fuel + 1 => do
    match ← M.db .getNextChildHandle with
    | some p =>
      refreshChild p
      refreshChildren fuel
    | none => return ()

-- The number of turns a loop over the children takes at most.
def childFuel : M Nat := do
  let ctx ← M.getCtx
  return ctx.db.entryList.length + 1

-- `scan_and_add_folder`, true when it returns 0.
def scanAndAddFolder (base : CString) (parent storageId : Nat) : M Bool := do
  let dir ← match ← M.query (.opendir base) with
    | some names => addFolderEntries base parent storageId names
    | none => pure false
  M.db_ (.initSearchHandle parent storageId)
  let fuel ← childFuel
  refreshChildren fuel
  return dir

-- The entries of a folder that is removed: sub-folders by `removeTree`, other
-- files directly. True when something could not be removed.
def removeNames (removeTree : CString → M Bool) (storageId : Nat) (folder : CString) :
    List CString → M Bool
  | [] => return false
  | name :: names => do
    let memory ← M.act .malloc
    let fail ←
      if memory then
        match ← M.query (.lstat64 (folder ++ SLASH :: name)) with
        | some stat =>
          if stat.isDir then
            if name ≠ DOTDOT_NAME ∧ name ≠ DOT_NAME then removeTree (folder ++ SLASH :: name)
            else pure false
          else do
            let removed ← M.act (.remove storageId (folder ++ SLASH :: name))
            pure !removed
        | none => pure false
      else
        pure true
    let fail' ← removeNames removeTree storageId folder names
    return fail || fail'

-- `fs_remove_tree`, true when it returns 1. A path longer than PATH_MAX cannot
-- be opened, and each level adds two characters at least.
def fsRemoveTree (storageId : Nat) : Nat → CString → M Bool
  | 0, _ => return true
  | fuel + 1, folder => do
    match ← M.query (.opendir folder) with
    | some names =>
      let fail ← removeNames (fsRemoveTree storageId fuel) storageId folder names
      let removed ← M.act (.remove storageId folder)
      return fail || !removed
    | none => return true

def PATH_MAX : Nat := 4096

-- `deinit_fs_db`: the watch points of the entries in the name buckets are
-- removed and the file of the first entry of the list is closed.
def deinitFsDb : M Unit := do
  let ctx ← M.getCtx
  let entries := (List.finRange HASH_TABLE_SIZE).flatMap fun i => (ctx.db.hashTableByName i).entries
  let watched := entries.filter fun p => (ctx.entry p).watchDescriptor ≠ -1
  watched.foldr
    (fun p rest => do
      inotifyHandlerRmwatch (ctx.entry p).watchDescriptor
      rest)
    (pure ())
  entryClose ctx.db.entryList.head?

-- mtp_ops_helpers.c

def MAX_TREE_DEPTH : Nat := 64

-- Removes the file or, with everything in it, the folder of a child, and flags
-- its entry. True when the path cannot be built or the removal fails.
def removeChild (p : EntryPtr) (isDir : Bool) : M Bool := do
  let ctx ← M.getCtx
  let storageId := (ctx.entry p).storageId
  match ← entryPath p with
  | some path =>
    let failed ←
      if isDir then
        fsRemoveTree storageId PATH_MAX path
      else do
        let removed ← M.act (.remove storageId path)
        pure !removed
    if failed then
      return true
    else
      M.flagDeleted .deleteDbTree p
      return false
  | none => return true

-- The loop of `delete_db_tree` with the count of failures so far. `deleteSubTree`
-- is the recursive call on a sub-folder.
def deleteChildren (deleteSubTree : EntryPtr → M Nat) : Nat → Nat → M Nat
  | 0, fcnt => return fcnt
  | fuel + 1, fcnt => do
    match ← M.db .getNextChildHandle with
    | some p =>
      let ctx ← M.getCtx
      let fcnt ←
        if (ctx.entry p).isDeleted then
          pure fcnt
        else if (ctx.entry p).isDir then do
          let tmpFcnt ← deleteSubTree p
          let failed ← if tmpFcnt = 0 then removeChild p true else pure false
          pure (fcnt + failed.toNat + tmpFcnt)
        else do
          let failed ← removeChild p false
          pure (fcnt + failed.toNat)
      deleteChildren deleteSubTree fuel fcnt
    | none => return fcnt

-- `delete_db_tree` at depth `MAX_TREE_DEPTH - levels`.
def deleteDbTree : Nat → EntryPtr → M Nat
  | levels, p => do
    let ctx ← M.getCtx
    M.db_ (.initSearchHandle (ctx.entry p).handle (ctx.entry p).storageId)
    let fuel ← childFuel
    match levels with
    | 0 => deleteChildren (fun _ => pure 1) fuel 0
    | levels + 1 => deleteChildren (deleteDbTree levels) fuel 0

-- What `delete_tree` does with the entry it finds.
def deleteEntry (p : EntryPtr) : M Bool := do
  let ctx ← M.getCtx
  let storageId := (ctx.entry p).storageId
  match ← entryPath p with
  | some path =>
    let removed ←
      if (ctx.entry p).isDir then do
        let cnt ← deleteDbTree MAX_TREE_DEPTH p
        if cnt = 0 then do
          let failed ← fsRemoveTree storageId PATH_MAX path
          pure !failed
        else
          pure false
      else
        M.act (.remove storageId path)
    if removed then
      M.flagDeleted .deleteTree p
      dropWatch p
    return removed
  | none => return false

-- `delete_tree`, true when it returns 0.
def deleteTree (handle : Nat) : M Bool := do
  let ctx ← M.getCtx
  match ctx.getEntryByHandle handle with
  | some p => deleteEntry p
  | none => return false

end Umtp
