import Umtp.Handles.Hash

namespace Umtp.Handles

namespace FsHandlesDb

variable (db : FsHandlesDb)

-- The slot `&db->pool_head->entries[--db->pool_free_count]`, cleared, from a
-- new block when the head block is used up.
def takeSlot (memory : Bool) : Option (EntryPtr × FsHandlesDb) :=
  (if db.poolFreeCount = 0 then db.allocatePoolBlock memory else some db).map fun ready =>
    let p : EntryPtr := ⟨ready.poolHead, ready.poolFreeCount - 1⟩
    (p, { ready with poolFreeCount := ready.poolFreeCount - 1 }.setEntry p FsEntry.zero)

-- Puts an indexed entry at the head of `entry_list`.
def link (p : EntryPtr) : FsHandlesDb :=
  { db with entryList := p :: db.entryList }

def newEntry (fileinfo : FileFoundInfo) (handle parent storageId : Nat) : FsEntry where
  handle := handle
  parent := parent
  storageId := storageId
  name := fileinfo.filename
  flags := if fileinfo.isDirectory then ENTRY_IS_DIR else 0#32
  size := fileinfo.size
  fileDescriptor := 0
  watchDescriptor := -1

def newRootEntry (storageId : Nat) : FsEntry where
  handle := 0
  parent := 0
  storageId := storageId
  name := [SLASH]
  flags := ENTRY_IS_DIR
  size := 1
  fileDescriptor := 0
  watchDescriptor := -1

def allocEntry (mem : AllocMem) (fileinfo : FileFoundInfo) (parent storageId : Nat) :
    Option EntryPtr × FsHandlesDb :=
  match db.takeSlot mem.poolBlock with
  | none => (none, db)
  | some (p, taken) =>
    if mem.strdup then
      let entry := newEntry fileinfo taken.nextHandle parent storageId
      let counted := { taken with nextHandle := (taken.nextHandle + 1) % UINT32_SIZE }
      (some p, ((counted.setEntry p entry).insertEntry mem p).link p)
    else
      -- The slot and the handle are given back.
      (none, { taken with poolFreeCount := taken.poolFreeCount + 1 })

def allocRootEntry (mem : AllocMem) (storageId : Nat) : Option EntryPtr × FsHandlesDb :=
  match db.takeSlot mem.poolBlock with
  | none => (none, db)
  | some (p, taken) =>
    if mem.strdup then
      (some p, ((taken.setEntry p (newRootEntry storageId)).insertEntry mem p).link p)
    else
      -- The slot is not given back.
      (none, taken.setEntry p { FsEntry.zero with storageId := storageId })

-- `search_entry` is `find_entry` on the name of the file info.
def searchEntryByInfo (fileinfo : FileFoundInfo) (parent storageId : Nat) : Option EntryPtr :=
  db.findEntry fileinfo.filename parent storageId

def addEntry (mem : AllocMem) (fileinfo : FileFoundInfo) (parent storageId : Nat) :
    Option EntryPtr × FsHandlesDb :=
  match db.searchEntryByInfo fileinfo parent storageId with
  | some p => (some p, db)
  | none => db.allocEntry mem fileinfo parent storageId

-- The renaming step of `setObjectPropValue`.
def renameEntry (mem : AllocMem) (p : EntryPtr) (name : CString) : FsHandlesDb :=
  let removed := db.removeEntry p
  (removed.setEntry p { removed.pool p with name := name }).insertEntry mem p

def initSearchHandle (parent storageId : Nat) : FsHandlesDb :=
  { db with
    searchEntry := db.entryList
    handleSearch := parent
    storageSearch := storageId }

def isSearchedChild (p : EntryPtr) : Bool :=
  !(db.pool p).isDeleted && (db.pool p).parent == db.handleSearch &&
    (db.pool p).storageId == db.storageSearch && (db.pool p).handle != (db.pool p).parent

def getNextChildHandle : Option EntryPtr × FsHandlesDb :=
  match db.searchEntry.dropWhile fun p => !db.isSearchedChild p with
  | [] => (none, { db with searchEntry := [] })
  | p :: next => (some p, { db with searchEntry := next })

-- `storageRoot` is the `mtp_get_storage_root` of the context.
def getEntryByHandle (storageRoot : Nat → Option CString) (handle : Nat) : Option EntryPtr :=
  (db.hashTableByHandle (bucketOfHandle handle)).entries.find? fun p =>
    !(db.pool p).isDeleted && (db.pool p).handle == handle &&
      (storageRoot (db.pool p).storageId).isSome

def getEntryByHandleAndStorageid (handle storageId : Nat) : Option EntryPtr :=
  db.entryList.find? fun p =>
    !(db.pool p).isDeleted && (db.pool p).handle == handle && (db.pool p).storageId == storageId

-- The walks of `get_entry_by_wd` and `get_entry_by_storageid` start at an entry
-- of the list, or at its head for NULL, and stop at the entry they find.
def walkFrom (start : List EntryPtr) (wanted : FsEntry → Bool) : List EntryPtr :=
  (if start = [] then db.entryList else start).dropWhile fun p =>
    !(!(db.pool p).isDeleted && wanted (db.pool p))

def getEntryByWd (watchDescriptor : Int) (start : List EntryPtr) : List EntryPtr :=
  db.walkFrom start fun entry => entry.watchDescriptor == watchDescriptor

def getEntryByStorageid (storageId : Nat) (start : List EntryPtr) : List EntryPtr :=
  db.walkFrom start fun entry => entry.storageId == storageId

end FsHandlesDb

-- What the daemon does to the database, one access at a time.
inductive DbOp where
  | allocEntry (mem : AllocMem) (fileinfo : FileFoundInfo) (parent storageId : Nat)
  | allocRootEntry (mem : AllocMem) (storageId : Nat)
  | renameEntry (mem : AllocMem) (p : EntryPtr) (name : CString)
  | setDeleted (p : EntryPtr)
  | setSize (p : EntryPtr) (size : Int)
  | setFileDescriptor (p : EntryPtr) (fileDescriptor : Int)
  | setWatchDescriptor (p : EntryPtr) (watchDescriptor : Int)
  | initSearchHandle (parent storageId : Nat)
  | getNextChildHandle
deriving DecidableEq, Repr

namespace DbOp

-- The entry the operation returns, if it returns one, and the database after it.
def apply (db : FsHandlesDb) : DbOp → Option EntryPtr × FsHandlesDb
  | allocEntry mem fileinfo parent storageId => db.allocEntry mem fileinfo parent storageId
  | allocRootEntry mem storageId => db.allocRootEntry mem storageId
  | renameEntry mem p name => (none, db.renameEntry mem p name)
  | setDeleted p => (none, db.setEntry p (db.pool p).setDeleted)
  | setSize p size => (none, db.setEntry p { db.pool p with size := size })
  | setFileDescriptor p fileDescriptor =>
    (none, db.setEntry p { db.pool p with fileDescriptor := fileDescriptor })
  | setWatchDescriptor p watchDescriptor =>
    (none, db.setEntry p { db.pool p with watchDescriptor := watchDescriptor })
  | initSearchHandle parent storageId => (none, db.initSearchHandle parent storageId)
  | getNextChildHandle => db.getNextChildHandle

-- Only listed entries are renamed: a lookup gave the caller their pointers. The
-- other operations are harmless on any slot.
def Enabled (db : FsHandlesDb) : DbOp → Prop
  | renameEntry _ p _ => p ∈ db.entryList
  | _ => True

instance decidableEnabled (db : FsHandlesDb) : (op : DbOp) → Decidable (op.Enabled db)
  | renameEntry _ p _ => inferInstanceAs (Decidable (p ∈ db.entryList))
  | allocEntry _ _ _ _ => isTrue trivial
  | allocRootEntry _ _ => isTrue trivial
  | setDeleted _ => isTrue trivial
  | setSize _ _ => isTrue trivial
  | setFileDescriptor _ _ => isTrue trivial
  | setWatchDescriptor _ _ => isTrue trivial
  | initSearchHandle _ _ => isTrue trivial
  | getNextChildHandle => isTrue trivial

def step (db : FsHandlesDb) (op : DbOp) : FsHandlesDb :=
  (op.apply db).2

end DbOp

end Umtp.Handles
