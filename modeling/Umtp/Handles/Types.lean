import Mathlib.Algebra.Group.Nat.Defs
import Umtp.Lib.Flags

namespace Umtp.Handles

-- A C string without its terminating NUL.
abbrev CString := List UInt8

def SLASH : UInt8 := 0x2F

def FS_HANDLE_MAX_FILENAME_SIZE : Nat := 256

def ENTRY_IS_DIR : BitVec 32 := 0x00000001#32
def ENTRY_IS_DELETED : BitVec 32 := 0x00000002#32

def HASH_TABLE_SIZE : Nat := 1024
def POOL_BLOCK_SIZE : Nat := 1024

-- Handles and storage ids are uint32_t.
def UINT32_SIZE : Nat := 2 ^ 32

-- The address of an entry: its pool block, counted from the oldest, and its
-- slot in that block.
structure EntryPtr where
  block : Nat
  index : Nat
deriving DecidableEq, Repr

structure FsEntry where
  handle : Nat
  parent : Nat
  storageId : Nat
  name : CString
  flags : BitVec 32
  size : Int
  fileDescriptor : Int
  watchDescriptor : Int
deriving DecidableEq, Repr

-- The entry a memset to zero leaves.
def FsEntry.zero : FsEntry :=
  ⟨0, 0, 0, [], 0#32, 0, 0, 0⟩

structure FileFoundInfo where
  isDirectory : Bool
  filename : CString
  size : Int
deriving DecidableEq, Repr

-- A bucket. `entries` is NULL as long as the capacity is 0.
structure HashNode where
  entries : List EntryPtr
  capacity : Nat
deriving DecidableEq, Repr

-- `entryList` is the chain of `next` pointers from `entry_list`, newest entry
-- first, and a cursor on it is the rest of the chain. `poolHead` is the number
-- of the newest block, 0 for NULL.
structure FsHandlesDb where
  entryList : List EntryPtr
  hashTableByName : Fin HASH_TABLE_SIZE → HashNode
  hashTableByHandle : Fin HASH_TABLE_SIZE → HashNode
  nextHandle : Nat
  searchEntry : List EntryPtr
  handleSearch : Nat
  storageSearch : Nat
  pool : EntryPtr → FsEntry
  poolHead : Nat
  poolFreeCount : Nat

def initFsDb : FsHandlesDb where
  entryList := []
  hashTableByName _ := ⟨[], 0⟩
  hashTableByHandle _ := ⟨[], 0⟩
  nextHandle := 1
  searchEntry := []
  handleSearch := 0
  storageSearch := 0
  pool _ := FsEntry.zero
  poolHead := 0
  poolFreeCount := 0

namespace FsEntry

def isDir (entry : FsEntry) : Bool :=
  Lib.hasFlag entry.flags ENTRY_IS_DIR

def isDeleted (entry : FsEntry) : Bool :=
  Lib.hasFlag entry.flags ENTRY_IS_DELETED

def setDeleted (entry : FsEntry) : FsEntry :=
  { entry with flags := Lib.raise entry.flags ENTRY_IS_DELETED }

@[simp] theorem isDeleted_setDeleted (entry : FsEntry) : entry.setDeleted.isDeleted = true :=
  Lib.hasFlag_raise_self _ _ (by decide)

@[simp] theorem isDir_setDeleted (entry : FsEntry) : entry.setDeleted.isDir = entry.isDir :=
  Lib.hasFlag_raise_of_disjoint _ (by decide)

end FsEntry

namespace FsHandlesDb

variable (db : FsHandlesDb)

-- The entry is in `entry_list` and not flagged as deleted.
def Live (p : EntryPtr) : Prop :=
  p ∈ db.entryList ∧ (db.pool p).isDeleted = false

instance (p : EntryPtr) : Decidable (db.Live p) :=
  inferInstanceAs (Decidable (_ ∧ _))

-- Writes a slot of the pool.
def setEntry (p : EntryPtr) (entry : FsEntry) : FsHandlesDb :=
  { db with pool := fun q => if q = p then entry else db.pool q }

@[simp] theorem setEntry_pool_self (p : EntryPtr) (entry : FsEntry) :
    (db.setEntry p entry).pool p = entry := by
  simp [setEntry]

theorem setEntry_pool_of_ne {p q : EntryPtr} (entry : FsEntry) (hne : q ≠ p) :
    (db.setEntry p entry).pool q = db.pool q := by
  simp [setEntry, hne]

-- What the entry that is written and the old one share, every slot keeps.
theorem setEntry_keeps_key {α : Type} (f : FsEntry → α) (p : EntryPtr)
    {entry : FsEntry} (hf : f entry = f (db.pool p)) (q : EntryPtr) :
    f ((db.setEntry p entry).pool q) = f (db.pool q) := by
  by_cases hq : q = p
  · subst hq
    rw [setEntry_pool_self, hf]
  · rw [setEntry_pool_of_ne _ _ hq]

@[simp] theorem setEntry_entryList (p : EntryPtr) (entry : FsEntry) :
    (db.setEntry p entry).entryList = db.entryList := rfl

end FsHandlesDb

end Umtp.Handles
