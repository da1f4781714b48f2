import Mathlib.Data.Nat.ModEq
import Umtp.Handles.Types

namespace Umtp.Handles

open FsHandlesDb

def INITIAL_NODE_CAPACITY : Nat := 4
def NODE_GROWTH_FACTOR : Nat := 2

-- sizeof(fs_entry*) on a 64-bit target.
def SIZEOF_ENTRY_PTR : Nat := 8

-- A bucket of this capacity is never expanded.
def NODE_CAPACITY_LIMIT : Nat := 0x80000000 / SIZEOF_ENTRY_PTR

-- `expand_hash_node`, with the outcome of the realloc.
def HashNode.expand (node : HashNode) (memory : Bool) : Option HashNode :=
  if NODE_CAPACITY_LIMIT ≤ node.capacity then
    none
  else if memory then
    some { node with capacity := node.capacity * NODE_GROWTH_FACTOR }
  else
    none

-- `init_hash_node`, with the outcome of the malloc.
def HashNode.init (node : HashNode) (memory : Bool) : Option HashNode :=
  if node.capacity = 0 then
    if memory then some ⟨[], INITIAL_NODE_CAPACITY⟩ else none
  else
    some node

-- One allocation at most is made, since a new bucket has room.
def HashNode.insertEntryGeneric (node : HashNode) (entry : EntryPtr) (memory : Bool) : HashNode :=
  match node.init memory with
  | none => node
  | some ready =>
    if ready.capacity ≤ ready.entries.length then
      match ready.expand memory with
      | none => ready
      | some larger => { larger with entries := larger.entries ++ [entry] }
    else
      { ready with entries := ready.entries ++ [entry] }

def HashNode.removeEntryGeneric (node : HashNode) (entry : EntryPtr) : HashNode :=
  { node with entries := node.entries.erase entry }

-- The value a (signed) char adds to a uint32_t.
def charValue (c : UInt8) : Nat :=
  if c.toNat < 128 then c.toNat else c.toNat + (UINT32_SIZE - 256)

-- hash * 33 + c
def hashFunctionName (name : CString) : Nat :=
  name.foldl (fun hash c => (hash * 2 ^ 5 + hash + charValue c) % UINT32_SIZE) 5381 %
    HASH_TABLE_SIZE

def hashFunctionHandle (handle : Nat) : Nat :=
  handle % HASH_TABLE_SIZE

theorem hash_table_size_pos : 0 < HASH_TABLE_SIZE := by decide

-- The buckets of a name and of a handle.
def bucketOfName (name : CString) : Fin HASH_TABLE_SIZE :=
  ⟨hashFunctionName name % HASH_TABLE_SIZE, Nat.mod_lt _ hash_table_size_pos⟩

def bucketOfHandle (handle : Nat) : Fin HASH_TABLE_SIZE :=
  ⟨hashFunctionHandle handle % HASH_TABLE_SIZE, Nat.mod_lt _ hash_table_size_pos⟩

-- The outcomes of the allocations made while an entry is created or indexed.
structure AllocMem where
  poolBlock : Bool
  strdup : Bool
  nodeHandle : Bool
  nodeName : Bool
deriving DecidableEq, Repr

def AllocMem.success : AllocMem := ⟨true, true, true, true⟩

namespace FsHandlesDb

variable (db : FsHandlesDb)

def insertEntry (mem : AllocMem) (p : EntryPtr) : FsHandlesDb :=
  let indexName := bucketOfName (db.pool p).name
  let indexHandle := bucketOfHandle (db.pool p).handle
  { db with
    hashTableByHandle := Function.update db.hashTableByHandle indexHandle
      ((db.hashTableByHandle indexHandle).insertEntryGeneric p mem.nodeHandle)
    hashTableByName := Function.update db.hashTableByName indexName
      ((db.hashTableByName indexName).insertEntryGeneric p mem.nodeName) }

def removeEntry (p : EntryPtr) : FsHandlesDb :=
  let indexName := bucketOfName (db.pool p).name
  let indexHandle := bucketOfHandle (db.pool p).handle
  { db with
    hashTableByName := Function.update db.hashTableByName indexName
      ((db.hashTableByName indexName).removeEntryGeneric p)
    hashTableByHandle := Function.update db.hashTableByHandle indexHandle
      ((db.hashTableByHandle indexHandle).removeEntryGeneric p) }

def findEntry (name : CString) (parent storageId : Nat) : Option EntryPtr :=
  (db.hashTableByName (bucketOfName name)).entries.find? fun p =>
    (db.pool p).name == name && (db.pool p).parent == parent &&
      (db.pool p).storageId == storageId && !(db.pool p).isDeleted

-- A new block becomes the head of the pool.
def allocatePoolBlock (memory : Bool) : Option FsHandlesDb :=
  if memory then
    some { db with
      poolHead := db.poolHead + 1
      poolFreeCount := db.poolFreeCount + POOL_BLOCK_SIZE }
  else
    none

end FsHandlesDb

end Umtp.Handles
