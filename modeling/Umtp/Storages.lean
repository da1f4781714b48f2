import Umtp.Paths

namespace Umtp

open Lib Handles Text

-- mtp_cfg.c

def MAX_CFG_STRING_SIZE : Nat := 512

def HASH : UInt8 := 0x23
def CR : UInt8 := 0x0D
def LF : UInt8 := 0x0A
def TAB : UInt8 := 0x09
def QUOTE : UInt8 := 0x22
def COMMA : UInt8 := 0x2C
def EQUALS : UInt8 := 0x3D

def isEndLine (c : UInt8) : Bool := c == 0 || c == HASH || c == CR || c == LF

def isSpace (c : UInt8) : Bool := c == SPACE || c == TAB

-- A position in a line is given by what follows it.
def getNextWord (line : CString) : CString := line.dropWhile (· == SPACE)

-- The parameter at the start of the line, without its quotes, and what follows.
def copyParam : (insideQuote : Bool) → (room : Nat) → CString → CString × CString
  | _, _, [] => ([], [])
  | insideQuote, room, c :: rest =>
    if isEndLine c || (!insideQuote && isSpace c) || room == 0 then
      ([], c :: rest)
    else if c == QUOTE then
      copyParam (!insideQuote) room rest
    else
      let (dest, after) := copyParam insideQuote (room - 1) rest
      (c :: dest, after)

-- The line from its n-th parameter on.
def skipParams : Nat → CString → Option CString
  | 0, line => some line
  | n + 1, line =>
    let next := getNextWord (copyParam false (MAX_CFG_STRING_SIZE - 1) line).2
    if next.head?.all (· == HASH) then none else skipParams n next

def getParam (line : CString) (paramOffset : Nat) : Option CString :=
  (skipParams paramOffset (getNextWord line)).map fun found =>
    (copyParam false (MAX_CFG_STRING_SIZE - 1) found).1

-- Whether the flag is among the options, and the value it is given there.
-- `previousChar` is the character before the ones still to be looked at.
def testFlag (flag : CString) : (previousChar : UInt8) → CString → Option (Option CString)
  | _, [] => none
  | previousChar, c :: rest =>
    let after := (c :: rest).drop flag.length
    if flag.isPrefixOf (c :: rest) && (previousChar == 0 || previousChar == COMMA) &&
        after.head?.all (fun d => d == COMMA || d == EQUALS) then
      if after.head? == some EQUALS then
        some (some ((after.tail.takeWhile fun d => d != COMMA && d != SPACE).take
          (MAX_CFG_STRING_SIZE - 1)))
      else
        some none
    else
      testFlag flag c rest

def isDigit (c : UInt8) : Bool := 0x30 ≤ c && c ≤ 0x39

-- The C library's `atoi`, of numbers that an int can hold.
def atoi (str : CString) : Int :=
  let str := str.dropWhile fun c => c == SPACE || (TAB ≤ c && c ≤ CR)
  let digits := if str.head? = some 0x2B ∨ str.head? = some 0x2D then str.tail else str
  let value : Nat :=
    (digits.takeWhile isDigit).foldl (fun n c => n * 10 + (c.toNat - 0x30)) 0
  if str.head? = some 0x2D then -(value : Int) else value

-- "ro", "notmounted", "removable", "locked", "uid" and "gid". "rw" sets no flag.
def RO_OPTION : CString := [0x72, 0x6F]
def NOTMOUNTED_OPTION : CString := [0x6E, 0x6F, 0x74, 0x6D, 0x6F, 0x75, 0x6E, 0x74, 0x65, 0x64]
def REMOVABLE_OPTION : CString := [0x72, 0x65, 0x6D, 0x6F, 0x76, 0x61, 0x62, 0x6C, 0x65]
def LOCKED_OPTION : CString := [0x6C, 0x6F, 0x63, 0x6B, 0x65, 0x64]
def UID_OPTION : CString := [0x75, 0x69, 0x64]
def GID_OPTION : CString := [0x67, 0x69, 0x64]

def storageFlags (options : CString) : BitVec 32 :=
  let flagOf := fun (option : CString) (flags : BitVec 32) =>
    if (testFlag option 0 options).isSome then flags else 0
  flagOf RO_OPTION UMTP_STORAGE_READONLY ||| flagOf NOTMOUNTED_OPTION UMTP_STORAGE_NOTMOUNTED |||
    flagOf REMOVABLE_OPTION UMTP_STORAGE_REMOVABLE |||
    flagOf LOCKED_OPTION (UMTP_STORAGE_LOCKABLE ||| UMTP_STORAGE_LOCKED)

-- What the buffer of the parameter holds after the search, from what it held before.
def paramAfter (param : CString) (found : Option (Option CString)) : CString :=
  (found.getD none).getD param

-- The user and group ids. An option without a value reads what the buffer holds.
def storageIdsFrom (tmpstr options : CString) : Int × Int :=
  let uidFound := testFlag UID_OPTION 0 options
  let tmpstr := paramAfter tmpstr uidFound
  let uid := if uidFound.isSome then atoi tmpstr else -1
  let gidFound := testFlag GID_OPTION 0 options
  let gid := if gidFound.isSome then atoi (paramAfter tmpstr gidFound) else -1
  (uid, gid)

-- The buffer is taken to hold nothing at first: the source does not set it.
def storageIds (options : CString) : Int × Int := storageIdsFrom [] options

-- mtp.c

-- A slot without a storage.
def freeSlot : MtpStorage := ⟨none, [], 0, 0, -1, -1⟩

def FIRST_STORAGE_ID : Nat := 0xFFFF0000 + 1

def mtpAddStorage (path description : CString) (uid gid : Int) (flags : BitVec 32) : M Unit := do
  let ctx ← M.getCtx
  if ctx.mtpGetStorageIdByName description = NO_HANDLE then
    match MtpCtx.slots.find? fun i => (ctx.storages i).rootPath.isNone with
    | some i =>
      let rootPath ← M.query (.realpath path)
      let memory ← M.act .malloc
      match rootPath, memory with
      | .ok rootPath, true =>
        M.cmd (.setStorage i
          ⟨some rootPath, description, FIRST_STORAGE_ID + i, flags, uid, gid⟩)
      | _, _ => M.cmd (.setStorage i freeSlot)
    | none => return ()
  else
    return ()

def mtpRemoveStorage (name : CString) : M Unit := do
  let ctx ← M.getCtx
  match ctx.mtpGetStorageIndexByName name with
  | some i => M.cmd (.setStorage i freeSlot)
  | none => return ()

-- mtp_cfg.c

def mtpRemoveStorageFromLine (name : CString) (idx : Nat) : M Unit :=
  match getParam name idx with
  | some storagename => mtpRemoveStorage storagename
  | none => return ()

def mtpAddStorageFromLine (line : CString) (idx : Nat) : M Unit :=
  match getParam line (idx + 1), getParam line idx with
  | some storagename, some storagepath =>
    let options := (getParam line (idx + 2)).getD []
    let (uid, gid) := storageIds options
    mtpAddStorage storagepath storagename uid gid (storageFlags options)
  | _, _ => return ()

-- mtp_ops_helpers.c

-- The loop over `get_entry_by_storageid`. It ends with the list.
def umountEntries (storageId : Nat) : Nat → List EntryPtr → M Unit
  | 0, _ => return ()
  | fuel + 1, start => do
    let ctx ← M.getCtx
    match ctx.db.getEntryByStorageid storageId start with
    | p :: next =>
      M.flagDeleted .umountStore p
      dropWatch p
      if next ≠ [] then
        umountEntries storageId fuel next
    | [] => return ()

def setStorageFlags (i : Fin MAX_STORAGE_NB) (change : BitVec 32 → BitVec 32) : M Unit := do
  let ctx ← M.getCtx
  M.cmd (.setStorage i { ctx.storages i with flags := change (ctx.storages i).flags })

def umountStore (i : Fin MAX_STORAGE_NB) (updateFlag : Bool) : M Unit := do
  let ctx ← M.getCtx
  if (ctx.storages i).rootPath.isSome then
    umountEntries (ctx.storages i).storageId ctx.db.entryList.length []
    if updateFlag then
      setStorageFlags i fun flags => raise flags UMTP_STORAGE_NOTMOUNTED

def mountStore (i : Fin MAX_STORAGE_NB) (updateFlag : Bool) : M Unit := do
  let ctx ← M.getCtx
  if (ctx.storages i).rootPath.isSome then
    if hasFlag (ctx.storages i).flags UMTP_STORAGE_NOTMOUNTED then
      let mem ← M.act .entryMemory
      M.db_ (.allocRootEntry mem (ctx.storages i).storageId)
    if updateFlag then
      setStorageFlags i fun flags => lower flags UMTP_STORAGE_NOTMOUNTED

end Umtp
