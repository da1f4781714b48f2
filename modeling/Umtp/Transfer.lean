import Umtp.Datasets

namespace Umtp

open Lib Handles

-- usb_gadget.c

-- Nothing is written once a transfer is cancelled.
def writeUsb (channel : Endpoint) (bytes : List UInt8) : M Unit := do
  let cancelReq ← M.act .getCancelReq
  if cancelReq then
    return ()
  else
    M.act (.writeUsb channel bytes)

-- mtp.c

-- With a packet size of 0 the remainder is a division by zero in the source, and
-- nothing comes after it. What is proved about an answer after a data container
-- is proved for packet sizes above 0.
def checkAndSendUsbZlp (size : Int) : M Unit := do
  let ctx ← M.getCtx
  if ctx.maxPacketSize ≤ u32 size ∧ u32 size % ctx.maxPacketSize = 0 then
    writeUsb .bulkIn []

-- mtp_ops_helpers.c

-- The & of two int64_t.
def andInt64 (x y : Int) : Int := (BitVec.ofInt 64 x &&& BitVec.ofInt 64 y).toInt

-- The read cache is read page by page: the offset of the page of a position,
-- and the index of the position in it.
def pageOffset (cacheSize : Nat) (position : Int) : Int :=
  andInt64 position (-1 - ((cacheSize : Int) - 1))

def pageIndex (cacheSize : Nat) (position : Int) : Int :=
  andInt64 position ((cacheSize : Int) - 1)

-- A sum or a difference of two int64_t, which wraps around.
def wrapInt64 (x : Int) : Int := (BitVec.ofInt 64 x).toInt

-- The number of bytes from `offset` on that are sent.
def actualSize (fileSize offset maxsize : Int) : Int :=
  if fileSize ≤ offset then
    0
  else if fileSize < wrapInt64 (offset + maxsize) then
    wrapInt64 (fileSize - offset)
  else
    maxsize

def containerLength (actualsize : Int) : Nat :=
  if 2 ^ 32 ≤ (MTP_HEADER_SIZE + actualsize) % 2 ^ 64 then 0xFFFFFFFF
  else u32 (MTP_HEADER_SIZE + actualsize)

-- Reads the page at `position` into the cache. False for a read error.
def loadPage (p : EntryPtr) (position : Int) : M Bool := do
  let ctx ← M.getCtx
  match ← entryRead p position ctx.readFileBufferSize with
  | some bytes =>
    let ctx ← M.getCtx
    let cache := ctx.readFileBuffer.getD fun _ => 0
    M.cmd (.setReadFileBuffer (cache.write 0 bytes))
    return true
  | none => return false

-- Puts the block at `position` behind the `ofs` bytes that wait in the write
-- buffer, from one or two pages, and gives what is to be sent. `none` is a read
-- error, otherwise the page that is loaded now comes with it.
def fetchBlock (p : EntryPtr) (position : Int) (bufIndex : Int) (ofs : Nat) (blocksize : Int) :
    M (Option (List UInt8 × Int)) := do
  let ctx ← M.getCtx
  let cacheSize := ctx.readFileBufferSize
  let page := pageOffset cacheSize position
  -- Is the target page loaded ?
  let loaded ← if bufIndex ≠ page then loadPage p page else pure true
  if loaded then
    let ctx ← M.getCtx
    let cache := ctx.readFileBuffer.getD fun _ => 0
    let index := pageIndex cacheSize position
    -- Is a new page needed ?
    if index + blocksize < cacheSize then
      let block := cache.read index.toNat blocksize.toNat
      if ofs = 0 then
        return some (block, page)
      else
        let wrbuffer := ctx.wrbuffer.write ofs block
        M.cmd (.setWrbuffer wrbuffer)
        return some (wrbuffer.read 0 (ofs + blocksize.toNat), page)
    else
      let firstPartSize := blocksize - (index + blocksize - cacheSize)
      M.cmd (.setWrbuffer
        (ctx.wrbuffer.write ofs (cache.read index.toNat firstPartSize.toNat)))
      if ← loadPage p (page + cacheSize) then
        let ctx ← M.getCtx
        let cache := ctx.readFileBuffer.getD fun _ => 0
        let wrbuffer := ctx.wrbuffer.write (ofs + firstPartSize.toNat)
          (cache.read 0 (blocksize - firstPartSize).toNat)
        M.cmd (.setWrbuffer wrbuffer)
        return some (wrbuffer.read 0 (ofs + blocksize.toNat), page + cacheSize)
      else
        return none
  else
    return none

-- The loop of `send_file_data`: `j` bytes are sent and `ofs` wait in the write
-- buffer. False for a read error.
def sendBlocks (p : EntryPtr) (offset actualsize : Int) :
    Nat → (j bufIndex : Int) → (ofs : Nat) → M Bool
  | 0, _, _, _ => return true
  | fuel + 1, j, bufIndex, ofs => do
    let ctx ← M.getCtx
    let room := (ctx.usbWrBufferMaxSize : Int) - ofs
    let blocksize := if j + room < actualsize then room else actualsize - j
    match ← fetchBlock p (offset + j) bufIndex ofs blocksize with
    | some (bytes, bufIndex) =>
      let cancelReq ← M.act .getCancelReq
      if !cancelReq then
        writeUsb .bulkIn bytes
      let j := j + blocksize
      if j < actualsize then
        let cancelReq ← M.act .getCancelReq
        if cancelReq then return true else sendBlocks p offset actualsize fuel j bufIndex 0
      else
        return true
    | none =>
      entryClose (some p)
      return false

-- Every turn but the first sends a byte or more.
def blockFuel (actualsize : Int) : Nat := actualsize.toNat + 2

-- The end of a transfer, answering -2 for a cancelled one.
def endTransfer (actualsize : Int) : M Int := do
  if ← M.act .lockCancelMutex then
    if ← M.act .getCancelReq then
      M.act .clearCancelReq
      M.act_ .unlockCancelMutex
      return -2
    else
      checkAndSendUsbZlp (MTP_HEADER_SIZE + actualsize)
      M.act_ .unlockCancelMutex
      return actualsize
  else
    return actualsize

-- The read cache is allocated once.
def allocReadFileBuffer : M Bool := do
  let ctx ← M.getCtx
  if ctx.readFileBuffer.isNone then
    if ← M.act .malloc then
      M.cmd (.setReadFileBuffer fun _ => 0)
      return true
    else
      return false
  else
    return true

-- The number of bytes sent, -1 for an error and -2 for a cancelled transfer.
def sendFileData (p : EntryPtr) (offset maxsize : Int) : M Int := do
  if ← allocReadFileBuffer then
    let ctx ← M.getCtx
    let actualsize := actualSize (ctx.entry p).size offset maxsize
    M.cmd (.setWrbuffer
      (poke32 ctx.usbWrBufferMaxSize (containerLength actualsize) (ctx.wrbuffer, 0)).1)
    let file ← entryOpen p .readOnly
    if file ≠ -1 then
      M.cmd (.setTransferringFileData true)
      if ← sendBlocks p offset actualsize (blockFuel actualsize) 0 (-1) MTP_HEADER_SIZE then
        M.cmd (.setTransferringFileData false)
        entryClose (some p)
        endTransfer actualsize
      else
        return -1
    else
      return -1
  else
    return 0

-- mtp_op_sendobject.c

-- Writes the payload of a read to the file and counts it.
def writePayload (p : EntryPtr) (file : Int) (bytes : List UInt8) : M Unit := do
  let ctx ← M.getCtx
  let _ ← M.act (.write (ctx.entry p).storageId file bytes)
  M.cmd (.setSendObjInfo ctx.sendObjInfoHandle (ctx.sendObjInfoSize - bytes.length)
    ctx.sendObjInfoOffset)

-- The loop of the data phase: reads of a full buffer are followed by another.
def receiveBlocks (p : EntryPtr) (file : Int) : Nat → Int → M Unit
  | 0, _ => return ()
  | fuel + 1, sz => do
    let ctx ← M.getCtx
    if sz = ctx.usbRdBufferMaxSize then
      if ← M.act .getCancelReq then
        return ()
      else
        match ← M.act (.readUsb ctx.usbRdBufferMaxSize) with
        | some bytes =>
          let ctx ← M.getCtx
          M.cmd (.setRdbuffer2 (ctx.rdbuffer2.write 0 bytes))
          writePayload p file bytes
          receiveBlocks p file fuel bytes.length
        | none => return ()
    else
      return ()

-- What follows the data: the size is read from the file, and a file that is
-- written as a whole is closed. False when the transfer was cancelled.
def endReceive (isPartial : Bool) (p : EntryPtr) (file : Int) : M Bool := do
  let fileSize ← M.act (.lseekEnd file)
  M.db_ (.setSize p fileSize)
  M.cmd (.setTransferringFileData false)
  if isPartial then
    pure ()
  else
    entryClose (some p)
  if ← M.act .getCancelReq then
    M.act .clearCancelReq
    return false
  else
    return true

-- The data phase of SendObject and SendPartialObject on an open file.
def receiveObject (hdr : Buffer) (size : Nat) (isPartial : Bool) (p : EntryPtr) (file : Int) :
    M Bool := do
  M.cmd (.setTransferringFileData true)
  let ctx ← M.getCtx
  M.act (.lseekSet file ctx.sendObjInfoOffset)
  let sz := (size : Int) - MTP_HEADER_SIZE
  if 0 < sz then
    writePayload p file (hdr.read MTP_HEADER_SIZE sz.toNat)
  let ctx ← M.getCtx
  let full := (ctx.usbRdBufferMaxSize : Int)
  let next := if sz = full - MTP_HEADER_SIZE ∨ (isPartial = true ∧ ctx.sendObjInfoSize ≠ 0)
    then full else sz
  let backlog ← M.query .usbBacklog
  receiveBlocks p file (backlog + 1) next
  endReceive isPartial p file

end Umtp
