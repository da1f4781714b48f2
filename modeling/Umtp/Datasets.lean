import Umtp.Constants
import Umtp.Paths

namespace Umtp

open Lib Handles Text

-- The low 32 bits of a number.
def u32 (n : Int) : Nat := (n % 2 ^ 32).toNat

-- mtp.c

-- The header of a container, packed.
def packetHeader (length type status txId : Nat) : List UInt8 :=
  littleEndian 4 length ++ littleEndian 2 type ++ littleEndian 2 status ++ littleEndian 4 txId

def buildResponse (txId type status : Nat) (buffer : Buffer) (maxsize : Int)
    (datain : List UInt8) : Poked :=
  let header := packetHeader (MTP_HEADER_SIZE + datain.length) type status txId
  let out := pokeArray maxsize 1 header false (buffer, 0)
  if datain = [] then out else pokeArray maxsize 1 datain false out

-- mtp_datasets.c

def decimalDigits (n : Nat) : CString :=
  (Nat.toDigits 10 n).map fun c => UInt8.ofNat c.toNat

-- "%.<width>d"
def formatDecimal (width : Nat) (n : Int) : CString :=
  let digits := decimalDigits n.natAbs
  (if n < 0 then [0x2D] else []) ++ List.replicate (width - digits.length) 0x30 ++ digits

-- "%.8X"
def formatHex8 (n : Nat) : CString :=
  (List.range 8).map fun i =>
    let digit := n / 16 ^ (7 - i) % 16
    UInt8.ofNat (if digit < 10 then 0x30 + digit else 0x41 + (digit - 10))

def TIMESTR_SIZE : Nat := 32

-- "YYYYMMDDThhmmss"
def formatDate (date : Tm) : CString :=
  (formatDecimal 4 (1900 + date.year) ++ formatDecimal 2 (date.mon + 1) ++
    formatDecimal 2 date.mday ++ [0x54] ++ formatDecimal 2 date.hour ++
    formatDecimal 2 date.min ++ formatDecimal 2 date.sec).take (TIMESTR_SIZE - 1)

-- `set_default_date`
def defaultDate : Tm := ⟨110, 0, 0, 0, 0, 0⟩

def dateString (time : Int) : M CString := do
  let date ← M.query (.localtime time)
  return formatDate (date.getD defaultDate)

-- "UMTPRD_%.8X"
def volumeIdent (storageId : Nat) : CString :=
  [0x55, 0x4D, 0x54, 0x50, 0x52, 0x44, 0x5F] ++ formatHex8 storageId

def buildStorageinfoDataset (buffer : Buffer) (maxsize : Int) (storageId : Nat) : M Poked := do
  let ctx ← M.getCtx
  let storageFlags := ctx.mtpGetStorageFlags storageId
  let storageType := if hasFlag storageFlags UMTP_STORAGE_REMOVABLE then MTP_STORAGE_REMOVABLE_RAM
    else MTP_STORAGE_FIXED_RAM
  match ctx.mtpGetStorageDescription storageId, ctx.mtpGetStorageRoot storageId with
  | some description, some path =>
    let access := if hasFlag storageFlags UMTP_STORAGE_READONLY
      then MTP_STORAGE_READ_ONLY_WITHOUT_DELETE else MTP_STORAGE_READ_WRITE
    let fsbuf ← M.query (.statvfs path)
    let totalspace := fsbuf.elim 0x8000000000000000 fun s => s.bsize * s.blocks % 2 ^ 64
    let freespace := fsbuf.elim 0x4000000000000000 fun s => s.bsize * s.bavail % 2 ^ 64
    return (buffer, 0)
      |> poke16 maxsize storageType
      |> poke16 maxsize MTP_STORAGE_FILESYSTEM_HIERARCHICAL
      |> poke16 maxsize access
      |> poke32 maxsize (totalspace % 2 ^ 32)
      |> poke32 maxsize (totalspace / 2 ^ 32)
      |> poke32 maxsize (freespace % 2 ^ 32)
      |> poke32 maxsize (freespace / 2 ^ 32)
      |> poke32 maxsize 0x40000000
      |> pokeString maxsize description
      |> pokeString maxsize (volumeIdent storageId)
  | _, _ => return (buffer, 0)

-- The object's file is looked up again, and its size kept in the entry.
def statEntry (p : EntryPtr) : M (Option Stat) := do
  match ← entryPath p with
  | some path => M.query (.stat64 path)
  | none => return none

def objectFormat (entry : FsEntry) : Nat :=
  if entry.isDir then MTP_FORMAT_ASSOCIATION else MTP_FORMAT_UNDEFINED

def associationType (entry : FsEntry) : Nat :=
  if entry.isDir then MTP_ASSOCIATION_TYPE_GENERIC_FOLDER else 0x0000

def compressedSize (size : Int) : Nat :=
  if 0x100000000 ≤ size then 0xFFFFFFFF else u32 size

def objectinfo (maxsize : Int) (entry : FsEntry) (created modified : CString) : Poked → Poked :=
  fun dst => dst
    |> poke32 maxsize entry.storageId
    |> poke16 maxsize (objectFormat entry)
    |> poke16 maxsize 0x0000
    |> poke32 maxsize (compressedSize entry.size)
    |> poke16 maxsize 0x0000
    |> poke32 maxsize 0x00000000
    |> poke32 maxsize 0x00000000
    |> poke32 maxsize 0x00000000
    |> poke32 maxsize 0x00000000
    |> poke32 maxsize 0x00000000
    |> poke32 maxsize 0x00000000
    |> poke32 maxsize entry.parent
    |> poke16 maxsize (associationType entry)
    |> poke32 maxsize 0x00000000
    |> poke32 maxsize 0x00000000
    |> pokeString maxsize entry.name
    |> pokeString maxsize created
    |> pokeString maxsize modified
    |> poke08 maxsize 0x00

def buildObjectinfoDataset (buffer : Buffer) (maxsize : Int) (p : EntryPtr) : M Poked := do
  match ← statEntry p with
  | some stat =>
    M.db_ (.setSize p stat.size)
    let created ← dateString stat.mtime
    let modified ← dateString stat.mtime
    let ctx ← M.getCtx
    return objectinfo maxsize (ctx.entry p) created modified (buffer, 0)
  | none => return (buffer, 0)

def buildEventDataset (ctx : MtpCtx) (buffer : Buffer) (maxsize : Int) (event : Nat)
    (parameters : List Nat) : Poked :=
  let out := (buffer, 0)
    |> poke32 maxsize 0
    |> poke16 maxsize MTP_CONTAINER_TYPE_EVENT
    |> poke16 maxsize event
    |> poke32 maxsize ctx.sessionId
  let out := parameters.foldl (fun dst parameter => poke32 maxsize parameter dst) out
  if 0 ≤ out.2 then ((poke32 maxsize (u32 out.2) (out.1, 0)).1, out.2) else out

-- mtp_properties.c

structure ProfileProperty where
  propCode : Nat
  dataType : Nat
  getset : Nat
  defaultValue : Nat
  groupCode : Nat
  formFlag : Nat
  formatId : Nat
deriving DecidableEq, Repr

-- The properties of a format, as listed for associations and for undefined
-- objects.
def formatProperties (format : Nat) : List ProfileProperty :=
  [⟨MTP_PROPERTY_OBJECT_SIZE, MTP_TYPE_UINT64, 0x00, 0, 0, 0x00, format⟩,
    ⟨MTP_PROPERTY_STORAGE_ID, MTP_TYPE_UINT32, 0x00, 0, 0, 0x00, format⟩,
    ⟨MTP_PROPERTY_PROTECTION_STATUS, MTP_TYPE_UINT16, 0x00, 0, 0, 0x00, format⟩,
    ⟨MTP_PROPERTY_DISPLAY_NAME, MTP_TYPE_STR, 0x00, 0, 0, 0x00, format⟩,
    ⟨MTP_PROPERTY_OBJECT_FILE_NAME, MTP_TYPE_STR, 0x01, 0, 0, 0x00, format⟩,
    ⟨MTP_PROPERTY_DATE_CREATED, MTP_TYPE_STR, 0x00, 0, 0, 0x00, format⟩,
    ⟨MTP_PROPERTY_DATE_MODIFIED, MTP_TYPE_STR, 0x00, 0, 0, 0x00, format⟩,
    ⟨MTP_PROPERTY_PARENT_OBJECT, MTP_TYPE_UINT32, 0x00, 0, 0, 0x00, format⟩,
    ⟨MTP_PROPERTY_PERSISTENT_UID, MTP_TYPE_UINT128, 0x00, 0, 0, 0x00, format⟩,
    ⟨MTP_PROPERTY_NAME, MTP_TYPE_STR, 0x00, 0, 0, 0x00, format⟩]

def objectFormats : List Nat :=
  [MTP_FORMAT_UNDEFINED, MTP_FORMAT_ASSOCIATION, MTP_FORMAT_TEXT, MTP_FORMAT_HTML,
    MTP_FORMAT_WAV, MTP_FORMAT_MP3, MTP_FORMAT_MPEG, MTP_FORMAT_EXIF_JPEG, MTP_FORMAT_BMP,
    MTP_FORMAT_AIFF, MTP_FORMAT_MPEG, MTP_FORMAT_WMA, MTP_FORMAT_OGG, MTP_FORMAT_AAC,
    MTP_FORMAT_MP4_CONTAINER, MTP_FORMAT_3GP_CONTAINER, MTP_FORMAT_ABSTRACT_AV_PLAYLIST,
    MTP_FORMAT_WPL_PLAYLIST, MTP_FORMAT_M3U_PLAYLIST, MTP_FORMAT_PLS_PLAYLIST,
    MTP_FORMAT_XML_DOCUMENT, MTP_FORMAT_FLAC, MTP_FORMAT_AVI, MTP_FORMAT_ASF,
    MTP_FORMAT_MS_WORD_DOCUMENT, MTP_FORMAT_MS_EXCEL_SPREADSHEET,
    MTP_FORMAT_MS_POWERPOINT_PRESENTATION]

def properties : List ProfileProperty :=
  [⟨MTP_PROPERTY_STORAGE_ID, MTP_TYPE_UINT32, 0x00, 0, 1, 0x00, 0xFFFF⟩] ++
  objectFormats.map (fun format =>
    ⟨MTP_PROPERTY_OBJECT_FORMAT, MTP_TYPE_UINT16, 0x00, format, 0, 0x00, format⟩) ++
  formatProperties MTP_FORMAT_ASSOCIATION ++
  formatProperties MTP_FORMAT_UNDEFINED ++
  [⟨MTP_PROPERTY_ASSOCIATION_DESC, MTP_TYPE_UINT32, 0x00, 0, 0, 0x00, 0xFFFF⟩,
    ⟨MTP_PROPERTY_PROTECTION_STATUS, MTP_TYPE_UINT16, 0x00, 0, 0, 0x00, 0xFFFF⟩,
    ⟨MTP_PROPERTY_HIDDEN, MTP_TYPE_UINT16, 0x00, 0, 0, 0x00, 0xFFFF⟩]

def devProperties : List ProfileProperty :=
  [⟨MTP_DEVICE_PROPERTY_SYNCHRONIZATION_PARTNER, MTP_TYPE_STR, 0x00, 0, 0, 0x00, 0⟩,
    ⟨MTP_DEVICE_PROPERTY_BATTERY_LEVEL, MTP_TYPE_UINT8, 0x00, 0, 0, 0x01, 0⟩,
    ⟨MTP_DEVICE_PROPERTY_DEVICE_FRIENDLY_NAME, MTP_TYPE_STR, 0x00, 0, 0, 0x00, 0⟩,
    ⟨MTP_DEVICE_PROPERTY_PERCEIVED_DEVICE_TYPE, MTP_TYPE_UINT32, 0x00, 0, 0, 0x00, 0⟩]

-- The row that ends both tables.
def lastProperty : ProfileProperty := ⟨0xFFFF, MTP_TYPE_UINT32, 0x00, 0, 0, 0x00, 0⟩

structure FormatsProperty where
  formatCode : Nat
  properties : List Nat
deriving DecidableEq, Repr

def formatPropertyCodes : List Nat :=
  [MTP_PROPERTY_STORAGE_ID, MTP_PROPERTY_OBJECT_FORMAT, MTP_PROPERTY_PROTECTION_STATUS,
    MTP_PROPERTY_OBJECT_SIZE, MTP_PROPERTY_OBJECT_FILE_NAME, MTP_PROPERTY_DATE_MODIFIED,
    MTP_PROPERTY_PARENT_OBJECT, MTP_PROPERTY_PERSISTENT_UID, MTP_PROPERTY_NAME,
    MTP_PROPERTY_DISPLAY_NAME, MTP_PROPERTY_DATE_CREATED]

def fmtProperties : List FormatsProperty :=
  [⟨MTP_FORMAT_UNDEFINED, formatPropertyCodes⟩, ⟨MTP_FORMAT_ASSOCIATION, formatPropertyCodes⟩]

def isDevicePropertySupported (ctx : MtpCtx) (propCode : Nat) : Bool :=
  if propCode = MTP_DEVICE_PROPERTY_BATTERY_LEVEL then
    ctx.usbCfg.batteryCapacity != []
  else if propCode = MTP_DEVICE_PROPERTY_PERCEIVED_DEVICE_TYPE then
    ctx.usbCfg.perceivedDeviceType != 0
  else
    true

-- The level the battery file gives, 0 when it gives none.
def getBatteryLevel : M Nat := do
  let ctx ← M.getCtx
  let level ← M.query (.batteryLevel ctx.usbCfg.batteryCapacity)
  return (min (max (level.getD 0) 0) 100).toNat

def buildPropertiesDataset (buffer : Buffer) (maxsize : Int) (propertyId formatId : Nat) :
    Poked :=
  let exactRow := properties.find? fun row => row.propCode == propertyId && row.formatId == formatId
  let defaultRow := properties.find? fun row => row.propCode == propertyId && row.formatId == 0xFFFF
  let row := (exactRow.orElse fun _ => defaultRow).getD lastProperty
  if row.propCode = propertyId then
    let dst := (buffer, 0)
      |> poke16 maxsize row.propCode
      |> poke16 maxsize row.dataType
      |> poke08 maxsize row.getset
    let dst :=
      if row.dataType = MTP_TYPE_STR ∨ row.dataType = MTP_TYPE_UINT8 then
        poke08 maxsize row.defaultValue dst
      else if row.dataType = MTP_TYPE_UINT16 then
        poke16 maxsize row.defaultValue dst
      else if row.dataType = MTP_TYPE_UINT32 then
        poke32 maxsize row.defaultValue dst
      else if row.dataType = MTP_TYPE_UINT64 then
        dst |> poke32 maxsize (row.defaultValue % 2 ^ 32)
          |> poke32 maxsize (row.defaultValue / 2 ^ 32)
      else if row.dataType = MTP_TYPE_UINT128 then
        dst |> poke32 maxsize row.defaultValue |> poke32 maxsize row.defaultValue
          |> poke32 maxsize row.defaultValue |> poke32 maxsize row.defaultValue
      else
        dst
    dst |> poke32 maxsize row.groupCode |> poke08 maxsize row.formFlag
  else
    (buffer, 0)

def buildDevicePropertiesDataset (buffer : Buffer) (maxsize : Int) (propertyId : Nat) :
    M Poked := do
  let ctx ← M.getCtx
  let row := (devProperties.find? fun row => row.propCode == propertyId).getD lastProperty
  if row.propCode = propertyId ∧ isDevicePropertySupported ctx propertyId = true then
    let dst := (buffer, 0)
      |> poke16 maxsize row.propCode
      |> poke16 maxsize row.dataType
      |> poke08 maxsize row.getset
    let form := fun dst : Poked =>
      let dst := poke08 maxsize row.formFlag dst
      if propertyId = MTP_DEVICE_PROPERTY_BATTERY_LEVEL then
        dst |> poke08 maxsize 0 |> poke08 maxsize 100 |> poke08 maxsize 1
      else
        dst
    if row.dataType = MTP_TYPE_STR then
      return form (dst |> poke08 maxsize row.defaultValue |> poke08 maxsize row.defaultValue)
    else if row.dataType = MTP_TYPE_UINT8 then
      let level ← if propertyId = MTP_DEVICE_PROPERTY_BATTERY_LEVEL then getBatteryLevel
        else pure row.defaultValue
      return form (dst |> poke08 maxsize row.defaultValue |> poke08 maxsize level)
    else if row.dataType = MTP_TYPE_UINT16 then
      return form (dst |> poke16 maxsize row.defaultValue |> poke16 maxsize row.defaultValue)
    else if row.dataType = MTP_TYPE_UINT32 then
      let current := if propertyId = MTP_DEVICE_PROPERTY_PERCEIVED_DEVICE_TYPE
        then ctx.usbCfg.perceivedDeviceType else row.defaultValue
      return form (dst |> poke32 maxsize row.defaultValue |> poke32 maxsize current)
    else if row.dataType = MTP_TYPE_UINT64 then
      let low := row.defaultValue % 2 ^ 32
      let high := row.defaultValue / 2 ^ 32
      return form (dst |> poke32 maxsize low |> poke32 maxsize high
        |> poke32 maxsize low |> poke32 maxsize high)
    else
      return (dst.1, 0)
  else
    return (buffer, 0)

def buildPropertiesSupportedDataset (buffer : Buffer) (maxsize : Int) (formatId : Nat) : Poked :=
  match fmtProperties.find? fun row => row.formatCode == formatId with
  | some row =>
    row.properties.foldl (fun dst code => poke16 maxsize code dst)
      (poke32 maxsize row.properties.length (buffer, 0))
  | none => (buffer, 0)

def buildDeviceinfoDataset (ctx : MtpCtx) (buffer : Buffer) (maxsize : Int) : Poked :=
  let pokeCodes := fun (codes : List Nat) (dst : Poked) =>
    codes.foldl (fun dst code => poke16 maxsize code dst) (poke32 maxsize codes.length dst)
  let pokeCodeArray := fun (codes : List Nat) =>
    pokeArray maxsize 2 (codes.flatMap (littleEndian 2)) true
  (buffer, 0)
    |> poke16 maxsize MTP_VERSION
    |> poke32 maxsize 0x00000006
    |> poke16 maxsize MTP_VERSION
    |> pokeString maxsize ctx.usbCfg.usbStringMtpExtensions
    |> poke16 maxsize 0x0000
    |> pokeCodeArray supportedOp
    |> pokeCodeArray supportedEvent
    |> pokeCodes ((devProperties.map ProfileProperty.propCode).filter
        (isDevicePropertySupported ctx))
    |> poke32 maxsize 0x00000000
    |> pokeCodes (fmtProperties.map FormatsProperty.formatCode)
    |> pokeString maxsize ctx.usbCfg.usbStringManufacturer
    |> pokeString maxsize ctx.usbCfg.usbStringProduct
    |> pokeString maxsize ctx.usbCfg.usbStringVersion
    |> pokeString maxsize ctx.usbCfg.usbStringSerial

-- 2010-01-02 10:11:12
def fixedDate : Tm := ⟨110, 0, 2, 10, 11, 12⟩

-- An unknown handle or property leaves the offset at 0.
def buildObjectPropValueDataset (ctx : MtpCtx) (buffer : Buffer) (maxsize : Int)
    (handle propCode : Nat) : Poked :=
  let dst : Poked := (buffer, 0)
  match ctx.getEntryByHandle handle with
  | some p =>
    let entry := ctx.entry p
    if propCode = MTP_PROPERTY_OBJECT_FORMAT then
      poke16 maxsize (objectFormat entry) dst
    else if propCode = MTP_PROPERTY_OBJECT_SIZE then
      dst |> poke32 maxsize (u32 entry.size) |> poke32 maxsize (u32 (entry.size / 2 ^ 32))
    else if propCode = MTP_PROPERTY_DISPLAY_NAME then
      poke08 maxsize 0 dst
    else if propCode = MTP_PROPERTY_NAME ∨ propCode = MTP_PROPERTY_OBJECT_FILE_NAME then
      pokeString maxsize entry.name dst
    else if propCode = MTP_PROPERTY_STORAGE_ID then
      poke32 maxsize entry.storageId dst
    else if propCode = MTP_PROPERTY_PARENT_OBJECT then
      poke32 maxsize entry.parent dst
    else if propCode = MTP_PROPERTY_HIDDEN ∨ propCode = MTP_PROPERTY_SYSTEM_OBJECT ∨
        propCode = MTP_PROPERTY_PROTECTION_STATUS then
      poke16 maxsize 0x0000 dst
    else if propCode = MTP_PROPERTY_ASSOCIATION_TYPE then
      poke16 maxsize (if entry.isDir then 0x0001 else 0x0000) dst
    else if propCode = MTP_PROPERTY_ASSOCIATION_DESC then
      poke32 maxsize 0x00000000 dst
    else if propCode = MTP_PROPERTY_DATE_CREATED ∨ propCode = MTP_PROPERTY_DATE_MODIFIED then
      pokeString maxsize (formatDate fixedDate) dst
    else if propCode = MTP_PROPERTY_PERSISTENT_UID then
      dst |> poke32 maxsize entry.handle |> poke32 maxsize entry.parent
        |> poke32 maxsize entry.storageId |> poke32 maxsize 0x00000000
    else
      dst
  | none => dst

def buildDevicePropValueDataset (buffer : Buffer) (maxsize : Int) (propCode : Nat) :
    M Poked := do
  let ctx ← M.getCtx
  if propCode = MTP_DEVICE_PROPERTY_BATTERY_LEVEL then
    if isDevicePropertySupported ctx propCode then
      let level ← getBatteryLevel
      return poke08 maxsize level (buffer, 0)
    else
      return (buffer, 0)
  else if propCode = MTP_DEVICE_PROPERTY_PERCEIVED_DEVICE_TYPE then
    if isDevicePropertySupported ctx propCode then
      return poke32 maxsize ctx.usbCfg.perceivedDeviceType (buffer, 0)
    else
      return (buffer, 0)
  else if propCode = MTP_DEVICE_PROPERTY_DEVICE_FRIENDLY_NAME then
    return pokeString maxsize ctx.usbCfg.usbStringProduct (buffer, 0)
  else if propCode = MTP_DEVICE_PROPERTY_SYNCHRONIZATION_PARTNER then
    return pokeString maxsize ctx.usbCfg.synchronizationPartner (buffer, 0)
  else
    return (buffer, 0)

-- The data a property list element is given: the address of a number or a
-- string.
inductive ElementData where
  | number (n : Nat)
  | string (str : CString)
deriving DecidableEq, Repr

def ElementData.toNat : ElementData → Nat
  | number n => n
  | string str => peekBytes (fun i => str.getD i 0) 0 8

def ElementData.toString : ElementData → CString
  | number n => (littleEndian 8 n).takeWhile (· ≠ 0)
  | string str => str

-- `objectproplist_element`, with the number of elements written so far.
def objectproplistElement (maxsize : Int) (propCode handle : Nat) (data : ElementData)
    (propCodeParam : Nat) (dst : Poked × Nat) : Poked × Nat :=
  if propCode ≠ propCodeParam ∧ propCodeParam ≠ 0xFFFFFFFF then
    dst
  else
    match properties.find? fun row => row.propCode == propCode with
    | some row =>
      let out := dst.1
        |> poke32 maxsize handle
        |> poke16 maxsize row.propCode
        |> poke16 maxsize row.dataType
      let out :=
        if row.dataType = MTP_TYPE_STR then
          pokeString maxsize data.toString out
        else if row.dataType = MTP_TYPE_UINT8 then
          poke08 maxsize data.toNat out
        else if row.dataType = MTP_TYPE_UINT16 then
          poke16 maxsize data.toNat out
        else if row.dataType = MTP_TYPE_UINT32 then
          poke32 maxsize data.toNat out
        else if row.dataType = MTP_TYPE_UINT64 then
          out |> poke32 maxsize (data.toNat % 2 ^ 32) |> poke32 maxsize (data.toNat / 2 ^ 32)
        else if row.dataType = MTP_TYPE_UINT128 then
          -- the counter is added to the first word
          (List.range 4).foldl (fun out i => poke32 maxsize ((data.toNat + i) % 2 ^ 32) out) out
        else
          out
      (out, dst.2 + 1)
    | none => dst

def objectproplist (maxsize : Int) (entry : FsEntry) (handle : Nat) (created modified : CString)
    (propCode : Nat) : Poked → Poked :=
  fun dst =>
    let element := fun code data => objectproplistElement maxsize code handle data propCode
    let out := (poke32 maxsize 0 dst, 0)
      |> element MTP_PROPERTY_STORAGE_ID (.number entry.storageId)
      |> element MTP_PROPERTY_OBJECT_FORMAT (.number (objectFormat entry))
      |> element MTP_PROPERTY_ASSOCIATION_TYPE (.number (associationType entry))
      |> element MTP_PROPERTY_PARENT_OBJECT (.number entry.parent)
      |> element MTP_PROPERTY_OBJECT_SIZE (.number (entry.size % 2 ^ 64).toNat)
      |> element MTP_PROPERTY_PROTECTION_STATUS (.number 0x0000)
      |> element MTP_PROPERTY_OBJECT_FILE_NAME (.string entry.name)
      |> element MTP_PROPERTY_NAME (.string entry.name)
      |> element MTP_PROPERTY_DISPLAY_NAME (.number 0)
      |> element MTP_PROPERTY_DATE_CREATED (.string created)
      |> element MTP_PROPERTY_DATE_MODIFIED (.string modified)
      |> element MTP_PROPERTY_PERSISTENT_UID (.number entry.handle)
    ((poke32 maxsize out.2 (out.1.1, 0)).1, out.1.2)

def buildObjectproplistDataset (buffer : Buffer) (maxsize : Int) (p : EntryPtr)
    (handle propCode : Nat) : M Poked := do
  match ← statEntry p with
  | some stat =>
    M.db_ (.setSize p stat.size)
    let created ← dateString stat.mtime
    let modified ← dateString stat.mtime
    let ctx ← M.getCtx
    return objectproplist maxsize (ctx.entry p) handle created modified propCode (buffer, 0)
  | none => return (buffer, 0)

end Umtp
