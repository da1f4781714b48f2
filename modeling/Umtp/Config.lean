import Umtp.Operations
import Umtp.Storages

namespace Umtp

open Lib Handles Text

-- mtp.h, buildconf.h and default_cfg.h

-- What the configuration sets of the context.
structure Config where
  usbVendorId : Nat
  usbProductId : Nat
  usbClass : Nat
  usbSubclass : Nat
  usbProtocol : Nat
  usbDevVersion : Nat
  usbMaxPacketSize : Nat
  usbFunctionfsMode : Nat
  usbDevicePath : CString
  usbEndpointIn : CString
  usbEndpointOut : CString
  usbEndpointIntin : CString
  usbStringManufacturer : CString
  usbStringProduct : CString
  usbStringSerial : CString
  usbStringVersion : CString
  usbStringMtpExtensions : CString
  usbStringInterface : CString
  synchronizationPartner : CString
  batteryCapacity : CString
  perceivedDeviceType : Nat
  waitConnection : Int
  loopOnDisconnect : Int
  showHiddenFiles : Int
  valUmask : Int
  usbRdBufferMaxSize : Int
  usbWrBufferMaxSize : Int
  readFileBufferSize : Int
  noInotify : Int
  syncWhenClose : Int
  defaultUid : Int
  defaultGid : Int
  storages : Fin MAX_STORAGE_NB → MtpStorage

def MAX_PACKET_SIZE : Nat := 512
def USB_FFS_MODE : Nat := 1

def CONFIG_READ_FILE_BUFFER_SIZE : Int := 1024 * 1024
def CONFIG_MAX_TX_USB_BUFFER_SIZE : Int := 16 * 512
def CONFIG_MAX_RX_USB_BUFFER_SIZE : Int := 16 * 512

-- What the system gives for a storage: the path that realpath finds, if there is
-- memory for it and for the description.
abbrev Realpath := CString → CString → Option CString

def ascii (str : String) : CString := str.toList.map fun c => UInt8.ofNat c.toNat

-- The C library's `strtoul`, for an unsigned long of 64 bits.

def isBlank (c : UInt8) : Bool := c == SPACE || (TAB ≤ c && c ≤ CR)

def digitValue (c : UInt8) : Nat :=
  if 0x30 ≤ c ∧ c ≤ 0x39 then c.toNat - 0x30
  else if 0x61 ≤ c ∧ c ≤ 0x7A then c.toNat - 0x61 + 10
  else if 0x41 ≤ c ∧ c ≤ 0x5A then c.toNat - 0x41 + 10
  else 36

def strtoul (str : CString) (base : Nat) : Nat :=
  let str := str.dropWhile isBlank
  let negative := str.head? == some 0x2D
  let str := if negative || str.head? == some 0x2B then str.tail else str
  -- "0x" in front of a hexadecimal digit
  let hasBase := base == 16 && str.getD 0 0 == 0x30 &&
    (str.getD 1 0 == 0x78 || str.getD 1 0 == 0x58) && digitValue (str.getD 2 0) < 16
  let digits := (if hasBase then str.drop 2 else str).takeWhile fun c => digitValue c < base
  let value := digits.foldl (fun n c => n * base + digitValue c) 0
  if 2 ^ 64 ≤ value then 2 ^ 64 - 1 else if negative then (2 ^ 64 - value) % 2 ^ 64 else value

-- mtp.c

namespace Config

variable (config : Config)

def mtpGetStorageIdByName (name : CString) : Nat :=
  match MtpCtx.slots.find? fun i =>
      (config.storages i).rootPath.isSome && (config.storages i).description == name with
  | some i => (config.storages i).storageId
  | none => NO_HANDLE

def setStorage (i : Fin MAX_STORAGE_NB) (storage : MtpStorage) : Config :=
  { config with storages := Function.update config.storages i storage }

def mtpAddStorage (realpath : Realpath) (path description : CString) (uid gid : Int)
    (flags : BitVec 32) : Config :=
  if config.mtpGetStorageIdByName description = NO_HANDLE then
    match MtpCtx.slots.find? fun i => (config.storages i).rootPath.isNone with
    | some i =>
      match realpath path description with
      | some rootPath =>
        config.setStorage i ⟨some rootPath, description, FIRST_STORAGE_ID + i, flags, uid, gid⟩
      | none => config.setStorage i freeSlot
    | none => config
  else
    config

end Config

-- mtp_cfg.c

inductive CfgCommand where
  | storage | usbVendorId | usbProductId | usbClass | usbSubclass | usbProtocol | usbDevVersion
  | usbMaxPacketSize | usbFunctionfsMode | usbMaxRdBufferSize | usbMaxWrBufferSize
  | readBufferSize | usbDevPath | usbEpinPath | usbEpoutPath | usbEpintPath
  | manufacturerString | productString | serialString | versionString | mtpExtensionsString
  | mtpSyncPartnerString | interfaceString | batteryCapacity | perceivedDeviceType
  | waitConnection | loopOnDisconnect | showHiddenFiles | umask | defaultUid | defaultGid
  | noInotify | syncWhenClose
deriving DecidableEq, Repr

-- The keyword of a line.
def extractCmd (line : CString) : CString :=
  ((getNextWord line).takeWhile fun c => !isEndLine c && !isSpace c).take (MAX_CFG_STRING_SIZE - 1)

def Config.mtpAddStorageFromLine (realpath : Realpath) (line : CString) (idx : Nat)
    (config : Config) : Config :=
  match getParam line (idx + 1), getParam line idx with
  | some storagename, some storagepath =>
    let options := (getParam line (idx + 2)).getD []
    let (uid, gid) := storageIds options
    config.mtpAddStorage realpath storagepath storagename uid gid (storageFlags options)
  | _, _ => config

def setHexParam (cmd : CfgCommand) (paramValue : Nat) (config : Config) : Config :=
  match cmd with
  | .usbVendorId => if paramValue < 0x10000 then { config with usbVendorId := paramValue }
    else config
  | .usbProductId =>
    if paramValue < 0x10000 then { config with usbProductId := paramValue } else config
  | .usbClass => if paramValue < 256 then { config with usbClass := paramValue } else config
  | .usbSubclass => if paramValue < 256 then { config with usbSubclass := paramValue } else config
  | .usbProtocol => if paramValue < 256 then { config with usbProtocol := paramValue } else config
  | .usbDevVersion =>
    if paramValue < 0x10000 then { config with usbDevVersion := paramValue } else config
  | .usbMaxPacketSize =>
    { config with usbMaxPacketSize := if paramValue < 0x10000 then paramValue else MAX_PACKET_SIZE }
  | .usbMaxRdBufferSize => { config with usbRdBufferMaxSize := toInt32 (paramValue / 512 * 512) }
  | .usbMaxWrBufferSize => { config with usbWrBufferMaxSize := toInt32 (paramValue / 512 * 512) }
  | .readBufferSize => { config with readFileBufferSize := toInt32 paramValue }
  | .usbFunctionfsMode =>
    { config with usbFunctionfsMode := if paramValue = 0 then 0 else USB_FFS_MODE }
  | .waitConnection => { config with waitConnection := toInt32 paramValue }
  | .loopOnDisconnect => { config with loopOnDisconnect := toInt32 paramValue }
  | .showHiddenFiles => { config with showHiddenFiles := toInt32 paramValue }
  | .noInotify => { config with noInotify := toInt32 paramValue }
  | .syncWhenClose => { config with syncWhenClose := toInt32 paramValue }
  | .perceivedDeviceType => { config with perceivedDeviceType := paramValue % 2 ^ 32 }
  | _ => config

def setStrParam (cmd : CfgCommand) (tmpTxt : CString) (config : Config) : Config :=
  match cmd with
  | .usbDevPath => { config with usbDevicePath := tmpTxt }
  | .usbEpinPath => { config with usbEndpointIn := tmpTxt }
  | .usbEpoutPath => { config with usbEndpointOut := tmpTxt }
  | .usbEpintPath => { config with usbEndpointIntin := tmpTxt }
  | .manufacturerString => { config with usbStringManufacturer := tmpTxt }
  | .productString => { config with usbStringProduct := tmpTxt }
  | .serialString => { config with usbStringSerial := tmpTxt }
  | .versionString => { config with usbStringVersion := tmpTxt }
  | .mtpExtensionsString => { config with usbStringMtpExtensions := tmpTxt }
  | .mtpSyncPartnerString => { config with synchronizationPartner := tmpTxt }
  | .interfaceString => { config with usbStringInterface := tmpTxt }
  | .batteryCapacity => { config with batteryCapacity := tmpTxt }
  | _ => config

def setOctParam (cmd : CfgCommand) (paramValue : Nat) (config : Config) : Config :=
  match cmd with
  | .umask => { config with valUmask := toInt32 paramValue }
  | _ => config

def setDecParam (cmd : CfgCommand) (paramValue : Nat) (config : Config) : Config :=
  match cmd with
  | .defaultUid => { config with defaultUid := toInt32 paramValue }
  | .defaultGid => { config with defaultGid := toInt32 paramValue }
  | _ => config

-- The functions of the keywords, and what those of one parameter do with it.
inductive KwFunc where
  | getStorageParams | getHexParam | getStrParam | getOctParam | getDecParam
deriving DecidableEq, Repr

def setParam (func : KwFunc) (cmd : CfgCommand) (tmpTxt : CString) (config : Config) : Config :=
  match func with
  | .getStorageParams => config
  | .getHexParam => setHexParam cmd (strtoul tmpTxt 16) config
  | .getStrParam => setStrParam cmd tmpTxt config
  | .getOctParam => setOctParam cmd (strtoul tmpTxt 8) config
  | .getDecParam => setDecParam cmd (strtoul tmpTxt 10) config

def callFunc (realpath : Realpath) (func : KwFunc) (cmd : CfgCommand) (line : CString)
    (config : Config) : Config :=
  if func = .getStorageParams then
    Config.mtpAddStorageFromLine realpath line 1 config
  else
    match getParam line 1 with
    | some tmpTxt => setParam func cmd tmpTxt config
    | none => config

structure Keyword where
  keyword : CString
  func : KwFunc
  cmd : CfgCommand
deriving DecidableEq, Repr

def kwlist : List Keyword :=
  [⟨ascii "storage", .getStorageParams, .storage⟩,
    ⟨ascii "usb_vendor_id", .getHexParam, .usbVendorId⟩,
    ⟨ascii "usb_product_id", .getHexParam, .usbProductId⟩,
    ⟨ascii "usb_class", .getHexParam, .usbClass⟩,
    ⟨ascii "usb_subclass", .getHexParam, .usbSubclass⟩,
    ⟨ascii "usb_protocol", .getHexParam, .usbProtocol⟩,
    ⟨ascii "usb_dev_version", .getHexParam, .usbDevVersion⟩,
    ⟨ascii "usb_max_packet_size", .getHexParam, .usbMaxPacketSize⟩,
    ⟨ascii "usb_max_rd_buffer_size", .getHexParam, .usbMaxRdBufferSize⟩,
    ⟨ascii "usb_max_wr_buffer_size", .getHexParam, .usbMaxWrBufferSize⟩,
    ⟨ascii "read_buffer_cache_size", .getHexParam, .readBufferSize⟩,
    ⟨ascii "usb_functionfs_mode", .getHexParam, .usbFunctionfsMode⟩,
    ⟨ascii "usb_dev_path", .getStrParam, .usbDevPath⟩,
    ⟨ascii "usb_epin_path", .getStrParam, .usbEpinPath⟩,
    ⟨ascii "usb_epout_path", .getStrParam, .usbEpoutPath⟩,
    ⟨ascii "usb_epint_path", .getStrParam, .usbEpintPath⟩,
    ⟨ascii "manufacturer", .getStrParam, .manufacturerString⟩,
    ⟨ascii "product", .getStrParam, .productString⟩,
    ⟨ascii "serial", .getStrParam, .serialString⟩,
    ⟨ascii "firmware_version", .getStrParam, .versionString⟩,
    ⟨ascii "interface", .getStrParam, .interfaceString⟩,
    ⟨ascii "mtp_extensions", .getStrParam, .mtpExtensionsString⟩,
    ⟨ascii "mtp_sync_partner", .getStrParam, .mtpSyncPartnerString⟩,
    ⟨ascii "battery_capacity", .getStrParam, .batteryCapacity⟩,
    ⟨ascii "perceived_device_type", .getHexParam, .perceivedDeviceType⟩,
    ⟨ascii "wait", .getHexParam, .waitConnection⟩,
    ⟨ascii "loop_on_disconnect", .getHexParam, .loopOnDisconnect⟩,
    ⟨ascii "show_hidden_files", .getHexParam, .showHiddenFiles⟩,
    ⟨ascii "umask", .getOctParam, .umask⟩,
    ⟨ascii "default_uid", .getDecParam, .defaultUid⟩,
    ⟨ascii "default_gid", .getDecParam, .defaultGid⟩,
    ⟨ascii "no_inotify", .getHexParam, .noInotify⟩,
    ⟨ascii "sync_when_close", .getHexParam, .syncWhenClose⟩]

-- The keyword of the list that the command is.
def keywordOf (command : CString) : Option Keyword := kwlist.find? fun kw => kw.keyword == command

-- The effect of a line on the context. A line without a command, or with one that
-- is no keyword, has none.
def executeLine (realpath : Realpath) (line : CString) (config : Config) : Config :=
  match keywordOf (extractCmd line) with
  | some kw => callFunc realpath kw.func kw.cmd line config
  | none => config

-- The context of mtp_init_responder with the settings that mtp_load_config_file
-- starts with.
def defaultConfig : Config where
  usbVendorId := 0x1D6B
  usbProductId := 0x0100
  usbClass := 0x6
  usbSubclass := 0x1
  usbProtocol := 0x1
  usbDevVersion := 0x3008
  usbMaxPacketSize := MAX_PACKET_SIZE
  usbFunctionfsMode := USB_FFS_MODE
  usbDevicePath := ascii "/dev/ffs-mtp/ep0"
  usbEndpointIn := ascii "/dev/ffs-mtp/ep1"
  usbEndpointOut := ascii "/dev/ffs-mtp/ep2"
  usbEndpointIntin := ascii "/dev/ffs-mtp/ep3"
  usbStringManufacturer := ascii "Viveris Technologies"
  usbStringProduct := ascii "The Viveris Product !"
  usbStringSerial := ascii "01234567"
  usbStringVersion := ascii "Rev A"
  usbStringMtpExtensions := []
  usbStringInterface := ascii "MTP"
  synchronizationPartner := []
  batteryCapacity := []
  perceivedDeviceType := 0
  waitConnection := 0
  loopOnDisconnect := 0
  showHiddenFiles := 1
  valUmask := -1
  usbRdBufferMaxSize := CONFIG_MAX_RX_USB_BUFFER_SIZE
  usbWrBufferMaxSize := CONFIG_MAX_TX_USB_BUFFER_SIZE
  readFileBufferSize := CONFIG_READ_FILE_BUFFER_SIZE
  noInotify := 0
  syncWhenClose := 0
  defaultUid := -1
  defaultGid := -1
  storages := fun _ => ⟨none, [], 0, 0, 0, 0⟩

-- The lines that fgets reads of a file, with their ends. There is room for so many
-- bytes of the line that the file goes on with.
def fgetsLines : (room : Nat) → CString → List CString
  | _, [] => []
  | room, c :: f =>
    if c == LF || room == 1 then
      [c] :: fgetsLines (MAX_CFG_STRING_SIZE - 1) f
    else
      match fgetsLines (room - 1) f with
      | [] => [[c]]
      | line :: lines => (c :: line) :: lines

-- The lines of a file as texts, which a NUL ends.
def fileLines (f : CString) : List CString :=
  (fgetsLines (MAX_CFG_STRING_SIZE - 1) f).map fun line => line.takeWhile (· != 0)

-- The files of the configuration: the content of one that opens and the names in a
-- directory.
structure ConfigFiles where
  fopen : CString → Option CString
  scandir : CString → Option (List CString)

def loadConfigFile (realpath : Realpath) (files : ConfigFiles) (conffile : CString)
    (config : Config) : Config :=
  match files.fopen conffile with
  | some f => (fileLines f).foldl (fun config line => executeLine realpath line config) config
  | none => config

def confNameFilter (name : CString) : Bool :=
  5 < name.length && name.drop (name.length - 5) == ascii ".conf"

-- Every "<conffile>.d/*.conf", sorted by name.
def confNames (files : ConfigFiles) (conffile : CString) : List CString :=
  let dirpath := conffile ++ ascii ".d"
  if MAX_CFG_STRING_SIZE ≤ dirpath.length then
    []
  else
    match files.scandir dirpath with
    | some namelist =>
      ((namelist.filter confNameFilter).mergeSort fun a b => a ≤ b).map fun name =>
        dirpath ++ SLASH :: name
    | none => []

def loadConfigDir (realpath : Realpath) (files : ConfigFiles) (conffile : CString)
    (config : Config) : Config :=
  (confNames files conffile).foldl (fun config path => loadConfigFile realpath files path config)
    config

def mtpLoadConfigFile (realpath : Realpath) (files : ConfigFiles) (conffile : CString) : Config :=
  loadConfigDir realpath files conffile (loadConfigFile realpath files conffile defaultConfig)

end Umtp
