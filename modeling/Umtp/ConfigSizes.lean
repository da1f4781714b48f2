import Umtp.Lib.Runs
import Umtp.Config

namespace Umtp

open Lib Handles Text

-- The sizes that the transfers rely on.
structure SafeSizes (config : Config) : Prop where
  packet : 1 ≤ config.usbMaxPacketSize
  rdBuffer : 0 < config.usbRdBufferMaxSize ∧ 512 ∣ config.usbRdBufferMaxSize
  wrBuffer : 0 < config.usbWrBufferMaxSize ∧ 512 ∣ config.usbWrBufferMaxSize
  page : ∃ k : Nat, config.readFileBufferSize = 2 ^ k
  above : config.usbWrBufferMaxSize < config.readFileBufferSize

-- The lines of the configuration, in the order they are read.
def configLines (files : ConfigFiles) (conffile : CString) : List CString :=
  (conffile :: confNames files conffile).flatMap fun path =>
    ((files.fopen path).map fileLines).getD []

-- The number that a line gives to the setting of the command.
def lineValue (cmd : CfgCommand) (line : CString) : Option Nat :=
  match keywordOf (extractCmd line) with
  | some kw => if kw.cmd = cmd then (getParam line 1).map (strtoul · 16) else none
  | none => none

-- The number that the last line for the setting gives, or the one without a line.
def lastValue (cmd : CfgCommand) (default : Nat) (lines : List CString) : Nat :=
  (lines.filterMap (lineValue cmd)).getLast?.getD default

-- The lines that leave safe sizes. The numbers go into 32 bits, the highest of which
-- is the sign.
structure SafeLines (lines : List CString) : Prop where
  packet : lastValue .usbMaxPacketSize 512 lines ≠ 0
  rdBuffer : 512 ≤ lastValue .usbMaxRdBufferSize (16 * 512) lines % 2 ^ 32
  rdSign : lastValue .usbMaxRdBufferSize (16 * 512) lines % 2 ^ 32 < 2 ^ 31
  wrBuffer : 512 ≤ lastValue .usbMaxWrBufferSize (16 * 512) lines % 2 ^ 32
  page : ∃ k ≤ 30, lastValue .readBufferSize (1024 * 1024) lines % 2 ^ 32 = 2 ^ k
  above : lastValue .usbMaxWrBufferSize (16 * 512) lines % 2 ^ 32 / 512 * 512 <
    lastValue .readBufferSize (1024 * 1024) lines % 2 ^ 32

-- The files are read as one list of lines.
theorem mtpLoadConfigFile_eq (realpath : Realpath) (files : ConfigFiles) (conffile : CString) :
    mtpLoadConfigFile realpath files conffile =
      run (fun config line => executeLine realpath line config) defaultConfig
        (configLines files conffile) := by
  have hload : ∀ path config, loadConfigFile realpath files path config =
      run (fun config line => executeLine realpath line config) config
        (((files.fopen path).map fileLines).getD []) := by
    intro path config
    rw [loadConfigFile]
    cases files.fopen path with
    | none => rfl
    | some f => rfl
  rw [mtpLoadConfigFile, loadConfigDir, configLines, List.flatMap_cons, run_append, ← hload, run,
    List.foldl_flatMap]
  simp only [hload, run]

-- The sizes of a configuration. Lines for texts, numbers in other bases and storages
-- do not touch them.
structure Sizes where
  usbMaxPacketSize : Nat
  usbRdBufferMaxSize : Int
  usbWrBufferMaxSize : Int
  readFileBufferSize : Int

def Config.sizes (config : Config) : Sizes :=
  ⟨config.usbMaxPacketSize, config.usbRdBufferMaxSize, config.usbWrBufferMaxSize,
    config.readFileBufferSize⟩

theorem setStrParam_sizes (cmd : CfgCommand) (tmpTxt : CString) (config : Config) :
    (setStrParam cmd tmpTxt config).sizes = config.sizes := by
  cases cmd <;> rfl

theorem setOctParam_sizes (cmd : CfgCommand) (paramValue : Nat) (config : Config) :
    (setOctParam cmd paramValue config).sizes = config.sizes := by
  cases cmd <;> rfl

theorem setDecParam_sizes (cmd : CfgCommand) (paramValue : Nat) (config : Config) :
    (setDecParam cmd paramValue config).sizes = config.sizes := by
  cases cmd <;> rfl

theorem mtpAddStorage_sizes (config : Config) (realpath : Realpath) (path description : CString)
    (uid gid : Int) (flags : BitVec 32) :
    (config.mtpAddStorage realpath path description uid gid flags).sizes = config.sizes := by
  rw [Config.mtpAddStorage]
  by_cases hname : config.mtpGetStorageIdByName description = NO_HANDLE
  · rw [if_pos hname]
    cases MtpCtx.slots.find? fun i => (config.storages i).rootPath.isNone with
    | none => rfl
    | some i =>
        cases realpath path description with
        | none => rfl
        | some rootPath => rfl
  · rw [if_neg hname]

theorem mtpAddStorageFromLine_sizes (config : Config) (realpath : Realpath) (line : CString)
    (idx : Nat) : (config.mtpAddStorageFromLine realpath line idx).sizes = config.sizes := by
  rw [Config.mtpAddStorageFromLine]
  cases getParam line (idx + 1) with
  | none => rfl
  | some storagename =>
      cases getParam line idx with
      | none => rfl
      | some storagepath => exact mtpAddStorage_sizes config realpath _ _ _ _ _

-- A size that only the hexadecimal lines of one command set, and how they do.
structure IsSetting {β : Type} (cmd : CfgCommand) (default : Nat) (decode : Nat → β)
    (field : Sizes → β) : Prop where
  start : field defaultConfig.sizes = decode default
  keyword : ∀ kw ∈ kwlist, kw.cmd = cmd → kw.func = .getHexParam
  sets : ∀ n config, field (setHexParam cmd n config).sizes = decode n
  others : ∀ other, other ≠ cmd → ∀ n config,
    field (setHexParam other n config).sizes = field config.sizes

namespace IsSetting

variable {β : Type} {cmd : CfgCommand} {default : Nat} {decode : Nat → β} {field : Sizes → β}

theorem setParam_other (h : IsSetting cmd default decode field) {other : CfgCommand}
    (hother : other ≠ cmd) (func : KwFunc) (tmpTxt : CString) (config : Config) :
    field (setParam func other tmpTxt config).sizes = field config.sizes := by
  cases func with
  | getStorageParams => rfl
  | getHexParam => exact h.others other hother _ config
  | getStrParam => exact congrArg field (setStrParam_sizes other tmpTxt config)
  | getOctParam => exact congrArg field (setOctParam_sizes other _ config)
  | getDecParam => exact congrArg field (setDecParam_sizes other _ config)

-- What a line does to the size.
theorem field_executeLine (h : IsSetting cmd default decode field) (realpath : Realpath)
    (line : CString) (config : Config) :
    field (executeLine realpath line config).sizes =
      ((lineValue cmd line).map decode).getD (field config.sizes) := by
  rw [executeLine, lineValue]
  cases hkw : keywordOf (extractCmd line) with
  | none => rfl
  | some kw =>
      have hmem : kw ∈ kwlist := List.mem_of_find?_eq_some hkw
      dsimp only
      rw [callFunc]
      by_cases hcmd : kw.cmd = cmd
      · have hfunc := h.keyword kw hmem hcmd
        rw [if_pos hcmd, hfunc, hcmd, if_neg (by decide)]
        cases getParam line 1 with
        | none => rfl
        | some tmpTxt => exact h.sets _ config
      · rw [if_neg hcmd]
        by_cases hfunc : kw.func = .getStorageParams
        · rw [if_pos hfunc]
          exact congrArg field (mtpAddStorageFromLine_sizes config realpath line 1)
        · rw [if_neg hfunc]
          cases getParam line 1 with
          | none => rfl
          | some tmpTxt => exact h.setParam_other hcmd kw.func tmpTxt config

-- What all of them leave in it.
theorem field_mtpLoadConfigFile (h : IsSetting cmd default decode field) (realpath : Realpath)
    (files : ConfigFiles) (conffile : CString) :
    field (mtpLoadConfigFile realpath files conffile).sizes =
      decode (lastValue cmd default (configLines files conffile)) := by
  rw [mtpLoadConfigFile_eq, run_last _ (fun config : Config => field config.sizes)
    (fun line => (lineValue cmd line).map decode)
    (fun config line => h.field_executeLine realpath line config), h.start, lastValue,
    ← List.map_filterMap, List.getLast?_map, Option.getD_map]

end IsSetting

def packetSize (n : Nat) : Nat := if n < 0x10000 then n else MAX_PACKET_SIZE

def bufferSize (n : Nat) : Int := toInt32 (n / 512 * 512)

theorem packet_setting : IsSetting .usbMaxPacketSize 512 packetSize Sizes.usbMaxPacketSize where
  start := by decide
  keyword := by decide
  sets := fun _ _ => rfl
  others := by
    intro other hother n config
    cases other with
    | usbMaxPacketSize => exact absurd rfl hother
    | _ => simp only [setHexParam, Config.sizes, apply_ite, ite_self]

theorem rdBuffer_setting :
    IsSetting .usbMaxRdBufferSize (16 * 512) bufferSize Sizes.usbRdBufferMaxSize where
  start := by decide
  keyword := by decide
  sets := fun _ _ => rfl
  others := by
    intro other hother n config
    cases other with
    | usbMaxRdBufferSize => exact absurd rfl hother
    | _ => simp only [setHexParam, Config.sizes, apply_ite, ite_self]

theorem wrBuffer_setting :
    IsSetting .usbMaxWrBufferSize (16 * 512) bufferSize Sizes.usbWrBufferMaxSize where
  start := by decide
  keyword := by decide
  sets := fun _ _ => rfl
  others := by
    intro other hother n config
    cases other with
    | usbMaxWrBufferSize => exact absurd rfl hother
    | _ => simp only [setHexParam, Config.sizes, apply_ite, ite_self]

theorem page_setting :
    IsSetting .readBufferSize (1024 * 1024) toInt32 Sizes.readFileBufferSize where
  start := by decide
  keyword := by decide
  sets := fun _ _ => rfl
  others := by
    intro other hother n config
    cases other with
    | readBufferSize => exact absurd rfl hother
    | _ => simp only [setHexParam, Config.sizes, apply_ite, ite_self]

-- The numbers in 32 bits

theorem toInt32_eq (n : Nat) : toInt32 n =
    if n % 2 ^ 32 < 2 ^ 31 then (n % 2 ^ 32 : Int) else (n % 2 ^ 32 : Int) - 2 ^ 32 := by
  have hhalf : 2 * (n % 2 ^ 32) < 2 ^ 32 ↔ n % 2 ^ 32 < 2 ^ 31 := by omega
  rw [toInt32, BitVec.toInt_eq_toNat_cond, BitVec.toNat_ofNat]
  simp only [hhalf]
  norm_cast

variable {n : Nat}

theorem dvd_bufferSize (n : Nat) : 512 ∣ bufferSize n := by
  rw [bufferSize, toInt32_eq]
  split <;> omega

theorem bufferSize_of_lt (h : n % 2 ^ 32 < 2 ^ 31) :
    bufferSize n = (n % 2 ^ 32 / 512 * 512 : Nat) := by
  rw [bufferSize, toInt32_eq]
  split <;> omega

theorem bufferSize_pos_iff : 0 < bufferSize n ↔ 512 ≤ n % 2 ^ 32 ∧ n % 2 ^ 32 < 2 ^ 31 := by
  rw [bufferSize, toInt32_eq]
  split <;> omega

theorem toInt32_two_pow_iff :
    (∃ k : Nat, toInt32 n = 2 ^ k) ↔ ∃ k ≤ 30, n % 2 ^ 32 = 2 ^ k := by
  rw [toInt32_eq]
  constructor
  · rintro ⟨k, hk⟩
    have hpos : (0 : Int) < 2 ^ k := Int.pow_pos (by decide)
    by_cases hlt : n % 2 ^ 32 < 2 ^ 31
    · rw [if_pos hlt] at hk
      have hk' : n % 2 ^ 32 = 2 ^ k := by exact_mod_cast hk
      have hbound : k < 31 := (Nat.pow_lt_pow_iff_right (by decide)).mp (hk' ▸ hlt)
      exact ⟨k, by omega, hk'⟩
    · rw [if_neg hlt] at hk
      omega
  · rintro ⟨k, hk, hn⟩
    have hlt : n % 2 ^ 32 < 2 ^ 31 := hn ▸ Nat.pow_lt_pow_right (by decide) (by omega)
    refine ⟨k, ?_⟩
    rw [if_pos hlt]
    exact_mod_cast hn

theorem packetSize_pos_iff : 1 ≤ packetSize n ↔ n ≠ 0 := by
  rw [packetSize]
  split
  · omega
  · exact ⟨fun _ => by omega, fun _ => by decide⟩

-- A page that is a power of two is the number itself.
theorem toInt32_page {k : Nat} (hk : k ≤ 30) (hn : n % 2 ^ 32 = 2 ^ k) :
    toInt32 n = (n % 2 ^ 32 : Nat) := by
  have hlt : n % 2 ^ 32 < 2 ^ 31 := hn ▸ Nat.pow_lt_pow_right (by decide) (by omega)
  rw [toInt32_eq, if_pos hlt]
  rfl

-- The sizes are safe if and only if the last lines for them give such ones.
theorem safeSizes_iff (realpath : Realpath) (files : ConfigFiles) (conffile : CString) :
    SafeSizes (mtpLoadConfigFile realpath files conffile) ↔
      SafeLines (configLines files conffile) := by
  have hpacket : (mtpLoadConfigFile realpath files conffile).usbMaxPacketSize = _ :=
    packet_setting.field_mtpLoadConfigFile realpath files conffile
  have hrd : (mtpLoadConfigFile realpath files conffile).usbRdBufferMaxSize = _ :=
    rdBuffer_setting.field_mtpLoadConfigFile realpath files conffile
  have hwr : (mtpLoadConfigFile realpath files conffile).usbWrBufferMaxSize = _ :=
    wrBuffer_setting.field_mtpLoadConfigFile realpath files conffile
  have hpage : (mtpLoadConfigFile realpath files conffile).readFileBufferSize = _ :=
    page_setting.field_mtpLoadConfigFile realpath files conffile
  constructor
  · rintro ⟨packet, ⟨rdPos, -⟩, ⟨wrPos, -⟩, page, above⟩
    rw [hpacket, packetSize_pos_iff] at packet
    rw [hrd, bufferSize_pos_iff] at rdPos
    rw [hpage, toInt32_two_pow_iff] at page
    obtain ⟨k, hk, hn⟩ := page
    rw [hwr, bufferSize_pos_iff] at wrPos
    rw [hwr, hpage, bufferSize_of_lt wrPos.2, toInt32_page hk hn] at above
    exact ⟨packet, rdPos.1, rdPos.2, wrPos.1, ⟨k, hk, hn⟩, by exact_mod_cast above⟩
  · rintro ⟨packet, rdBuffer, rdSign, wrBuffer, ⟨k, hk, hn⟩, above⟩
    have hpow : 2 ^ k ≤ 2 ^ 30 := Nat.pow_le_pow_right (by decide) hk
    have wrSign : lastValue .usbMaxWrBufferSize (16 * 512) (configLines files conffile) %
        2 ^ 32 < 2 ^ 31 := by omega
    refine ⟨?_, ⟨?_, ?_⟩, ⟨?_, ?_⟩, ?_, ?_⟩
    · rw [hpacket, packetSize_pos_iff]
      exact packet
    · rw [hrd, bufferSize_pos_iff]
      exact ⟨rdBuffer, rdSign⟩
    · rw [hrd]
      exact dvd_bufferSize _
    · rw [hwr, bufferSize_pos_iff]
      exact ⟨wrBuffer, wrSign⟩
    · rw [hwr]
      exact dvd_bufferSize _
    · rw [hpage, toInt32_two_pow_iff]
      exact ⟨k, hk, hn⟩
    · rw [hwr, hpage, bufferSize_of_lt wrSign, toInt32_page hk hn]
      exact_mod_cast above

-- One file and no directory.
def oneFile (f : CString) : ConfigFiles := ⟨fun _ => some f, fun _ => none⟩

-- A packet size of 0 is taken, by which the end of a transfer divides.
theorem packet_size_zero :
    (mtpLoadConfigFile (fun _ _ => none) (oneFile (ascii "usb_max_packet_size 0\n"))
        (ascii "/etc/umtprd/umtprd.conf")).usbMaxPacketSize = 0 ∧
      ¬SafeSizes (mtpLoadConfigFile (fun _ _ => none)
        (oneFile (ascii "usb_max_packet_size 0\n")) (ascii "/etc/umtprd/umtprd.conf")) := by
  have hzero : (mtpLoadConfigFile (fun _ _ => none) (oneFile (ascii "usb_max_packet_size 0\n"))
      (ascii "/etc/umtprd/umtprd.conf")).usbMaxPacketSize = 0 := by decide +kernel
  refine ⟨hzero, fun hsafe => ?_⟩
  have hpos := hsafe.packet
  rw [hzero] at hpos
  exact absurd hpos (by decide)

end Umtp
