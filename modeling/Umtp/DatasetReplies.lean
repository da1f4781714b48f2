import Umtp.Encoding
import Umtp.FileReads

namespace Umtp

open Lib Lib.Prog Handles Text

section Datasets

variable {σ : Type} {os : Os σ} {w : World σ} {maxsize : Int} {buffer : Buffer}

-- The datasets in the state of the daemon and of the system

def storageinfo (os : Os σ) (w : World σ) (storageId : Nat) : Option (List UInt8) :=
  match w.ctx.mtpGetStorageDescription storageId, w.ctx.mtpGetStorageRoot storageId with
  | some description, some path =>
    let fsbuf := os.query (.statvfs path) w.os
    some (storageinfoBytes storageId (w.ctx.mtpGetStorageFlags storageId) description
      (fsbuf.elim 0x8000000000000000 fun s => s.bsize * s.blocks % 2 ^ 64)
      (fsbuf.elim 0x4000000000000000 fun s => s.bsize * s.bavail % 2 ^ 64))
  | _, _ => none

theorem encodes_storageinfo (storageId : Nat) (flags : BitVec 32) (description : CString)
    (totalspace freespace : Nat) :
    Encodes maxsize (fun dst => dst
      |> poke16 maxsize (if hasFlag flags UMTP_STORAGE_REMOVABLE then MTP_STORAGE_REMOVABLE_RAM
          else MTP_STORAGE_FIXED_RAM)
      |> poke16 maxsize MTP_STORAGE_FILESYSTEM_HIERARCHICAL
      |> poke16 maxsize (if hasFlag flags UMTP_STORAGE_READONLY
          then MTP_STORAGE_READ_ONLY_WITHOUT_DELETE else MTP_STORAGE_READ_WRITE)
      |> poke32 maxsize (totalspace % 2 ^ 32)
      |> poke32 maxsize (totalspace / 2 ^ 32)
      |> poke32 maxsize (freespace % 2 ^ 32)
      |> poke32 maxsize (freespace / 2 ^ 32)
      |> poke32 maxsize 0x40000000
      |> pokeString maxsize description
      |> pokeString maxsize (volumeIdent storageId))
      (storageinfoBytes storageId flags description totalspace freespace) :=
  (encodes_pokeString _).comp <| (encodes_pokeString _).comp <| (encodes_poke32 _).comp <|
    (encodes_poke64 freespace).comp <| (encodes_poke64 totalspace).comp <|
    (encodes_poke16 _).comp <| (encodes_poke16 _).comp (encodes_poke16 _)

theorem yields_storageinfo (storageId : Nat) :
    Yields maxsize buffer
        (exec (World.handle os) (buildStorageinfoDataset buffer maxsize storageId) w).1
        (storageinfo os w storageId) := by
  unfold buildStorageinfoDataset storageinfo
  rw [exec_getCtx_bind]
  dsimp only
  generalize w.ctx.mtpGetStorageDescription storageId = description
  generalize w.ctx.mtpGetStorageRoot storageId = path
  cases description with
  | none => rfl
  | some description =>
      cases path with
      | none => rfl
      | some path =>
          refine (encodes_storageinfo storageId _ _ _ _).yields ?_
          simp only [storageinfoBytes, List.append_assoc]
          exact append_ne_nil (by decide) _

def batteryLevel (os : Os σ) (w : World σ) : Nat :=
  (min (max ((os.query (.batteryLevel w.ctx.usbCfg.batteryCapacity) w.os).getD 0) 0) 100).toNat

-- The value of a device property now.
def currentValue (os : Os σ) (w : World σ) (row : ProfileProperty) : Nat :=
  if row.propCode = MTP_DEVICE_PROPERTY_BATTERY_LEVEL then batteryLevel os w
  else if row.propCode = MTP_DEVICE_PROPERTY_PERCEIVED_DEVICE_TYPE then
    w.ctx.usbCfg.perceivedDeviceType
  else row.defaultValue

-- The description of a device property. The battery level has a range.
def devicePropertyBytes (row : ProfileProperty) (current : Nat) : List UInt8 :=
  littleEndian 2 row.propCode ++ littleEndian 2 row.dataType ++ littleEndian 1 row.getset ++
    valueBytes row.dataType row.defaultValue ++ valueBytes row.dataType current ++
    littleEndian 1 row.formFlag ++
    if row.propCode = MTP_DEVICE_PROPERTY_BATTERY_LEVEL then [0, 100, 1] else []

def deviceProperty (os : Os σ) (w : World σ) (propertyId : Nat) : Option (List UInt8) :=
  if isDevicePropertySupported w.ctx propertyId then
    (devProperties.find? fun row => row.propCode == propertyId).map fun row =>
      devicePropertyBytes row (currentValue os w row)
  else none

theorem encodes_deviceProperty (row : ProfileProperty) (current : Nat) :
    Encodes maxsize (fun dst =>
      let dst := dst
        |> poke16 maxsize row.propCode
        |> poke16 maxsize row.dataType
        |> poke08 maxsize row.getset
        |> pokeValue maxsize row.dataType row.defaultValue
        |> pokeValue maxsize row.dataType current
        |> poke08 maxsize row.formFlag
      if row.propCode = MTP_DEVICE_PROPERTY_BATTERY_LEVEL then
        dst |> poke08 maxsize 0 |> poke08 maxsize 100 |> poke08 maxsize 1
      else dst) (devicePropertyBytes row current) := by
  have hform : Encodes maxsize (fun dst =>
      if row.propCode = MTP_DEVICE_PROPERTY_BATTERY_LEVEL then
        dst |> poke08 maxsize 0 |> poke08 maxsize 100 |> poke08 maxsize 1
      else dst) (if row.propCode = MTP_DEVICE_PROPERTY_BATTERY_LEVEL then [0, 100, 1] else []) :=
    encodes_ite ((encodes_poke08 1).comp <| (encodes_poke08 100).comp (encodes_poke08 0)) encodes_id
  exact hform.comp <| (encodes_poke08 _).comp <| (encodes_pokeValue _ _).comp <|
    (encodes_pokeValue _ _).comp <| (encodes_poke08 _).comp <| (encodes_poke16 _).comp
      (encodes_poke16 _)

theorem devicePropertyBytes_ne_nil (row : ProfileProperty) (current : Nat) :
    devicePropertyBytes row current ≠ [] := by
  simp only [devicePropertyBytes, List.append_assoc]
  exact append_ne_nil (by decide) _

-- The builder writes a row as described.
theorem exec_deviceProperty {row : ProfileProperty} (hrow : row ∈ lastProperty :: devProperties)
    (hsupported : isDevicePropertySupported w.ctx row.propCode = true)
    (hfound : (devProperties.find? fun r => r.propCode == row.propCode).getD lastProperty = row) :
    Yields maxsize buffer
      (exec (World.handle os) (buildDevicePropertiesDataset buffer maxsize row.propCode) w).1
      (some (devicePropertyBytes row (currentValue os w row))) := by
  have hencodes := @encodes_deviceProperty maxsize row (currentValue os w row)
  have hyields := @Encodes.yields _ _ _ buffer hencodes (devicePropertyBytes_ne_nil row _)
  unfold buildDevicePropertiesDataset
  rw [exec_getCtx_bind, hfound]
  dsimp only
  rw [if_pos ⟨rfl, hsupported⟩]
  simp only [devProperties, List.mem_cons, List.not_mem_nil, or_false] at hrow
  rcases hrow with rfl | rfl | rfl | rfl | rfl
  · exact hyields
  · exact hyields
  · exact hyields
  · exact hyields
  · exact hyields

theorem yields_deviceProperty (propertyId : Nat) :
    Yields maxsize buffer
      (exec (World.handle os) (buildDevicePropertiesDataset buffer maxsize propertyId) w).1
      ((deviceProperty os w propertyId).or
        (if propertyId = 0xFFFF then some (devicePropertyBytes lastProperty 0) else none)) := by
  unfold deviceProperty
  cases hfind : devProperties.find? fun row => row.propCode == propertyId with
  | some row =>
      have hrow := List.mem_of_find?_eq_some hfind
      have hcode : row.propCode = propertyId := by simpa using List.find?_some hfind
      subst hcode
      have hfound : (devProperties.find? fun r => r.propCode == row.propCode).getD lastProperty =
          row := by rw [hfind, Option.getD_some]
      by_cases hsupported : isDevicePropertySupported w.ctx row.propCode = true
      · rw [if_pos hsupported]
        exact exec_deviceProperty (List.mem_cons_of_mem _ hrow) hsupported hfound
      · have hlast : row.propCode ≠ 0xFFFF := by
          have hcodes : ∀ row ∈ devProperties, row.propCode ≠ 0xFFFF := by decide
          exact hcodes row hrow
        unfold buildDevicePropertiesDataset
        rw [exec_getCtx_bind, hfound, if_neg hsupported, Option.none_or, if_neg hlast]
        dsimp only
        rw [if_neg fun h => hsupported h.2]
        rfl
  | none =>
      rw [Option.map_none, ite_self, Option.none_or]
      split
      · rename_i hlast
        subst hlast
        exact @exec_deviceProperty _ os w _ _ lastProperty List.mem_cons_self rfl rfl
      · rename_i hlast
        unfold buildDevicePropertiesDataset
        rw [exec_getCtx_bind, hfind, Option.getD_none]
        dsimp only
        rw [if_neg fun h => hlast h.1.symm]
        rfl

def deviceValue (os : Os σ) (w : World σ) (propCode : Nat) : Option (List UInt8) :=
  if propCode = MTP_DEVICE_PROPERTY_BATTERY_LEVEL then
    if isDevicePropertySupported w.ctx propCode then some (littleEndian 1 (batteryLevel os w))
    else none
  else if propCode = MTP_DEVICE_PROPERTY_PERCEIVED_DEVICE_TYPE then
    if isDevicePropertySupported w.ctx propCode then
      some (littleEndian 4 w.ctx.usbCfg.perceivedDeviceType)
    else none
  else if propCode = MTP_DEVICE_PROPERTY_DEVICE_FRIENDLY_NAME then
    some (stringBytes w.ctx.usbCfg.usbStringProduct)
  else if propCode = MTP_DEVICE_PROPERTY_SYNCHRONIZATION_PARTNER then
    some (stringBytes w.ctx.usbCfg.synchronizationPartner)
  else
    none

theorem yields_devicePropValue (propCode : Nat) :
    Yields maxsize buffer
      (exec (World.handle os) (buildDevicePropValueDataset buffer maxsize propCode) w).1
      (deviceValue os w propCode) := by
  unfold buildDevicePropValueDataset deviceValue
  rw [exec_getCtx_bind]
  split
  · split
    · exact (encodes_poke08 _).yields (littleEndian_ne_nil (by decide) _)
    · rfl
  split
  · split
    · exact (encodes_poke32 _).yields (littleEndian_ne_nil (by decide) _)
    · rfl
  split
  · exact (encodes_pokeString _).yields (stringBytes_ne_nil _)
  split
  · exact (encodes_pokeString _).yields (stringBytes_ne_nil _)
  · rfl

theorem deviceValue_ne_nil (propCode : Nat) : deviceValue os w propCode ≠ some [] := by
  have hnumber : ∀ len data : Nat, 0 < len → some (littleEndian len data) ≠ some [] :=
    fun len data hlen h => littleEndian_ne_nil hlen data (Option.some_inj.mp h)
  have hstring : ∀ str, some (stringBytes str) ≠ some [] := fun str h =>
    stringBytes_ne_nil str (Option.some_inj.mp h)
  unfold deviceValue
  split
  · split
    · exact hnumber _ _ (by decide)
    · exact nofun
  split
  · split
    · exact hnumber _ _ (by decide)
    · exact nofun
  split
  · exact hstring _
  split
  · exact hstring _
  · exact nofun

-- The entry and the dates that a dataset about an object on disk is made of: the
-- size is that of the file, kept in the entry.
def statted (os : Os σ) (w : World σ) (p : EntryPtr) : Option (FsEntry × CString) :=
  let run := exec (World.handle os) (statEntry p) w
  run.1.map fun stat => ({ w.ctx.entry p with size := stat.size },
    formatDate ((os.query (.localtime stat.mtime) run.2.os).getD defaultDate))

theorem exec_statEntry_ctx (p : EntryPtr) :
    (exec (World.handle os) (statEntry p) w).2.ctx = w.ctx := by
  have hlooks : Looks (statEntry p) := by
    have hstat : ∀ path, Looks (M.query (.stat64 path)) := fun path => looks_query _
    refine uses_bind (looks_entryPath p) fun path => ?_
    grind
  exact looks_exec hlooks w

-- A builder that looks at the file, keeps its size and goes on with the dates.
theorem exec_statted (hsession : w.ctx.fsDb.isSome = true) (p : EntryPtr) {α : Type} (nothing : α)
    (build : FsEntry → CString → CString → α) :
    (exec (World.handle os) (do
      match ← statEntry p with
      | some stat =>
        M.db_ (.setSize p stat.size)
        let created ← dateString stat.mtime
        let modified ← dateString stat.mtime
        let ctx ← M.getCtx
        return build (ctx.entry p) created modified
      | none => return nothing) w).1 =
      (statted os w p).elim nothing fun found => build found.1 found.2 found.2 := by
  have hctx := @exec_statEntry_ctx _ os w p
  rw [bind_eq, exec_bind, statted]
  generalize exec (World.handle os) (statEntry p) w = run at hctx ⊢
  obtain ⟨stat, w'⟩ := run
  dsimp only at hctx ⊢
  cases stat with
  | none => rfl
  | some stat =>
      have hentry : (w'.ctx.applyDb (.setSize p stat.size)).entry p =
          { w.ctx.entry p with size := stat.size } := by
        rw [hctx]
        obtain ⟨db, hdb⟩ := Option.isSome_iff_exists.mp hsession
        rw [MtpCtx.entry, MtpCtx.entry, MtpCtx.applyDb, MtpCtx.db, MtpCtx.db, hdb]
        exact db.setEntry_pool_self p _
      rw [Option.map_some, Option.elim_some, ← hentry]
      rfl

theorem yields_objectinfo (hsession : w.ctx.fsDb.isSome = true) (p : EntryPtr) :
    Yields maxsize buffer (exec (World.handle os) (buildObjectinfoDataset buffer maxsize p) w).1
      ((statted os w p).map fun found => objectinfoBytes found.1 found.2 found.2) := by
  have hexec : (exec (World.handle os) (buildObjectinfoDataset buffer maxsize p) w).1 =
      (statted os w p).elim (buffer, 0) fun found =>
        objectinfo maxsize found.1 found.2 found.2 (buffer, 0) :=
    exec_statted hsession p (buffer, 0) fun entry created modified =>
      objectinfo maxsize entry created modified (buffer, 0)
  rw [hexec]
  cases statted os w p with
  | none => rfl
  | some found =>
      rw [Option.elim_some, Option.map_some]
      exact (encodes_objectinfo found.1 found.2 found.2).yields
        (objectinfoBytes_ne_nil found.1 found.2 found.2)

end Datasets

section Sending

variable {σ α : Type} {os : Os σ}

-- The commands a dataset is built with.
def Cmd.IsBuilding : Cmd → Prop
  | getCtx | query _ | act .malloc | db (.setSize _ _) => True
  | _ => False

theorem isBuilding_builds : Builds Cmd.IsBuilding where
  getCtx := trivial
  query _ := trivial
  malloc := trivial

theorem building_batteryLevel : Uses AnyAnswer Cmd.IsBuilding getBatteryLevel :=
  isBuilding_builds.getCtx_bind fun _ => uses_bind (uses_cmd trivial) fun _ => uses_pure _

theorem building_deviceProperties (buffer : Buffer) (maxsize : Int) (propertyId : Nat) :
    Uses AnyAnswer Cmd.IsBuilding (buildDevicePropertiesDataset buffer maxsize propertyId) := by
  have hlevel := building_batteryLevel
  unfold buildDevicePropertiesDataset
  refine isBuilding_builds.getCtx_bind fun ctx => ?_
  grind

-- Building sends nothing and leaves the write buffer alone.
theorem exec_building {prog : M α} (hp : Uses AnyAnswer Cmd.IsBuilding prog)
    (s : World σ × Stream) :
    (exec (stream os) prog s).2.2 = s.2 ∧
      (exec (stream os) prog s).2.1.ctx.wrbuffer = s.1.ctx.wrbuffer ∧
      (exec (stream os) prog s).2.1.ctx.usbWrBufferMaxSize = s.1.ctx.usbWrBufferMaxSize := by
  have hkeeps := @ensures_of_runs _ _ _ _ (stream os) (fun _ _ => True) _
    _ (fun s' => s'.2 = s.2 ∧ s'.1.ctx.wrbuffer = s.1.ctx.wrbuffer ∧
      s'.1.ctx.usbWrBufferMaxSize = s.1.ctx.usbWrBufferMaxSize) _ _ hp fun s' c hs' hc _ => by
    refine ⟨trivial, ?_⟩
    cases c with
    | act a => cases a <;> first | exact hc.elim | exact hs'
    | db op => cases op <;> first | exact hc.elim | exact hs'
    | _ => first | exact hc.elim | exact hs'
  exact (hkeeps s ⟨rfl, rfl, rfl⟩ fun _ _ => trivial).2

-- A data container.
def dataContainer (hdr : Buffer) (payload : List UInt8) : List UInt8 :=
  packetHeader (MTP_HEADER_SIZE + payload.length) MTP_CONTAINER_TYPE_DATA (hdrCode hdr)
    (hdrTxId hdr) ++ payload

-- The state a dataset is built in: the header is in the write buffer.
def startedData (hdr : Buffer) (w : World σ) : World σ :=
  ⟨{ w.ctx with wrbuffer := (buildResponse (hdrTxId hdr) MTP_CONTAINER_TYPE_DATA (hdrCode hdr)
      w.ctx.wrbuffer w.ctx.usbWrBufferMaxSize []).1 }, w.os⟩

-- What a builder makes behind the header, and the state after it.
def builtData (os : Os σ) (build : Buffer → Int → M Poked) (w : World σ) : Poked × World σ :=
  exec (World.handle os) (build (w.ctx.wrbuffer.shift MTP_HEADER_SIZE)
    (w.ctx.usbWrBufferMaxSize - MTP_HEADER_SIZE)) w

-- The reply to a request whose builder yields a dataset: it is sent if it fits
-- and nothing is cancelled.
def DatasetReply (hdr : Buffer) (maxsize : Nat) (cancelled : Bool) (code : Nat)
    (sent : List UInt8) : Option (List UInt8) → Prop
  | some bytes =>
    if MTP_HEADER_SIZE + bytes.length < maxsize then
      code = MTP_RESPONSE_OK ∧ sent = if cancelled then [] else dataContainer hdr bytes
    else IsErrorCode code ∧ sent = []
  | none => IsErrorCode code ∧ sent = []

theorem Buffer.read_unshift (buffer part : Buffer) (offset len : Nat) :
    (buffer.unshift offset part).read 0 (offset + len) =
      buffer.read 0 offset ++ part.read 0 len := by
  rw [read_add]
  congr 1
  · refine read_congr fun i _ hi => ?_
    rw [unshift, if_pos (by omega)]
  · rw [read, read]
    refine List.map_congr_left fun i _ => ?_
    rw [unshift, if_neg (by omega)]
    congr 1
    omega

-- The container as it is read from the write buffer.
theorem read_dataContainer {hdr : Buffer} {buffer : Buffer} {maxsize : Nat}
    {bytes : List UInt8} (hroom : MTP_HEADER_SIZE + bytes.length < maxsize)
    (hmax : maxsize < 2 ^ 31) :
    let started := (buildResponse (hdrTxId hdr) MTP_CONTAINER_TYPE_DATA (hdrCode hdr) buffer
      maxsize []).1
    (poke32 maxsize (u32 (MTP_HEADER_SIZE + bytes.length)) (started.unshift MTP_HEADER_SIZE
        ((started.shift MTP_HEADER_SIZE).write 0 bytes), 0)).1.read 0
      (MTP_HEADER_SIZE + bytes.length) = dataContainer hdr bytes := by
  intro started
  have hheader : MTP_HEADER_SIZE = 12 := rfl
  obtain ⟨rest, hrest⟩ : ∃ rest, ∀ length, packetHeader length MTP_CONTAINER_TYPE_DATA
      (hdrCode hdr) (hdrTxId hdr) = littleEndian 4 length ++ rest :=
    ⟨littleEndian 2 MTP_CONTAINER_TYPE_DATA ++ littleEndian 2 (hdrCode hdr) ++
      littleEndian 4 (hdrTxId hdr), fun length => by simp only [packetHeader, List.append_assoc]⟩
  obtain ⟨length, hlength⟩ : ∃ length, length = MTP_HEADER_SIZE + bytes.length := ⟨_, rfl⟩
  have hstarted : started.read 0 MTP_HEADER_SIZE = littleEndian 4 MTP_HEADER_SIZE ++ rest := by
    have hself := Buffer.read_write_self buffer 0 (packetHeader MTP_HEADER_SIZE
      MTP_CONTAINER_TYPE_DATA (hdrCode hdr) (hdrTxId hdr))
    rw [length_packetHeader, hrest] at hself
    rw [← hself, ← hrest]
    change (buildResponse _ _ _ _ _ _).1.read _ _ = _
    rw [buildResponse_eq, if_pos (by omega)]
  have hpart := (started.shift MTP_HEADER_SIZE).read_write_self 0 bytes
  have hwhole := Buffer.read_unshift started ((started.shift MTP_HEADER_SIZE).write 0 bytes)
    MTP_HEADER_SIZE bytes.length
  rw [hpart, hstarted, ← hlength] at hwhole
  have hu32 : u32 (MTP_HEADER_SIZE + bytes.length) = length := by
    rw [u32]
    omega
  have hpoke := (@encodes_poke32 maxsize length).fits (started.unshift MTP_HEADER_SIZE
    ((started.shift MTP_HEADER_SIZE).write 0 bytes)) 0 (by rw [length_littleEndian]; omega)
  rw [List.append_assoc] at hwhole
  have hover := @Buffer.read_write_over _ _ (littleEndian 4 length) _ _ hwhole
    (by rw [length_littleEndian, length_littleEndian])
  rw [hu32, dataContainer, hrest, ← hlength, List.append_assoc, ← hover]
  exact congrArg (fun out : Poked => out.1.read 0 length) hpoke

theorem exec_stream_getCtx_bind (f : MtpCtx → M α) (s : World σ × Stream) :
    exec (stream os) (M.getCtx >>= f) s = exec (stream os) (f s.1.ctx) s := rfl

-- A packet that is not cancelled is added to what was sent.
theorem sent_writeUsb (bytes : List UInt8) (s : World σ × Stream) :
    (exec (stream os) (writeUsb .bulkIn bytes) s).2.2.sent =
      s.2.sent ++ if (os.act .getCancelReq s.1.os).1 then [] else bytes := by
  have hcancel : exec (stream os) (M.act .getCancelReq) s =
      ((os.act .getCancelReq s.1.os).1, ⟨s.1.ctx, (os.act .getCancelReq s.1.os).2⟩, s.2) := rfl
  rw [writeUsb, bind_eq, exec_bind, hcancel]
  dsimp only
  split
  · simp
  · rfl

theorem sent_checkAndSendUsbZlp (size : Int) (s : World σ × Stream) :
    (exec (stream os) (checkAndSendUsbZlp size) s).2.2.sent = s.2.sent := by
  rw [checkAndSendUsbZlp, exec_stream_getCtx_bind]
  split
  · rw [sent_writeUsb, ite_self, List.append_nil]
  · rfl

theorem sent_sendData (sz : Int) (s : World σ × Stream) :
    (exec (stream os) (sendData sz) s).2.2.sent = s.2.sent ++
      if (os.act .getCancelReq s.1.os).1 then []
      else (poke32 s.1.ctx.usbWrBufferMaxSize (u32 sz) (s.1.ctx.wrbuffer, 0)).1.read 0
      sz.toNat := by
  rw [sendData, exec_stream_getCtx_bind, bind_eq, exec_bind, bind_eq, exec_bind,
    sent_checkAndSendUsbZlp, sent_writeUsb]
  rfl

variable {w : World σ} {flow : Stream} {hdr : Buffer} {empty : Option Nat}
  {build : Buffer → Int → M Poked} {dataset : Option (List UInt8)}

-- Without room for a header there is an error.
theorem refused_sendDataset (hroom : ¬MTP_HEADER_SIZE < w.ctx.usbWrBufferMaxSize) :
    exec (stream os) (sendDataset hdr empty build) (w, flow) =
      ((MTP_RESPONSE_GENERAL_ERROR, []), startedData hdr w, flow) := by
  rw [sendDataset, bind_eq, exec_bind, exec_startData]
  dsimp only
  rw [if_neg (by simpa using hroom)]
  rfl

-- What comes after the building.
def replyDataset (empty : Option Nat) (out : Poked) : M Response := do
  let ctx ← M.getCtx
  M.cmd (.setWrbuffer (ctx.wrbuffer.unshift MTP_HEADER_SIZE out.1))
  if out.2 < 0 then
    return (MTP_RESPONSE_GENERAL_ERROR, [])
  else
    match empty with
    | some code =>
      if 0 < out.2 then
        sendData (MTP_HEADER_SIZE + out.2)
        return (MTP_RESPONSE_OK, [])
      else
        return (code, [])
    | none =>
      sendData (MTP_HEADER_SIZE + out.2)
      return (MTP_RESPONSE_OK, [])

theorem exec_replyDataset (out : Poked) (s : World σ × Stream) (hsent : s.2.sent = []) :
    let put : World σ × Stream := (⟨{ s.1.ctx with
      wrbuffer := s.1.ctx.wrbuffer.unshift MTP_HEADER_SIZE out.1 }, s.1.os⟩, s.2)
    let run := exec (stream os) (replyDataset empty out) s
    (out.2 < 0 ∧ run.1.1 = MTP_RESPONSE_GENERAL_ERROR ∧ run.2.2.sent = []) ∨
      (out.2 = 0 ∧ empty = some run.1.1 ∧ run.2.2.sent = []) ∨
      0 ≤ out.2 ∧ (out.2 = 0 → empty = none) ∧ run.1.1 = MTP_RESPONSE_OK ∧
        run.2.2.sent = (exec (stream os) (sendData (MTP_HEADER_SIZE + out.2)) put).2.2.sent := by
  intro put run
  have hrun : run = exec (stream os) (if out.2 < 0 then
      return (MTP_RESPONSE_GENERAL_ERROR, [])
    else
      match empty with
      | some code =>
        if 0 < out.2 then do
          sendData (MTP_HEADER_SIZE + out.2)
          return (MTP_RESPONSE_OK, [])
        else
          return (code, [])
      | none => do
        sendData (MTP_HEADER_SIZE + out.2)
        return (MTP_RESPONSE_OK, [])) put := rfl
  have hsending : exec (stream os) (do
      sendData (MTP_HEADER_SIZE + out.2)
      return (MTP_RESPONSE_OK, ([] : List Nat))) put = ((MTP_RESPONSE_OK, []),
        (exec (stream os) (sendData (MTP_HEADER_SIZE + out.2)) put).2) := by
    rw [bind_eq, exec_bind]
    rfl
  rw [hrun]
  split
  · rename_i hneg
    exact Or.inl ⟨hneg, rfl, hsent⟩
  · rename_i hneg
    split
    · rename_i code
      split
      · rename_i hpos
        rw [hsending]
        exact Or.inr (Or.inr ⟨by omega, fun h => by omega, rfl, rfl⟩)
      · exact Or.inr (Or.inl ⟨by omega, rfl, hsent⟩)
    · rw [hsending]
      exact Or.inr (Or.inr ⟨by omega, fun _ => rfl, rfl, rfl⟩)

theorem reply_sendDataset
    (hbuild : ∀ buffer maxsize, Uses AnyAnswer Cmd.IsBuilding (build buffer maxsize))
    (hroom : MTP_HEADER_SIZE < w.ctx.usbWrBufferMaxSize) (hmax : w.ctx.usbWrBufferMaxSize < 2 ^ 31)
    (hyields : Yields (w.ctx.usbWrBufferMaxSize - MTP_HEADER_SIZE)
      ((startedData hdr w).ctx.wrbuffer.shift MTP_HEADER_SIZE)
      (builtData os build (startedData hdr w)).1 dataset)
    (hempty : ∀ code ∈ empty, IsErrorCode code) (hnone : dataset = none → empty.isSome = true)
    (hsome : dataset = some [] → empty = none) (hflow : flow.sent = []) :
    DatasetReply hdr w.ctx.usbWrBufferMaxSize
      (os.act .getCancelReq (builtData os build (startedData hdr w)).2.os).1
      (exec (stream os) (sendDataset hdr empty build) (w, flow)).1.1
      (exec (stream os) (sendDataset hdr empty build) (w, flow)).2.2.sent dataset := by
  obtain ⟨hflow', hbuffer, hsize⟩ := @exec_building _ _ os _
    (hbuild ((startedData hdr w).ctx.wrbuffer.shift MTP_HEADER_SIZE)
      ((startedData hdr w).ctx.usbWrBufferMaxSize - MTP_HEADER_SIZE)) (startedData hdr w, flow)
  have hbuilt := @exec_stream _ os _ (build
    ((startedData hdr w).ctx.wrbuffer.shift MTP_HEADER_SIZE)
      ((startedData hdr w).ctx.usbWrBufferMaxSize - MTP_HEADER_SIZE)) (startedData hdr w, flow)
  have hrun : exec (stream os) (sendDataset hdr empty build) (w, flow) =
      exec (stream os) (build ((startedData hdr w).ctx.wrbuffer.shift MTP_HEADER_SIZE)
        ((startedData hdr w).ctx.usbWrBufferMaxSize - MTP_HEADER_SIZE) >>= replyDataset empty)
          (startedData hdr w, flow) := by
    rw [sendDataset, bind_eq, exec_bind, exec_startData]
    dsimp only
    rw [if_pos (by simpa using hroom)]
    rfl
  rw [hrun, bind_eq, exec_bind]
  unfold builtData at hyields ⊢
  generalize exec (stream os) (build ((startedData hdr w).ctx.wrbuffer.shift MTP_HEADER_SIZE)
    ((startedData hdr w).ctx.usbWrBufferMaxSize - MTP_HEADER_SIZE)) (startedData hdr w, flow) =
      built at hflow' hbuffer hsize hbuilt ⊢
  generalize exec (World.handle os) (build ((startedData hdr w).ctx.wrbuffer.shift MTP_HEADER_SIZE)
    ((startedData hdr w).ctx.usbWrBufferMaxSize - MTP_HEADER_SIZE)) (startedData hdr w) =
      plain at hbuilt hyields ⊢
  obtain ⟨out, s⟩ := built
  obtain ⟨rfl, hs⟩ := hbuilt
  dsimp only at hflow' hbuffer hsize hs ⊢
  rw [← hs]
  have hreply := @exec_replyDataset _ os empty plain.1 s (by rw [hflow', hflow])
  dsimp only at hreply
  generalize exec (stream os) (replyDataset empty plain.1) s = run at hreply ⊢
  cases dataset with
  | none =>
      have hzero : plain.1.2 = 0 := congrArg Prod.snd hyields
      rcases hreply with ⟨hneg, -⟩ | ⟨-, hcode, hnothing⟩ | ⟨-, hno, -⟩
      · omega
      · exact ⟨hempty _ hcode, hnothing⟩
      · rw [hno hzero] at hnone
        exact absurd (hnone rfl) (by simp)
  | some bytes =>
      obtain ⟨hfits, hover⟩ := hyields
      rw [DatasetReply]
      split
      · rename_i hsmall
        have hout := hfits (by omega)
        have hlen : plain.1.2 = bytes.length := congrArg Prod.snd hout
        rcases hreply with ⟨hneg, -⟩ | ⟨hzero, hcode, -⟩ | ⟨-, -, hcode, hsending⟩
        · omega
        · have hnil : bytes = [] := List.length_eq_zero_iff.mp (by omega)
          rw [hsome (by rw [hnil])] at hcode
          cases hcode
        · refine ⟨hcode, ?_⟩
          have hcontainer := @read_dataContainer hdr w.ctx.wrbuffer _ _ hsmall hmax
          rw [hsending, sent_sendData]
          dsimp only
          rw [hflow', hflow, List.nil_append, hbuffer, hsize, hout]
          exact congrArg (fun sent => if (os.act .getCancelReq s.1.os).1 then [] else sent)
            hcontainer
      · rename_i hlarge
        rcases hreply with ⟨-, hcode, hnothing⟩ | ⟨hzero, -⟩ | ⟨hpos, -⟩
        · exact ⟨hcode ▸ (by decide), hnothing⟩
        · have hneg := hover (by omega)
          omega
        · have hneg := hover (by omega)
          omega

end Sending

-- The requests that are answered with a dataset.
inductive DatasetKind where
  | objectInfo | objectPropValue | objectPropList | objectPropDesc | objectPropsSupported
  | devicePropDesc | devicePropValue | storageInfo
deriving DecidableEq, Repr

namespace DatasetKind

def op : DatasetKind → Buffer → M Response
  | objectInfo => mtpOpGetObjectInfo
  | objectPropValue => mtpOpGetObjectPropValue
  | objectPropList => mtpOpGetObjectPropList
  | objectPropDesc => mtpOpGetObjectPropDesc
  | objectPropsSupported => mtpOpGetObjectPropsSupported
  | devicePropDesc => mtpOpGetDevicePropDesc
  | devicePropValue => mtpOpGetDevicePropValue
  | storageInfo => mtpOpGetStorageInfo

def locks : DatasetKind → Bool
  | objectPropsSupported | storageInfo => false
  | _ => true

-- The response to a dataset that is empty, where there is one.
def empty : DatasetKind → Option Nat
  | objectPropDesc | devicePropDesc => some MTP_RESPONSE_OPERATION_NOT_SUPPORTED
  | devicePropValue => some MTP_RESPONSE_DEVICE_PROP_NOT_SUPPORTED
  | _ => none

-- The builder of a request about an entry, or about none.
def build (hdr : Buffer) (p : EntryPtr) : DatasetKind → Buffer → Int → M Poked
  | objectInfo => fun buffer maxsize => buildObjectinfoDataset buffer maxsize p
  | objectPropValue => fun buffer maxsize => do
    let ctx ← M.getCtx
    return buildObjectPropValueDataset ctx buffer maxsize (param hdr 0) (param hdr 1)
  | objectPropList => fun buffer maxsize =>
    buildObjectproplistDataset buffer maxsize p (param hdr 0) (param hdr 2)
  | objectPropDesc => fun buffer maxsize =>
    return buildPropertiesDataset buffer maxsize (param hdr 0) (param hdr 1)
  | objectPropsSupported => fun buffer maxsize =>
    return buildPropertiesSupportedDataset buffer maxsize (param hdr 0)
  | devicePropDesc => fun buffer maxsize =>
    buildDevicePropertiesDataset buffer maxsize (param hdr 0)
  | devicePropValue => fun buffer maxsize =>
    buildDevicePropValueDataset buffer maxsize (param hdr 0)
  | storageInfo => fun buffer maxsize => buildStorageinfoDataset buffer maxsize (param hdr 0)

-- What the parameters of a request refer to is there.
def Known (ctx : MtpCtx) (hdr : Buffer) (p : EntryPtr) : DatasetKind → Prop
  | objectInfo | objectPropValue => ctx.getEntryByHandle (param hdr 0) = some p
  | objectPropList => ¬(param hdr 2 = 0 ∧ param hdr 3 = 0) ∧
    ctx.getEntryByHandle (param hdr 0) = some p
  | storageInfo => (ctx.mtpGetStorageRoot (param hdr 0)).isSome = true
  | _ => True

theorem uses_build (kind : DatasetKind) (hdr : Buffer) (p : EntryPtr) (buffer : Buffer)
    (maxsize : Int) : Uses AnyAnswer Cmd.IsBuilding (kind.build hdr p buffer maxsize) := by
  have hquery : ∀ q, Uses AnyAnswer Cmd.IsBuilding (M.query q) := fun _ => uses_cmd trivial
  have hdate : ∀ time, Uses AnyAnswer Cmd.IsBuilding (dateString time) := fun time =>
    uses_bind (hquery _) fun _ => uses_pure _
  have hstat : Uses AnyAnswer Cmd.IsBuilding (statEntry p) := by
    refine uses_bind (isBuilding_builds.entryPath p) fun path => ?_
    split
    · exact hquery _
    · exact uses_pure _
  have hstatted : ∀ f : MtpCtx → CString → CString → Poked, Uses AnyAnswer Cmd.IsBuilding (do
      match ← statEntry p with
      | some stat =>
        M.db_ (.setSize p stat.size)
        let created ← dateString stat.mtime
        let modified ← dateString stat.mtime
        let ctx ← M.getCtx
        return f ctx created modified
      | none => return (buffer, 0)) := by
    intro f
    refine uses_bind hstat fun stat => ?_
    split
    · exact uses_bind (uses_db_ trivial) fun _ => uses_bind (hdate _) fun _ =>
        uses_bind (hdate _) fun _ => isBuilding_builds.getCtx_bind fun _ => uses_pure _
    · exact uses_pure _
  cases kind with
  | objectInfo =>
      exact hstatted fun ctx created modified =>
        objectinfo maxsize (ctx.entry p) created modified (buffer, 0)
  | objectPropValue => exact isBuilding_builds.getCtx_bind fun _ => uses_pure _
  | objectPropList =>
      exact hstatted fun ctx created modified => objectproplist maxsize (ctx.entry p)
        (param hdr 0) created modified (param hdr 2) (buffer, 0)
  | objectPropDesc => exact uses_pure _
  | objectPropsSupported => exact uses_pure _
  | devicePropDesc =>
      exact building_deviceProperties _ _ _
  | devicePropValue =>
      refine isBuilding_builds.getCtx_bind fun ctx => ?_
      split
      · split
        · exact uses_bind building_batteryLevel fun _ => uses_pure _
        · exact uses_pure _
      split
      · split
        · exact uses_pure _
        · exact uses_pure _
      split
      · exact uses_pure _
      split
      · exact uses_pure _
      · exact uses_pure _
  | storageInfo =>
      refine isBuilding_builds.getCtx_bind fun ctx => ?_
      dsimp only
      split
      · exact uses_bind (hquery _) fun _ => uses_pure _
      · exact uses_pure _

section Request

variable {σ : Type}

-- The complete dataset of a request, in the state it is built in. A list of
-- properties has an element.
def dataset (os : Os σ) (hdr : Buffer) (w : World σ) : DatasetKind → Option (List UInt8)
  | objectInfo => (w.ctx.getEntryByHandle (param hdr 0)).bind fun p =>
    (statted os w p).map fun found => objectinfoBytes found.1 found.2 found.2
  | objectPropValue => (w.ctx.getEntryByHandle (param hdr 0)).bind fun p =>
    objectPropBytes (w.ctx.entry p) (param hdr 1)
  | objectPropList => (w.ctx.getEntryByHandle (param hdr 0)).bind fun p =>
    (statted os w p).bind fun found =>
      if listElements found.1 (param hdr 0) found.2 found.2 (param hdr 2) = [] then none
      else some (objectproplistBytes found.1 (param hdr 0) found.2 found.2 (param hdr 2))
  | objectPropDesc => (propertyRow (param hdr 0) (param hdr 1)).map propertyBytes
  | objectPropsSupported => formatBytes (param hdr 0)
  | devicePropDesc => deviceProperty os w (param hdr 0)
  | devicePropValue => deviceValue os w (param hdr 0)
  | storageInfo => storageinfo os w (param hdr 0)

-- What is made where there is no dataset, and sent with OK: nothing, the empty
-- list, or the description of the row that ends the table.
def stray (os : Os σ) (hdr : Buffer) (w : World σ) : DatasetKind → Option (List UInt8)
  | objectPropList => (w.ctx.getEntryByHandle (param hdr 0)).bind fun p =>
    some ((statted os w p).elim [] fun _ => littleEndian 4 0)
  | objectPropDesc => if param hdr 0 = 0xFFFF then some (propertyBytes lastProperty) else none
  | devicePropDesc =>
    if param hdr 0 = 0xFFFF then some (devicePropertyBytes lastProperty 0) else none
  | devicePropValue => none
  | _ => some []

-- The request is not refused, and its dataset is built for the entry.
structure Asks (os : Os σ) (hdr : Buffer) (w : World σ) (p : EntryPtr) (kind : DatasetKind) :
    Prop where
  session : w.ctx.fsDb.isSome = true
  locked : kind.locks = true → (os.act .lockInotifyMutex w.os).1 = true
  known : kind.Known w.ctx hdr p
  room : MTP_HEADER_SIZE < w.ctx.usbWrBufferMaxSize

-- The state the dataset is built in.
def start (os : Os σ) (hdr : Buffer) (w : World σ) (kind : DatasetKind) : World σ :=
  startedData hdr ⟨w.ctx, if kind.locks then (os.act .lockInotifyMutex w.os).2 else w.os⟩

variable {os : Os σ} {hdr : Buffer} {w : World σ} {p : EntryPtr} {kind : DatasetKind}
  {maxsize : Int} {buffer : Buffer}

theorem yields_nothing (hmax : 0 < maxsize) : Yields maxsize buffer (buffer, 0) (some []) :=
  ⟨fun _ => by rw [Buffer.write_nil]; rfl, fun h => by rw [List.length_nil] at h; omega⟩

theorem yields_none_or {out : Poked} {dataset : Option (List UInt8)} (hmax : 0 < maxsize)
    (h : Yields maxsize buffer out dataset) : Yields maxsize buffer out (dataset.or (some [])) := by
  cases dataset with
  | some bytes => exact h
  | none =>
      have hout : out = (buffer, 0) := h
      rw [hout]
      exact yields_nothing hmax

theorem yields_build (hsession : w.ctx.fsDb.isSome = true) (hknown : kind.Known w.ctx hdr p)
    (hmax : 0 < maxsize) :
    Yields maxsize buffer (exec (World.handle os) (kind.build hdr p buffer maxsize) w).1
      ((kind.dataset os hdr w).or (kind.stray os hdr w)) := by
  cases kind with
  | objectInfo =>
      have hentry : w.ctx.getEntryByHandle (param hdr 0) = some p := hknown
      refine yields_none_or hmax ?_
      rw [dataset, hentry, Option.bind_some]
      exact yields_objectinfo hsession p
  | objectPropValue =>
      have hentry : w.ctx.getEntryByHandle (param hdr 0) = some p := hknown
      refine yields_none_or hmax ?_
      rw [build, exec_getCtx_bind, dataset, hentry, Option.bind_some]
      exact yields_objectPropValue w.ctx hentry (param hdr 1)
  | objectPropList =>
      have hentry : w.ctx.getEntryByHandle (param hdr 0) = some p := hknown.2
      have hexec : (exec (World.handle os) (buildObjectproplistDataset buffer maxsize p
          (param hdr 0) (param hdr 2)) w).1 = (statted os w p).elim (buffer, 0) fun found =>
            objectproplist maxsize found.1 (param hdr 0) found.2 found.2 (param hdr 2)
            (buffer, 0) :=
        exec_statted hsession p (buffer, 0) fun entry created modified => objectproplist maxsize
          entry (param hdr 0) created modified (param hdr 2) (buffer, 0)
      rw [build, hexec, dataset, stray, hentry, Option.bind_some,
        Option.bind_some]
      cases statted os w p with
      | none => exact yields_nothing hmax
      | some found =>
          have hyields := @yields_objectproplist maxsize buffer found.1 (param hdr 0) found.2
            found.2 (param hdr 2)
          rw [Option.bind_some, Option.elim_some, Option.elim_some]
          split
          · rename_i hnone
            rw [Option.none_or]
            rwa [objectproplistBytes, hnone] at hyields
          · exact hyields
  | objectPropDesc =>
      have hyields := @yields_properties maxsize buffer (param hdr 0) (param hdr 1)
      rw [Option.map_or, apply_ite (Option.map propertyBytes)] at hyields
      exact hyields
  | objectPropsSupported => exact yields_none_or hmax (yields_propertiesSupported _)
  | devicePropDesc => exact yields_deviceProperty _
  | devicePropValue =>
      rw [stray, Option.or_none]
      exact yields_devicePropValue _
  | storageInfo => exact yields_none_or hmax (yields_storageinfo _)

theorem dataset_none {kind : DatasetKind}
    (h : (kind.dataset os hdr w).or (kind.stray os hdr w) = none)
    (hknown : kind.Known w.ctx hdr p) : kind.empty.isSome = true := by
  have hstray := (Option.or_eq_none_iff.mp h).2
  cases kind with
  | objectPropList =>
      have hentry : w.ctx.getEntryByHandle (param hdr 0) = some p := hknown.2
      rw [stray, hentry] at hstray
      cases hstray
  | objectPropDesc | devicePropDesc | devicePropValue => rfl
  | objectInfo | objectPropValue | objectPropsSupported | storageInfo => cases hstray

theorem dataset_ne_nil {bytes : List UInt8} (h : kind.dataset os hdr w = some bytes) :
    bytes ≠ [] := by
  rintro rfl
  cases kind with
  | objectInfo =>
      obtain ⟨p, -, hset⟩ := Option.bind_eq_some_iff.mp h
      obtain ⟨found, -, hbytes⟩ := Option.map_eq_some_iff.mp hset
      exact objectinfoBytes_ne_nil _ _ _ hbytes
  | objectPropValue =>
      obtain ⟨p, -, hset⟩ := Option.bind_eq_some_iff.mp h
      exact objectPropBytes_ne_nil _ _ hset
  | objectPropList =>
      obtain ⟨p, -, hset⟩ := Option.bind_eq_some_iff.mp h
      obtain ⟨found, -, hlist⟩ := Option.bind_eq_some_iff.mp hset
      split at hlist
      · cases hlist
      · exact append_ne_nil (by decide) _ (Option.some_inj.mp hlist)
  | objectPropDesc =>
      obtain ⟨row, -, hrow⟩ := Option.map_eq_some_iff.mp h
      exact propertyBytes_ne_nil row hrow
  | objectPropsSupported =>
      obtain ⟨row, -, hrow⟩ := Option.map_eq_some_iff.mp h
      exact append_ne_nil (by decide) _ hrow
  | devicePropDesc =>
      rw [dataset, deviceProperty] at h
      split at h
      · obtain ⟨row, -, hrow⟩ := Option.map_eq_some_iff.mp h
        exact devicePropertyBytes_ne_nil row _ hrow
      · cases h
  | devicePropValue => exact deviceValue_ne_nil _ h
  | storageInfo =>
      rw [dataset, storageinfo] at h
      split at h
      · simp only [storageinfoBytes, List.append_assoc] at h
        exact append_ne_nil (by decide) _ (Option.some_inj.mp h)
      · cases h

-- Only the requests without a response of their own send an empty dataset.
theorem dataset_empty {kind : DatasetKind}
    (h : (kind.dataset os hdr w).or (kind.stray os hdr w) = some []) : kind.empty = none := by
  have hstray : kind.stray os hdr w = some [] := by
    rcases Option.or_eq_some_iff.mp h with hset | ⟨-, hstray⟩
    · exact absurd rfl (dataset_ne_nil hset)
    · exact hstray
  cases kind with
  | objectPropDesc =>
      rw [stray] at hstray
      split at hstray
      · exact absurd (Option.some_inj.mp hstray) (propertyBytes_ne_nil _)
      · cases hstray
  | devicePropDesc =>
      rw [stray] at hstray
      split at hstray
      · exact absurd (Option.some_inj.mp hstray) (devicePropertyBytes_ne_nil _ _)
      · cases hstray
  | devicePropValue => cases hstray
  | objectInfo | objectPropValue | objectPropList | objectPropsSupported | storageInfo => rfl

-- The reply to a request, and what was sent before it.
def Replies (os : Os σ) (hdr : Buffer) (w : World σ) (kind : DatasetKind) (code : Nat)
    (sent : List UInt8) : Prop :=
  (∃ p, kind.Asks os hdr w p ∧ DatasetReply hdr w.ctx.usbWrBufferMaxSize
      (os.act .getCancelReq (builtData os (kind.build hdr p)
      (kind.start os hdr w)).2.os).1 code sent
      ((kind.dataset os hdr (kind.start os hdr w)).or (kind.stray os hdr (kind.start os hdr w)))) ∨
    (∀ p, ¬kind.Asks os hdr w p) ∧ IsErrorCode code ∧ sent = []

theorem empty_isError {kind : DatasetKind} : ∀ code ∈ kind.empty, IsErrorCode code := by
  cases kind <;> decide

theorem replies_start (hmax : w.ctx.usbWrBufferMaxSize < 2 ^ 31)
    (hsession : w.ctx.fsDb.isSome = true)
    (hlocked : kind.locks = true → (os.act .lockInotifyMutex w.os).1 = true)
    (hknown : kind.Known w.ctx hdr p) {s : World σ}
    (hs : s = ⟨w.ctx, if kind.locks then (os.act .lockInotifyMutex w.os).2 else w.os⟩) :
    Replies os hdr w kind
      (exec (stream os) (sendDataset hdr kind.empty (kind.build hdr p)) (s, noStream)).1.1
      (exec (stream os) (sendDataset hdr kind.empty (kind.build hdr p))
      (s, noStream)).2.2.sent := by
  subst hs
  by_cases hroom : MTP_HEADER_SIZE < w.ctx.usbWrBufferMaxSize
  · have hknown' : kind.Known (kind.start os hdr w).ctx hdr p := by
      cases kind <;> exact hknown
    have hyields : Yields (w.ctx.usbWrBufferMaxSize - MTP_HEADER_SIZE)
        ((kind.start os hdr w).ctx.wrbuffer.shift MTP_HEADER_SIZE)
        (builtData os (kind.build hdr p) (kind.start os hdr w)).1
        ((kind.dataset os hdr (kind.start os hdr w)).or
          (kind.stray os hdr (kind.start os hdr w))) := by
      unfold builtData
      exact yields_build hsession hknown' (by omega)
    have huses := fun buffer maxsize => uses_build kind hdr p buffer maxsize
    have hnone := fun h => @dataset_none _ os _ (kind.start os hdr w) _ _ h hknown'
    have hempty := @dataset_empty _ os hdr (kind.start os hdr w) kind
    have herror := @empty_isError kind
    generalize hdataset : (kind.dataset os hdr (kind.start os hdr w)).or
      (kind.stray os hdr (kind.start os hdr w)) = dataset at hyields hnone hempty
    refine Or.inl ⟨p, ⟨hsession, hlocked, hknown, hroom⟩, ?_⟩
    rw [hdataset]
    exact reply_sendDataset (w := ⟨w.ctx, if kind.locks then (os.act .lockInotifyMutex w.os).2
      else w.os⟩) huses hroom hmax hyields herror hnone hempty rfl
  · rw [refused_sendDataset (w := ⟨w.ctx, if kind.locks then (os.act .lockInotifyMutex w.os).2
      else w.os⟩) hroom]
    exact Or.inr ⟨fun p h => hroom h.room,
      (by decide : IsErrorCode MTP_RESPONSE_GENERAL_ERROR), rfl⟩

theorem replies_error {code : Nat} (hcode : IsErrorCode code)
    (hrefused : ∀ p, ¬kind.Asks os hdr w p) : Replies os hdr w kind code noStream.sent :=
  Or.inr ⟨hrefused, hcode, rfl⟩

-- A request outside a session is refused.
theorem replies_inSession {op : M Response} (hop : w.ctx.fsDb.isSome = true →
      Replies os hdr w kind (exec (stream os) op (w, noStream)).1.1
        (exec (stream os) op (w, noStream)).2.2.sent) :
    Replies os hdr w kind (exec (stream os) (inSession op) (w, noStream)).1.1
      (exec (stream os) (inSession op) (w, noStream)).2.2.sent := by
  rw [inSession, exec_stream_getCtx_bind]
  split
  · rename_i hsession
    exact hop hsession
  · rename_i hsession
    exact replies_error (by decide : IsErrorCode MTP_RESPONSE_SESSION_NOT_OPEN) fun p h =>
      hsession h.session

theorem exec_stream_lock_bind (f : Bool → M α) (s : World σ × Stream) :
    exec (stream os) (M.act .lockInotifyMutex >>= f) s =
      exec (stream os) (f (os.act .lockInotifyMutex s.1.os).1)
        (⟨s.1.ctx, (os.act .lockInotifyMutex s.1.os).2⟩, s.2) := rfl

-- Nothing is sent by the unlock that ends an operation.
theorem exec_stream_unlock (response : Response) (s : World σ × Stream) :
    (exec (stream os) (do M.act_ .unlockInotifyMutex; return response) s).1 = response ∧
      (exec (stream os) (do M.act_ .unlockInotifyMutex; return response : M Response) s).2.2 =
        s.2 := ⟨rfl, rfl⟩

theorem replies_underMutex {op : M Response} (hlocks : kind.locks = true)
    (hop : (os.act .lockInotifyMutex w.os).1 = true →
      Replies os hdr w kind
        (exec (stream os) op (⟨w.ctx, (os.act .lockInotifyMutex w.os).2⟩, noStream)).1.1
        (exec (stream os) op (⟨w.ctx, (os.act .lockInotifyMutex w.os).2⟩, noStream)).2.2.sent) :
    Replies os hdr w kind (exec (stream os) (underMutex op) (w, noStream)).1.1
      (exec (stream os) (underMutex op) (w, noStream)).2.2.sent := by
  rw [underMutex, exec_stream_lock_bind]
  split
  · rename_i hlock
    rw [bind_eq, exec_bind]
    obtain ⟨hresponse, hflow⟩ := @exec_stream_unlock _ os
      (exec (stream os) op (⟨w.ctx, (os.act .lockInotifyMutex w.os).2⟩, noStream)).1
      (exec (stream os) op (⟨w.ctx, (os.act .lockInotifyMutex w.os).2⟩, noStream)).2
    rw [hresponse, hflow]
    exact hop hlock
  · rename_i hlock
    exact replies_error (by decide : IsErrorCode MTP_RESPONSE_GENERAL_ERROR) fun p h =>
      hlock (h.locked hlocks)

theorem replies_aboutEntry {op : EntryPtr → M Response} (hlocks : kind.locks = true)
    (hknown : ∀ p, kind.Asks os hdr w p → w.ctx.getEntryByHandle (param hdr 0) = some p)
    (hop : ∀ p, w.ctx.getEntryByHandle (param hdr 0) = some p → w.ctx.fsDb.isSome = true →
      (os.act .lockInotifyMutex w.os).1 = true → Replies os hdr w kind
        (exec (stream os) (op p) (⟨w.ctx, (os.act .lockInotifyMutex w.os).2⟩, noStream)).1.1
        (exec (stream os) (op p) (⟨w.ctx, (os.act .lockInotifyMutex w.os).2⟩, noStream)).2.2.sent) :
    Replies os hdr w kind (exec (stream os) (aboutEntry hdr op) (w, noStream)).1.1
      (exec (stream os) (aboutEntry hdr op) (w, noStream)).2.2.sent := by
  refine replies_inSession fun hsession => replies_underMutex hlocks fun hlock => ?_
  rw [exec_stream_getCtx_bind]
  dsimp only
  split
  · rename_i p hentry
    exact hop p hentry hsession hlock
  · rename_i hentry
    refine replies_error (by decide : IsErrorCode MTP_RESPONSE_INVALID_OBJECT_HANDLE)
      fun p h => ?_
    cases hentry.symm.trans (hknown p h)

theorem replies_op (kind : DatasetKind) (hmax : w.ctx.usbWrBufferMaxSize < 2 ^ 31) :
    Replies os hdr w kind (exec (stream os) (kind.op hdr) (w, noStream)).1.1
      (exec (stream os) (kind.op hdr) (w, noStream)).2.2.sent := by
  cases kind with
  | objectInfo =>
      refine replies_aboutEntry rfl (fun p h => h.known) fun p hentry hsession hlock => ?_
      exact @replies_start _ _ _ _ _ .objectInfo hmax hsession (fun _ => hlock) hentry _ rfl
  | objectPropValue =>
      refine replies_aboutEntry rfl (fun p h => h.known) fun p hentry hsession hlock => ?_
      exact @replies_start _ _ _ _ _ .objectPropValue hmax hsession (fun _ => hlock) hentry _ rfl
  | objectPropList =>
      refine replies_inSession fun hsession => replies_underMutex rfl fun hlock => ?_
      rw [exec_stream_getCtx_bind]
      split
      · rename_i hparams
        exact replies_error (by decide : IsErrorCode MTP_RESPONSE_PARAMETER_NOT_SUPPORTED)
          fun p h => h.known.1 hparams
      · rename_i hparams
        dsimp only
        split
        · rename_i p hentry
          exact @replies_start _ _ _ _ _ .objectPropList hmax hsession (fun _ => hlock)
            ⟨hparams, hentry⟩ _ rfl
        · rename_i hentry
          refine replies_error (by decide : IsErrorCode MTP_RESPONSE_INVALID_OBJECT_HANDLE)
            fun p h => ?_
          cases hentry.symm.trans h.known.2
  | objectPropDesc =>
      refine replies_inSession fun hsession => replies_underMutex rfl fun hlock => ?_
      exact @replies_start _ _ _ _ (⟨0, 0⟩) .objectPropDesc hmax hsession (fun _ => hlock)
        trivial _ rfl
  | objectPropsSupported =>
      refine replies_inSession fun hsession => ?_
      exact @replies_start _ _ _ _ (⟨0, 0⟩) .objectPropsSupported hmax hsession nofun trivial _ rfl
  | devicePropDesc =>
      refine replies_inSession fun hsession => ?_
      rw [exec_stream_lock_bind]
      dsimp only
      split
      · rename_i hlock
        rw [bind_eq, exec_bind]
        exact @replies_start _ _ _ _ (⟨0, 0⟩) .devicePropDesc hmax hsession (fun _ => hlock)
          trivial _ rfl
      · rename_i hlock
        exact replies_error (by decide : IsErrorCode MTP_RESPONSE_GENERAL_ERROR) fun p h =>
          hlock (h.locked rfl)
  | devicePropValue =>
      refine replies_inSession fun hsession => replies_underMutex rfl fun hlock => ?_
      exact @replies_start _ _ _ _ (⟨0, 0⟩) .devicePropValue hmax hsession (fun _ => hlock)
        trivial _ rfl
  | storageInfo =>
      refine replies_inSession fun hsession => ?_
      dsimp only
      rw [exec_stream_getCtx_bind]
      split
      · rename_i hroot
        exact @replies_start _ _ _ _ (⟨0, 0⟩) .storageInfo hmax hsession nofun hroot _ rfl
      · rename_i hroot
        exact replies_error (by decide : IsErrorCode MTP_RESPONSE_INVALID_STORAGE_ID) fun p h =>
          hroot h.known

-- The dataset of a request, if the buffer holds it.
def complete (os : Os σ) (hdr : Buffer) (w : World σ) (kind : DatasetKind) :
    Option (List UInt8) :=
  (kind.dataset os hdr (kind.start os hdr w)).filter fun bytes =>
    MTP_HEADER_SIZE + bytes.length < w.ctx.usbWrBufferMaxSize

-- A dataset that fits is not cancelled, and what there is instead of one does
-- not fit.
def Answered (os : Os σ) (hdr : Buffer) (w : World σ) (p : EntryPtr) (kind : DatasetKind) : Prop :=
  match kind.dataset os hdr (kind.start os hdr w) with
  | some bytes => MTP_HEADER_SIZE + bytes.length < w.ctx.usbWrBufferMaxSize →
    (os.act .getCancelReq (builtData os (kind.build hdr p) (kind.start os hdr w)).2.os).1 = false
  | none => ∀ bytes ∈ kind.stray os hdr (kind.start os hdr w),
    w.ctx.usbWrBufferMaxSize ≤ MTP_HEADER_SIZE + bytes.length

-- The builder is that of the one entry that is asked for.
theorem build_eq {q : EntryPtr} (hp : kind.Known w.ctx hdr p) (hq : kind.Known w.ctx hdr q) :
    kind.build hdr p = kind.build hdr q := by
  cases kind with
  | objectInfo =>
      cases Option.some_inj.mp (Eq.trans (Eq.symm hp) hq)
      rfl
  | objectPropList =>
      cases Option.some_inj.mp (hp.2.symm.trans hq.2)
      rfl
  | objectPropValue | objectPropDesc | objectPropsSupported | devicePropDesc | devicePropValue
  | storageInfo => rfl

end Request

end DatasetKind

-- OK comes with the complete dataset, which is not empty, in one data container.
-- Without a dataset there is an error, and nothing is sent.
def Delivered (hdr : Buffer) (complete : Option (List UInt8)) (code : Nat) (sent : List UInt8) :
    Prop :=
  (code = MTP_RESPONSE_OK → ∃ payload, complete = some payload ∧ payload ≠ [] ∧
      sent = dataContainer hdr payload) ∧
    (complete = none → IsErrorCode code ∧ sent = [])

section Delivery

variable {hdr : Buffer} {maxsize code : Nat} {cancelled : Bool} {sent : List UInt8}

theorem delivered_of_error {complete : Option (List UInt8)} (hcode : IsErrorCode code)
    (hsent : sent = []) : Delivered hdr complete code sent :=
  ⟨fun hok => absurd hok hcode.1, fun _ => ⟨hcode, hsent⟩⟩

theorem dataContainer_ne_nil (hdr : Buffer) (payload : List UInt8) :
    dataContainer hdr payload ≠ [] := by
  intro h
  have hlen := congrArg List.length h
  rw [dataContainer, List.length_append, length_packetHeader, List.length_nil] at hlen
  have hheader : MTP_HEADER_SIZE = 12 := rfl
  omega

theorem delivered_dataset {bytes : List UInt8} (hbytes : bytes ≠ [])
    (h : DatasetReply hdr maxsize cancelled code sent (some bytes)) :
    Delivered hdr ((some bytes).filter fun bytes => MTP_HEADER_SIZE + bytes.length < maxsize)
        code sent ↔
      (MTP_HEADER_SIZE + bytes.length < maxsize → cancelled = false) := by
  rw [DatasetReply] at h
  split at h
  · rename_i hfits
    obtain ⟨hcode, hsent⟩ := h
    rw [Option.filter_some, if_pos (by simpa using hfits), hcode, hsent]
    cases cancelled with
    | false => exact iff_of_true ⟨fun _ => ⟨bytes, rfl, hbytes, rfl⟩, nofun⟩ fun _ => rfl
    | true =>
        refine iff_of_false (fun hdelivered => ?_) fun hno => nomatch hno hfits
        obtain ⟨payload, -, -, hcontainer⟩ := hdelivered.1 rfl
        exact dataContainer_ne_nil hdr payload hcontainer.symm
  · rename_i hfits
    exact iff_of_true (delivered_of_error h.1 h.2) fun hsmall => absurd hsmall hfits

theorem delivered_stray {stray : Option (List UInt8)}
    (h : DatasetReply hdr maxsize cancelled code sent stray) :
    Delivered hdr none code sent ↔
      ∀ bytes ∈ stray, maxsize ≤ MTP_HEADER_SIZE + bytes.length := by
  cases stray with
  | none => exact iff_of_true (delivered_of_error h.1 h.2) nofun
  | some bytes =>
      rw [DatasetReply] at h
      split at h
      · rename_i hfits
        refine iff_of_false (fun hdelivered => (hdelivered.2 rfl).1.1 h.1) fun hlarge => ?_
        have hle := hlarge bytes rfl
        omega
      · rename_i hfits
        refine iff_of_true (delivered_of_error h.1 h.2) fun bytes' hbytes => ?_
        cases hbytes
        omega

end Delivery

-- A reply keeps this promise exactly when the request is refused, or its dataset
-- is not cancelled, or what is built without a dataset does not fit the buffer.
theorem dataset_delivered_iff {σ : Type} (os : Os σ) (w : World σ) (kind : DatasetKind)
    (hdr : Buffer) (_hpacket : 0 < w.ctx.maxPacketSize)
    (hint : w.ctx.usbWrBufferMaxSize < 2 ^ 31) :
    Delivered hdr (kind.complete os hdr w)
        (exec (stream os) (kind.op hdr) (w, noStream)).1.1
        (exec (stream os) (kind.op hdr) (w, noStream)).2.2.sent ↔
      ∀ p, kind.Asks os hdr w p → kind.Answered os hdr w p := by
  rcases @DatasetKind.replies_op _ os hdr _ kind hint with
      ⟨p, hasks, hreply⟩ | ⟨hrefused, hcode, hsent⟩
  · have hone : (∀ p, kind.Asks os hdr w p → kind.Answered os hdr w p) ↔
        kind.Answered os hdr w p := by
      refine ⟨fun h => h p hasks, fun h q hq => ?_⟩
      rw [DatasetKind.Answered] at h ⊢
      rwa [DatasetKind.build_eq hq.known hasks.known]
    rw [hone, DatasetKind.complete, DatasetKind.Answered]
    have hsome : ∀ bytes, kind.dataset os hdr (kind.start os hdr w) = some bytes → bytes ≠ [] :=
      fun bytes => DatasetKind.dataset_ne_nil
    generalize kind.dataset os hdr (kind.start os hdr w) = dataset at hreply hsome ⊢
    cases dataset with
    | none => exact delivered_stray (by rwa [Option.none_or] at hreply)
    | some bytes => exact delivered_dataset (hsome bytes rfl) (by rwa [Option.some_or] at hreply)
  · exact iff_of_true (delivered_of_error hcode hsent) fun p h => absurd h (hrefused p)

section Samples

-- The description of the first object, and the one of a property that does not
-- exist.
def infoRequest : Buffer :=
  Buffer.write (fun _ => 0) 0 (commandPacket MTP_OPERATION_GET_OBJECT_INFO [1])

def descRequest : Buffer :=
  Buffer.write (fun _ => 0) 0 (commandPacket MTP_OPERATION_GET_OBJECT_PROP_DESC [0xFFFF, 0])

theorem dataset_delivered_iff_sample :
    Delivered infoRequest (DatasetKind.objectInfo.complete memOs infoRequest listedFile)
        (exec (stream memOs) (DatasetKind.objectInfo.op infoRequest) (listedFile, noStream)).1.1
        (exec (stream memOs) (DatasetKind.objectInfo.op infoRequest)
        (listedFile, noStream)).2.2.sent ↔
      ∀ p, DatasetKind.objectInfo.Asks memOs infoRequest listedFile p →
        DatasetKind.objectInfo.Answered memOs infoRequest listedFile p :=
  dataset_delivered_iff memOs listedFile .objectInfo infoRequest (by decide +kernel)
    (by decide +kernel)

-- The dataset of a file that vanished is empty, and sent with OK. So is the
-- description of the row that ends the table.
theorem dataset_undelivered :
    ¬Delivered infoRequest (DatasetKind.objectInfo.complete memOs infoRequest vanishedFile)
        (exec (stream memOs) (DatasetKind.objectInfo.op infoRequest) (vanishedFile, noStream)).1.1
        (exec (stream memOs) (DatasetKind.objectInfo.op infoRequest)
          (vanishedFile, noStream)).2.2.sent ∧
      ¬Delivered descRequest (DatasetKind.objectPropDesc.complete memOs descRequest listedFile)
        (exec (stream memOs) (DatasetKind.objectPropDesc.op descRequest) (listedFile, noStream)).1.1
        (exec (stream memOs) (DatasetKind.objectPropDesc.op descRequest)
          (listedFile, noStream)).2.2.sent := by
  have hinfo : DatasetKind.objectInfo.complete memOs infoRequest vanishedFile = none ∧
      (exec (stream memOs) (DatasetKind.objectInfo.op infoRequest) (vanishedFile, noStream)).1.1 =
        MTP_RESPONSE_OK := by
    decide +kernel
  have hdesc : DatasetKind.objectPropDesc.complete memOs descRequest listedFile = none ∧
      (exec (stream memOs) (DatasetKind.objectPropDesc.op descRequest) (listedFile, noStream)).1.1 =
        MTP_RESPONSE_OK := by
    decide +kernel
  exact ⟨fun h => (h.2 hinfo.1).1.1 hinfo.2, fun h => (h.2 hdesc.1).1.1 hdesc.2⟩

end Samples

end Umtp
