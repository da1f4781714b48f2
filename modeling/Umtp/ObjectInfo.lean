import Umtp.DatasetReplies
import Umtp.Utf8

namespace Umtp

open Lib Lib.Prog Handles Text

-- What an ObjectInfo dataset says about the object to make.
structure ObjectInfo where
  isFolder : Bool
  size : Nat
  name : CString
deriving DecidableEq, Repr

-- The fields at their offsets. A name that is refused leaves nothing.
def decodeObjectInfo (dataset : Buffer) : Option ObjectInfo :=
  (sanitizeName (datasetName dataset) TMP_STR_SIZE).map fun name =>
    ⟨decide (peek dataset 0x04 2 = MTP_FORMAT_ASSOCIATION), peek dataset 0x08 4, name⟩

-- What `parse_incoming_dataset` does with an object that is sent.
def acceptObject (info : Option ObjectInfo) (parentHandle storageId : Nat) : M (Nat × Nat) := do
  let parentHandle := if parentHandle = NO_HANDLE then 0 else parentHandle
  let ctx ← M.getCtx
  let storageFlags := ctx.mtpGetStorageFlags storageId
  if storageFlags = NO_STORAGE_FLAGS then
    return (MTP_RESPONSE_INVALID_STORAGE_ID, NO_HANDLE)
  else if hasFlag storageFlags UMTP_STORAGE_READONLY then
    return (MTP_RESPONSE_STORE_READ_ONLY, NO_HANDLE)
  else
    match info with
    | some object =>
      match ctx.getEntryByHandleAndStorageid parentHandle storageId with
      | some folder =>
        if (ctx.entry folder).isDir then
          if object.isFolder then
            createFolder folder object.name parentHandle storageId
          else
            createFile folder object.name object.size parentHandle storageId
        else
          return (MTP_RESPONSE_OK, NO_HANDLE)
      | none => return (MTP_RESPONSE_OK, NO_HANDLE)
    | none => return (MTP_RESPONSE_INVALID_DATASET, NO_HANDLE)

-- The dataset is used through its decoded fields only.
theorem parseIncomingDataset_eq {datain : Buffer}
    (hcode : hdrCode datain = MTP_OPERATION_SEND_OBJECT_INFO) (parentHandle storageId : Nat) :
    parseIncomingDataset datain parentHandle storageId =
      acceptObject (decodeObjectInfo (datain.shift MTP_HEADER_SIZE)) parentHandle storageId := by
  unfold parseIncomingDataset acceptObject decodeObjectInfo
  simp only [hcode, if_true]
  refine congrArg M.getCtx.bind (funext fun ctx => ?_)
  cases sanitizeName (datasetName (datain.shift MTP_HEADER_SIZE)) TMP_STR_SIZE with
  | none => rfl
  | some name =>
      cases ctx.getEntryByHandleAndStorageid
        (if parentHandle = NO_HANDLE then 0 else parentHandle) storageId with
      | none => simp only [Option.map_some]
      | some folder => simp only [Option.map_some, decide_eq_true_eq]

namespace Buffer

variable (buffer : Buffer)

-- The middle of what is read.
theorem read_middle {front middle back : List UInt8} {start len : Nat}
    (hread : buffer.read start len = front ++ middle ++ back) :
    buffer.read (start + front.length) middle.length = middle := by
  have htotal := congrArg List.length hread
  rw [length_read, List.length_append, List.length_append] at htotal
  rw [htotal, read_add] at hread
  have hfirst := (List.append_inj hread (by rw [length_read, List.length_append])).1
  rw [read_add] at hfirst
  exact (List.append_inj hfirst (by rw [length_read])).2

end Buffer

-- Units are read back from their bytes.
theorem peek_units {buffer : Buffer} {start : Nat} {units : List Nat}
    (hread : buffer.read start (units.flatMap (littleEndian 2)).length =
      units.flatMap (littleEndian 2)) (hunits : ∀ unit ∈ units, unit < 2 ^ 16) :
    (List.range units.length).map (fun i => peek buffer (start + i * 2) 2) = units := by
  induction units generalizing start with
  | nil => rfl
  | cons unit units ih =>
      rw [List.flatMap_cons, List.length_append, Buffer.read_add] at hread
      obtain ⟨hfirst, hrest⟩ := List.append_inj hread (by rw [Buffer.length_read])
      rw [length_littleEndian] at hfirst hrest
      have hunit : peek buffer start 2 = unit := by
        rw [peek, peekBytes_of_read hfirst]
        exact Nat.mod_eq_of_lt (hunits unit List.mem_cons_self)
      rw [List.length_cons, List.range_succ_eq_map, List.map_cons, List.map_map, Nat.zero_mul,
        Nat.add_zero, hunit]
      congr 1
      have hnext := ih hrest fun unit h => hunits unit (List.mem_cons_of_mem _ h)
      refine Eq.trans (List.map_congr_left fun i _ => ?_) hnext
      rw [Function.comp, Nat.succ_mul, Nat.add_comm (i * 2), ← Nat.add_assoc]

-- The characters of a sanitized name come from the name, or are underscores.
theorem mem_sanitizeName {str name : CString} {maxLen : Nat}
    (h : sanitizeName str maxLen = some name) {c : UInt8} (hc : c ∈ name) :
    c ∈ replaceForbidden str := by
  unfold sanitizeName at h
  split at h
  · cases h
  split at h
  · cases h
  split at h
  · cases h
  dsimp only at h
  split at h
  · cases h
  · cases h
    have hlast : c ∈ stripLeading (replaceForbidden str) :=
      List.mem_reverse.mp ((List.dropWhile_suffix _).subset (List.mem_reverse.mp hc))
    exact (List.dropWhile_suffix _).subset hlast

theorem ne_zero_of_sanitizeName {str name : CString} {maxLen : Nat}
    (h : sanitizeName str maxLen = some name) : ∀ c ∈ name, c ≠ 0 := by
  intro c hc hzero
  obtain ⟨d, -, hd⟩ := List.mem_map.mp (mem_sanitizeName h hc)
  have hbyte : ∀ d : UInt8, (if d < 0x80 && isForbiddenAscii d then UNDERSCORE else d) ≠ 0 := by
    refine forall_byte ?_
    set_option maxRecDepth 4000 in decide
  exact hbyte d (hd.trans hzero)

theorem utf8Validate_of_sanitizeName {str name : CString} {maxLen : Nat}
    (h : sanitizeName str maxLen = some name) : utf8Validate str = true := by
  unfold sanitizeName at h
  split at h
  · cases h
  split at h
  · cases h
  · rename_i hvalid
    simpa using hvalid

-- A name is read back from the bytes it is written as.
theorem datasetName_of_read {dataset : Buffer} {name : CString} {units : List Nat}
    (hspelled : Spelled name units) (hcount : units.length ≤ 254) (hlen : name.length ≤ 256)
    (hread : dataset.read 0x34 (stringBytes name).length = stringBytes name) :
    datasetName dataset = name := by
  have hsize : UNICODE_STR_SIZE = 255 := rfl
  have hunits : unicodeUnits UNICODE_STR_SIZE name = units ++ [0] := hspelled.units (by omega)
  have hstring : stringUnits name = units ++ [0] := by
    unfold stringUnits
    rw [hunits]
    dsimp only
    split
    · rw [List.dropLast_concat]
    · rfl
  by_cases hempty : name = []
  · subst hempty
    have hfirst : dataset.read 0x34 1 = littleEndian 1 0 := hread
    have hnumber : peek dataset 0x34 1 = 0 := by
      rw [peek, peekBytes_of_read hfirst, Nat.zero_mod]
    unfold datasetName
    rw [hnumber]
    rfl
  have hbytes : stringBytes name =
      littleEndian 1 (units.length + 1) ++ (units ++ [0]).flatMap (littleEndian 2) := by
    rw [stringBytes, if_neg hempty, hstring, List.length_append, littleEndian_one]
    rfl
  rw [hbytes] at hread
  have hnumber : peek dataset 0x34 1 = units.length + 1 := by
    have hfirst : dataset.read 0x34 (littleEndian 1 (units.length + 1)).length =
        littleEndian 1 (units.length + 1) := @Buffer.read_middle dataset [] _ _ _ _ hread
    rw [length_littleEndian] at hfirst
    rw [peek, peekBytes_of_read hfirst]
    exact Nat.mod_eq_of_lt (by omega)
  have hrest : dataset.read 0x35 ((units ++ [0]).flatMap (littleEndian 2)).length =
      (units ++ [0]).flatMap (littleEndian 2) :=
    @Buffer.read_middle dataset _ _ [] _ _ (by rw [List.append_nil]; exact hread)
  have hpeek := peek_units hrest fun unit hunit => by
    rcases List.mem_append.mp hunit with hunit | hzero
    · exact hspelled.unit_lt unit hunit
    · rw [List.mem_singleton.mp hzero]
      decide
  rw [List.length_append, List.length_singleton] at hpeek
  unfold datasetName
  rw [hnumber]
  dsimp only
  rw [hpeek]
  have hroom : ([] : CString).length + name.length < TMP_STR_SIZE := by
    rw [List.length_nil, Nat.zero_add]
    exact Nat.lt_succ_of_le hlen
  exact hspelled.charstring [] [] hroom

-- Different strings are written differently, up to this length.
theorem stringBytes_inj {str str' : CString} {units units' : List Nat} (h : Spelled str units)
    (h' : Spelled str' units') (hlen : units.length ≤ 254 ∧ str.length ≤ 256)
    (hlen' : units'.length ≤ 254 ∧ str'.length ≤ 256) (heq : stringBytes str = stringBytes str') :
    str = str' := by
  obtain ⟨dataset, hdataset⟩ : ∃ dataset : Buffer, dataset =
    Buffer.write (fun _ => 0) 0x34 (stringBytes str) := ⟨_, rfl⟩
  have hread : dataset.read 0x34 (stringBytes str).length = stringBytes str := by
    rw [hdataset, Buffer.read_write_self]
  have hname := datasetName_of_read h hlen.1 hlen.2 hread
  rw [heq] at hread
  exact hname.symm.trans (datasetName_of_read h' hlen'.1 hlen'.2 hread)

theorem length_objectinfoFields (entry : FsEntry) : (objectinfoFields entry).length = 0x34 := by
  simp only [objectinfoFields, List.length_append, length_littleEndian]

-- The dataset of an entry says what the entry is.
theorem decodeObjectInfo_of_read {dataset : Buffer} {entry : FsEntry} {created modified : CString}
    (hread : dataset.read 0 (objectinfoBytes entry created modified).length =
      objectinfoBytes entry created modified)
    (hsize : 0 ≤ entry.size) (hsanitized : sanitizeName entry.name TMP_STR_SIZE = some entry.name)
    (hsmall : ∀ c ∈ entry.name, c < 0xF0) (hchars : characters entry.name ≤ 254)
    (hlen : entry.name.length ≤ 256) :
    decodeObjectInfo dataset =
      some ⟨entry.isDir, (min entry.size 0xFFFFFFFF).toNat, entry.name⟩ := by
  have hmiddle : ∀ front middle back : List UInt8,
      objectinfoBytes entry created modified = front ++ middle ++ back →
      dataset.read front.length middle.length = middle := by
    intro front middle back hbytes
    rw [hbytes] at hread
    have hpart := dataset.read_middle hread
    rwa [Nat.zero_add] at hpart
  have hformat : peek dataset 0x04 2 = objectFormat entry := by
    have hbytes := hmiddle (littleEndian 4 entry.storageId) (littleEndian 2 (objectFormat entry)) _
      (by simp only [objectinfoBytes, objectinfoFields, List.append_assoc]; rfl)
    rw [length_littleEndian, length_littleEndian] at hbytes
    rw [peek, peekBytes_of_read hbytes, objectFormat]
    split
    · rfl
    · rfl
  have hfields : peek dataset 0x08 4 = compressedSize entry.size := by
    have hbytes := hmiddle (littleEndian 4 entry.storageId ++ littleEndian 2 (objectFormat entry) ++
      littleEndian 2 0) (littleEndian 4 (compressedSize entry.size)) _
      (by simp only [objectinfoBytes, objectinfoFields, List.append_assoc]; rfl)
    rw [List.length_append, List.length_append, length_littleEndian, length_littleEndian,
      length_littleEndian, length_littleEndian] at hbytes
    rw [peek, peekBytes_of_read hbytes, compressedSize]
    split
    · rfl
    · exact Nat.mod_eq_of_lt (by rw [u32]; omega)
  have hname : datasetName dataset = entry.name := by
    have hbytes := hmiddle (objectinfoFields entry) (stringBytes entry.name) _
      (by simp only [objectinfoBytes, List.append_assoc]; rfl)
    rw [length_objectinfoFields] at hbytes
    obtain ⟨units, hspelled, hcount⟩ := spelled_of_valid (utf8Validate_of_sanitizeName hsanitized)
      hsmall (ne_zero_of_sanitizeName hsanitized)
    exact datasetName_of_read hspelled (by omega) hlen hbytes
  have hcompressed : compressedSize entry.size = (min entry.size 0xFFFFFFFF).toNat := by
    rw [compressedSize]
    split
    · omega
    · rw [u32]
      omega
  have hfolder : decide (objectFormat entry = MTP_FORMAT_ASSOCIATION) = entry.isDir := by
    rw [objectFormat]
    cases entry.isDir with
    | true => rfl
    | false => rfl
  rw [decodeObjectInfo, hname, hsanitized, hformat, hfields, hcompressed, Option.map_some, hfolder]

-- An object is read back from the dataset that was written about it.
theorem objectinfo_round_trip {σ : Type} (os : Os σ) (w : World σ) (p : EntryPtr)
    (buffer : Buffer) (maxsize : Int) {entry : FsEntry} {date : CString}
    (hsession : w.ctx.fsDb.isSome = true) (hdisk : statted os w p = some (entry, date))
    (hsize : 0 ≤ entry.size) (hsanitized : sanitizeName entry.name TMP_STR_SIZE = some entry.name)
    (hsmall : ∀ c ∈ entry.name, c < 0xF0) (hchars : characters entry.name ≤ 254)
    (hlen : entry.name.length ≤ 256)
    (hroom : (objectinfoBytes entry date date).length < maxsize) :
    let out := (exec (World.handle os) (buildObjectinfoDataset buffer maxsize p) w).1
    entry = { w.ctx.entry p with size := entry.size } ∧ 0 < out.2 ∧
      ∀ datain : Buffer, hdrCode datain = MTP_OPERATION_SEND_OBJECT_INFO →
        datain.read MTP_HEADER_SIZE out.2.toNat = out.1.read 0 out.2.toNat →
        ∀ parentHandle storageId, parseIncomingDataset datain parentHandle storageId =
          acceptObject (some ⟨(w.ctx.entry p).isDir, (min entry.size 0xFFFFFFFF).toNat,
            (w.ctx.entry p).name⟩) parentHandle storageId := by
  have hout : (exec (World.handle os) (buildObjectinfoDataset buffer maxsize p) w).1 =
      (buffer.write 0 (objectinfoBytes entry date date),
        ((objectinfoBytes entry date date).length : Int)) := by
    have hyields := @yields_objectinfo _ os w maxsize buffer hsession p
    rw [hdisk, Option.map_some] at hyields
    exact hyields.1 hroom
  have hentry : entry = { w.ctx.entry p with size := entry.size } := by
    obtain ⟨stat, -, hstat⟩ := Option.map_eq_some_iff.mp hdisk
    cases hstat
    rfl
  rw [hout]
  refine ⟨hentry, ?_, fun datain hcode hread parentHandle storageId => ?_⟩
  · have hsome := List.length_pos_iff.mpr (objectinfoBytes_ne_nil entry date date)
    dsimp only
    omega
  · dsimp only at hread
    rw [Int.toNat_natCast, Buffer.read_write_self, ← Nat.add_zero MTP_HEADER_SIZE,
      ← Buffer.read_shift] at hread
    have hdecoded := decodeObjectInfo_of_read hread hsize hsanitized hsmall hchars hlen
    have hdir : entry.isDir = (w.ctx.entry p).isDir := by rw [hentry]; rfl
    have hname : entry.name = (w.ctx.entry p).name := by rw [hentry]
    rw [parseIncomingDataset_eq hcode, hdecoded, hdir, hname]

section Samples

-- A file of three bytes, and the dates of the epoch.
def infoEntry : FsEntry := { listedFile.ctx.entry fileEntry with size := 3 }

def epoch : CString :=
  [0x31, 0x39, 0x37, 0x30, 0x30, 0x31, 0x30, 0x31, 0x54, 0x30, 0x30, 0x30, 0x30, 0x30, 0x30]

theorem objectinfo_round_trip_sample :
    let out := (exec (World.handle memOs) (buildObjectinfoDataset (fun _ => 0) 4096 fileEntry)
      listedFile).1
    ∀ datain : Buffer, hdrCode datain = MTP_OPERATION_SEND_OBJECT_INFO →
      datain.read MTP_HEADER_SIZE out.2.toNat = out.1.read 0 out.2.toNat →
      parseIncomingDataset datain 0 1 = acceptObject (some ⟨false, 3, [0x66]⟩) 0 1 := by
  have hback := @objectinfo_round_trip _ memOs listedFile fileEntry (fun _ => 0) 4096
    infoEntry epoch (by decide +kernel) (by decide +kernel)
    (by decide +kernel) (by decide +kernel) (by decide +kernel) (by decide +kernel)
    (by decide +kernel) (by decide +kernel)
  have hname : (⟨(listedFile.ctx.entry fileEntry).isDir, (min infoEntry.size 0xFFFFFFFF).toNat,
      (listedFile.ctx.entry fileEntry).name⟩ : ObjectInfo) = ⟨false, 3, [0x66]⟩ := by
    decide +kernel
  intro out datain hcode hread
  rw [← hname]
  exact hback.2.2 datain hcode hread 0 1

end Samples

end Umtp
