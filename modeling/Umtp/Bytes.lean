import Umtp.Buffers

namespace Umtp

namespace Buffer

variable (buffer : Buffer)

@[simp] theorem length_read (index len : Nat) : (buffer.read index len).length = len := by
  simp [read]

theorem read_add (index len more : Nat) :
    buffer.read index (len + more) = buffer.read index len ++ buffer.read (index + len) more := by
  simp only [read, List.range_add, List.map_append, List.map_map]
  congr 1
  refine List.map_congr_left fun i _ => ?_
  simp [Nat.add_assoc]

theorem read_congr {buffer buffer' : Buffer} {index len : Nat}
    (h : ∀ i, index ≤ i → i < index + len → buffer i = buffer' i) :
    buffer.read index len = buffer'.read index len := by
  refine List.map_congr_left fun i hi => h _ (by omega) ?_
  have := List.mem_range.mp hi
  omega

theorem read_shift (offset index len : Nat) :
    (buffer.shift offset).read index len = buffer.read (offset + index) len :=
  List.map_congr_left fun i _ => by rw [shift, Nat.add_assoc]

-- What lies before the bytes written stays.
theorem read_write_of_le {index len start : Nat} (bytes : List UInt8) (h : index + len ≤ start) :
    (buffer.write start bytes).read index len = buffer.read index len := by
  refine read_congr fun i _ hi => ?_
  rw [write, if_neg (by omega)]

theorem read_write_of_ge {index len start : Nat} {bytes : List UInt8}
    (h : start + bytes.length ≤ index) :
    (buffer.write start bytes).read index len = buffer.read index len := by
  refine read_congr fun i hi _ => ?_
  rw [write, if_neg (by omega)]

theorem read_write_self (start : Nat) (bytes : List UInt8) :
    (buffer.write start bytes).read start bytes.length = bytes := by
  refine List.ext_getElem (by simp) fun i hi _ => ?_
  have hlen : i < bytes.length := by simpa using hi
  simp [read, write, hlen]

theorem read_write_append {start : Nat} (bytes : List UInt8) :
    (buffer.write start bytes).read 0 (start + bytes.length) = buffer.read 0 start ++ bytes := by
  rw [read_add, read_write_of_le _ _ (by omega), Nat.zero_add, read_write_self]

-- Bytes put behind others.
theorem read_write_behind {front bytes : List UInt8} {len : Nat}
    (hfront : buffer.read 0 front.length = front) (hlen : bytes.length = len) :
    (buffer.write front.length bytes).read 0 (front.length + len) = front ++ bytes := by
  rw [← hlen, read_write_append, hfront]

-- Bytes put over the first ones.
theorem read_write_over {front front' rest : List UInt8} {len : Nat}
    (hread : buffer.read 0 len = front ++ rest) (hlen : front'.length = front.length) :
    (buffer.write 0 front').read 0 len = front' ++ rest := by
  have htotal := congrArg List.length hread
  rw [length_read, List.length_append, ← hlen] at htotal
  rw [htotal, read_add] at hread ⊢
  have hrest := (List.append_inj hread (by rw [length_read, hlen])).2
  rw [read_write_self, read_write_of_ge _ (by omega), hrest]

end Buffer

theorem length_littleEndian (len data : Nat) : (littleEndian len data).length = len := by
  simp [littleEndian]

theorem length_flatMap_littleEndian (len : Nat) (data : List Nat) :
    (data.flatMap (littleEndian len)).length = len * data.length := by
  induction data with
  | nil => rfl
  | cons x data ih =>
      rw [List.flatMap_cons, List.length_append, ih, length_littleEndian, List.length_cons,
        Nat.mul_succ, Nat.add_comm]

theorem littleEndian_one (data : Nat) : littleEndian 1 data = [UInt8.ofNat data] := by
  simp [littleEndian]

-- The last byte counts most.
theorem peekBytes_succ (buffer : Buffer) (index len : Nat) :
    peekBytes buffer index (len + 1) =
      peekBytes buffer index len + (buffer (index + len)).toNat * 2 ^ (8 * len) := by
  rw [peekBytes, peekBytes, List.range_succ, List.map_append, List.sum_append, List.map_singleton,
    List.sum_singleton]

-- A number is read back from its bytes, as far as they go.
theorem peekBytes_of_read {buffer : Buffer} {index len data : Nat}
    (h : buffer.read index len = littleEndian len data) :
    peekBytes buffer index len = data % 2 ^ (8 * len) := by
  have hbytes : ∀ i < len, buffer (index + i) = UInt8.ofNat (data / 2 ^ (8 * i)) := fun i hi =>
    List.map_inj_left.mp h i (List.mem_range.mpr hi)
  clear h
  induction len with
  | zero => simp [peekBytes, Nat.mod_one]
  | succ len ih =>
      have hpow : 2 ^ (8 * (len + 1)) = 2 ^ (8 * len) * 2 ^ 8 := by rw [← Nat.pow_add]; rfl
      have hbyte := hbytes len (by omega)
      rw [peekBytes_succ, ih fun i hi => hbytes i (by omega), hpow, Nat.mod_mul]
      simp [hbyte, Nat.mul_comm]

theorem peekBytes_lt (buffer : Buffer) (index len : Nat) :
    peekBytes buffer index len < 2 ^ (8 * len) := by
  induction len with
  | zero => simp [peekBytes]
  | succ len ih =>
      have hpow : 2 ^ (8 * (len + 1)) = 2 ^ (8 * len) * 2 ^ 8 := by rw [← Nat.pow_add]; rfl
      have hbyte := (buffer (index + len)).toNat_lt
      have hmul : (buffer (index + len)).toNat * 2 ^ (8 * len) ≤ 255 * 2 ^ (8 * len) :=
        Nat.mul_le_mul_right _ (by omega)
      rw [peekBytes_succ]
      omega

theorem littleEndian_inj {len n m : Nat} (hn : n < 2 ^ (8 * len)) (hm : m < 2 ^ (8 * len))
    (h : littleEndian len n = littleEndian len m) : n = m := by
  obtain ⟨buffer, hbuffer⟩ : ∃ buffer : Buffer, buffer = Buffer.write (fun _ => 0) 0
    (littleEndian len n) := ⟨_, rfl⟩
  have hread : buffer.read 0 len = littleEndian len n := by
    have hself := Buffer.read_write_self (fun _ => 0) 0 (littleEndian len n)
    rwa [length_littleEndian, ← hbuffer] at hself
  have hpeek := peekBytes_of_read hread
  rw [peekBytes_of_read (hread.trans h), Nat.mod_eq_of_lt hm, Nat.mod_eq_of_lt hn] at hpeek
  exact hpeek.symm

-- Only the bytes that fit are kept.
theorem littleEndian_mod (len n : Nat) :
    littleEndian len (n % 2 ^ (8 * len)) = littleEndian len n := by
  refine List.map_congr_left fun i hi => ?_
  have hlt := List.mem_range.mp hi
  have hpow : 2 ^ (8 * len) = 2 ^ (8 * i) * (2 ^ 8 * 2 ^ (8 * (len - i - 1))) := by
    rw [← Nat.pow_add, ← Nat.pow_add]
    congr 1
    omega
  refine UInt8.toNat_inj.mp ?_
  rw [UInt8.toNat_ofNat', UInt8.toNat_ofNat', hpow, Nat.mod_mul_right_div_self,
    Nat.mod_mul_right_mod]

theorem littleEndian_inj_mod {len n m : Nat} :
    littleEndian len n = littleEndian len m ↔ n % 2 ^ (8 * len) = m % 2 ^ (8 * len) := by
  refine ⟨fun h => ?_, fun h => ?_⟩
  · rw [← littleEndian_mod len n, ← littleEndian_mod len m] at h
    exact littleEndian_inj (Nat.mod_lt _ (Nat.two_pow_pos _)) (Nat.mod_lt _ (Nat.two_pow_pos _)) h
  · rw [← littleEndian_mod len n, h, littleEndian_mod]

theorem littleEndian_add (len more n : Nat) :
    littleEndian (len + more) n =
      littleEndian len n ++ littleEndian more (n / 2 ^ (8 * len)) := by
  simp only [littleEndian, List.range_add, List.map_append, List.map_map]
  congr 1
  refine List.map_congr_left fun i _ => ?_
  rw [Function.comp, Nat.div_div_eq_div_mul, ← Nat.pow_add, Nat.mul_add]

end Umtp
