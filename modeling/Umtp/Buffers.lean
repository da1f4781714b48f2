import Mathlib.Algebra.GroupWithZero.Nat
import Umtp.Text

namespace Umtp

open Handles Text

-- The bytes at an address and after it.
abbrev Buffer := Nat → UInt8

namespace Buffer

def write (buffer : Buffer) (index : Nat) (bytes : List UInt8) : Buffer :=
  fun i => if index ≤ i ∧ i < index + bytes.length then bytes.getD (i - index) 0 else buffer i

def read (buffer : Buffer) (index len : Nat) : List UInt8 :=
  (List.range len).map fun i => buffer (index + i)

-- The buffer seen from `buffer + offset`.
def shift (buffer : Buffer) (offset : Nat) : Buffer :=
  fun i => buffer (offset + i)

-- The buffer after `part` was written from `buffer + offset` on.
def unshift (buffer : Buffer) (offset : Nat) (part : Buffer) : Buffer :=
  fun i => if i < offset then buffer i else part (i - offset)

end Buffer

-- mtp_helpers.c

def littleEndian (len data : Nat) : List UInt8 :=
  (List.range len).map fun i => UInt8.ofNat (data / 2 ^ (8 * i))

def peekBytes (buffer : Buffer) (index typesize : Nat) : Nat :=
  ((List.range typesize).map fun i => (buffer (index + i)).toNat * 2 ^ (8 * i)).sum

def peek (buffer : Buffer) (index typesize : Nat) : Nat := peekBytes buffer index typesize

def peek64 (buffer : Buffer) (index typesize : Nat) : Nat := peekBytes buffer index typesize

-- A buffer with the offset at which it is written next, negative after an
-- overrun.
abbrev Poked := Buffer × Int

def pokeBytes (maxsize : Int) (bytes : List UInt8) (dst : Poked) : Poked :=
  if dst.2 < 0 then
    dst
  else if maxsize ≤ dst.2 + bytes.length then
    (dst.1, -1)
  else
    (dst.1.write dst.2.toNat bytes, dst.2 + bytes.length)

def poke32 (maxsize : Int) (data : Nat) : Poked → Poked := pokeBytes maxsize (littleEndian 4 data)

def poke16 (maxsize : Int) (data : Nat) : Poked → Poked := pokeBytes maxsize (littleEndian 2 data)

def poke08 (maxsize : Int) (data : Nat) : Poked → Poked := pokeBytes maxsize (littleEndian 1 data)

-- The units are written one after the other up to the first that does not fit.
def pokeUnits (maxsize : Int) : List Nat → Poked → Poked
  | [], dst => dst
  | unit :: rest, dst => pokeUnits maxsize rest (poke16 maxsize unit dst)

-- The number of units a string takes at most, with its zero.
def UNICODE_STR_SIZE : Nat := 255

-- `char2unicodestring`: the offset stays negative after an overrun, and the last
-- of 255 units is zeroed.
def char2unicodestring (maxsize : Int) (str : CString) (dst : Poked) : Poked :=
  let units := unicodeUnits UNICODE_STR_SIZE str
  let out := pokeUnits maxsize units dst
  if out.2 < 0 then
    out
  else if units.length = UNICODE_STR_SIZE then
    (out.1.write (out.2.toNat - 2) [0, 0], out.2)
  else
    out

def pokeString (maxsize : Int) (str : CString) (dst : Poked) : Poked :=
  if dst.2 < 0 then
    dst
  else if maxsize ≤ dst.2 + 1 then
    (dst.1, -1)
  else
    let reserved : Poked := (dst.1.write dst.2.toNat [0], dst.2 + 1)
    if str = [] then
      reserved
    else
      let out := char2unicodestring maxsize str reserved
      if out.2 < 0 then
        (out.1, -1)
      else
        (out.1.write dst.2.toNat [UInt8.ofNat ((out.2 - reserved.2).toNat / 2)], out.2)

-- `poke_array`. The elements are given as bytes.
def pokeArray (maxsize : Int) (elementsize : Nat) (bufferin : List UInt8) (prefixed : Bool)
    (dst : Poked) : Poked :=
  let counter := if prefixed then littleEndian 4 (bufferin.length / elementsize) else []
  pokeBytes maxsize (counter ++ bufferin) dst

end Umtp
