import Umtp.Handles.Types

namespace Umtp.Text

open Handles

-- mtp_sanitize.c

def isContinuation (c : UInt8) : Bool :=
  c &&& 0xC0 == 0x80

-- The code point must need exactly `bytes` bytes, and be neither a surrogate
-- nor out of range.
def codePointOk (bytes cp : Nat) : Bool :=
  !(bytes == 2 && cp < 0x80) && !(bytes == 3 && cp < 0x800) && !(bytes == 4 && cp < 0x10000) &&
    !(0xD800 ≤ cp && cp ≤ 0xDFFF) && !(0x10FFFF < cp)

def continuation (cp : Nat) (c : UInt8) : Nat :=
  cp * 2 ^ 6 + (c &&& 0x3F).toNat

-- A sequence cut by the end of the string meets the terminating NUL, which is
-- no continuation byte.
def utf8Validate : CString → Bool
  | [] => true
  | c :: rest =>
    if c < 0x80 then
      utf8Validate rest
    else if c &&& 0xE0 == 0xC0 then
      match rest with
      | c1 :: rest =>
        isContinuation c1 && codePointOk 2 (continuation (c &&& 0x1F).toNat c1) &&
          utf8Validate rest
      | [] => false
    else if c &&& 0xF0 == 0xE0 then
      match rest with
      | c1 :: c2 :: rest =>
        isContinuation c1 && isContinuation c2 &&
          codePointOk 3 (continuation (continuation (c &&& 0x0F).toNat c1) c2) &&
          utf8Validate rest
      | _ => false
    else if c &&& 0xF8 == 0xF0 then
      match rest with
      | c1 :: c2 :: c3 :: rest =>
        isContinuation c1 && isContinuation c2 && isContinuation c3 &&
          codePointOk 4
            (continuation (continuation (continuation (c &&& 0x07).toNat c1) c2) c3) &&
          utf8Validate rest
      | _ => false
    else
      false

-- Control characters, DEL and / \ : * ? " < > | ;
def isForbiddenAscii (c : UInt8) : Bool :=
  c < 0x20 || c == 0x7F ||
    [0x2F, 0x5C, 0x3A, 0x2A, 0x3F, 0x22, 0x3C, 0x3E, 0x7C, 0x3B].contains c

def DOT : UInt8 := 0x2E
def SPACE : UInt8 := 0x20
def UNDERSCORE : UInt8 := 0x5F

-- strstr(str, "..") != NULL
def containsDotDot : CString → Bool
  | [] => false
  | c :: rest => (c == DOT && rest.head? == some DOT) || containsDotDot rest

def replaceForbidden (str : CString) : CString :=
  str.map fun c => if c < 0x80 && isForbiddenAscii c then UNDERSCORE else c

def stripLeading (str : CString) : CString :=
  str.dropWhile fun c => c == SPACE || c == SLASH

def stripTrailing (str : CString) : CString :=
  (str.reverse.dropWhile fun c => c == DOT || c == SPACE).reverse

-- The string left in the buffer when `sanitize_name` returns 1, and `none` when
-- it returns an error.
def sanitizeName (str : CString) (maxLen : Nat) : Option CString :=
  if containsDotDot str then
    none
  else if !utf8Validate str then
    none
  else if 0 < maxLen && maxLen < str.length then
    none
  else
    let stripped := stripTrailing (stripLeading (replaceForbidden str))
    if stripped = [] then none else some stripped

-- usbstring.c

def byteOf (n : Nat) : UInt8 := UInt8.ofNat n

def utf8Encode (unicode : Nat) : CString :=
  if unicode ≤ 0x7F then
    [byteOf unicode]
  else if unicode ≤ 0x07FF then
    [byteOf (unicode / 2 ^ 6 % 2 ^ 5 + 0xC0), byteOf (unicode % 2 ^ 6 + 0x80)]
  else if unicode ≤ 0xFFFF then
    [byteOf (unicode / 2 ^ 12 % 2 ^ 4 + 0xE0), byteOf (unicode / 2 ^ 6 % 2 ^ 6 + 0x80),
      byteOf (unicode % 2 ^ 6 + 0x80)]
  else if unicode ≤ 0x10FFFF then
    [byteOf (unicode / 2 ^ 18 % 2 ^ 3 + 0xF0), byteOf (unicode / 2 ^ 12 % 2 ^ 6 + 0x80),
      byteOf (unicode / 2 ^ 6 % 2 ^ 6 + 0x80), byteOf (unicode % 2 ^ 6 + 0x80)]
  else
    []

-- The units up to the first zero are converted as long as the string, with its
-- NUL, fits the buffer. `str` is what is written already. With the string comes the
-- value that the function returns, 1 for a string that is cut, unless the units run
-- out before.
def convertUnits (maxstrsize : Nat) : List Nat → CString → CString × Option Nat
  | [], str => (str, none)
  | unit :: rest, str =>
    if unit = 0 then
      (str, some 0)
    else
      let chunk := utf8Encode unit
      -- utf8_encode gives nothing: default character
      let chunk := if chunk = [] then [0x3F] else chunk
      if str.length + chunk.length < maxstrsize then
        convertUnits maxstrsize rest (str ++ chunk)
      else
        (str, some 1)

def unicode2charstring (maxstrsize : Nat) (units : List Nat) (str : CString) : CString :=
  (convertUnits maxstrsize units str).1

def unicode2charstringReturn (maxstrsize : Nat) (units : List Nat) (str : CString) : Nat :=
  (convertUnits maxstrsize units str).2.getD 0

-- The number of leading one bits, 1 when there is none. A char is shifted as
-- one byte.
def utf8Size (c : UInt8) : Nat :=
  let count := ((List.range 8).takeWhile fun i => (c <<< UInt8.ofNat i) &&& 0x80 != 0).length
  if count = 0 then 1 else count

-- The unit and the number of bytes it was read from.
def utf2unicode (str : CString) : Nat × Nat :=
  let b (i : Nat) : UInt8 := str.getD i 0
  match utf8Size (b 0) with
  | 1 => ((b 0).toNat, 1)
  | 2 =>
    if b 1 &&& 0xC0 != 0x80 then
      (0, 0)
    else
      (((b 0 &&& 0x1F).toNat * 2 ^ 6 + (b 1 &&& 0x3F).toNat) % 2 ^ 8 +
        (b 0 &&& 0x1F).toNat / 2 ^ 2 * 2 ^ 8, 2)
  | 3 =>
    if b 1 &&& 0xC0 != 0x80 || b 2 &&& 0xC0 != 0x80 then
      (0, 0)
    else
      (((b 1 &&& 0x3F).toNat * 2 ^ 6 + (b 2 &&& 0x3F).toNat) % 2 ^ 8 +
        ((b 0 &&& 0x0F).toNat * 2 ^ 4 + (b 1 &&& 0x3F).toNat / 2 ^ 2) * 2 ^ 8, 3)
  | _ => (0, 0)

-- The units `char2unicodestring` writes for at most `count` more of them: the
-- loop ends after a zero unit, and after a unit that could not be read.
def unicodeUnits : Nat → CString → List Nat
  | 0, _ => []
  | count + 1, str =>
    let (unit, ofs) := utf2unicode str
    if unit = 0 || ofs = 0 then [unit] else unit :: unicodeUnits count (str.drop ofs)

end Umtp.Text
