import Mathlib.Data.List.Basic

namespace TransferClient

-- A block of memory of a fixed size.
abbrev Buffer (size : Nat) := {bytes : List UInt8 // bytes.length = size}

namespace Bytes

-- The bytes of an ASCII literal.
def text (literal : String) : List UInt8 :=
  literal.toList.map fun c => UInt8.ofNat c.toNat

def littleEndian : Nat → Nat → List UInt8
  | 0, _ => []
  | width + 1, value => UInt8.ofNat value :: littleEndian width (value / 256)

def bigEndian (width value : Nat) : List UInt8 :=
  (littleEndian width value).reverse

def fromLittleEndian : List UInt8 → Nat
  | [] => 0
  | byte :: rest => byte.toNat + 256 * fromLittleEndian rest

def fromBigEndian (bytes : List UInt8) : Nat :=
  fromLittleEndian bytes.reverse

-- Copy `bytes` over the part of `buffer` that starts at `offset`.
def write (buffer : List UInt8) (offset : Nat) (bytes : List UInt8) : List UInt8 :=
  buffer.take offset ++ bytes ++ buffer.drop (offset + bytes.length)

-- What a C function reads through a pointer to `string`.
def cString (string : List UInt8) : List UInt8 :=
  string.takeWhile (· != 0)

-- The bytes that `strcpy` writes for this source.
def strcpy (string : List UInt8) : List UInt8 :=
  cString string ++ [0]

-- The bytes that `strncpy` writes for this source and count.
def strncpy (string : List UInt8) (count : Nat) : List UInt8 :=
  (cString string).take count ++ List.replicate (count - (cString string).length) 0

def hexDigit (value : Nat) : UInt8 :=
  if value < 10 then UInt8.ofNat (48 + value) else UInt8.ofNat (87 + value)

-- A byte printed with `std::hex`, width 2 and fill character '0'.
def hexByte (byte : UInt8) : List UInt8 :=
  [hexDigit (byte.toNat / 16), hexDigit (byte.toNat % 16)]

def hex (bytes : List UInt8) : List UInt8 :=
  bytes.flatMap hexByte

def hexValue (digit : UInt8) : Option Nat :=
  if 48 ≤ digit.toNat ∧ digit.toNat ≤ 57 then some (digit.toNat - 48)
  else if 97 ≤ digit.toNat ∧ digit.toNat ≤ 102 then some (digit.toNat - 87)
  else none

def unhex : List UInt8 → Option (List UInt8)
  | [] => some []
  | [_] => none
  | high :: low :: rest => do
      let h ← hexValue high
      let l ← hexValue low
      let bytes ← unhex rest
      return UInt8.ofNat (16 * h + l) :: bytes

end Bytes

end TransferClient
