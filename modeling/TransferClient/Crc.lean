import Mathlib.Algebra.Polynomial.Div
import Mathlib.Algebra.Field.ZMod
import Mathlib.RingTheory.AdjoinRoot

namespace TransferClient.Crc

open Polynomial

variable {w : Nat}

-- One step of the division by `x ^ w + g`, most significant bit first: the next bit of
-- the message enters at `x ^ w`.
def divide (g r : BitVec w) (b : Bool) : BitVec w :=
  if r.msb != b then r <<< 1 ^^^ g else r <<< 1

def divideBits (g r : BitVec w) (bits : List Bool) : BitVec w :=
  bits.foldl (divide g) r

def remainder (g : BitVec w) (bits : List Bool) : BitVec w :=
  divideBits g 0 bits

-- The bits of a word, most significant bit first.
def bitsOf {k : Nat} (v : BitVec k) : List Bool :=
  (List.range k).reverse.map v.getLsbD

def bits (bytes : List UInt8) : List Bool :=
  bytes.flatMap fun byte => bitsOf byte.toBitVec

-- Goes on with a word once its value is known. A long computation would otherwise be
-- carried along unevaluated, and nest deeper with each step.
def forced {α : Type} (v : BitVec w) (next : BitVec w → α) : α :=
  match v.toNat with
  | 0 => next 0
  | n + 1 => next (BitVec.ofNat w (n + 1))

-- The product of two remainders, by the bits of the second.
def multiplyBits (g a : BitVec w) : List Bool → BitVec w → BitVec w
  | [], product => product
  | b :: rest, product =>
      forced (divide g product false ^^^ if b then a else 0) (multiplyBits g a rest)

def multiply (g a b : BitVec w) : BitVec w :=
  multiplyBits g a (bitsOf b) 0

-- A power of a remainder, for an exponent of `k` bits.
def power (g a : BitVec w) : Nat → Nat → BitVec w
  | 0, _ => 1
  | k + 1, n =>
      forced (power g a k (n / 2)) fun root =>
        forced (multiply g root root) fun square =>
          if n % 2 = 1 then multiply g square a else square

def coefficient (b : Bool) : ZMod 2 :=
  if b then 1 else 0

noncomputable section

-- The polynomial whose coefficients are the bits of a word.
def toPoly (v : BitVec w) : (ZMod 2)[X] :=
  ∑ i ∈ Finset.range w, C (coefficient (v.getLsbD i)) * X ^ i

-- The polynomial of a message, whose first bit is the leading coefficient.
def message : List Bool → (ZMod 2)[X]
  | [] => 0
  | b :: rest => C (coefficient b) * X ^ rest.length + message rest

def generator (g : BitVec w) : (ZMod 2)[X] :=
  X ^ w + toPoly g

end

end TransferClient.Crc
