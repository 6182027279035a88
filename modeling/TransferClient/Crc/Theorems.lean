import TransferClient.Crc
import Mathlib.Algebra.CharP.Two
import Mathlib.Data.List.GetD

namespace TransferClient.Crc

open Polynomial

variable {w : Nat}

@[simp] theorem coefficient_false : coefficient false = 0 := rfl

@[simp] theorem coefficient_true : coefficient true = 1 := rfl

theorem coefficient_xor (a b : Bool) : coefficient (a ^^ b) = coefficient a + coefficient b := by
  cases a <;> cases b <;> decide

theorem coefficient_injective {a b : Bool} (h : coefficient a = coefficient b) : a = b := by
  cases a <;> cases b <;> first | rfl | exact absurd h (by decide)

theorem coeff_toPoly (v : BitVec w) (i : Nat) : (toPoly v).coeff i = coefficient (v.getLsbD i) := by
  rw [toPoly, finsetSum_coeff]
  simp only [coeff_C_mul, coeff_X_pow, mul_ite, mul_one, mul_zero, Finset.sum_ite_eq,
    Finset.mem_range]
  by_cases hi : i < w
  · rw [if_pos hi]
  · rw [if_neg hi, BitVec.getLsbD_of_ge v i (by omega), coefficient_false]

theorem toPoly_injective {u v : BitVec w} (h : toPoly u = toPoly v) : u = v := by
  apply BitVec.eq_of_getLsbD_eq
  intro i hi
  apply coefficient_injective
  rw [← coeff_toPoly, ← coeff_toPoly, h]

theorem degree_toPoly_lt (v : BitVec w) : (toPoly v).degree < w := by
  rw [degree_lt_iff_coeff_zero]
  intro i hi
  rw [coeff_toPoly, BitVec.getLsbD_of_ge v i (by exact_mod_cast hi), coefficient_false]

@[simp] theorem toPoly_zero : toPoly (0 : BitVec w) = 0 := by
  ext i
  simp [coeff_toPoly]

theorem toPoly_xor (u v : BitVec w) : toPoly (u ^^^ v) = toPoly u + toPoly v := by
  ext i
  rw [coeff_add, coeff_toPoly, coeff_toPoly, coeff_toPoly, BitVec.getLsbD_xor, coefficient_xor]

-- A shift to the left drops the upper bits, which are those of a shift to the right.
theorem shiftLeft_split (v : BitVec w) (k : Nat) (hk : k ≤ w) :
    X ^ k * toPoly v = toPoly (v <<< k) + X ^ w * toPoly ((v >>> (w - k)).setWidth k) := by
  ext i
  rw [coeff_add, coeff_X_pow_mul', coeff_X_pow_mul', coeff_toPoly, coeff_toPoly, coeff_toPoly,
    BitVec.getLsbD_shiftLeft]
  by_cases hlow : i < k
  · have hw : ¬w ≤ i := by omega
    have hki : ¬k ≤ i := by omega
    simp [hw, hki, hlow]
  · by_cases hwidth : i < w
    · have hw : ¬w ≤ i := by omega
      have hki : k ≤ i := by omega
      simp [hw, hki, hlow, hwidth]
    · have hw : w ≤ i := by omega
      have hki : k ≤ i := by omega
      rw [if_pos hki, if_pos hw, BitVec.getLsbD_setWidth, BitVec.getLsbD_ushiftRight,
        show w - k + (i - w) = i - k by omega]
      by_cases hupper : i - w < k
      · simp [hwidth, hupper]
      · have hover : ¬i - k < w := by omega
        simp [hwidth, hupper, BitVec.getLsbD_of_ge v (i - k) (by omega)]

theorem toPoly_bit (v : BitVec 1) : toPoly v = C (coefficient v.msb) := by
  ext i
  rw [coeff_toPoly, coeff_C]
  by_cases hi : i = 0
  · rw [if_pos hi, hi]
    rfl
  · rw [if_neg hi, BitVec.getLsbD_of_ge v i (by omega), coefficient_false]

theorem monic_generator (g : BitVec w) : (generator g).Monic :=
  monic_X_pow_add (degree_toPoly_lt g)

theorem degree_generator (g : BitVec w) : (generator g).degree = w := by
  rw [generator, degree_add_eq_left_of_degree_lt, degree_X_pow]
  rw [degree_X_pow]
  exact degree_toPoly_lt g

-- A word is the one polynomial of its residue class that has fewer than `w` coefficients.
theorem toPoly_eq_modByMonic_iff (g r : BitVec w) (p : (ZMod 2)[X]) :
    toPoly r = p %ₘ generator g ↔
    AdjoinRoot.mk (generator g) (toPoly r) = AdjoinRoot.mk (generator g) p := by
  have hself : toPoly r %ₘ generator g = toPoly r := by
    rw [modByMonic_eq_self_iff (monic_generator g), degree_generator]
    exact degree_toPoly_lt r
  rw [AdjoinRoot.mk_eq_mk, ← modByMonic_eq_zero_iff_dvd (monic_generator g), sub_modByMonic, hself,
    sub_eq_zero]

theorem eq_of_mk_eq {g u v : BitVec w}
    (h : AdjoinRoot.mk (generator g) (toPoly u) = AdjoinRoot.mk (generator g) (toPoly v)) :
    u = v := by
  apply toPoly_injective
  rw [(toPoly_eq_modByMonic_iff g u (toPoly v)).mpr h, eq_comm, toPoly_eq_modByMonic_iff]

-- What one bit does to the remainder, modulo the generator.
theorem mk_divide (hw : 0 < w) (g r : BitVec w) (b : Bool) :
    AdjoinRoot.mk (generator g) (toPoly (divide g r b)) =
      AdjoinRoot.mk (generator g) (X * toPoly r + C (coefficient b) * X ^ w) := by
  have hmsb : ((r >>> (w - 1)).setWidth 1).msb = r.msb := by
    rw [BitVec.msb_eq_getLsbD_last, BitVec.msb_eq_getLsbD_last, BitVec.getLsbD_setWidth,
      BitVec.getLsbD_ushiftRight]
    simp
  have hshift : X * toPoly r = toPoly (r <<< 1) + X ^ w * C (coefficient r.msb) := by
    have h := shiftLeft_split r 1 hw
    rwa [pow_one, toPoly_bit, hmsb] at h
  have hcases : toPoly (divide g r b) =
      X * toPoly r + C (coefficient b) * X ^ w + C (coefficient (r.msb != b)) * generator g := by
    rw [hshift, generator, divide]
    cases r.msb <;> cases b <;> simp [toPoly_xor]
    all_goals ring_nf
    all_goals simp [CharTwo.two_eq_zero]
  rw [hcases, map_add _ (X * toPoly r + _), map_mul _ _ (generator g), AdjoinRoot.mk_self, mul_zero,
    add_zero]

-- What a whole message does to it, by induction on the bits.
theorem mk_divideBits (hw : 0 < w) (g r : BitVec w) (bits : List Bool) :
    AdjoinRoot.mk (generator g) (toPoly (divideBits g r bits)) =
      AdjoinRoot.mk (generator g) (X ^ bits.length * toPoly r + X ^ w * message bits) := by
  induction bits generalizing r with
  | nil => simp [divideBits, message]
  | cons b rest ih =>
      have hstep : divideBits g r (b :: rest) = divideBits g (divide g r b) rest := rfl
      rw [hstep, ih, map_add, map_mul, mk_divide hw, ← map_mul, ← map_add, message,
        List.length_cons]
      refine congrArg (AdjoinRoot.mk (generator g)) ?_
      ring

-- The division leaves the remainder of the message times `x ^ w`.
theorem toPoly_remainder (hw : 0 < w) (g : BitVec w) (bits : List Bool) :
    toPoly (remainder g bits) = (message bits * X ^ w) %ₘ generator g := by
  rw [toPoly_eq_modByMonic_iff, remainder, mk_divideBits hw, toPoly_zero, mul_zero, zero_add,
    mul_comm]

theorem message_append (first second : List Bool) :
    message (first ++ second) = message first * X ^ second.length + message second := by
  induction first with
  | nil => simp [message]
  | cons b rest ih =>
      rw [List.cons_append, message, message, ih, List.length_append]
      ring

@[simp] theorem length_bitsOf {k : Nat} (v : BitVec k) : (bitsOf v).length = k := by
  simp [bitsOf]

theorem coeff_message (bits : List Bool) (i : Nat) :
    (message bits).coeff i = coefficient (bits.reverse.getD i false) := by
  induction bits with
  | nil => simp [message]
  | cons b rest ih =>
      rw [message, coeff_add, coeff_C_mul, coeff_X_pow, ih, List.reverse_cons]
      rcases Nat.lt_trichotomy i rest.length with hi | hi | hi
      · have hne : i ≠ rest.length := by omega
        have hin : i < rest.reverse.length := by rwa [List.length_reverse]
        rw [if_neg hne, mul_zero, zero_add, List.getD_append _ _ _ _ hin]
      · have hout : rest.reverse.length ≤ i := by rw [List.length_reverse]; omega
        rw [if_pos hi, mul_one, List.getD_append_right _ _ _ _ hout, List.getD_eq_default _ _ hout]
        simp [hi]
      · have hne : i ≠ rest.length := by omega
        rw [if_neg hne, List.getD_eq_default _ _ (by simp; omega),
          List.getD_eq_default _ _ (by simp; omega)]
        simp

theorem message_bitsOf {k : Nat} (v : BitVec k) : message (bitsOf v) = toPoly v := by
  ext i
  rw [coeff_message, coeff_toPoly, bitsOf, ← List.map_reverse, List.reverse_reverse]
  by_cases hi : i < k
  · simp [hi]
  · simp [hi, BitVec.getLsbD_of_ge v i (by omega)]

-- A byte at a time: the upper byte of the remainder and the byte of the message meet in
-- one entry of a table of 256.
theorem divideBits_byte (hw : 8 ≤ w) (g r : BitVec w) (byte : BitVec 8) :
    divideBits g r (bitsOf byte) =
      r <<< 8 ^^^ remainder g (bitsOf ((r >>> (w - 8)).setWidth 8 ^^^ byte)) := by
  have hpos : 0 < w := by omega
  apply eq_of_mk_eq (g := g)
  rw [toPoly_xor, map_add, remainder, mk_divideBits hpos, mk_divideBits hpos, message_bitsOf,
    message_bitsOf, length_bitsOf, shiftLeft_split r 8 hw, toPoly_zero, toPoly_xor, ← map_add]
  refine congrArg (AdjoinRoot.mk (generator g)) ?_
  ring

end TransferClient.Crc
