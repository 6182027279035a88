import TransferClient.Crc.Theorems
import Mathlib.GroupTheory.OrderOfElement

namespace TransferClient.Crc

open Polynomial

variable {w : Nat}

theorem coprime_generator (hw : 0 < w) (g : BitVec w) (hg : g.getLsbD 0 = true) (k : Nat) :
    IsCoprime (generator g) (X ^ k) := by
  have hconstant : (generator g).coeff 0 = 1 := by
    rw [generator, coeff_add, coeff_toPoly, hg, coeff_X_pow, if_neg (by omega), zero_add,
      coefficient_true]
  obtain ⟨q, hq⟩ := X_dvd_sub_C (p := generator g)
  rw [hconstant, sub_eq_iff_eq_add] at hq
  apply IsCoprime.pow_right
  refine ⟨1, -q, ?_⟩
  rw [hq, map_one]
  ring

-- What the generator divides does not depend on the bits that follow.
theorem remainder_append_eq_iff (hw : 0 < w) (g : BitVec w) (hg : g.getLsbD 0 = true)
    (first second suffix : List Bool) :
    remainder g (first ++ suffix) = remainder g (second ++ suffix) ↔
      generator g ∣ message first + message second := by
  have hdifference : message (first ++ suffix) * X ^ w - message (second ++ suffix) * X ^ w =
      X ^ (suffix.length + w) * (message first + message second) := by
    rw [message_append, message_append, CharTwo.sub_eq_add, pow_add, ← add_mul, add_add_add_comm,
      CharTwo.add_self_eq_zero]
    ring
  have hmod : remainder g (first ++ suffix) = remainder g (second ++ suffix) ↔
      generator g ∣ message (first ++ suffix) * X ^ w - message (second ++ suffix) * X ^ w := by
    rw [← modByMonic_eq_zero_iff_dvd (monic_generator g), sub_modByMonic, ← toPoly_remainder hw,
      ← toPoly_remainder hw, sub_eq_zero]
    exact ⟨fun h => by rw [h], toPoly_injective⟩
  rw [hmod, hdifference]
  exact ⟨(coprime_generator hw g hg _).dvd_of_dvd_mul_left, fun h => h.mul_left _⟩

theorem degree_message_lt (bits : List Bool) : (message bits).degree < bits.length := by
  rw [degree_lt_iff_coeff_zero]
  intro i hi
  rw [coeff_message, List.getD_eq_default _ _ (by rw [List.length_reverse]; exact_mod_cast hi),
    coefficient_false]

theorem message_injective {first second : List Bool} (hlength : first.length = second.length)
    (h : message first = message second) : first = second := by
  have hreverse : first.reverse = second.reverse := by
    apply List.ext_getElem
    · rw [List.length_reverse, List.length_reverse, hlength]
    · intro i hi hi'
      have hcoeff := congrArg (fun p => p.coeff i) h
      simp only [coeff_message] at hcoeff
      have hbit := coefficient_injective hcoeff
      rwa [List.getD_eq_getElem _ _ hi, List.getD_eq_getElem _ _ hi'] at hbit
  rw [← List.reverse_reverse first, hreverse, List.reverse_reverse]

-- A burst is a stretch of at most `w` bits in which two messages differ.
theorem remainder_burst (hw : 0 < w) (g : BitVec w) (hg : g.getLsbD 0 = true)
    (before burst burst' after : List Bool) (hlength : burst.length = burst'.length)
    (hwidth : burst.length ≤ w) (hne : burst ≠ burst') :
    remainder g (before ++ burst ++ after) ≠ remainder g (before ++ burst' ++ after) := by
  intro heq
  have hdivides := (remainder_append_eq_iff hw g hg _ _ after).mp heq
  rw [message_append, message_append, hlength, add_add_add_comm, CharTwo.add_self_eq_zero, zero_add]
    at hdivides
  have hdegree : (message burst + message burst').degree < (generator g).degree := by
    have hbound : (burst.length : WithBot Nat) ≤ w := by exact_mod_cast hwidth
    rw [degree_generator]
    refine lt_of_le_of_lt (degree_add_le _ _) (max_lt ?_ ?_)
    · exact lt_of_lt_of_le (degree_message_lt burst) hbound
    · exact lt_of_lt_of_le (degree_message_lt burst') (hlength ▸ hbound)
  have hzero := eq_zero_of_dvd_of_degree_lt hdivides hdegree
  rw [CharTwo.add_eq_zero] at hzero
  exact hne (message_injective hlength hzero)

-- The same with the burst given by the window it lies in.
theorem remainder_window (hw : 0 < w) (g : BitVec w) (hg : g.getLsbD 0 = true)
    (first second suffix : List Bool) (hlength : first.length = second.length)
    (hne : first ≠ second)
    (start : Nat) (hwindow : ∀ k, first[k]? ≠ second[k]? → start ≤ k ∧ k < start + w) :
    remainder g (first ++ suffix) ≠ remainder g (second ++ suffix) := by
  have hsplit (bits : List Bool) :
      bits = bits.take start ++ (bits.drop start).take w ++ bits.drop (start + w) := by
    rw [List.append_assoc, ← List.drop_drop, List.take_append_drop, List.take_append_drop]
  have hbefore : second.take start = first.take start := by
    apply List.ext_getElem?
    intro k
    rw [List.getElem?_take, List.getElem?_take]
    by_cases hk : k < start
    · by_contra hdiffer
      have h := hwindow k (by simpa [hk, eq_comm] using hdiffer)
      omega
    · rw [if_neg hk, if_neg hk]
  have hafter : second.drop (start + w) = first.drop (start + w) := by
    apply List.ext_getElem?
    intro k
    rw [List.getElem?_drop, List.getElem?_drop]
    by_contra hdiffer
    have h := hwindow (start + w + k) (Ne.symm hdiffer)
    omega
  have hburst : (first.drop start).take w ≠ (second.drop start).take w := by
    intro heq
    exact hne (by rw [hsplit first, hsplit second, hbefore, hafter, heq])
  have hsame : ((first.drop start).take w).length = ((second.drop start).take w).length := by
    rw [List.length_take, List.length_take, List.length_drop, List.length_drop, hlength]
  have h := remainder_burst hw g hg (first.take start) ((first.drop start).take w)
    ((second.drop start).take w)
    (first.drop (start + w) ++ suffix) hsame (List.length_take_le _ _) hburst
  rwa [← List.append_assoc, ← List.append_assoc, ← hsplit first, ← hbefore, ← hafter,
    ← hsplit second] at h

theorem coeff_message_of_lt (bits : List Bool) (d : Nat) (hd : d < bits.length) :
    (message bits).coeff d = coefficient bits[bits.length - 1 - d] := by
  rw [coeff_message, List.getD_eq_getElem _ _ (by rwa [List.length_reverse]), List.getElem_reverse]

-- Messages that differ in two bits differ by the two powers of `x`.
theorem message_add_of_two_bits (first second : List Bool) (hlength : first.length = second.length)
    (i j : Nat) (hij : i < j) (hj : j < first.length)
    (hdiffer : ∀ k, first[k]? ≠ second[k]? ↔ k = i ∨ k = j) :
    message first + message second = X ^ (first.length - 1 - j) * (X ^ (j - i) + 1) := by
  ext d
  rw [mul_add, mul_one, ← pow_add, coeff_add, coeff_add, coeff_X_pow, coeff_X_pow]
  by_cases hd : d < first.length
  · have hd' : d < second.length := by omega
    have hk := hdiffer (first.length - 1 - d)
    rw [List.getElem?_eq_getElem (by omega), List.getElem?_eq_getElem (by omega), ne_eq,
      Option.some.injEq, ← ne_eq, ← Bool.xor_iff_ne] at hk
    rw [coeff_message_of_lt first d hd, coeff_message_of_lt second d hd', ← coefficient_xor]
    simp only [← hlength]
    by_cases hat : first.length - 1 - d = i
    · rw [if_pos (by omega), if_neg (by omega), add_zero, hk.mpr (.inl hat), coefficient_true]
    · by_cases hat' : first.length - 1 - d = j
      · rw [if_neg (by omega), if_pos (by omega), zero_add, hk.mpr (.inr hat'), coefficient_true]
      · have hsame := (not_congr hk).mpr (by omega)
        rw [Bool.not_eq_true] at hsame
        rw [if_neg (by omega), if_neg (by omega), hsame, coefficient_false, add_zero]
  · rw [coeff_message, coeff_message, List.getD_eq_default _ _ (by rw [List.length_reverse]; omega),
      List.getD_eq_default _ _ (by rw [List.length_reverse]; omega), if_neg (by omega), if_neg (by omega)]
    rfl

-- The generator divides them only when the distance is a multiple of the order of `x`.
theorem remainder_two_bits (hw : 0 < w) (g : BitVec w) (hg : g.getLsbD 0 = true)
    (first second suffix : List Bool) (hlength : first.length = second.length)
    (horder : first.length ≤ orderOf (AdjoinRoot.root (generator g)))
    (i j : Nat) (hij : i < j) (hj : j < first.length)
    (hdiffer : ∀ k, first[k]? ≠ second[k]? ↔ k = i ∨ k = j) :
    remainder g (first ++ suffix) ≠ remainder g (second ++ suffix) := by
  intro heq
  have hdivides := (remainder_append_eq_iff hw g hg first second suffix).mp heq
  rw [message_add_of_two_bits first second hlength i j hij hj hdiffer] at hdivides
  have hpower : AdjoinRoot.root (generator g) ^ (j - i) = 1 := by
    have h := (coprime_generator hw g hg _).dvd_of_dvd_mul_left hdivides
    rw [← CharTwo.sub_eq_add, ← AdjoinRoot.mk_eq_mk, map_pow, map_one, AdjoinRoot.mk_X] at h
    exact h
  have hle := Nat.le_of_dvd (by omega) (orderOf_dvd_of_pow_eq_one hpower)
  omega

section Order

@[simp] theorem forced_eq {α : Type} (v : BitVec w) (next : BitVec w → α) :
    forced v next = next v := by
  rw [forced]
  cases hv : v.toNat with
  | zero => rw [show v = 0 from BitVec.eq_of_toNat_eq hv]
  | succ n =>
      show next (BitVec.ofNat w (n + 1)) = next v
      rw [← hv, BitVec.ofNat_toNat, BitVec.setWidth_eq]

theorem mk_multiplyBits (hw : 0 < w) (g a product : BitVec w) (bits : List Bool) :
    AdjoinRoot.mk (generator g) (toPoly (multiplyBits g a bits product)) =
      AdjoinRoot.mk (generator g) (X ^ bits.length * toPoly product + toPoly a * message bits) := by
  induction bits generalizing product with
  | nil => simp [multiplyBits, message]
  | cons b rest ih =>
      have hbit : toPoly (if b then a else 0) = toPoly a * C (coefficient b) := by
        cases b with
        | false =>
            rw [if_neg Bool.false_ne_true, toPoly_zero, coefficient_false, map_zero, mul_zero]
        | true => rw [if_pos rfl, coefficient_true, map_one, mul_one]
      rw [multiplyBits, forced_eq, ih, toPoly_xor, mul_add, add_assoc, map_add, map_mul,
        mk_divide hw, ← map_mul, ← map_add, hbit, message, List.length_cons, coefficient_false,
        map_zero]
      refine congrArg (AdjoinRoot.mk (generator g)) ?_
      ring

theorem mk_multiply (hw : 0 < w) (g a b : BitVec w) :
    AdjoinRoot.mk (generator g) (toPoly (multiply g a b)) =
      AdjoinRoot.mk (generator g) (toPoly a * toPoly b) := by
  rw [multiply, mk_multiplyBits hw, toPoly_zero, mul_zero, zero_add, message_bitsOf]

theorem toPoly_one (hw : 0 < w) : toPoly (1 : BitVec w) = 1 := by
  ext i
  rw [coeff_toPoly, coeff_one, show (1 : BitVec w) = 1#w from rfl, BitVec.getLsbD_one]
  by_cases hi : i = 0
  · simp [hi, hw]
  · simp [hi]

theorem mk_power (hw : 0 < w) (g a : BitVec w) (k n : Nat) (hn : n < 2 ^ k) :
    AdjoinRoot.mk (generator g) (toPoly (power g a k n)) =
      AdjoinRoot.mk (generator g) (toPoly a) ^ n := by
  induction k generalizing n with
  | zero =>
      have hzero : n = 0 := by omega
      rw [power, toPoly_one hw, hzero, pow_zero, map_one]
  | succ k ih =>
      have hhalf : n / 2 < 2 ^ k := by
        rw [Nat.pow_succ] at hn
        omega
      have hsquare : AdjoinRoot.mk (generator g)
          (toPoly (multiply g (power g a k (n / 2)) (power g a k (n / 2)))) =
          AdjoinRoot.mk (generator g) (toPoly a) ^ (2 * (n / 2)) := by
        rw [mk_multiply hw, map_mul, ih _ hhalf, ← pow_add, Nat.two_mul]
      rw [power, forced_eq, forced_eq]
      by_cases hodd : n % 2 = 1
      · rw [if_pos hodd, mk_multiply hw, map_mul, hsquare, ← pow_succ,
          show 2 * (n / 2) + 1 = n by omega]
      · rw [if_neg hodd, hsquare, show 2 * (n / 2) = n by omega]

-- `x` as a word, which needs two bits.
theorem toPoly_two (hw : 1 < w) : toPoly (2 : BitVec w) = X := by
  ext i
  have hbit : Nat.testBit 2 i = decide (1 = i) := Nat.testBit_two_pow (n := 1)
  rw [coeff_toPoly, coeff_X, show (2 : BitVec w) = BitVec.ofNat w 2 from rfl, BitVec.getLsbD_ofNat,
    hbit]
  by_cases hi : 1 = i
  · simp [← hi, hw]
  · simp [hi]

-- Powers of `x` are compared by computing them.
theorem root_pow_eq_one_iff (hw : 1 < w) (g : BitVec w) (k n : Nat) (hn : n < 2 ^ k) :
    AdjoinRoot.root (generator g) ^ n = 1 ↔ power g 2 k n = 1 := by
  have hpos : 0 < w := by omega
  have hpower := mk_power hpos g 2 k n hn
  rw [toPoly_two hw, AdjoinRoot.mk_X] at hpower
  have hone : AdjoinRoot.mk (generator g) (toPoly (1 : BitVec w)) = 1 := by
    rw [toPoly_one hpos, map_one]
  rw [← hpower, ← hone]
  exact ⟨eq_of_mk_eq, fun h => by rw [h]⟩

end Order

end TransferClient.Crc
