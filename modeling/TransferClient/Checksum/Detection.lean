import TransferClient.Checksum.Theorems
import TransferClient.Crc.Detection
import Mathlib.Tactic.NormNum.Prime

namespace TransferClient.Checksum

open Crc Polynomial

-- The factors of the number of 32-bit states other than zero.
theorem prime_dvd_states (p : Nat) (hp : p.Prime) (hdvd : p ∣ 2 ^ 32 - 1) :
    p ∈ [3, 5, 17, 257, 65537] := by
  have hfactors : 2 ^ 32 - 1 = 3 * 5 * 17 * 257 * 65537 := by norm_num
  rw [hfactors, hp.dvd_mul, hp.dvd_mul, hp.dvd_mul, hp.dvd_mul,
    Nat.prime_dvd_prime_iff_eq hp (by norm_num), Nat.prime_dvd_prime_iff_eq hp (by norm_num),
    Nat.prime_dvd_prime_iff_eq hp (by norm_num), Nat.prime_dvd_prime_iff_eq hp (by norm_num),
    Nat.prime_dvd_prime_iff_eq hp (by norm_num)] at hdvd
  simp only [List.mem_cons, List.not_mem_nil, or_false]
  omega

-- `x` runs through all of them: the generator is primitive.
theorem orderOf_root : orderOf (AdjoinRoot.root (generator posix)) = 2 ^ 32 - 1 := by
  apply orderOf_eq_of_pow_and_pow_div_prime (by decide)
  · rw [root_pow_eq_one_iff (by decide) posix 32 _ (by decide)]
    decide +kernel
  · intro p hp hdvd
    have hne : ∀ q ∈ [3, 5, 17, 257, 65537], power posix 2 32 ((2 ^ 32 - 1) / q) ≠ 1 := by
      decide +kernel
    have hlt : (2 ^ 32 - 1) / p < 2 ^ 32 := Nat.lt_of_le_of_lt (Nat.div_le_self _ _) (by decide)
    rw [ne_eq, root_pow_eq_one_iff (by decide) posix 32 _ hlt]
    exact hne p (prime_dvd_states p hp hdvd)

theorem length_bits (bytes : List UInt8) : (bits bytes).length = 8 * bytes.length := by
  induction bytes with
  | nil => rfl
  | cons byte rest ih =>
      have hcons : bits (byte :: rest) = bitsOf byte.toBitVec ++ bits rest := rfl
      rw [hcons, List.length_append, length_bitsOf, ih, List.length_cons]
      omega

theorem getElem?_bits_of_ge (bytes : List UInt8) (k : Nat) (hk : 8 * bytes.length ≤ k) :
    (bits bytes)[k]? = none :=
  List.getElem?_eq_none (by rw [length_bits]; exact hk)

theorem bits_injective {first second : List UInt8} (hlength : first.length = second.length)
    (h : bits first = bits second) : first = second := by
  induction first generalizing second with
  | nil => exact (List.length_eq_zero_iff.mp hlength.symm).symm
  | cons byte rest ih =>
      cases second with
      | nil => cases hlength
      | cons byte' rest' =>
          have hcons (byte : UInt8) (rest : List UInt8) :
              bits (byte :: rest) = bitsOf byte.toBitVec ++ bits rest :=
            rfl
          rw [hcons, hcons] at h
          obtain ⟨hbyte, hrest⟩ := List.append_inj h (by rw [length_bitsOf, length_bitsOf])
          have hpoly := congrArg message hbyte
          rw [message_bitsOf, message_bitsOf] at hpoly
          rw [UInt8.toBitVec_inj.mp (toPoly_injective hpoly), ih (by simpa using hlength) hrest]

-- Buffers of one length have different checksums when their bits, with anything behind
-- them, have different remainders.
theorem memcrc_ne (b b' : List UInt8) (hlength : b.length = b'.length) (hb : b.length < 2 ^ 31)
    (hne : ∀ suffix, remainder posix (bits b ++ suffix) ≠ remainder posix (bits b' ++ suffix)) :
    ∃ crc crc', memcrc b (BitVec.ofNat 64 b.length) = some crc ∧
      memcrc b' (BitVec.ofNat 64 b'.length) = some crc' ∧ crc ≠ crc' := by
  refine ⟨_, _, memcrc_eq b hb, memcrc_eq b' (by omega), ?_⟩
  intro heq
  have hcksum : cksum b = cksum b' := by
    have h := congrArg (BitVec.setWidth 32) heq
    simpa using h
  rw [cksum, cksum, bits_append, bits_append, ← hlength] at hcksum
  exact hne _ (BitVec.not_inj.mp hcksum)

-- Any change within 32 consecutive bits is noticed.
theorem memcrc_burst (b b' : List UInt8) (hlength : b.length = b'.length)
    (hb : b.length ≤ 2 ^ 31 - 1) (hne : b ≠ b') (start : Nat)
    (hwindow : ∀ k, (bits b)[k]? ≠ (bits b')[k]? → start ≤ k ∧ k < start + 32) :
    ∃ crc crc', memcrc b (BitVec.ofNat 64 b.length) = some crc ∧
      memcrc b' (BitVec.ofNat 64 b'.length) = some crc' ∧ crc ≠ crc' := by
  apply memcrc_ne b b' hlength (by omega)
  intro suffix
  have hbits : (bits b).length = (bits b').length := by rw [length_bits, length_bits, hlength]
  exact remainder_window (by decide) posix (by decide) _ _ suffix hbits
    (fun h => hne (bits_injective hlength h)) start hwindow

theorem memcrc_burst_byte :
    ∃ crc crc', memcrc [0, 255] 2 = some crc ∧ memcrc [0, 0] 2 = some crc' ∧ crc ≠ crc' := by
  have hlow : ∀ k < 16, (bits [0, 255])[k]? ≠ (bits [0, 0])[k]? → 8 ≤ k ∧ k < 8 + 32 := by
    decide +kernel
  refine memcrc_burst [0, 255] [0, 0] rfl (by decide) (by decide) 8 ?_
  intro k hk
  by_cases hlt : k < 16
  · exact hlow k hlt hk
  · have hge : 16 ≤ k := by omega
    exact absurd (by rw [getElem?_bits_of_ge [0, 255] k hge, getElem?_bits_of_ge [0, 0] k hge]) hk

-- Any change of two bits is noticed, in a buffer of less than 2 ^ 32 bits.
theorem memcrc_two_bits (b b' : List UInt8) (hlength : b.length = b'.length)
    (hb : 8 * b.length ≤ 2 ^ 32 - 1) (i j : Nat) (hij : i < j)
    (hdiffer : ∀ k, (bits b)[k]? ≠ (bits b')[k]? ↔ k = i ∨ k = j) :
    ∃ crc crc', memcrc b (BitVec.ofNat 64 b.length) = some crc ∧
      memcrc b' (BitVec.ofNat 64 b'.length) = some crc' ∧ crc ≠ crc' := by
  apply memcrc_ne b b' hlength (by omega)
  intro suffix
  have hbits : (bits b).length = (bits b').length := by rw [length_bits, length_bits, hlength]
  have hj : j < (bits b).length := by
    by_contra hout
    refine (hdiffer j).mpr (.inr rfl) ?_
    rw [List.getElem?_eq_none (by omega), List.getElem?_eq_none (by omega)]
  have horder : (bits b).length ≤ orderOf (AdjoinRoot.root (generator posix)) := by
    rw [orderOf_root, length_bits]
    exact hb
  exact remainder_two_bits (by decide) posix (by decide) _ _ suffix hbits horder i j hij hj hdiffer

theorem memcrc_two_bits_adjacent :
    ∃ crc crc', memcrc [1, 128] 2 = some crc ∧ memcrc [0, 0] 2 = some crc' ∧ crc ≠ crc' := by
  have hlow : ∀ k < 16, (bits [1, 128])[k]? ≠ (bits [0, 0])[k]? ↔ k = 7 ∨ k = 8 := by decide +kernel
  refine memcrc_two_bits [1, 128] [0, 0] rfl (by decide) 7 8 (by decide) ?_
  intro k
  by_cases hlt : k < 16
  · exact hlow k hlt
  · have hge : 16 ≤ k := by omega
    rw [getElem?_bits_of_ge [1, 128] k hge, getElem?_bits_of_ge [0, 0] k hge]
    exact iff_of_false (fun h => h rfl) (by omega)

end TransferClient.Checksum
