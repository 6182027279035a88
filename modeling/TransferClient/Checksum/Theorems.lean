import TransferClient.Checksum
import TransferClient.Crc.Theorems
import Mathlib.Data.Nat.Digits.Defs

namespace TransferClient.Checksum

open Crc

-- The standard's generator is `x ^ 32` and this word.
def posix : BitVec 32 := 0x04c11db7

-- A length as bytes, the least significant first, without zeros in front of it.
def lengthBytes (n : Nat) : List UInt8 :=
  (Nat.digits 256 n).map UInt8.ofNat

-- What the standard says a checksum is: the complemented remainder of the bits of the
-- data and of its length.
def cksum (b : List UInt8) : BitVec 32 :=
  ~~~remainder posix (bits (b ++ lengthBytes b.length))

-- The row of the table is the remainder of every byte.
theorem crctab_eq :
    crctab = (List.range 256).map fun k => (remainder posix (bitsOf (BitVec.ofNat 8 k))).setWidth 64 := by
  decide +kernel

theorem crctab_getElem (k : BitVec 8) :
    crctab[k.toNat]? = some ((remainder posix (bitsOf k)).setWidth 64) := by
  have hk := k.isLt
  rw [crctab_eq, List.getElem?_map, List.getElem?_range (by omega), Option.map_some,
    BitVec.ofNat_toNat, BitVec.setWidth_eq]

-- The index that both loops look up, as a byte.
theorem index_eq (r : BitVec 32) (c : BitVec 64) (hc : c.toNat < 256) :
    ((r.setWidth 64 >>> 24) ^^^ c).toNat = ((r >>> 24).setWidth 8 ^^^ c.setWidth 8).toNat := by
  have hr := r.isLt
  have hupper : (r.setWidth 64 >>> 24).toNat = ((r >>> 24).setWidth 8).toNat := by
    rw [BitVec.toNat_ushiftRight, BitVec.toNat_setWidth, BitVec.toNat_setWidth,
      BitVec.toNat_ushiftRight, Nat.shiftRight_eq_div_pow, Nat.shiftRight_eq_div_pow]
    omega
  have hlower : c.toNat = (c.setWidth 8).toNat := by
    rw [BitVec.toNat_setWidth]
    omega
  rw [BitVec.toNat_xor, BitVec.toNat_xor, hupper, ← hlower]

theorem mask_shiftLeft (r : BitVec 32) :
    r.setWidth 64 <<< 8 &&& (0xffffffff : BitVec 64) = (r <<< 8).setWidth 64 := by
  have hr := r.isLt
  have hmask : (0xffffffff : BitVec 64).toNat = 2 ^ 32 - 1 := rfl
  apply BitVec.eq_of_toNat_eq
  rw [BitVec.toNat_and, hmask, Nat.and_two_pow_sub_one_eq_mod, BitVec.toNat_setWidth,
    BitVec.toNat_shiftLeft, BitVec.toNat_shiftLeft, BitVec.toNat_setWidth, Nat.shiftLeft_eq,
    Nat.shiftLeft_eq]
  omega

-- One look-up divides by the eight bits of a byte.
theorem shiftIn_eq (r : BitVec 32) (c : BitVec 64) (hc : c.toNat < 256) :
    shiftIn (r.setWidth 64) ((r.setWidth 64 >>> 24) ^^^ c).toNat =
      some ((divideBits posix r (bitsOf (c.setWidth 8))).setWidth 64) := by
  rw [shiftIn, index_eq r c hc, crctab_getElem, Option.map_some, mask_shiftLeft,
    divideBits_byte (by decide) posix r, BitVec.setWidth_xor]

-- The index of the first loop: `(s >> 24) ^ (unsigned char)b[i]`, as an `unsigned int`.
def tabidx (s : BitVec 64) (byte : UInt8) : BitVec 32 :=
  ((s >>> 24) ^^^ BitVec.ofNat 64 byte.toNat).setWidth 32

-- What the first loop comes to: the indices it has read so far, `i` and `s`.
inductive BytesReach (b : List UInt8) (n : BitVec 64) : List Nat → BitVec 32 → BitVec 64 → Prop
  | start : BytesReach b n [] 0 0
  | pass {reads : List Nat} {i : BitVec 32} {s next : BitVec 64} {byte : UInt8}
      (hreach : BytesReach b n reads i s) (hlt : i.signExtend 64 < n) (hbyte : b[i.toNat]? = some byte)
      (hnext : shiftIn s (tabidx s byte).toNat = some next) (hmax : i ≠ BitVec.intMax 32) :
      BytesReach b n (reads ++ [i.toNat]) (i + 1) next

-- What the second loop comes to: what is left of the length, and `s`.
inductive LengthReach (b : List UInt8) (n : BitVec 64) : BitVec 64 → BitVec 64 → Prop
  | start {reads : List Nat} {i : BitVec 32} {s : BitVec 64} (hreach : BytesReach b n reads i s)
      (hge : ¬i.signExtend 64 < n) : LengthReach b n n s
  | pass {m s next : BitVec 64} (hreach : LengthReach b n m s) (hne : m ≠ 0)
      (hnext : shiftIn s ((s >>> 24) ^^^ (m &&& 0xff)).toNat = some next) :
      LengthReach b n (m >>> 8) next

-- The invariant of the first loop: it reads the buffer in order, and `s` is the remainder
-- of what it has read.
structure BytesInvariant (b : List UInt8) (n : BitVec 64) (reads : List Nat) (i : BitVec 32)
    (s : BitVec 64) : Prop where
  inOrder : reads = List.range i.toNat
  nonnegative : i.toNat < 2 ^ 31
  counter : i.toNat ≤ n.toNat
  buffer : i.toNat ≤ b.length
  state : s = (remainder posix (bits (b.take i.toNat))).setWidth 64

theorem signExtend_lt_iff (i : BitVec 32) (n : BitVec 64) (hi : i.toNat < 2 ^ 31) :
    i.signExtend 64 < n ↔ i.toNat < n.toNat := by
  have hmsb : i.msb = false := by
    rw [BitVec.msb_eq_false_iff_two_mul_lt]
    omega
  rw [BitVec.signExtend_eq_setWidth_of_msb_false hmsb, BitVec.lt_def, BitVec.toNat_setWidth,
    Nat.mod_eq_of_lt (by omega)]

theorem toNat_add_one (i : BitVec 32) (hi : i.toNat < 2 ^ 31) (hmax : i ≠ BitVec.intMax 32) :
    (i + 1).toNat = i.toNat + 1 ∧ i.toNat + 1 < 2 ^ 31 := by
  have hlast : i.toNat ≠ 2 ^ 31 - 1 := by
    intro h
    exact hmax (BitVec.eq_of_toNat_eq h)
  rw [BitVec.toNat_add, show (1 : BitVec 32).toNat = 1 from rfl]
  omega

theorem ne_intMax (i : BitVec 32) (hi : i.toNat + 1 < 2 ^ 31) : i ≠ BitVec.intMax 32 := by
  intro hmax
  rw [hmax, BitVec.toNat_intMax] at hi
  omega

theorem divideBits_append (g r : BitVec 32) (first second : List Bool) :
    divideBits g r (first ++ second) = divideBits g (divideBits g r first) second :=
  List.foldl_append

theorem bits_append (first second : List UInt8) :
    bits (first ++ second) = bits first ++ bits second :=
  List.flatMap_append

-- A byte looked up behind a text extends its remainder.
theorem shiftIn_remainder (text : List UInt8) (c : BitVec 64) (hc : c.toNat < 256) :
    shiftIn ((remainder posix (bits text)).setWidth 64)
        (((remainder posix (bits text)).setWidth 64 >>> 24) ^^^ c).toNat =
      some ((remainder posix (bits (text ++ [UInt8.ofNat c.toNat]))).setWidth 64) := by
  have hbyte : bits [UInt8.ofNat c.toNat] = bitsOf (c.setWidth 8) := by
    have hvalue : (UInt8.ofNat c.toNat).toBitVec = c.setWidth 8 := by
      apply BitVec.eq_of_toNat_eq
      rw [BitVec.toNat_setWidth]
      exact UInt8.toNat_ofNat
    rw [bits, List.flatMap_singleton, hvalue]
  rw [shiftIn_eq _ c hc, bits_append, hbyte, remainder, remainder, divideBits_append]

theorem toNat_setWidth_lt (r : BitVec 32) : (r.setWidth 64).toNat < 2 ^ 32 := by
  have hr := r.isLt
  rw [BitVec.toNat_setWidth]
  omega

-- The look-ups of a 32-bit state stay within the row.
theorem index_lt (s c : BitVec 64) (hs : s.toNat < 2 ^ 32) (hc : c.toNat < 256) :
    ((s >>> 24) ^^^ c).toNat < 256 := by
  have hshift : (s >>> 24).toNat < 256 := by
    rw [BitVec.toNat_ushiftRight, Nat.shiftRight_eq_div_pow]
    omega
  rw [BitVec.toNat_xor]
  exact Nat.xor_lt_two_pow (n := 8) hshift hc

theorem toNat_byte_lt (byte : UInt8) : (BitVec.ofNat 64 byte.toNat).toNat < 256 := by
  have hbyte := byte.toNat_lt
  rw [BitVec.toNat_ofNat]
  omega

theorem tabidx_toNat (s : BitVec 64) (byte : UInt8) (hs : s.toNat < 2 ^ 32) :
    (tabidx s byte).toNat = ((s >>> 24) ^^^ BitVec.ofNat 64 byte.toNat).toNat ∧
      (tabidx s byte).toNat < 256 := by
  have hlt := index_lt s _ hs (toNat_byte_lt byte)
  rw [tabidx, BitVec.toNat_setWidth]
  omega

-- One pass, from the invariant: the look-up gives the remainder of one byte more.
theorem BytesInvariant.next {b : List UInt8} {n : BitVec 64} {reads : List Nat} {i : BitVec 32}
    {s : BitVec 64} (hinv : BytesInvariant b n reads i s) {byte : UInt8}
    (hbyte : b[i.toNat]? = some byte) :
    shiftIn s (tabidx s byte).toNat =
      some ((remainder posix (bits (b.take (i.toNat + 1)))).setWidth 64) := by
  have hs : s.toNat < 2 ^ 32 := by
    rw [hinv.state]
    exact toNat_setWidth_lt _
  have hvalue : UInt8.ofNat (BitVec.ofNat 64 byte.toNat).toNat = byte := by
    have hlt := byte.toNat_lt
    rw [BitVec.toNat_ofNat, Nat.mod_eq_of_lt (by omega), UInt8.ofNat_toNat]
  rw [(tabidx_toNat s byte hs).1, hinv.state, shiftIn_remainder _ _ (toNat_byte_lt byte), hvalue,
    List.take_add_one, hbyte, Option.toList_some]

theorem BytesReach.invariant {b : List UInt8} {n : BitVec 64} {reads : List Nat} {i : BitVec 32}
    {s : BitVec 64} (hreach : BytesReach b n reads i s) : BytesInvariant b n reads i s := by
  induction hreach with
  | start => exact ⟨rfl, by decide, Nat.zero_le _, Nat.zero_le _, rfl⟩
  | @pass reads i s next byte _ hlt hbyte hnext hmax ih =>
      obtain ⟨hsucc, hint⟩ := toNat_add_one i ih.nonnegative hmax
      have hcounter := (signExtend_lt_iff i n ih.nonnegative).mp hlt
      have hbuffer := (List.getElem?_eq_some_iff.mp hbyte).1
      rw [ih.next hbyte, Option.some.injEq] at hnext
      constructor
      · rw [ih.inOrder, hsucc, List.range_succ]
      · omega
      · omega
      · omega
      · rw [hsucc, hnext]

-- The loop gets to every state that it reaches, with a unit of fuel a pass.
theorem BytesReach.bytesLoop_eq {b : List UInt8} {n : BitVec 64} {reads : List Nat} {i : BitVec 32}
    {s : BitVec 64} (hreach : BytesReach b n reads i s) (fuel : Nat) :
    bytesLoop b n (fuel + reads.length) 0 0 = bytesLoop b n fuel i s := by
  induction hreach generalizing fuel with
  | start => rfl
  | @pass reads i s next byte hreach hlt hbyte hnext hmax ih =>
      have hfuel : fuel + (reads ++ [i.toNat]).length = fuel + 1 + reads.length := by
        rw [List.length_append, List.length_singleton]
        omega
      rw [tabidx] at hnext
      rw [hfuel, ih]
      simp only [bytesLoop, hlt, if_true, hbyte, Option.bind_eq_bind, Option.bind_some, hnext, hmax,
        if_false]

-- As long as `i` is below the largest `int`, a pass reads the next byte.
theorem bytesReach_range (b : List UInt8) (n : BitVec 64) (hn : n.toNat ≤ b.length) (k : Nat)
    (hk : k ≤ n.toNat) (hint : k < 2 ^ 31) :
    ∃ s, BytesReach b n (List.range k) (BitVec.ofNat 32 k) s := by
  induction k with
  | zero => exact ⟨0, .start⟩
  | succ k ih =>
      obtain ⟨s, hreach⟩ := ih (by omega) (by omega)
      have hinv := hreach.invariant
      have hvalue : (BitVec.ofNat 32 k).toNat = k := by
        rw [BitVec.toNat_ofNat]
        omega
      have hlt : (BitVec.ofNat 32 k).signExtend 64 < n := by
        rw [signExtend_lt_iff _ n hinv.nonnegative]
        omega
      have hbyte : b[(BitVec.ofNat 32 k).toNat]? = some b[(BitVec.ofNat 32 k).toNat] :=
        List.getElem?_eq_getElem (by omega)
      have hpass := hreach.pass hlt hbyte (hinv.next hbyte) (ne_intMax _ (by omega))
      rw [hvalue, ← List.range_succ] at hpass
      rw [BitVec.ofNat_add]
      exact ⟨_, hpass⟩

-- Below 2 GiB the loop ends behind the last byte.
theorem bytesLoop_ends (b : List UInt8) (n : BitVec 64) (hn : n.toNat ≤ b.length)
    (hint : n.toNat < 2 ^ 31) :
    ∃ i s, bytesLoop b n (n.toNat + 1) 0 0 = some s ∧ BytesReach b n (List.range n.toNat) i s ∧
      ¬i.signExtend 64 < n := by
  obtain ⟨s, hreach⟩ := bytesReach_range b n hn n.toNat (Nat.le_refl _) hint
  have hge : ¬(BitVec.ofNat 32 n.toNat).signExtend 64 < n := by
    rw [signExtend_lt_iff _ n hreach.invariant.nonnegative, BitVec.toNat_ofNat]
    omega
  refine ⟨_, s, ?_, hreach, hge⟩
  have hloop := hreach.bytesLoop_eq 1
  rw [List.length_range, Nat.add_comm] at hloop
  rw [hloop]
  simp only [bytesLoop, hge, if_false]

-- From 2 GiB on it comes to the largest `int` with bytes left to read.
theorem counter_overflows (b : List UInt8) (n : BitVec 64) (hn : n.toNat ≤ b.length)
    (hlarge : 2 ^ 31 ≤ n.toNat) :
    ∃ s, BytesReach b n (List.range (2 ^ 31 - 1)) (BitVec.intMax 32) s ∧
      (BitVec.intMax 32).signExtend 64 < n := by
  obtain ⟨s, hreach⟩ := bytesReach_range b n hn (2 ^ 31 - 1) (by omega) (by omega)
  have hmax : BitVec.ofNat 32 (2 ^ 31 - 1) = BitVec.intMax 32 := rfl
  have hlast : (BitVec.intMax 32).toNat = 2 ^ 31 - 1 := rfl
  rw [hmax] at hreach
  refine ⟨s, hreach, ?_⟩
  rw [signExtend_lt_iff _ n hreach.invariant.nonnegative]
  omega

theorem bytesLoop_overflows (b : List UInt8) (n : BitVec 64) (hn : n.toNat ≤ b.length)
    (hlarge : 2 ^ 31 ≤ n.toNat) : bytesLoop b n (n.toNat + 1) 0 0 = none := by
  obtain ⟨s, hreach, hlt⟩ := counter_overflows b n hn hlarge
  have hlast : (BitVec.intMax 32).toNat = 2 ^ 31 - 1 := rfl
  have hbyte : b[(BitVec.intMax 32).toNat]? = some b[(BitVec.intMax 32).toNat] :=
    List.getElem?_eq_getElem (by omega)
  have hnext := hreach.invariant.next hbyte
  obtain ⟨fuel, hfuel⟩ : ∃ fuel, n.toNat + 1 = fuel + 1 + (2 ^ 31 - 1) :=
    ⟨n.toNat - (2 ^ 31 - 1), by omega⟩
  have hloop := hreach.bytesLoop_eq (fuel + 1)
  rw [List.length_range, ← hfuel] at hloop
  rw [tabidx] at hnext
  rw [hloop]
  simp only [bytesLoop, hlt, if_true, hbyte, Option.bind_eq_bind, Option.bind_some, hnext]

theorem memcrc_overflows (b : List UInt8) (n : BitVec 64) (hn : n.toNat ≤ b.length)
    (hlarge : 2 ^ 31 ≤ n.toNat) : memcrc b n = none := by
  simp only [memcrc, bytesLoop_overflows b n hn hlarge, Option.bind_eq_bind, Option.bind_none]

-- The invariant of the second loop: `s` is the remainder of the buffer and the bytes of
-- the length that are shifted out.
def LengthInvariant (b : List UInt8) (n m s : BitVec 64) : Prop :=
  ∃ shifted, Nat.digits 256 n.toNat = shifted ++ Nat.digits 256 m.toNat ∧
    s = (remainder posix (bits (b.take n.toNat ++ shifted.map UInt8.ofNat))).setWidth 64

theorem toNat_lowByte (m : BitVec 64) : (m &&& 0xff).toNat = m.toNat % 256 := by
  rw [BitVec.toNat_and, show (0xff : BitVec 64).toNat = 2 ^ 8 - 1 from rfl,
    Nat.and_two_pow_sub_one_eq_mod]

theorem toNat_upperBytes (m : BitVec 64) : (m >>> 8).toNat = m.toNat / 256 := by
  rw [BitVec.toNat_ushiftRight, Nat.shiftRight_eq_div_pow]

theorem LengthInvariant.next {b : List UInt8} {n m s : BitVec 64} (hinv : LengthInvariant b n m s)
    (hne : m ≠ 0) :
    ∃ next, shiftIn s ((s >>> 24) ^^^ (m &&& 0xff)).toNat = some next ∧
      LengthInvariant b n (m >>> 8) next := by
  obtain ⟨shifted, hdigits, rfl⟩ := hinv
  have hlow := toNat_lowByte m
  have hpos : 0 < m.toNat := by
    rw [Nat.pos_iff_ne_zero]
    exact fun h => hne (BitVec.eq_of_toNat_eq h)
  refine ⟨_, shiftIn_remainder _ _ (by omega), shifted ++ [m.toNat % 256], ?_, ?_⟩
  · rw [hdigits, Nat.digits_def' (by decide) hpos, toNat_upperBytes, List.append_assoc,
      List.singleton_append]
  · rw [hlow, List.map_append, List.map_singleton, List.append_assoc]

theorem LengthReach.invariant {b : List UInt8} {n m s : BitVec 64} (hreach : LengthReach b n m s) :
    LengthInvariant b n m s := by
  induction hreach with
  | @start reads i s hreach hge =>
      have hinv := hreach.invariant
      have hend : i.toNat = n.toNat := by
        have hcounter := hinv.counter
        have hlast := (not_congr (signExtend_lt_iff i n hinv.nonnegative)).mp hge
        omega
      refine ⟨[], rfl, ?_⟩
      rw [List.map_nil, List.append_nil, ← hend]
      exact hinv.state
  | pass _ hne hnext ih =>
      obtain ⟨next, hnext', hinv⟩ := ih.next hne
      rw [hnext, Option.some.injEq] at hnext'
      rwa [hnext']

-- It ends, with the whole length shifted out.
theorem lengthLoop_reaches (b : List UInt8) (n : BitVec 64) (fuel : Nat) (m s : BitVec 64)
    (hreach : LengthReach b n m s) (hm : m.toNat < 256 ^ fuel) :
    ∃ final, lengthLoop fuel m s = some final ∧ LengthReach b n 0 final := by
  induction fuel generalizing m s with
  | zero =>
      have hzero : m = 0 := by
        apply BitVec.eq_of_toNat_eq
        rw [Nat.pow_zero] at hm
        simpa using hm
      subst hzero
      exact ⟨s, by simp only [lengthLoop, if_true], hreach⟩
  | succ fuel ih =>
      by_cases hzero : m = 0
      · subst hzero
        exact ⟨s, by simp only [lengthLoop, if_true], hreach⟩
      · obtain ⟨next, hnext, _⟩ := hreach.invariant.next hzero
        have hshift : (m >>> 8).toNat < 256 ^ fuel := by
          rw [toNat_upperBytes]
          rw [Nat.pow_succ] at hm
          omega
        obtain ⟨final, hfinal, hreach'⟩ := ih _ _ (hreach.pass hzero hnext) hshift
        refine ⟨final, ?_, hreach'⟩
        simp only [lengthLoop, hzero, if_false, hnext, Option.bind_eq_bind, Option.bind_some,
          hfinal]

theorem complement_mask (r : BitVec 32) :
    ~~~(r.setWidth 64) &&& (0xffffffff : BitVec 64) = (~~~r).setWidth 64 := by
  have hr := r.isLt
  have hmask : (0xffffffff : BitVec 64).toNat = 2 ^ 32 - 1 := rfl
  apply BitVec.eq_of_toNat_eq
  rw [BitVec.toNat_and, hmask, Nat.and_two_pow_sub_one_eq_mod, BitVec.toNat_not,
    BitVec.toNat_setWidth, BitVec.toNat_setWidth, BitVec.toNat_not]
  omega

-- Both loops together are the standard's checksum.
theorem memcrc_eq (b : List UInt8) (hb : b.length < 2 ^ 31) :
    memcrc b (BitVec.ofNat 64 b.length) = some ((cksum b).setWidth 64) := by
  have hlength : (BitVec.ofNat 64 b.length).toNat = b.length := by
    rw [BitVec.toNat_ofNat]
    omega
  obtain ⟨i, s, hbytes, hreach, hge⟩ :=
    bytesLoop_ends b (BitVec.ofNat 64 b.length) (by omega) (by omega)
  obtain ⟨final, hfinal, hreach'⟩ := lengthLoop_reaches b _ 8 _ s (.start hreach hge) (by omega)
  obtain ⟨shifted, hdigits, rfl⟩ := hreach'.invariant
  have hshifted : shifted = Nat.digits 256 b.length := by
    rw [hlength] at hdigits
    simpa using hdigits.symm
  rw [hlength, List.take_length, hshifted] at hfinal
  simp only [memcrc, hbytes, hfinal, Option.bind_eq_bind, Option.bind_some, Option.pure_def,
    complement_mask]
  rfl

-- The checksum of a buffer below 2 GiB is defined, and has 32 bits.
theorem memcrc_defined (b : List UInt8) (hb : b.length < 2147483648) :
    ∃ crc, memcrc b (BitVec.ofNat 64 b.length) = some crc ∧ crc.toNat < 4294967296 :=
  ⟨_, memcrc_eq b hb, toNat_setWidth_lt _⟩

end TransferClient.Checksum
