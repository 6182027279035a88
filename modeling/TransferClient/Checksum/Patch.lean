import TransferClient.Checksum.Detection
import TransferClient.Crc.Patch

namespace TransferClient.Checksum

open Crc

-- Every list of bits in whole bytes is that of some bytes.
theorem exists_bits (count : Nat) (list : List Bool) (hlength : list.length = 8 * count) :
    ∃ bytes : List UInt8, bytes.length = count ∧ bits bytes = list := by
  induction count generalizing list with
  | zero => exact ⟨[], rfl, (List.length_eq_zero_iff.mp hlength).symm⟩
  | succ count ih =>
      have hfirst : (list.take 8).length = 8 := by
        rw [List.length_take]
        omega
      have hrest : (list.drop 8).length = 8 * count := by
        rw [List.length_drop]
        omega
      obtain ⟨byte, hbyte⟩ := exists_bitsOf (list.take 8) hfirst
      obtain ⟨bytes, hcount, hbytes⟩ := ih (list.drop 8) hrest
      refine ⟨UInt8.ofBitVec byte :: bytes, by rw [List.length_cons, hcount], ?_⟩
      have hcons : bits (UInt8.ofBitVec byte :: bytes) = bitsOf byte ++ bits bytes := rfl
      rw [hcons, hbyte, hbytes, List.take_append_drop]

-- Four bytes at any place can be chosen for any checksum of the whole, and in one way only:
-- the checksum is no protection against who chooses the contents.
theorem memcrc_patch (before after : List UInt8)
    (hsmall : before.length + 4 + after.length < 2 ^ 31) (target : BitVec 32) :
    ∃! block : List UInt8, block.length = 4 ∧
      memcrc (before ++ block ++ after) (BitVec.ofNat 64 (before ++ block ++ after).length) =
        some (target.setWidth 64) := by
  have hbits (block : List UInt8) :
      bits (before ++ block ++ after ++ lengthBytes (before.length + 4 + after.length)) =
        bits before ++ bits block ++ bits (after ++ lengthBytes (before.length + 4 + after.length)) := by
    simp only [bits_append, List.append_assoc]
  have hmemcrc (block : List UInt8) (hlength : block.length = 4) :
      memcrc (before ++ block ++ after) (BitVec.ofNat 64 (before ++ block ++ after).length) =
          some (target.setWidth 64) ↔
        remainder posix (bits before ++ bits block ++
          bits (after ++ lengthBytes (before.length + 4 + after.length))) = ~~~target := by
    have htotal : (before ++ block ++ after).length = before.length + 4 + after.length := by
      rw [List.length_append, List.length_append, hlength]
    rw [memcrc_eq _ (by rw [htotal]; exact hsmall), Option.some.injEq, cksum, htotal, hbits]
    constructor
    · intro hsame
      have hword := congrArg (BitVec.setWidth 32) hsame
      rw [BitVec.setWidth_setWidth_of_le _ (by decide),
        BitVec.setWidth_setWidth_of_le _ (by decide), BitVec.setWidth_eq,
        BitVec.setWidth_eq] at hword
      rw [← hword, BitVec.not_not]
    · intro hword
      rw [hword, BitVec.not_not]
  obtain ⟨word, hword, hunique⟩ := remainder_patch (by decide) posix (by decide) (bits before)
    (bits (after ++ lengthBytes (before.length + 4 + after.length))) (~~~target)
  obtain ⟨block, hlength, hblock⟩ := exists_bits 4 (bitsOf word) (length_bitsOf word)
  refine ⟨block, ⟨hlength, (hmemcrc block hlength).mpr (by rwa [hblock])⟩, ?_⟩
  rintro other ⟨hother, hsame⟩
  obtain ⟨word', hword'⟩ := exists_bitsOf (k := 32) (bits other) (by rw [length_bits, hother])
  have hequal := hunique word' (by
    have hremainder := (hmemcrc other hother).mp hsame
    rwa [← hword'] at hremainder)
  apply bits_injective (by rw [hother, hlength])
  rw [← hword', hequal, hblock]

-- The check value of the standard, for a file of 13 bytes.
theorem memcrc_patch_digits :
    ∃! block : List UInt8, block.length = 4 ∧
      memcrc ([49, 50, 51, 52, 53] ++ block ++ [54, 55, 56, 57])
        (BitVec.ofNat 64 ([49, 50, 51, 52, 53] ++ block ++ [54, 55, 56, 57]).length) =
          some ((0x377a6011 : BitVec 32).setWidth 64) :=
  memcrc_patch [49, 50, 51, 52, 53] [54, 55, 56, 57] (by decide) 0x377a6011

end TransferClient.Checksum
