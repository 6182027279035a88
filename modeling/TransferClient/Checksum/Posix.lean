import TransferClient.Checksum.Theorems

namespace TransferClient.Checksum

open Crc Polynomial

-- The client's checksum is the one of the standard, and no step of either loop leaves the
-- 32 bits of the state or looks up an index outside the row.
theorem memcrc_posix (b : List UInt8) (hb : b.length ≤ 2 ^ 31 - 1) :
    memcrc b (BitVec.ofNat 64 b.length) = some ((cksum b).setWidth 64) ∧
    toPoly (~~~cksum b) =
      (message (bits (b ++ lengthBytes b.length)) * X ^ 32) %ₘ (X ^ 32 + toPoly posix) ∧
    (∀ reads i s, BytesReach b (BitVec.ofNat 64 b.length) reads i s →
      s.toNat < 2 ^ 32 ∧ ∀ byte, (tabidx s byte).toNat < 256) ∧
    ∀ m s, LengthReach b (BitVec.ofNat 64 b.length) m s →
      s.toNat < 2 ^ 32 ∧ ((s >>> 24) ^^^ (m &&& 0xff)).toNat < 256 := by
  refine ⟨memcrc_eq b (by omega), ?_, ?_, ?_⟩
  · rw [cksum, BitVec.not_not]
    exact toPoly_remainder (by decide) posix _
  · intro reads i s hreach
    have hs : s.toNat < 2 ^ 32 := by
      rw [hreach.invariant.state]
      exact toNat_setWidth_lt _
    exact ⟨hs, fun byte => (tabidx_toNat s byte hs).2⟩
  · intro m s hreach
    have hs : s.toNat < 2 ^ 32 := by
      obtain ⟨shifted, _, rfl⟩ := hreach.invariant
      exact toNat_setWidth_lt _
    have hlow := toNat_lowByte m
    exact ⟨hs, index_lt s _ hs (by omega)⟩

-- The check value of the standard, for the digits 1 to 9.
theorem memcrc_posix_digits :
    memcrc [49, 50, 51, 52, 53, 54, 55, 56, 57] 9 = some 0x377a6011 := by
  have hcrc := (memcrc_posix [49, 50, 51, 52, 53, 54, 55, 56, 57] (by decide)).1
  have hvalue : cksum [49, 50, 51, 52, 53, 54, 55, 56, 57] = 0x377a6011 := by decide +kernel
  rw [hvalue] at hcrc
  exact hcrc

end TransferClient.Checksum
