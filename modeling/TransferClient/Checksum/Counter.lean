import TransferClient.Bytes
import TransferClient.Checksum.Theorems

namespace TransferClient.Checksum

-- Every byte enters the checksum: the loop ends after a pass for each of them, in order,
-- and no pass increments the largest `int`.
structure ReadsEveryByte (b : List UInt8) (n : BitVec 64) : Prop where
  ends : ∃ i s, bytesLoop b n (n.toNat + 1) 0 0 = some s ∧ BytesReach b n (List.range n.toNat) i s ∧
    ¬i.signExtend 64 < n
  counter : ∀ reads i s, BytesReach b n reads i s → i.signExtend 64 < n → i ≠ BitVec.intMax 32

-- The counter covers the buffers of which an `int` holds the length, and no others.
theorem readsEveryByte_iff (n : BitVec 64) (b : Buffer n.toNat) :
    ReadsEveryByte b.val n ↔ n.toNat < 2 ^ 31 := by
  have hn : n.toNat ≤ b.val.length := b.property.symm.le
  constructor
  · intro hreads
    by_contra hlarge
    obtain ⟨s, hreach, hlt⟩ := counter_overflows b.val n hn (by omega)
    exact hreads.counter _ _ s hreach hlt rfl
  · intro hint
    refine ⟨bytesLoop_ends b.val n hn hint, ?_⟩
    intro reads i s hreach hlt
    have hcounter := (signExtend_lt_iff i n hreach.invariant.nonnegative).mp hlt
    exact ne_intMax i (by omega)

-- A buffer of 2 GiB: behind its last byte the counter is to exceed the largest `int`.
theorem reads_of_2_GiB :
    let n : BitVec 64 := 0x80000000
    let b : List UInt8 := List.replicate n.toNat 0
    (∃ s, BytesReach b n (List.range (2 ^ 31 - 1)) (BitVec.intMax 32) s ∧
      (BitVec.intMax 32).signExtend 64 < n) ∧
    memcrc b n = none ∧ ¬ReadsEveryByte b n := by
  intro n b
  have hn : n.toNat ≤ b.length := (List.length_replicate (n := n.toNat) (a := (0 : UInt8))).symm.le
  have hlarge : 2 ^ 31 ≤ n.toNat := by decide
  obtain ⟨s, hreach, hlt⟩ := counter_overflows b n hn hlarge
  refine ⟨⟨s, hreach, hlt⟩, memcrc_overflows b n hn hlarge, ?_⟩
  intro hreads
  exact hreads.counter _ _ s hreach hlt rfl

end TransferClient.Checksum
