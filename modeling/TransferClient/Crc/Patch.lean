import TransferClient.Crc.Detection
import Mathlib.Data.FinEnum

namespace TransferClient.Crc

variable {w : Nat}

theorem bitsOf_injective {k : Nat} {u v : BitVec k} (h : bitsOf u = bitsOf v) : u = v := by
  have hmessage := congrArg message h
  rw [message_bitsOf, message_bitsOf] at hmessage
  exact toPoly_injective hmessage

-- Every list of bits is a word of its length.
theorem exists_bitsOf {k : Nat} (bits : List Bool) (hlength : bits.length = k) :
    ∃ v : BitVec k, bitsOf v = bits := by
  subst hlength
  refine ⟨BitVec.ofBoolListBE bits, List.ext_getElem (length_bitsOf _) ?_⟩
  intro i hi hi'
  have hindex : bits.length - 1 - (bits.length - 1 - i) = i := by omega
  have hlt : bits.length - 1 - i < bits.length := by omega
  simp only [bitsOf, List.getElem_map, List.getElem_reverse, List.getElem_range, List.length_range]
  rw [BitVec.getLsbD_ofBoolListBE, hindex, decide_eq_true hlt, Bool.true_and,
    List.getD_eq_getElem _ _ hi']

-- One word of a message, wherever it stands, can be chosen for any remainder, and in one
-- way only. No two words give the same, and there are as many words as remainders.
theorem remainder_patch (hw : 0 < w) (g : BitVec w) (hg : g.getLsbD 0 = true)
    (before after : List Bool)
    (target : BitVec w) : ∃! v : BitVec w, remainder g (before ++ bitsOf v ++ after) = target := by
  have hinjective : Function.Injective fun v : BitVec w => remainder g (before ++ bitsOf v ++ after) := by
    intro u v hsame
    by_contra hne
    have hlength : (bitsOf u).length = (bitsOf v).length := by rw [length_bitsOf, length_bitsOf]
    have hdiffer := remainder_burst hw g hg before (bitsOf u) (bitsOf v) after hlength
      (length_bitsOf u).le fun h => hne (bitsOf_injective h)
    exact hdiffer hsame
  obtain ⟨v, hv⟩ := Finite.injective_iff_surjective.mp hinjective target
  exact ⟨v, hv, fun u hu => hinjective (hu.trans hv.symm)⟩

end TransferClient.Crc
