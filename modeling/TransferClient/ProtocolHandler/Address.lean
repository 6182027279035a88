import TransferClient.ProtocolHandler

namespace TransferClient

open Bytes

-- A byte in decimal, without leading zeros.
def digit (value : Nat) : UInt8 :=
  UInt8.ofNat (48 + value)

def printed (byte : UInt8) : List UInt8 :=
  if byte.toNat < 10 then [digit byte.toNat]
  else if byte.toNat < 100 then [digit (byte.toNat / 10), digit (byte.toNat % 10)]
  else [digit (byte.toNat / 100), digit (byte.toNat / 10 % 10), digit (byte.toNat % 10)]

-- The text of an address.
def dotted (a b c d : UInt8) : List UInt8 :=
  [46].intercalate [printed a, printed b, printed c, printed d]

theorem isDigit_iff (c : UInt8) : isDigit c = true ↔ 48 ≤ c.toNat ∧ c.toNat ≤ 57 := by
  simp [isDigit, UInt8.le_iff_toNat_le]

theorem isDigit_digit (value : Nat) (hvalue : value < 10) : isDigit (digit value) = true := by
  rw [isDigit_iff, digit, UInt8.toNat_ofNat']
  omega

theorem digit_of_isDigit (c : UInt8) (hc : isDigit c = true) (value : Nat)
    (hvalue : value = c.toNat - 48) :
    c = digit value := by
  rw [isDigit_iff] at hc
  rw [← UInt8.toNat_inj, digit, UInt8.toNat_ofNat']
  omega

theorem isDigit_of_mem_printed (byte c : UInt8) (hc : c ∈ printed byte) : isDigit c = true := by
  have hbyte := byte.toNat_lt
  unfold printed at hc
  split at hc
  · simp only [List.mem_singleton] at hc
    exact hc ▸ isDigit_digit _ (by omega)
  · split at hc
    · simp only [List.mem_cons, List.not_mem_nil, or_false] at hc
      rcases hc with rfl | rfl
      · exact isDigit_digit _ (by omega)
      · exact isDigit_digit _ (by omega)
    · simp only [List.mem_cons, List.not_mem_nil, or_false] at hc
      rcases hc with rfl | rfl | rfl
      · exact isDigit_digit _ (by omega)
      · exact isDigit_digit _ (by omega)
      · exact isDigit_digit _ (by omega)

theorem octet_printed (byte : UInt8) : octet (printed byte) = some byte.toNat := by
  have hall : ∀ value < 256, octet (printed (UInt8.ofNat value)) = some value := by decide +kernel
  have hbyte := hall byte.toNat byte.toNat_lt
  rwa [UInt8.ofNat_toNat] at hbyte

-- No other text is a number of an address.
theorem printed_of_octet (part : List UInt8) (value : Nat) (hoctet : octet part = some value) :
    part = printed (UInt8.ofNat value) := by
  unfold octet at hoctet
  split at hoctet
  · rename_i hpart
    obtain ⟨hdigits, hsmall, hlength⟩ := hpart
    rw [Option.some.injEq] at hoctet
    have hvalue : (UInt8.ofNat value).toNat = value := by
      rw [UInt8.toNat_ofNat']
      omega
    rw [printed, hvalue]
    rw [List.all_eq_true] at hdigits
    match part, hlength with
    | [x], _ =>
        have hx := hdigits x (by simp)
        have hrange := (isDigit_iff x).mp hx
        simp only [decimal, List.foldl_cons, List.foldl_nil] at hoctet
        rw [if_pos (by omega), ← digit_of_isDigit x hx value (by omega)]
    | [x, y], hlength =>
        have hx := hdigits x (by simp)
        have hy := hdigits y (by simp)
        have hrange := (isDigit_iff x).mp hx
        have hrange' := (isDigit_iff y).mp hy
        have hzero : x.toNat ≠ 48 := by
          intro h
          have hx0 : x = 48 := UInt8.toNat_inj.mp h
          simp [hx0] at hlength
        simp only [decimal, List.foldl_cons, List.foldl_nil] at hoctet
        rw [if_neg (by omega), if_pos (by omega), ← digit_of_isDigit x hx _ (by omega),
          ← digit_of_isDigit y hy _ (by omega)]
    | [x, y, z], hlength =>
        have hx := hdigits x (by simp)
        have hy := hdigits y (by simp)
        have hz := hdigits z (by simp)
        have hrange := (isDigit_iff x).mp hx
        have hrange' := (isDigit_iff y).mp hy
        have hrange'' := (isDigit_iff z).mp hz
        have hzero : x.toNat ≠ 48 := by
          intro h
          have hx0 : x = 48 := UInt8.toNat_inj.mp h
          simp [hx0] at hlength
        simp only [decimal, List.foldl_cons, List.foldl_nil] at hoctet
        rw [if_neg (by omega), if_neg (by omega), ← digit_of_isDigit x hx _ (by omega),
          ← digit_of_isDigit y hy _ (by omega), ← digit_of_isDigit z hz _ (by omega)]
  · cases hoctet

theorem notMem_printed (byte c : UInt8) (hc : isDigit c = false) : c ∉ printed byte := by
  intro hmem
  rw [isDigit_of_mem_printed byte c hmem] at hc
  cases hc

theorem notMem_dotted (a b c d x : UInt8) (hx : isDigit x = false) (hdot : x ≠ 46) :
    x ∉ dotted a b c d := by
  have hno (byte : UInt8) : x ∉ printed byte := notMem_printed byte x hx
  simp [dotted, hno, hdot]

theorem inet_pton_dotted (a b c d : UInt8) :
    inet_pton (dotted a b c d) = some (UInt32.ofNat (fromBigEndian [a, b, c, d])) := by
  have hnull : cString (dotted a b c d) = dotted a b c d :=
    cString_of_notMem _ (notMem_dotted a b c d 0 rfl (by decide))
  have hsplit : (dotted a b c d).splitOn 46 = [printed a, printed b, printed c, printed d] := by
    refine List.splitOn_intercalate 46 ?_ (by simp)
    simp only [List.forall_mem_cons]
    have hno (byte : UInt8) : 46 ∉ printed byte := notMem_printed byte 46 rfl
    exact ⟨hno a, hno b, hno c, hno d, by simp⟩
  rw [inet_pton, hnull, hsplit]
  simp [octet_printed]

-- What `inet_pton` accepts is a dotted text, up to the first NUL.
theorem dotted_of_inet_pton (address : List UInt8) (value : UInt32)
    (haddress : inet_pton address = some value) :
    ∃ a b c d, cString address = dotted a b c d ∧
      value = UInt32.ofNat (fromBigEndian [a, b, c, d]) := by
  unfold inet_pton at haddress
  split at haddress
  · rename_i first second third fourth hsplit
    simp only [Option.bind_eq_bind, Option.bind_eq_some_iff, Option.pure_def,
      Option.some.injEq] at haddress
    obtain ⟨a, ha, b, hb, c, hc, d, hd, rfl⟩ := haddress
    refine ⟨UInt8.ofNat a, UInt8.ofNat b, UInt8.ofNat c, UInt8.ofNat d, ?_, rfl⟩
    rw [dotted, ← printed_of_octet first a ha, ← printed_of_octet second b hb,
      ← printed_of_octet third c hc, ← printed_of_octet fourth d hd, ← hsplit,
      List.intercalate_splitOn]
  · cases haddress

end TransferClient
