import TransferClient.Bytes
import Mathlib.Data.List.TakeWhile
import Mathlib.Order.Nat
import Mathlib.Tactic.Ring

namespace TransferClient.Bytes

@[simp] theorem length_littleEndian (width value : Nat) :
    (littleEndian width value).length = width := by
  induction width generalizing value with
  | zero => rfl
  | succ width ih => simp [littleEndian, ih]

@[simp] theorem length_bigEndian (width value : Nat) : (bigEndian width value).length = width := by
  simp [bigEndian]

theorem fromLittleEndian_littleEndian (width value : Nat) :
    fromLittleEndian (littleEndian width value) = value % 256 ^ width := by
  induction width generalizing value with
  | zero => simp [littleEndian, fromLittleEndian, Nat.mod_one]
  | succ width ih =>
      have hbyte : (UInt8.ofNat value).toNat = value % 256 := by simp
      rw [littleEndian, fromLittleEndian, ih, hbyte, Nat.pow_succ, Nat.mul_comm (256 ^ width) 256,
        Nat.mod_mul]

theorem fromBigEndian_bigEndian (width value : Nat) :
    fromBigEndian (bigEndian width value) = value % 256 ^ width := by
  simp [fromBigEndian, bigEndian, fromLittleEndian_littleEndian]

-- A count that fits into 32 bits survives its conversion.
theorem word_of_lt (count : Nat) (hsmall : count < 4294967296) :
    (UInt32.ofNat count).toNat = count :=
  UInt32.toNat_ofNat_of_lt' hsmall

theorem length_le_write (buffer : List UInt8) (offset : Nat) (bytes : List UInt8) :
    buffer.length ≤ (write buffer offset bytes).length := by
  simp only [write, List.length_append, List.length_take, List.length_drop]
  omega

theorem length_write (buffer : List UInt8) (offset : Nat) (bytes : List UInt8)
    (h : offset + bytes.length ≤ buffer.length) :
    (write buffer offset bytes).length = buffer.length := by
  simp only [write, List.length_append, List.length_take, List.length_drop]
  omega

theorem hexDigit_range (value : Nat) (hvalue : value < 16) :
    (48 ≤ (hexDigit value).toNat ∧ (hexDigit value).toNat ≤ 57) ∨
      (97 ≤ (hexDigit value).toNat ∧ (hexDigit value).toNat ≤ 102) := by
  unfold hexDigit
  split
  · left
    rw [UInt8.toNat_ofNat']
    omega
  · right
    rw [UInt8.toNat_ofNat']
    omega

-- A hex text consists of digits and of the letters from a to f.
theorem mem_hex (bytes : List UInt8) (c : UInt8) (hc : c ∈ hex bytes) :
    (48 ≤ c.toNat ∧ c.toNat ≤ 57) ∨ (97 ≤ c.toNat ∧ c.toNat ≤ 102) := by
  obtain ⟨byte, _, hdigit⟩ := List.mem_flatMap.mp hc
  have hbyte := byte.toNat_lt
  simp only [hexByte, List.mem_cons, List.not_mem_nil, or_false] at hdigit
  rcases hdigit with rfl | rfl
  · exact hexDigit_range _ (by omega)
  · exact hexDigit_range _ (by omega)

theorem lineFeed_notMem_hex (bytes : List UInt8) : 10 ∉ hex bytes := by
  intro hmem
  have hrange := mem_hex bytes 10 hmem
  simp at hrange

theorem null_notMem_hex (bytes : List UInt8) : 0 ∉ hex bytes := by
  intro hmem
  have hrange := mem_hex bytes 0 hmem
  simp at hrange

@[simp] theorem length_hex (bytes : List UInt8) : (hex bytes).length = 2 * bytes.length := by
  induction bytes with
  | nil => rfl
  | cons byte rest ih =>
      simp only [hex, List.flatMap_cons, List.length_append, List.length_cons] at ih ⊢
      rw [ih]
      simp only [hexByte, List.length_cons, List.length_nil]
      omega

theorem hexValue_hexDigit (value : Nat) (hvalue : value < 16) :
    hexValue (hexDigit value) = some value := by
  unfold hexDigit
  split
  · have hdigit : (UInt8.ofNat (48 + value)).toNat = 48 + value := by
      rw [UInt8.toNat_ofNat']
      omega
    rw [hexValue, hdigit, if_pos (by omega)]
    congr 1
    omega
  · have hdigit : (UInt8.ofNat (87 + value)).toNat = 87 + value := by
      rw [UInt8.toNat_ofNat']
      omega
    rw [hexValue, hdigit, if_neg (by omega), if_pos (by omega)]
    congr 1
    omega

-- The decoder takes every hex text back to its bytes.
theorem unhex_hex (bytes : List UInt8) : unhex (hex bytes) = some bytes := by
  induction bytes with
  | nil => rfl
  | cons byte rest ih =>
      have hbyte := byte.toNat_lt
      have hhigh := hexValue_hexDigit (byte.toNat / 16) (by omega)
      have hlow := hexValue_hexDigit (byte.toNat % 16) (by omega)
      have hrest : unhex (rest.flatMap hexByte) = some rest := ih
      have hsum : UInt8.ofNat (16 * (byte.toNat / 16) + byte.toNat % 16) = byte := by
        rw [Nat.div_add_mod, UInt8.ofNat_toNat]
      simp only [hex, List.flatMap_cons, hexByte, List.cons_append, List.nil_append, unhex, hhigh,
        hlow, hrest, Option.bind_eq_bind, Option.bind_some, Option.pure_def, hsum]

-- Writing over a middle part replaces it.
theorem write_middle (front middle back bytes : List UInt8) (offset : Nat)
    (hoffset : front.length = offset) (hlength : middle.length = bytes.length) :
    write (front ++ middle ++ back) offset bytes = front ++ bytes ++ back := by
  subst hoffset
  rw [write, List.append_assoc front middle back, List.take_left, ← List.drop_drop, List.drop_left,
    ← hlength, List.drop_left]

-- Writing as many bytes as there are leaves none of the old ones.
theorem write_all (buffer bytes : List UInt8) (hlength : buffer.length ≤ bytes.length) :
    write buffer 0 bytes = bytes := by
  rw [write, List.take_zero, List.nil_append, Nat.zero_add, List.drop_of_length_le hlength,
    List.append_nil]

@[simp] theorem length_strncpy (string : List UInt8) (count : Nat) :
    (strncpy string count).length = count := by
  simp only [strncpy, List.length_append, List.length_take, List.length_replicate]
  omega

-- The test for a byte passes over a text without it.
theorem bne_of_notMem {x : UInt8} {string : List UInt8} (hx : x ∉ string) :
    ∀ c ∈ string, (c != x) = true := by
  intro c hc
  rw [bne_iff_ne]
  intro he
  exact hx (he ▸ hc)

theorem null_notMem_cString (string : List UInt8) : 0 ∉ cString string := by
  intro hmem
  have hne := List.mem_takeWhile_imp (l := string) hmem
  simp at hne

theorem cString_of_notMem (string : List UInt8) (hnull : 0 ∉ string) : cString string = string := by
  rw [cString, List.takeWhile_eq_self_iff]
  exact bne_of_notMem hnull

theorem cString_take (string : List UInt8) (count : Nat) :
    cString (string.take count) = (cString string).take count := by
  induction string generalizing count with
  | nil => simp [cString]
  | cons c rest ih =>
      cases count with
      | zero => simp [cString]
      | succ count =>
          have hrest : (rest.take count).takeWhile (· != 0) = (rest.takeWhile (· != 0)).take count := ih count
          by_cases hc : c = 0
          · simp [cString, hc]
          · have hkeep : (c != 0) = true := by rwa [bne_iff_ne]
            simp only [cString, List.take_succ_cons, List.takeWhile_cons, hkeep, if_true, hrest]

-- What `strcpy` has written is read back, whatever stands behind it.
theorem cString_strcpy_append (string rest : List UInt8) :
    cString (strcpy string ++ rest) = cString string := by
  have hall : ∀ c ∈ cString string, (c != 0) = true := fun c hc =>
    List.mem_takeWhile_imp (p := (· != 0)) hc
  rw [strcpy, List.append_assoc, cString, List.takeWhile_append_of_pos hall]
  simp

-- A reader of the field finds the string, cut at the first NUL and at the width.
theorem cString_strncpy (string : List UInt8) (count : Nat) :
    cString (strncpy string count) = (cString string).take count := by
  have hnull : 0 ∉ (cString string).take count := by
    intro hmem
    exact null_notMem_cString string (List.mem_of_mem_take hmem)
  rw [strncpy, cString, List.takeWhile_append_of_pos (bne_of_notMem hnull)]
  cases count - (cString string).length with
  | zero => simp
  | succ width => simp [List.replicate_succ]

end TransferClient.Bytes
