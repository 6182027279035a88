import Mathlib.Data.List.Basic

namespace TransferClient.Base64

-- The symbol of six bits: the letters, the digits, plus and slash.
def symbol (value : Nat) : UInt8 :=
  if value < 26 then UInt8.ofNat (65 + value)
  else if value < 52 then UInt8.ofNat (71 + value)
  else if value < 62 then UInt8.ofNat (value - 4)
  else if value = 62 then 43
  else 47

def pad : UInt8 := 61

-- Three bytes are four symbols. What is left at the end is padded to four.
def encode : List UInt8 → List UInt8
  | [] => []
  | [a] => [symbol (a.toNat / 4), symbol (a.toNat % 4 * 16), pad, pad]
  | [a, b] =>
      [symbol (a.toNat / 4), symbol (a.toNat % 4 * 16 + b.toNat / 16), symbol (b.toNat % 16 * 4), pad]
  | a :: b :: c :: rest =>
      symbol (a.toNat / 4) :: symbol (a.toNat % 4 * 16 + b.toNat / 16) ::
        symbol (b.toNat % 16 * 4 + c.toNat / 64) :: symbol (c.toNat % 64) :: encode rest

def value (c : UInt8) : Option Nat :=
  if 65 ≤ c.toNat ∧ c.toNat ≤ 90 then some (c.toNat - 65)
  else if 97 ≤ c.toNat ∧ c.toNat ≤ 122 then some (c.toNat - 71)
  else if 48 ≤ c.toNat ∧ c.toNat ≤ 57 then some (c.toNat + 4)
  else if c = 43 then some 62
  else if c = 47 then some 63
  else none

-- Padding stands at the end only, and the bits that it leaves over are zero.
def decode : List UInt8 → Option (List UInt8)
  | [] => some []
  | p :: q :: r :: s :: rest => do
      let a ← value p
      let b ← value q
      if r = pad then
        if s = pad ∧ rest = [] ∧ b % 16 = 0 then return [UInt8.ofNat (a * 4 + b / 16)] else none
      else
        let c ← value r
        if s = pad then
          if rest = [] ∧ c % 4 = 0 then
            return [UInt8.ofNat (a * 4 + b / 16), UInt8.ofNat (b % 16 * 16 + c / 4)]
          else
            none
        else
          let d ← value s
          let bytes ← decode rest
          return UInt8.ofNat (a * 4 + b / 16) :: UInt8.ofNat (b % 16 * 16 + c / 4) ::
            UInt8.ofNat (c % 4 * 64 + d) :: bytes
  | _ => none

theorem symbol_toNat (n : Nat) (hn : n < 64) :
    (symbol n).toNat =
      if n < 26 then 65 + n else if n < 52 then 71 + n else if n < 62 then n - 4
      else if n = 62 then 43 else 47 := by
  unfold symbol
  split
  · rw [UInt8.toNat_ofNat']
    omega
  · split
    · rw [UInt8.toNat_ofNat']
      omega
    · split
      · rw [UInt8.toNat_ofNat']
        omega
      · split <;> rfl

theorem value_symbol (n : Nat) (hn : n < 64) : value (symbol n) = some n := by
  have hsymbol := symbol_toNat n hn
  by_cases hupper : n < 26
  · rw [if_pos hupper] at hsymbol
    rw [value, hsymbol, if_pos (by omega)]
    congr 1
    omega
  rw [if_neg hupper] at hsymbol
  by_cases hlower : n < 52
  · rw [if_pos hlower] at hsymbol
    rw [value, hsymbol, if_neg (by omega), if_pos (by omega)]
    congr 1
    omega
  rw [if_neg hlower] at hsymbol
  by_cases hdigit : n < 62
  · rw [if_pos hdigit] at hsymbol
    rw [value, hsymbol, if_neg (by omega), if_neg (by omega), if_pos (by omega)]
    congr 1
    omega
  have hlast : n = 62 ∨ n = 63 := by omega
  rcases hlast with rfl | rfl <;> decide

theorem symbol_ne_pad (n : Nat) (hn : n < 64) : symbol n ≠ pad := by
  intro h
  have hvalue := value_symbol n hn
  have hpad : value pad = none := by decide
  rw [h, hpad] at hvalue
  cases hvalue

-- The first byte of a group, out of its first two symbols.
theorem first_byte (a : UInt8) (low : Nat) (hlow : low < 16) :
    UInt8.ofNat (a.toNat / 4 * 4 + (a.toNat % 4 * 16 + low) / 16) = a := by
  have hbyte : a.toNat / 4 * 4 + (a.toNat % 4 * 16 + low) / 16 = a.toNat := by omega
  rw [hbyte, UInt8.ofNat_toNat]

theorem second_byte (high : Nat) (b : UInt8) (low : Nat) (hlow : low < 4) :
    UInt8.ofNat ((high * 16 + b.toNat / 16) % 16 * 16 + (b.toNat % 16 * 4 + low) / 4) = b := by
  have hb := b.toNat_lt
  have hbyte : (high * 16 + b.toNat / 16) % 16 * 16 + (b.toNat % 16 * 4 + low) / 4 = b.toNat := by
    omega
  rw [hbyte, UInt8.ofNat_toNat]

theorem third_byte (high : Nat) (c : UInt8) :
    UInt8.ofNat ((high * 4 + c.toNat / 64) % 4 * 64 + c.toNat % 64) = c := by
  have hc := c.toNat_lt
  have hbyte : (high * 4 + c.toNat / 64) % 4 * 64 + c.toNat % 64 = c.toNat := by omega
  rw [hbyte, UInt8.ofNat_toNat]

-- The decoder takes every encoded text back to its bytes.
theorem decode_encode (bytes : List UInt8) : decode (encode bytes) = some bytes := by
  fun_induction encode bytes with
  | case1 => rfl
  | case2 a =>
      have ha := a.toNat_lt
      have hp := value_symbol (a.toNat / 4) (by omega)
      have hq := value_symbol (a.toNat % 4 * 16) (by omega)
      have hfirst := first_byte a 0 (by omega)
      have hzero : a.toNat % 4 * 16 % 16 = 0 := by omega
      rw [Nat.add_zero] at hfirst
      simp only [decode, hp, hq, Option.bind_eq_bind, Option.bind_some, if_true, hzero, and_self,
        hfirst, Option.pure_def]
  | case3 a b =>
      have ha := a.toNat_lt
      have hb := b.toNat_lt
      have hp := value_symbol (a.toNat / 4) (by omega)
      have hq := value_symbol (a.toNat % 4 * 16 + b.toNat / 16) (by omega)
      have hr := value_symbol (b.toNat % 16 * 4) (by omega)
      have hpad := symbol_ne_pad (b.toNat % 16 * 4) (by omega)
      have hfirst := first_byte a (b.toNat / 16) (by omega)
      have hsecond := second_byte (a.toNat % 4) b 0 (by omega)
      have hzero : b.toNat % 16 * 4 % 4 = 0 := by omega
      rw [Nat.add_zero] at hsecond
      simp only [decode, hp, hq, hr, hpad, Option.bind_eq_bind, Option.bind_some, if_true, if_false,
        hzero, and_self, hfirst, hsecond, Option.pure_def]
  | case4 a b c rest ih =>
      have ha := a.toNat_lt
      have hb := b.toNat_lt
      have hc := c.toNat_lt
      have hp := value_symbol (a.toNat / 4) (by omega)
      have hq := value_symbol (a.toNat % 4 * 16 + b.toNat / 16) (by omega)
      have hr := value_symbol (b.toNat % 16 * 4 + c.toNat / 64) (by omega)
      have hs := value_symbol (c.toNat % 64) (by omega)
      have hpad := symbol_ne_pad (b.toNat % 16 * 4 + c.toNat / 64) (by omega)
      have hpad' := symbol_ne_pad (c.toNat % 64) (by omega)
      have hfirst := first_byte a (b.toNat / 16) (by omega)
      have hsecond := second_byte (a.toNat % 4) b (c.toNat / 64) (by omega)
      have hthird := third_byte (b.toNat % 16) c
      simp only [decode, hp, hq, hr, hs, hpad, hpad', Option.bind_eq_bind, Option.bind_some,
        if_false, ih, hfirst, hsecond, hthird, Option.pure_def]

theorem lineFeed_ne_symbol (n : Nat) (hn : n < 64) : 10 ≠ symbol n := by
  intro h
  have hvalue := value_symbol n hn
  have hnone : value 10 = none := by decide
  rw [← h, hnone] at hvalue
  cases hvalue

-- An encoded text is one line.
theorem lineFeed_notMem_encode (bytes : List UInt8) : 10 ∉ encode bytes := by
  have hpad : (10 : UInt8) ≠ pad := by decide
  fun_induction encode bytes with
  | case1 => exact List.not_mem_nil
  | case2 a =>
      have ha := a.toNat_lt
      have hp := lineFeed_ne_symbol (a.toNat / 4) (by omega)
      have hq := lineFeed_ne_symbol (a.toNat % 4 * 16) (by omega)
      simp [hp, hq, hpad]
  | case3 a b =>
      have ha := a.toNat_lt
      have hb := b.toNat_lt
      have hp := lineFeed_ne_symbol (a.toNat / 4) (by omega)
      have hq := lineFeed_ne_symbol (a.toNat % 4 * 16 + b.toNat / 16) (by omega)
      have hr := lineFeed_ne_symbol (b.toNat % 16 * 4) (by omega)
      simp [hp, hq, hr, hpad]
  | case4 a b c rest ih =>
      have ha := a.toNat_lt
      have hb := b.toNat_lt
      have hc := c.toNat_lt
      have hp := lineFeed_ne_symbol (a.toNat / 4) (by omega)
      have hq := lineFeed_ne_symbol (a.toNat % 4 * 16 + b.toNat / 16) (by omega)
      have hr := lineFeed_ne_symbol (b.toNat % 16 * 4 + c.toNat / 64) (by omega)
      have hs := lineFeed_ne_symbol (c.toNat % 64) (by omega)
      simp [hp, hq, hr, hs, ih]

theorem mem_encode (bytes : List UInt8) : ∀ c ∈ encode bytes, c = pad ∨ ∃ n < 64, c = symbol n := by
  have hsymbol (n : Nat) (hn : n < 64) : symbol n = pad ∨ ∃ m < 64, symbol n = symbol m :=
    .inr ⟨n, hn, rfl⟩
  fun_induction encode bytes with
  | case1 => simp
  | case2 a =>
      have ha := a.toNat_lt
      have hp := hsymbol (a.toNat / 4) (by omega)
      have hq := hsymbol (a.toNat % 4 * 16) (by omega)
      simpa using ⟨hp, hq⟩
  | case3 a b =>
      have ha := a.toNat_lt
      have hb := b.toNat_lt
      have hp := hsymbol (a.toNat / 4) (by omega)
      have hq := hsymbol (a.toNat % 4 * 16 + b.toNat / 16) (by omega)
      have hr := hsymbol (b.toNat % 16 * 4) (by omega)
      simpa using ⟨hp, hq, hr⟩
  | case4 a b c rest ih =>
      have ha := a.toNat_lt
      have hb := b.toNat_lt
      have hc := c.toNat_lt
      have hp := hsymbol (a.toNat / 4) (by omega)
      have hq := hsymbol (a.toNat % 4 * 16 + b.toNat / 16) (by omega)
      have hr := hsymbol (b.toNat % 16 * 4 + c.toNat / 64) (by omega)
      have hs := hsymbol (c.toNat % 64) (by omega)
      simpa using ⟨hp, hq, hr, hs, ih⟩

-- A character that stands for no six bits and does not pad is in no encoded text.
theorem notMem_encode {c : UInt8} (hvalue : value c = none) (hpad : c ≠ pad) (bytes : List UInt8) :
    c ∉ encode bytes := by
  intro hmem
  rcases mem_encode bytes c hmem with h | ⟨n, hn, rfl⟩
  · exact hpad h
  · rw [value_symbol n hn] at hvalue
    cases hvalue

end TransferClient.Base64
