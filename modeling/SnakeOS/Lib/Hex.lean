/-
Hexadecimal numerals in ASCII: upper-case digits after a prefix `0x`, what they read, and their canonical form.
-/
import SnakeOS.Lib.Digits

namespace Hex

/-! ## Numerals -/

def digit (d : Nat) : UInt8 := if d < 10 then (0x30 + d).toUInt8 else (0x37 + d).toUInt8

def IsDigit (c : UInt8) : Prop := 0x30 ≤ c.toNat ∧ c.toNat ≤ 0x39 ∨ 0x41 ≤ c.toNat ∧ c.toNat ≤ 0x46

instance (c : UInt8) : Decidable (IsDigit c) := inferInstanceAs (Decidable (_ ∨ _))

def digitVal (c : UInt8) : Nat := if c.toNat ≤ 0x39 then c.toNat - 0x30 else c.toNat - 0x37

/-- The value of a numeral with or without the prefix. -/
def value : List UInt8 → Nat
  | 0x30 :: 0x78 :: ds => Digits.read 16 digitVal ds
  | ds => Digits.read 16 digitVal ds

/-- Digits without a leading zero. -/
structure Plain (ds : List UInt8) : Prop where
  ne_nil : ds ≠ []
  digits : ∀ c ∈ ds, IsDigit c
  head : ds.head? ≠ some 0x30

/-- The digits of a number, the highest first; none for zero. -/
def numeral (n : Nat) : List UInt8 := Digits.written 16 digit n

/-! ## Digits -/

theorem digitVal_digit : ∀ d < 16, digitVal (digit d) = d := by decide

theorem isDigit_digit : ∀ d < 16, IsDigit (digit d) := by decide

theorem digit_eq_zero_iff : ∀ d < 16, digit d = 0x30 ↔ d = 0 := by decide

/-- A digit does not end a string. -/
theorem IsDigit.ne_nul {c : UInt8} (h : IsDigit c) : c ≠ 0 := by
  rintro rfl
  exact absurd h (by decide)

theorem value_numeral (n : Nat) : value ([0x30, 0x78] ++ numeral n) = n :=
  Digits.read_written (by decide) digitVal_digit n

/-- The numeral of a positive number has no leading zero. -/
theorem plain_numeral {n : Nat} (hn : n ≠ 0) : Plain (numeral n) := by
  refine ⟨Digits.written_ne_nil hn, fun c hc => ?_, Digits.head_written (by decide) digit_eq_zero_iff hn⟩
  obtain ⟨d, hd, rfl⟩ := Digits.mem_written (by decide) hc
  exact isDigit_digit d hd

theorem numeral_ne_nul (n : Nat) : ∀ c ∈ numeral n, c ≠ 0 := by
  intro c hc
  obtain ⟨d, hd, rfl⟩ := Digits.mem_written (by decide) hc
  exact (isDigit_digit d hd).ne_nul

theorem numeral_length_le {n k : Nat} (h : n < 16 ^ k) : (numeral n).length ≤ k :=
  Digits.written_length_le (by decide) h

end Hex
