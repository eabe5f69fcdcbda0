/-
Decimal numerals in ASCII: the digits of a number, the value of a numeral, and its canonical form.
-/
import SnakeOS.Lib.Digits
import SnakeOS.Lib.Byte

namespace Decimal

/-! ## Numerals -/

def digit (d : Nat) : UInt8 := (0x30 + d).toUInt8

def IsDigit (c : UInt8) : Prop := 0x30 ≤ c.toNat ∧ c.toNat ≤ 0x39

instance (c : UInt8) : Decidable (IsDigit c) := inferInstanceAs (Decidable (_ ∧ _))

/-- The value of digits, the highest first. -/
def natVal (ds : List UInt8) : Nat := ds.foldl (fun n c => 10 * n + (c.toNat - 0x30)) 0

/-- The value of a numeral with or without a minus sign. -/
def value : List UInt8 → Int
  | [] => 0
  | c :: ds => if c = 0x2D then -(natVal ds : Int) else natVal (c :: ds)

/-- Digits without a leading zero. -/
structure Plain (ds : List UInt8) : Prop where
  ne_nil : ds ≠ []
  digits : ∀ c ∈ ds, IsDigit c
  head : ds.head? ≠ some 0x30

/-- `0`, or digits without a leading zero after an optional minus sign. -/
def Canonical (t : List UInt8) : Prop := t = [0x30] ∨ Plain t ∨ ∃ ds, t = 0x2D :: ds ∧ Plain ds

/-- The digits of a number, the highest first; none for zero. -/
def numeral (n : Nat) : List UInt8 := ((Nat.digits 10 n).map digit).reverse

/-! ## Digits -/

theorem digit_toNat {d : Nat} (h : d < 10) : (digit d).toNat = 0x30 + d := by
  simp only [digit, Nat.toUInt8_eq, UInt8.toNat_ofNat']
  omega

theorem isDigit_digit {d : Nat} (h : d < 10) : IsDigit (digit d) := by
  have hd := digit_toNat h
  unfold IsDigit
  omega

theorem digit_eq_zero_iff {d : Nat} (h : d < 10) : digit d = 0x30 ↔ d = 0 := by
  have hd := digit_toNat h
  constructor
  · intro h0
    rw [h0] at hd
    have : (0x30 : UInt8).toNat = 0x30 := rfl
    omega
  · rintro rfl
    rfl

theorem isDigit_numeral (n : Nat) : ∀ c ∈ numeral n, IsDigit c := by
  intro c hc
  obtain ⟨d, hd, rfl⟩ := Digits.mem_written (by norm_num) hc
  exact isDigit_digit hd

theorem natVal_numeral (n : Nat) : natVal (numeral n) = n := by
  have hval : ∀ d < 10, (digit d).toNat - 0x30 = d := by
    intro d hd
    rw [digit_toNat hd, Nat.add_sub_cancel_left]
  show Digits.read 10 (fun c => c.toNat - 0x30) (Digits.written 10 digit n) = n
  exact Digits.read_written (by norm_num) hval n

theorem numeral_length_le {n k : Nat} (h : n < 10 ^ k) : (numeral n).length ≤ k :=
  Digits.written_length_le (by norm_num) h

/-- The numeral of a positive number has no leading zero. -/
theorem plain_numeral {n : Nat} (h : n ≠ 0) : Plain (numeral n) :=
  ⟨Digits.written_ne_nil h, isDigit_numeral n, Digits.head_written (by norm_num) (fun _ hd => digit_eq_zero_iff hd) h⟩

/-! ## Values -/

/-- A digit is not a minus sign. -/
theorem IsDigit.ne_minus {c : UInt8} (h : IsDigit c) : c ≠ 0x2D := by
  rintro rfl
  exact absurd h (by decide)

/-- A digit does not end a string. -/
theorem IsDigit.ne_nul {c : UInt8} (h : IsDigit c) : c ≠ 0 := by
  rintro rfl
  exact absurd h (by decide)

theorem value_of_digits {ds : List UInt8} (h : ∀ c ∈ ds, IsDigit c) : value ds = natVal ds := by
  cases ds with
  | nil => rfl
  | cons c ds => exact if_neg (h c (by simp)).ne_minus

theorem value_minus (ds : List UInt8) : value (0x2D :: ds) = -(natVal ds : Int) := by
  simp [value]

end Decimal
