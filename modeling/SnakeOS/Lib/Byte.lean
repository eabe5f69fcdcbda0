/-
Bytes: the bytes of a text, and facts about every byte by cases.
-/
import Mathlib.Tactic.Common

namespace Byte

/-- The bytes of a text in ASCII. -/
def text (s : String) : List UInt8 := s.toList.map Char.toUInt8

/-- What holds of the 256 bytes holds of every byte. -/
theorem forall_of_lt {P : UInt8 → Prop} (h : ∀ n < 256, P (UInt8.ofNat n)) (c : UInt8) : P c := by
  have hc := h c.toNat c.toNat_lt
  rwa [UInt8.ofNat_toNat] at hc

/-- A text without a zero byte, from a check that can be evaluated. -/
theorem ne_zero_of_all {s : List UInt8} (h : s.all (· ≠ 0) = true) : ∀ c ∈ s, c ≠ 0 :=
  fun c hc => of_decide_eq_true (List.all_eq_true.1 h c hc)

end Byte
