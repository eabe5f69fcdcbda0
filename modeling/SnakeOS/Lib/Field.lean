/-
Fields of machine words: the bits that a shift and a mask cut out of a word, and two fields put together.
-/
import Mathlib.Algebra.Group.Nat.Defs
import Mathlib.Tactic.Common
import SnakeOS.Lib.Byte

namespace Field

/-! ## Fields cut out -/

/-- A mask of `w` bits before a conversion to `w` bits changes nothing. -/
theorem masked (x w : Nat) : (x &&& (2 ^ w - 1)) % 2 ^ w = x % 2 ^ w := by
  rw [Nat.and_two_pow_sub_one_eq_mod, Nat.mod_mod]

theorem uint16_low32 (x : UInt32) : (x &&& 0xFFFF).toUInt16.toNat = x.toNat % 2 ^ 16 := by
  rw [UInt32.toNat_toUInt16, UInt32.toNat_and]
  exact masked x.toNat 16

theorem uint16_low64 (x : UInt64) : (x &&& 0xFFFF).toUInt16.toNat = x.toNat % 2 ^ 16 := by
  rw [UInt64.toNat_toUInt16, UInt64.toNat_and]
  exact masked x.toNat 16

theorem uint8_field32 (x : UInt32) {k : UInt32} (hk : k.toNat < 32) :
    ((x >>> k) &&& 0xFF).toUInt8.toNat = x.toNat / 2 ^ k.toNat % 2 ^ 8 := by
  rw [UInt32.toNat_toUInt8, UInt32.toNat_and, UInt32.toNat_shiftRight, Nat.mod_eq_of_lt hk, Nat.shiftRight_eq_div_pow]
  exact masked (x.toNat / 2 ^ k.toNat) 8

theorem uint8_field64 (x : UInt64) {k : UInt64} (hk : k.toNat < 64) :
    ((x >>> k) &&& 0xFF).toUInt8.toNat = x.toNat / 2 ^ k.toNat % 2 ^ 8 := by
  rw [UInt64.toNat_toUInt8, UInt64.toNat_and, UInt64.toNat_shiftRight, Nat.mod_eq_of_lt hk, Nat.shiftRight_eq_div_pow]
  exact masked (x.toNat / 2 ^ k.toNat) 8

theorem uint16_field64 (x : UInt64) {k : UInt64} (hk : k.toNat < 64) :
    ((x >>> k) &&& 0xFFFF).toUInt16.toNat = x.toNat / 2 ^ k.toNat % 2 ^ 16 := by
  rw [UInt64.toNat_toUInt16, UInt64.toNat_and, UInt64.toNat_shiftRight, Nat.mod_eq_of_lt hk, Nat.shiftRight_eq_div_pow]
  exact masked (x.toNat / 2 ^ k.toNat) 16

theorem uint32_high64 (x : UInt64) : ((x >>> 32) &&& 0xFFFFFFFF).toUInt32.toNat = x.toNat / 2 ^ 32 := by
  have hx := x.toNat_lt
  rw [UInt64.toNat_toUInt32, UInt64.toNat_and, UInt64.toNat_shiftRight, Nat.shiftRight_eq_div_pow]
  exact (masked (x.toNat / 2 ^ 32) 32).trans (by omega)

theorem nibble_field32 (x : UInt32) {k : UInt32} (hk : k.toNat < 32) :
    ((x >>> k) &&& 0x0F).toUInt8.toNat = x.toNat / 2 ^ k.toNat % 2 ^ 4 := by
  have hmask := Nat.and_two_pow_sub_one_eq_mod (x.toNat / 2 ^ k.toNat) 4
  rw [UInt32.toNat_toUInt8, UInt32.toNat_and, UInt32.toNat_shiftRight, Nat.mod_eq_of_lt hk, Nat.shiftRight_eq_div_pow]
  exact (congrArg (· % 2 ^ 8) hmask).trans (Nat.mod_eq_of_lt (by omega))

/-! ## Nibbles -/

theorem high_nibble (x : UInt8) : (x &&& 0xF0).toNat = 2 ^ 4 * (x.toNat / 2 ^ 4) :=
  Byte.forall_of_lt (P := fun x => (x &&& 0xF0).toNat = 2 ^ 4 * (x.toNat / 2 ^ 4)) (by decide +kernel) x

/-- The high nibble of one byte and a low one. -/
theorem nibbles {x low : UInt8} (h : low.toNat < 2 ^ 4) :
    ((x &&& 0xF0) ||| low).toNat = low.toNat + 2 ^ 4 * (x.toNat / 2 ^ 4) := by
  rw [UInt8.toNat_or, high_nibble, ← Nat.two_pow_add_eq_or_of_lt h, Nat.add_comm]

end Field
