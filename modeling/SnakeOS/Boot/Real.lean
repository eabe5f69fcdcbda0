/-
Real mode: addresses, the halves of the 16-bit registers, and the multiplication and division of
DX:AX, for the assembly under boot/x86.
-/
import Mathlib.Algebra.Group.Nat.Defs
import Mathlib.Tactic.Common

namespace SnakeOS.Boot

/-- The address `seg:off`. -/
def linear (seg off : BitVec 16) : Nat := seg.toNat * 16 + off.toNat

theorem linear_add {seg off : BitVec 16} {i : Nat} (h : off.toNat + i < 2 ^ 16) :
    linear seg (off + BitVec.ofNat 16 i) = linear seg off + i := by
  have hoff : (off + BitVec.ofNat 16 i).toNat = off.toNat + i := by
    rw [BitVec.toNat_add, BitVec.toNat_ofNat]
    omega
  unfold linear
  rw [hoff]
  omega

/-! ## Halves of a register -/

def lo (r : BitVec 16) : BitVec 8 := r.extractLsb' 0 8

def hi (r : BitVec 16) : BitVec 8 := r.extractLsb' 8 8

def setLo (r : BitVec 16) (x : BitVec 8) : BitVec 16 := hi r ++ x

def setHi (r : BitVec 16) (x : BitVec 8) : BitVec 16 := x ++ lo r

@[simp] theorem lo_append (x y : BitVec 8) : lo (x ++ y) = y := BitVec.extractLsb'_append_eq_right

@[simp] theorem hi_append (x y : BitVec 8) : hi (x ++ y) = x := BitVec.extractLsb'_append_eq_left

@[simp] theorem lo_setLo (r : BitVec 16) (x : BitVec 8) : lo (setLo r x) = x := lo_append ..

@[simp] theorem hi_setLo (r : BitVec 16) (x : BitVec 8) : hi (setLo r x) = hi r := hi_append ..

@[simp] theorem lo_setHi (r : BitVec 16) (x : BitVec 8) : lo (setHi r x) = lo r := lo_append ..

@[simp] theorem hi_setHi (r : BitVec 16) (x : BitVec 8) : hi (setHi r x) = x := hi_append ..

theorem lo_toNat (r : BitVec 16) : (lo r).toNat = r.toNat % 256 := by
  unfold lo
  rw [BitVec.extractLsb'_toNat, Nat.shiftRight_zero]

theorem hi_toNat (r : BitVec 16) : (hi r).toNat = r.toNat / 256 := by
  have hr := r.isLt
  unfold hi
  rw [BitVec.extractLsb'_toNat, Nat.shiftRight_eq_div_pow]
  omega

theorem lo_ofNat_toNat (n : Nat) : (lo (BitVec.ofNat 16 n)).toNat = n % 256 := by
  rw [lo_toNat, BitVec.toNat_ofNat]
  omega

theorem hi_ofNat_toNat {n : Nat} (h : n < 65536) : (hi (BitVec.ofNat 16 n)).toNat = n / 256 := by
  rw [hi_toNat, BitVec.toNat_ofNat, Nat.mod_eq_of_lt h]

@[simp] theorem lo_ushiftRight_eight (r : BitVec 16) : lo (r >>> 8) = hi r := by
  apply BitVec.eq_of_toNat_eq
  rw [lo_toNat, hi_toNat, BitVec.toNat_ushiftRight, Nat.shiftRight_eq_div_pow]
  have hr := r.isLt
  omega

theorem setHi_zero_toNat (r : BitVec 16) : (setHi r 0).toNat = (lo r).toNat := by
  unfold setHi
  rw [BitVec.toNat_append]
  exact Nat.zero_or _

theorem setLo_toNat (r : BitVec 16) (x : BitVec 8) : (setLo r x).toNat = 256 * (hi r).toNat + x.toNat := by
  unfold setLo
  rw [BitVec.toNat_append, ← Nat.shiftLeft_add_eq_or_of_lt x.isLt, Nat.shiftLeft_eq, Nat.mul_comm]

/-! ## Multiplication and division -/

/-- Why the code does not go on. -/
inductive Stop
  | divideError
  | halted
  deriving DecidableEq, Repr

structure Regs16 where
  ax : BitVec 16
  bx : BitVec 16
  cx : BitVec 16
  dx : BitVec 16
  si : BitVec 16
  di : BitVec 16
  deriving DecidableEq, Repr

namespace Regs16

/-- The dividend DX:AX. -/
def dxax (r : Regs16) : Nat := 65536 * r.dx.toNat + r.ax.toNat

/-- `mul` by a word. -/
def mul (x : BitVec 16) (r : Regs16) : Regs16 :=
  let p := r.ax.toNat * x.toNat
  { r with ax := BitVec.ofNat 16 p, dx := BitVec.ofNat 16 (p / 65536) }

/-- `div` by a word, with a divide error when the quotient does not fit in AX. -/
def div (x : BitVec 16) (r : Regs16) : Except Stop Regs16 :=
  if x = 0 ∨ 65536 ≤ r.dxax / x.toNat then throw .divideError
  else return { r with ax := BitVec.ofNat 16 (r.dxax / x.toNat), dx := BitVec.ofNat 16 (r.dxax % x.toNat) }

/-- A division with a remainder in DX that is below the divisor does not fail. -/
theorem div_ok {x : BitVec 16} {r : Regs16} (h : r.dx.toNat < x.toNat) : r.div x =
    .ok { r with ax := BitVec.ofNat 16 (r.dxax / x.toNat), dx := BitVec.ofNat 16 (r.dxax % x.toNat) } := by
  have hx : x ≠ 0 := by
    rintro rfl
    exact absurd h (Nat.not_lt_zero _)
  have hq : r.dxax / x.toNat < 65536 := by
    have hax := r.ax.isLt
    rw [Nat.div_lt_iff_lt_mul (by omega)]
    unfold dxax
    omega
  have hfits : ¬(x = 0 ∨ 65536 ≤ r.dxax / x.toNat) := by
    rintro (h0 | h0)
    · exact hx h0
    · omega
  unfold div
  rw [if_neg hfits]
  rfl

end Regs16

end SnakeOS.Boot
