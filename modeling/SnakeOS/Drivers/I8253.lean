/-
drivers/i8253.c and the 8253 timer chip it programs. A control word selects a counter and says how its count is
written; the count follows on the counter's data port. A counter in mode 3 puts out a square wave: high for the
first half of the count, low for the rest.
-/
import Mathlib.Data.Nat.Count
import SnakeOS.Term.Seconds

namespace SnakeOS.Drivers

open Term

/-! ## The chip -/

abbrev PIT_CH0_DATA : UInt16 := 0x40
abbrev PIT_CH1_DATA : UInt16 := 0x41
abbrev PIT_CH2_DATA : UInt16 := 0x42
abbrev PIT_CMD : UInt16 := 0x43
abbrev PIT_ACCESS_LOHI : UInt8 := 0x30
abbrev PIT_MODE_3 : UInt8 := 0x06
abbrev PIT_BINARY : UInt8 := 0x00
abbrev PIT_CH0 : UInt8 := 0x00

/-- Which bytes of the count are written. -/
inductive Access
  | loByte
  | hiByte
  | loHi
  deriving DecidableEq, Repr

/-- A counter: `low` is the first of two bytes while the chip waits for the second, `reload` the count, which is not
there between a control word and the last byte. -/
structure Counter where
  mode : UInt8
  bcd : Bool
  access : Access
  low : Option UInt8
  reload : Option Nat
  deriving DecidableEq, Repr

/-- A control word for this counter; without access bits it latches the count for reading, which changes nothing
here. -/
def Counter.control (value : UInt8) (c : Counter) : Counter :=
  let program (access : Access) : Counter := ⟨(value >>> 1) &&& 7, value &&& 1 ≠ 0, access, none, none⟩
  match ((value >>> 4) &&& 3).toNat with
  | 0 => c
  | 1 => program .loByte
  | 2 => program .hiByte
  | _ => program .loHi

def Counter.write (value : UInt8) (c : Counter) : Counter :=
  match c.access, c.low with
  | .loByte, _ => { c with reload := some value.toNat }
  | .hiByte, _ => { c with reload := some (256 * value.toNat) }
  | .loHi, none => { c with low := some value }
  | .loHi, some low => { c with low := none, reload := some (low.toNat + 256 * value.toNat) }

structure Pit where
  ch0 : Counter
  ch1 : Counter
  ch2 : Counter
  deriving DecidableEq, Repr

/-- The last of the four selections is none of the counters. -/
def Pit.outb (port : UInt16) (value : UInt8) (pit : Pit) : Pit :=
  if port = PIT_CMD then
    match (value >>> 6).toNat with
    | 0 => { pit with ch0 := pit.ch0.control value }
    | 1 => { pit with ch1 := pit.ch1.control value }
    | 2 => { pit with ch2 := pit.ch2.control value }
    | _ => pit
  else if port = PIT_CH0_DATA then { pit with ch0 := pit.ch0.write value }
  else if port = PIT_CH1_DATA then { pit with ch1 := pit.ch1.write value }
  else if port = PIT_CH2_DATA then { pit with ch2 := pit.ch2.write value }
  else pit

/-! ## The driver -/

abbrev PIT_BASE_FREQ : UInt32 := 1193182

/-- `CLOCK_FREQUENCY` of the driver. -/
abbrev PIT_CLOCK_FREQUENCY : UInt32 := 100

def pitSetMode (channel mode : UInt8) (pit : Pit) : Pit :=
  pit.outb PIT_CMD (channel ||| PIT_ACCESS_LOHI ||| mode ||| PIT_BINARY)

/-- `i8253_init` up to `irq_request`. -/
def pitProgram (pit : Pit) : Pit :=
  let divisor := PIT_BASE_FREQ / PIT_CLOCK_FREQUENCY
  let pit := pitSetMode PIT_CH0 PIT_MODE_3 pit
  let pit := pit.outb PIT_CH0_DATA (divisor &&& 0xFF).toUInt8
  pit.outb PIT_CH0_DATA ((divisor >>> 8) &&& 0xFF).toUInt8

/-- Whatever state the chip is in, a count that is half written included: channel 0 counts from the divisor in mode 3
and the other channels are untouched. -/
theorem pitProgram_eq (pit : Pit) : pitProgram pit = { pit with ch0 := ⟨3, false, .loHi, none, some 11931⟩ } := rfl

/-! ## The square wave -/

/-- The output of a counter in mode 3 that counts from `n`, after `t` clocks. -/
def squareWave (n t : Nat) : Bool := t % n < (n + 1) / 2

/-- The output goes from low to high. -/
def Rises (n t : Nat) : Prop := 0 < t ∧ squareWave n (t - 1) = false ∧ squareWave n t = true

instance (n t : Nat) : Decidable (Rises n t) := inferInstanceAs (Decidable (_ ∧ _ ∧ _))

/-- The times at which the output rises in the first `t` clocks. -/
def rises (n t : Nat) : Nat := Nat.count (fun i => Rises n (i + 1)) t

theorem rises_at {n : Nat} (hn : 2 ≤ n) (t : Nat) : Rises n (t + 1) ↔ (t + 1) % n = 0 := by
  have hlt := Nat.mod_lt t (show 0 < n by omega)
  unfold Rises squareWave
  rw [Nat.add_sub_cancel, decide_eq_false_iff_not, decide_eq_true_iff]
  by_cases hend : t % n + 1 = n
  · have hzero : (t + 1) % n = 0 := by
      rw [← Nat.mod_add_mod, hend, Nat.mod_self]
    rw [hzero]
    refine iff_of_true ⟨Nat.succ_pos t, by omega, by omega⟩ rfl
  · have hnext : (t + 1) % n = t % n + 1 := by
      rw [← Nat.mod_add_mod, Nat.mod_eq_of_lt (by omega)]
    rw [hnext]
    refine iff_of_false (fun h => ?_) (by omega)
    omega

/-- The output rises once in each count. -/
theorem rises_eq {n : Nat} (hn : 2 ≤ n) (t : Nat) : rises n t = t / n := by
  induction t with
  | zero => exact (Nat.zero_div n).symm
  | succ t ih =>
    unfold rises at ih ⊢
    rw [Nat.count_succ, ih]
    simp only [rises_at hn, Nat.succ_div, Nat.dvd_iff_mod_eq_zero]

end SnakeOS.Drivers
