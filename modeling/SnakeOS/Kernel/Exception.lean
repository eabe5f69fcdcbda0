/-
kernel/exception.c: the handlers of the processor's exceptions. All of them print what happened and halt.
-/
import SnakeOS.Kernel.Format

namespace SnakeOS.Kernel

open C Term

/-- `struct interrupt_frame`. -/
structure InterruptFrame where
  rip : BitVec 64
  cs : BitVec 64
  rflags : BitVec 64
  errorCode : BitVec 64
  deriving DecidableEq, Repr

/-! ## Handlers -/

/-- What `va_arg` of an `unsigned int` finds of a `uint64_t`. -/
def uintOf (v : BitVec 64) : Nat := v.toNat % 2 ^ 32

/-- The console when the handler with this first message halts. -/
def faultHandler (message : List UInt8) (vector : Int) (frame : InterruptFrame) (con : Console) :
    Except Fault Console := do
  let con ← kprint message [.int vector] con
  let con ← kprint (Byte.text "RIP = %x\n") [.uint (uintOf frame.rip)] con
  kprint (Byte.text "System halted\n") [] con

def gpFaultHandler (vector : Int) (frame : InterruptFrame) (con : Console) : Except Fault Console :=
  faultHandler (Byte.text "General Protection Fault: %d\n") vector frame con

def divByZeroHandler (vector : Int) (frame : InterruptFrame) (con : Console) : Except Fault Console :=
  faultHandler (Byte.text "Division by zero: (exception %d)\n") vector frame con

/-- The console when `exception_handle` halts; it does not return. -/
def exceptionHandle (vector : Int) (frame : InterruptFrame) (con : Console) : Except Fault Console :=
  if vector = 0 then divByZeroHandler vector frame con
  else if vector = 13 then gpFaultHandler vector frame con
  else kprint (Byte.text "Exception %d unhandled. System halted\n") [.int vector] con

/-! ## What is printed -/

/-- The text of a handler for the number `rip`. -/
def faultReport (message : List UInt8) (vector : Int) (rip : Nat) : List UInt8 :=
  expand (items message) [.int vector] ++
    (Byte.text "RIP = " ++ itoaHex rip ++ Byte.text "\n" ++ Byte.text "System halted\n")

/-- The text of `exception_handle` for the number `rip`, which the vectors without a handler leave out. -/
def exceptionReport (vector : Int) (rip : Nat) : List UInt8 :=
  if vector = 0 then faultReport (Byte.text "Division by zero: (exception %d)\n") vector rip
  else if vector = 13 then faultReport (Byte.text "General Protection Fault: %d\n") vector rip
  else expand (items (Byte.text "Exception %d unhandled. System halted\n")) [.int vector]

/-- A format with just the directives for its arguments prints its expansion. -/
theorem kprint_taken {fmt : List UInt8} {args : List Arg} (hnul : ∀ c ∈ fmt, c ≠ 0)
    (htaken : taken fmt = args.map Arg.kind) (hitems : .percent ∉ items fmt) (con : Console) :
    kprint fmt args con = .ok (putcs (expand (items fmt) args) con) := by
  have hargs : Supplies fmt args := by
    unfold Supplies
    rw [htaken]
  exact kprint_items hnul hargs hitems con

theorem faultHandler_spec {message : List UInt8} (hnul : ∀ c ∈ message, c ≠ 0) (htaken : taken message = [.int])
    (hitems : .percent ∉ items message) (vector : Int) (frame : InterruptFrame) (con : Console) :
    faultHandler message vector frame con = .ok (putcs (faultReport message vector (uintOf frame.rip)) con) := by
  have hmessage := @kprint_taken message [.int vector] hnul htaken hitems
  have htakenRip : taken (Byte.text "RIP = %x\n") = [.uint] := by decide
  have hrip := @kprint_taken (Byte.text "RIP = %x\n") [.uint (uintOf frame.rip)] (Byte.ne_zero_of_all (by decide))
    htakenRip (by decide)
  have hexpand : expand (items (Byte.text "RIP = %x\n")) [.uint (uintOf frame.rip)] =
      Byte.text "RIP = " ++ itoaHex (uintOf frame.rip) ++ Byte.text "\n" := rfl
  have hhalted := @kprint_taken (Byte.text "System halted\n") [] (Byte.ne_zero_of_all (by decide)) (by decide)
    (by decide)
  have hplain : expand (items (Byte.text "System halted\n")) [] = Byte.text "System halted\n" := by decide
  rw [hexpand] at hrip
  rw [hplain] at hhalted
  unfold faultHandler faultReport
  rw [hmessage, ok_bind, hrip, ok_bind, hhalted]
  simp only [putcs_append]

/-- `exception_handle` prints its report with the low half of the frame's RIP. -/
theorem exceptionHandle_spec (vector : Int) (frame : InterruptFrame) (con : Console) :
    exceptionHandle vector frame con = .ok (putcs (exceptionReport vector (uintOf frame.rip)) con) := by
  unfold exceptionHandle exceptionReport
  split
  · exact faultHandler_spec (Byte.ne_zero_of_all (by decide)) (by decide) (by decide) vector frame con
  · split
    · exact faultHandler_spec (Byte.ne_zero_of_all (by decide)) (by decide) (by decide) vector frame con
    · have htaken : taken (Byte.text "Exception %d unhandled. System halted\n") = [.int] := by decide
      exact kprint_taken (Byte.ne_zero_of_all (by decide)) htaken (by decide) con

theorem faultReport_inj {message : List UInt8} {vector : Int} {a b : Nat} :
    faultReport message vector a = faultReport message vector b ↔ a = b := by
  constructor
  · intro h
    unfold faultReport at h
    have h := List.append_cancel_right (List.append_cancel_right (List.append_cancel_left h))
    exact itoaHex_injective (List.append_cancel_left h)
  · rintro rfl
    rfl

/-- The report tells one RIP from another when the vector has a handler. -/
theorem exceptionReport_inj {vector : Int} {a b : Nat} :
    exceptionReport vector a = exceptionReport vector b ↔ (vector = 0 ∨ vector = 13 → a = b) := by
  unfold exceptionReport
  by_cases h0 : vector = 0
  · rw [if_pos h0, if_pos h0, faultReport_inj]
    exact ⟨fun h _ => h, fun h => h (Or.inl h0)⟩
  · rw [if_neg h0, if_neg h0]
    by_cases h13 : vector = 13
    · rw [if_pos h13, if_pos h13, faultReport_inj]
      exact ⟨fun h _ => h, fun h => h (Or.inr h13)⟩
    · rw [if_neg h13, if_neg h13]
      exact iff_of_true rfl fun h => absurd h (not_or.2 ⟨h0, h13⟩)

end SnakeOS.Kernel
