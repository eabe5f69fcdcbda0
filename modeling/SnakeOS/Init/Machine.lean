/-
The machine that the kernel runs on, with the kernel's static variables: the chips of the interrupt lines, the timer
chip, the keyboard controller of drivers/i8042.c, and the two interrupt handlers of the drivers. Devices act at any
time, also between two steps of a handler.

An interrupt is taken between two steps of the kernel's code; what the stubs do to the registers of the code in
between is in `Arch.Stub`.
-/
import SnakeOS.Arch.Service
import SnakeOS.Drivers.I8253
import SnakeOS.Term.Keyboard

namespace SnakeOS.Init

open C Kernel Arch Drivers Term

/-! ## The devices -/

/-- The output buffer of the keyboard controller, with the keyboard and its interrupt enabled. No part of the hardware
are `sent`, the scancodes that have been in the buffer, `edges`, the times that the timer's line was asked on, and
`lost`, those of them that came while its request was latched. -/
structure Devices where
  data : UInt8
  full : Bool
  sent : List UInt8
  edges : Nat
  lost : Nat
  deriving DecidableEq, Repr

/-- `inb(I8042_DATA)`. -/
def Devices.inb (dev : Devices) : UInt8 × Devices := (dev.data, { dev with full := false })

/-- A rising edge of the timer's line; `latched` is whether the last one is still to be answered for. -/
def Devices.edge (latched : Bool) (dev : Devices) : Devices :=
  { dev with edges := dev.edges + 1, lost := dev.lost + latched.toNat }

/-! ## The state -/

/-- What the interrupt handlers and `kmain` reach apart from the IRQ core and the console. -/
structure Rest where
  pit : Pit
  dev : Devices
  timer : Timer
  kbd : KeyboardState
  rflags : UInt64
  tty : Tty

def timerGetTicks (t : Timer) : UInt64 := t.tick

/-- The handlers that drivers pass to `irq_request`. -/
inductive Handler
  | i8253IrqHandle
  | i8042IrqHandler
  deriving DecidableEq, Repr

abbrev System := Irq Handler Unit (Board Rest)

/-! ## Devices -/

/-- What a device does: the controller puts a scancode into its buffer and asks on line 1, but not before the one
that is there has been read; or another device asks on its line. -/
inductive Arrival
  | scancode (b : UInt8)
  | raise (w : Wire) (other : w ≠ .keyboard ∧ w ≠ .cascade)

def Arrival.run (s : System) : Arrival → System
  | .scancode b =>
    if s.hw.rest.dev.full then s
    else { s with
      hw.rest.dev := { s.hw.rest.dev with data := b, full := true, sent := s.hw.rest.dev.sent ++ [b] }
      hw.chips := s.hw.chips.raise .keyboard }
  | .raise w _ => { s with
      hw.rest.dev := if w = .timer then s.hw.rest.dev.edge (w ∈ s.hw.chips.requests) else s.hw.rest.dev
      hw.chips := s.hw.chips.raise w }

def arrive (arrivals : List Arrival) (s : System) : System := arrivals.foldl Arrival.run s

/-! ## The handlers -/

/-- `i8253_irq_handle`: a tick of the timer, whose hook draws on the screen. -/
def i8253IrqHandle (s : System) : System :=
  let (timer, vga) := timerHandleTick s.hw.rest.timer s.con.vga
  { s with hw.rest.timer := timer, con.vga := vga }

/-- The part of the state behind the keyboard. -/
def keyboard (s : System) : Keyboard := ⟨s.hw.rest.kbd, s.hw.rest.rflags, ⟨s.hw.rest.tty, s.con⟩⟩

def withKeyboard (kb : Keyboard) (s : System) : System :=
  { s with hw.rest.kbd := kb.kbd, hw.rest.rflags := kb.rflags, hw.rest.tty := kb.term.tty, con := kb.term.con }

/-- `i8042_irq_handler`; the devices act between the reading of the scancode and its use. -/
def i8042IrqHandler (between : List Arrival) (s : System) : Except Fault System := do
  let (i8042Scancode, dev) := s.hw.rest.dev.inb
  let s := arrive between { s with hw.rest.dev := dev }
  let kb ← keyboardHandleScancode i8042Scancode (keyboard s)
  return withKeyboard kb s

/-- A call of a handler, with what the devices do before and in it. -/
def callHandler (before between : List Arrival) (handler : Handler) (_irq : Int) (_frame : InterruptFrame)
    (_dev : Option Unit) (s : System) : Except Fault System :=
  match handler with
  | .i8253IrqHandle => .ok (arrive between (i8253IrqHandle (arrive before s)))
  | .i8042IrqHandler => i8042IrqHandler between (arrive before s)

/-! ## Interrupts -/

/-- TF, IF, NT, RF and VM, which the processor clears for a handler. -/
abbrev RFLAGS_CLEARED : UInt64 := 0x34300

/-- The line that is handled and the state after an interrupt: the processor keeps the flags register for `iretq`. -/
def takeInterrupt (a : Answer) (before between : List Arrival) (frame : InterruptFrame) (s : System) :
    Except Fault (Int × System) := do
  let rflags := s.hw.rest.rflags
  let (irq, s) ← interrupt (callHandler before between) a frame
    { s with hw.rest.rflags := rflags &&& ~~~RFLAGS_CLEARED }
  return (irq, { s with hw.rest.rflags := rflags })

end SnakeOS.Init
