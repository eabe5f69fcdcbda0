/-
init/kmain.c, and what it calls of drivers/i8253.c, drivers/i8042.c, drivers/keyboard.c and kernel/timer.c to set the
devices up. `gdt_init` and `idt_init` are in `Arch.Gdt` and `Arch.Idt`: they touch nothing of the state here.

Interrupts are on while the second half of `kmain` runs; its steps are listed, so that interrupts can come between
any two of them.
-/
import SnakeOS.Drivers.InitRam
import SnakeOS.Init.Machine

namespace SnakeOS.Init

open C Kernel Arch Drivers Term Boot

/-! ## Setting up the devices -/

abbrev TIMER_IRQ : Int := 0
abbrev I8042_KEYBOARD_IRQ : Int := 1

/-- A request for a line, and a message when it is refused. -/
def requestIrq (irq : Int) (handler : Handler) (refused : List UInt8) (s : System) : Except Fault (Int × System) := do
  let (ret, s) ← irqRequest irq (some handler) none s
  if ret ≠ 0 then
    let con ← kprint refused [] s.con
    return (1, { s with con })
  else return (0, s)

def i8253Init (s : System) : Except Fault (Int × System) :=
  requestIrq TIMER_IRQ .i8253IrqHandle (Byte.text "Error: irq allocation for PIT failed\n")
    { s with hw.rest.pit := pitProgram s.hw.rest.pit }

def timerInit (s : System) : Except Fault (Int × System) := do
  let (_, s) ← i8253Init s
  return (0, s)

def i8042Init (s : System) : Except Fault (Int × System) :=
  requestIrq I8042_KEYBOARD_IRQ .i8042IrqHandler (Byte.text "Error: irq allocation for PS/2 controller\n") s

def keyboardInit (s : System) : Except Fault (Int × System) := do
  let (_, s) ← i8042Init s
  return (0, { s with hw.rest.kbd.lock := spinlockInit })

/-! ## `kmain` -/

/-- `kmain` up to `sti`. Interrupts are off, and the devices act before and after `irq_arch_init`. -/
def kmainStart (early late : List Arrival) (s : System) : Except Fault System := do
  let (con, timer) := consoleInit s.con s.hw.rest.timer
  let s ← boardInit (arrive early { s with con, hw.rest.timer := timer })
  let s := arrive late s
  let con ← kprint (Byte.text "Interrupts are enabled!!!\n") [] s.con
  return { s with con, hw.rest.rflags := s.hw.rest.rflags ||| RFLAGS_IF }

/-- `kmain` from `print_ram_map` to the loop at its end. -/
def kmainRest (mem : Nat → UInt8) (s : System) : Except Fault System := do
  let con ← printRamMap mem s.con
  let (_, s) ← timerInit { s with con }
  let (_, s) ← keyboardInit s
  let con ← kprint (Byte.text "<SnakeOS> ") [] s.con
  return { s with con }

/-! ## The steps of `kmain` -/

/-- Each is done as a whole: no interrupt comes into a `console_putc`, between the two stores to an entry of the table
or between the read and the write of a mask, although interrupts are on. -/
inductive Step
  | putc (c : UInt8)
  | pit (port : UInt16) (value : UInt8)
  | desc (irq : Fin NMBR_IRQS) (handler : Handler)
  | unmask (irq : Fin NMBR_IRQS)
  | lockInit
  deriving DecidableEq, Repr

def Step.run (s : System) : Step → System
  | .putc c => { s with con := consolePutc c s.con }
  | .pit port value => { s with hw.rest.pit := s.hw.rest.pit.outb port value }
  | .desc irq handler => { s with irqTable := s.irqTable.set irq ⟨some handler, none⟩ }
  | .unmask irq => { s with hw := s.hw.drive (i8259AUnmaskIrq irq) }
  | .lockInit => { s with hw.rest.kbd.lock := spinlockInit }

def requestText (irq : Fin NMBR_IRQS) : List UInt8 := Byte.text "Requesting " ++ itoaDec irq ++ Byte.text " IRQ\n"

def requestSteps (irq : Fin NMBR_IRQS) (handler : Handler) : List Step :=
  (requestText irq).map .putc ++ [.desc irq handler, .unmask irq]

def pitSteps : List Step := [.pit PIT_CMD 0x36, .pit PIT_CH0_DATA 0x9B, .pit PIT_CH0_DATA 0x2E]

def kmainSteps (mem : Nat → UInt8) : List Step :=
  (mapText (ramMap mem)).map .putc ++ pitSteps ++ requestSteps 0 .i8253IrqHandle ++
    requestSteps 1 .i8042IrqHandler ++ [.lockInit] ++ (Byte.text "<SnakeOS> ").map .putc

/-- The steps that register and open the lines. -/
def controls : List Step := [.desc 0 .i8253IrqHandle, .unmask 0, .desc 1 .i8042IrqHandler, .unmask 1]

/-- What `kmain` prints before the prompt, but for the end of the last line. -/
def bootText (mem : Nat → UInt8) : List UInt8 :=
  Byte.text "Interrupts are enabled!!!\n" ++ mapText (ramMap mem) ++ requestText 0 ++
    (Byte.text "Requesting " ++ itoaDec 1 ++ Byte.text " IRQ")

theorem putc_steps (cs : List UInt8) (s : System) :
    (cs.map Step.putc).foldl Step.run s = { s with con := putcs cs s.con } := by
  induction cs generalizing s with
  | nil => rfl
  | cons c cs ih =>
    rw [List.map_cons, List.foldl_cons, ih]
    rfl

theorem requestIrq_steps (irq : Fin NMBR_IRQS) (handler : Handler) (refused : List UInt8) {s : System}
    (hchip : s.irqChipActive = some boardChip) :
    requestIrq irq handler refused s = .ok (0, (requestSteps irq handler).foldl Step.run s) := by
  have hprint := @kprint_int (Byte.text "Requesting %d IRQ\n") (Byte.text "Requesting ") (Byte.text " IRQ\n")
    (Byte.ne_zero_of_all (by decide)) (by decide) (by decide) (fun _ => rfl) irq s.con
  have hunmask : s.irqChipActive.bind IrqChip.irqUnmask = some fun irq hw => Board.drive (i8259AUnmaskIrq irq) hw := by
    rw [hchip]
    rfl
  have hline : ¬((irq : Int) < 0 ∨ (irq : Int) ≥ NMBR_IRQS) := by omega
  have hrun : irqRequest irq (some handler) none s = .ok (0, (requestSteps irq handler).foldl Step.run s) := by
    unfold irqRequest requestSteps
    rw [hprint, List.foldl_append, putc_steps]
    simp only [ok_bind]
    rw [if_neg hline]
    simp only [hunmask]
    rw [store_ok (show (irq : Int).toNat < NMBR_IRQS by omega)]
    rfl
  unfold requestIrq
  rw [hrun]
  rfl

theorem pit_steps (s : System) : pitSteps.foldl Step.run s = { s with hw.rest.pit := pitProgram s.hw.rest.pit } := by
  have hcontrol : PIT_CH0 ||| PIT_ACCESS_LOHI ||| PIT_MODE_3 ||| PIT_BINARY = 0x36 := by decide
  have hlow : ((PIT_BASE_FREQ / PIT_CLOCK_FREQUENCY) &&& 0xFF).toUInt8 = 0x9B := by decide
  have hhigh : (((PIT_BASE_FREQ / PIT_CLOCK_FREQUENCY) >>> 8) &&& 0xFF).toUInt8 = 0x2E := by decide
  unfold pitProgram pitSetMode pitSteps
  simp only [hcontrol, hlow, hhigh, List.foldl_cons, List.foldl_nil, Step.run]

theorem timerInit_steps {s : System} (hchip : s.irqChipActive = some boardChip) :
    timerInit s = .ok (0, (pitSteps ++ requestSteps 0 .i8253IrqHandle).foldl Step.run s) := by
  have hrun : i8253Init s = .ok (0, (requestSteps 0 .i8253IrqHandle).foldl Step.run
    { s with hw.rest.pit := pitProgram s.hw.rest.pit }) := requestIrq_steps 0 .i8253IrqHandle _ hchip
  unfold timerInit
  rw [hrun, List.foldl_append, pit_steps]
  rfl

theorem keyboardInit_steps {s : System} (hchip : s.irqChipActive = some boardChip) :
    keyboardInit s = .ok (0, (requestSteps 1 .i8042IrqHandler ++ [Step.lockInit]).foldl Step.run s) := by
  have hrun : i8042Init s = .ok (0, (requestSteps 1 .i8042IrqHandler).foldl Step.run s) :=
    requestIrq_steps 1 .i8042IrqHandler _ hchip
  unfold keyboardInit
  rw [hrun, List.foldl_append]
  rfl

/-- No step changes the active chip. -/
theorem Step.run_chip (s : System) (st : Step) : (st.run s).irqChipActive = s.irqChipActive := by
  cases st <;> rfl

theorem steps_chip (steps : List Step) (s : System) : (steps.foldl Step.run s).irqChipActive = s.irqChipActive := by
  induction steps generalizing s with
  | nil => rfl
  | cons st steps ih => rw [List.foldl_cons, ih, Step.run_chip]

/-- The second half of `kmain`, when no interrupt comes, is its steps one after the other. -/
theorem kmainRest_eq (mem : Nat → UInt8) {s : System} (hchip : s.irqChipActive = some boardChip) :
    kmainRest mem s = .ok ((kmainSteps mem).foldl Step.run s) := by
  have hprompt : ∀ con, kprint (Byte.text "<SnakeOS> ") [] con = .ok (putcs (Byte.text "<SnakeOS> ") con) :=
    fun _ => rfl
  have hsteps : kmainSteps mem = (mapText (ramMap mem)).map .putc ++ (pitSteps ++ requestSteps 0 .i8253IrqHandle) ++
      (requestSteps 1 .i8042IrqHandler ++ [.lockInit]) ++ (Byte.text "<SnakeOS> ").map .putc := by
    unfold kmainSteps
    simp only [List.append_assoc]
  let mapped : System := { s with con := putcs (mapText (ramMap mem)) s.con }
  have hmapped : mapped.irqChipActive = some boardChip := hchip
  unfold kmainRest
  rw [printRamMap_eq, ok_bind, timerInit_steps hmapped]
  simp only [ok_bind]
  rw [keyboardInit_steps ((steps_chip _ mapped).trans hchip)]
  simp only [ok_bind, hprompt, pure_eq_ok]
  simp only [hsteps, List.foldl_append, putc_steps, mapped]

end SnakeOS.Init
