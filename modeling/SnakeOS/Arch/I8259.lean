/-
arch/x86/i8259.c and the pair of 8259A chips it programs. A chip takes the words of its
initialisation sequence on its data port and from then on the mask of its lines; the slave's
output is wired to a line of the master.
-/
import SnakeOS.Kernel.Irq

namespace SnakeOS.Arch

open C Kernel

/-! ## The chips -/

abbrev PIC1_CMD : UInt16 := 0x20
abbrev PIC1_DATA : UInt16 := 0x21
abbrev PIC2_CMD : UInt16 := 0xA0
abbrev PIC2_DATA : UInt16 := 0xA1
abbrev PIC1_IDT_POS : UInt8 := 0x20
abbrev PIC2_IDT_POS : UInt8 := 0x28
abbrev PIC_EOI : UInt8 := 0x20

/-- One 8259A: its mask, the words of its initialisation sequence and how many of them it still
waits for. -/
structure Pic where
  imr : UInt8
  icw2 : UInt8
  icw3 : UInt8
  icw4 : UInt8
  waiting : Nat
  deriving DecidableEq, Repr

/-- A write to the command port: bit 4 starts the initialisation sequence, in cascade mode with
all four words; other commands leave the mask as it is. -/
def Pic.command (value : UInt8) (pic : Pic) : Pic :=
  if value &&& 0x10 ≠ 0 then { pic with imr := 0, waiting := 3 } else pic

/-- A write to the data port: the next word of the sequence, or the mask. -/
def Pic.data (value : UInt8) (pic : Pic) : Pic :=
  match pic.waiting with
  | 0 => { pic with imr := value }
  | 1 => { pic with icw4 := value, waiting := 0 }
  | 2 => { pic with icw3 := value, waiting := 1 }
  | n + 3 => { pic with icw2 := value, waiting := n + 2 }

/-- The two chips. `writes` is no part of the hardware: it lists the ports written and the values. -/
structure Pics where
  master : Pic
  slave : Pic
  writes : List (UInt16 × UInt8)
  deriving DecidableEq, Repr

def outb (port : UInt16) (value : UInt8) (hw : Pics) : Pics :=
  let hw := { hw with writes := hw.writes ++ [(port, value)] }
  if port = PIC1_CMD then { hw with master := hw.master.command value }
  else if port = PIC1_DATA then { hw with master := hw.master.data value }
  else if port = PIC2_CMD then { hw with slave := hw.slave.command value }
  else if port = PIC2_DATA then { hw with slave := hw.slave.data value }
  else hw

/-- Reading a data port gives the mask; the other ports are not read. -/
def inb (port : UInt16) (hw : Pics) : UInt8 :=
  if port = PIC1_DATA then hw.master.imr else if port = PIC2_DATA then hw.slave.imr else 0

/-! ## The driver -/

def i8259AMaskAll (hw : Pics) : Pics := outb PIC2_DATA 0xFF (outb PIC1_DATA 0xFF hw)

def i8259AInit (hw : Pics) : Pics :=
  -- start initialization sequence (cascade mode, expect ICW4)
  let hw := outb PIC1_CMD 0x11 hw
  let hw := outb PIC2_CMD 0x11 hw
  -- map master and slave to relevant IDT entries
  let hw := outb PIC1_DATA PIC1_IDT_POS hw
  let hw := outb PIC2_DATA PIC2_IDT_POS hw
  -- setup cascading
  let hw := outb PIC1_DATA 0x04 hw
  let hw := outb PIC2_DATA 0x02 hw
  -- environment info
  let hw := outb PIC1_DATA 0x1 hw
  let hw := outb PIC2_DATA 0x1 hw
  i8259AMaskAll hw

/-- The data port of a line's chip and the line's number on it. -/
def lineOf (irq : Int) : UInt16 × Int := if irq < 8 then (PIC1_DATA, irq) else (PIC2_DATA, irq - 8)

/-- `1 << irq`, as it meets a byte. -/
def lineBit (irq : Int) : UInt8 := (1 <<< irq.toNat).toUInt8

def i8259AMaskIrq (irq : Int) (hw : Pics) : Pics :=
  let (port, irq) := lineOf irq
  outb port (inb port hw ||| lineBit irq) hw

def i8259AUnmaskIrq (irq : Int) (hw : Pics) : Pics :=
  let (port, irq) := lineOf irq
  outb port (inb port hw &&& ~~~lineBit irq) hw

def i8259ASendEoi (irq : Int) (hw : Pics) : Pics :=
  let hw := if irq ≥ 8 then outb PIC2_CMD PIC_EOI hw else hw
  outb PIC1_CMD PIC_EOI hw

def i8259AChip : IrqChip Pics where
  name := Byte.text "i8259A"
  irqInit := some i8259AInit
  irqShutdown := some i8259AMaskAll
  irqMask := some i8259AMaskIrq
  irqUnmask := some i8259AUnmaskIrq
  irqEoi := some i8259ASendEoi

variable {H D : Type}

/-- The state after `irq_arch_init`. -/
def irqArchInit (s : Irq H D Pics) : Except Fault (Irq H D Pics) := do
  let (_, s) ← irqSetChip (some i8259AChip) s
  return s

/-! ## Masks -/

/-- The line `b` of a chip is not masked. -/
def Pic.Open (pic : Pic) (b : Nat) : Prop := pic.imr.toBitVec.getLsbD b = false

instance (pic : Pic) (b : Nat) : Decidable (pic.Open b) := inferInstanceAs (Decidable (_ = _))

/-- Both chips take masks, and the slave is wired to line 2 of the master (bit 2 of its ICW3). -/
structure Ready (hw : Pics) : Prop where
  master : hw.master.waiting = 0
  slave : hw.slave.waiting = 0
  cascade : hw.master.icw3 = 0x04

theorem i8259AInit_ready (hw : Pics) : Ready (i8259AInit hw) := ⟨rfl, rfl, rfl⟩

theorem i8259AInit_masked (hw : Pics) {b : Nat} (hb : b < 8) :
    ¬(i8259AInit hw).master.Open b ∧ ¬(i8259AInit hw).slave.Open b := by
  have hmask : (0xFF : UInt8).toBitVec.getLsbD b = true := by
    revert b
    decide
  have hmaster : (i8259AInit hw).master.imr = 0xFF := rfl
  have hslave : (i8259AInit hw).slave.imr = 0xFF := rfl
  unfold Pic.Open
  rw [hmaster, hslave, hmask]
  decide

theorem getLsbD_lineBit {k b : Nat} (hb : b < 8) : (lineBit k).toBitVec.getLsbD b = decide (b = k) := by
  show (BitVec.ofNat 8 (1 <<< k)).getLsbD b = _
  rw [BitVec.getLsbD_ofNat, Nat.one_shiftLeft, Nat.testBit_two_pow, decide_eq_true hb, Bool.true_and]
  exact decide_eq_decide.2 eq_comm

/-- Unmasking a line opens it and no other. -/
theorem open_unmask {pic : Pic} (hw : pic.waiting = 0) (k : Nat) {b : Nat} (hb : b < 8) :
    (pic.data (pic.imr &&& ~~~lineBit k)).Open b ↔ pic.Open b ∨ b = k := by
  unfold Pic.data Pic.Open
  rw [hw]
  simp only [UInt8.toBitVec_and, UInt8.toBitVec_not, BitVec.getLsbD_and, BitVec.getLsbD_not, getLsbD_lineBit hb]
  cases pic.imr.toBitVec.getLsbD b <;> simp [hb]

/-- Unmasking a line opens it, on the master or on the slave, and no other. -/
theorem i8259AUnmaskIrq_spec {hw : Pics} (h : Ready hw) {irq : Int} (hirq : IsLine irq) :
    Ready (i8259AUnmaskIrq irq hw) ∧ ∀ b < 8,
      ((i8259AUnmaskIrq irq hw).master.Open b ↔ hw.master.Open b ∨ irq = b) ∧
      ((i8259AUnmaskIrq irq hw).slave.Open b ↔ hw.slave.Open b ∨ irq = b + 8) := by
  obtain ⟨h0, h16⟩ := hirq
  by_cases hlow : irq < 8
  · obtain ⟨k, rfl⟩ : ∃ k : Nat, irq = k := ⟨irq.toNat, by omega⟩
    have hrun : i8259AUnmaskIrq k hw = { hw with
        master := hw.master.data (hw.master.imr &&& ~~~lineBit k)
        writes := hw.writes ++ [(PIC1_DATA, hw.master.imr &&& ~~~lineBit k)] } := by
      unfold i8259AUnmaskIrq lineOf
      rw [if_pos hlow]
      rfl
    rw [hrun]
    refine ⟨⟨?_, h.slave, ?_⟩, fun b hb => ⟨?_, ?_⟩⟩
    · unfold Pic.data; rw [h.master]
    · unfold Pic.data; rw [h.master]; exact h.cascade
    · rw [open_unmask h.master k hb]
      exact or_congr_right (by omega)
    · constructor
      · exact .inl
      · rintro (hopen | hk)
        · exact hopen
        · omega
  · obtain ⟨k, rfl⟩ : ∃ k : Nat, irq = k + 8 := ⟨(irq - 8).toNat, by omega⟩
    have hrun : i8259AUnmaskIrq (k + 8) hw = { hw with
        slave := hw.slave.data (hw.slave.imr &&& ~~~lineBit k)
        writes := hw.writes ++ [(PIC2_DATA, hw.slave.imr &&& ~~~lineBit k)] } := by
      unfold i8259AUnmaskIrq lineOf
      rw [if_neg hlow, Int.add_sub_cancel]
      rfl
    rw [hrun]
    refine ⟨⟨h.master, ?_, h.cascade⟩, fun b hb => ⟨?_, ?_⟩⟩
    · unfold Pic.data; rw [h.slave]
    · constructor
      · exact .inl
      · rintro (hopen | hk)
        · exact hopen
        · omega
    · rw [open_unmask h.slave k hb]
      exact or_congr_right (by omega)

/-- The kernel's statics before `irq_arch_init`, on chips that are not initialised. -/
def bootIrq : Irq Unit Unit Pics :=
  ⟨Vector.replicate NMBR_IRQS ⟨none, none⟩, none, ⟨⟨0, 0, 0, 0, 0⟩, ⟨0, 0, 0, 0, 0⟩, []⟩, Term.Console.boot⟩

end SnakeOS.Arch
