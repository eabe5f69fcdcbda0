/-
The request and in-service registers of the 8259A chips, what the driver does to them, and the processor's
acknowledgement. The lines are edge triggered and fully nested: a request is latched, masked or not, a line in service
holds back itself and the lines after it, and an end of interrupt that names no line ends the first one in service.
The slave asks for the processor on line 2 of the master.
-/
import SnakeOS.Lib.Priority
import SnakeOS.Arch.Deliver
import SnakeOS.Arch.History

namespace SnakeOS.Arch

open C Kernel Priority

/-! ## The registers -/

/-- The two chips; the sets are those of the lines of each. -/
structure Chips where
  regs : Pics
  master : Lines (Fin 8)
  slave : Lines (Fin 8)

/-- A command to a chip: the initialisation sequence forgets the requests latched so far, an end of interrupt ends
the first line in service. -/
def command (value : UInt8) (l : Lines (Fin 8)) : Lines (Fin 8) :=
  if value &&& 0x10 ≠ 0 then ⟨∅, ∅⟩ else if value &&& 0xF8 = PIC_EOI then l.eoi else l

/-- What a write to a port does to the registers of requests. -/
def Chips.observe (c : Chips) (w : UInt16 × UInt8) : Chips :=
  if w.1 = PIC1_CMD then { c with master := command w.2 c.master }
  else if w.1 = PIC2_CMD then { c with slave := command w.2 c.slave }
  else c

/-- A function of the driver, whose writes reach all registers. -/
def Chips.drive (f : Pics → Pics) (c : Chips) : Chips :=
  let regs := f c.regs
  (regs.writes.drop c.regs.writes.length).foldl Chips.observe { c with regs }

/-! ## The board -/

variable {H D K σ τ : Type}

/-- The chips and the rest of what interrupts and their handlers change. -/
structure Board (K : Type) where
  chips : Chips
  rest : K

def Board.drive (f : Pics → Pics) (b : Board K) : Board K := { b with chips := b.chips.drive f }

/-- The methods of a chip as they act on more than the chip. -/
def onMore (g : (σ → σ) → τ → τ) (chip : IrqChip σ) : IrqChip τ where
  name := chip.name
  irqInit := chip.irqInit.map g
  irqShutdown := chip.irqShutdown.map g
  irqMask := chip.irqMask.map fun f irq => g (f irq)
  irqUnmask := chip.irqUnmask.map fun f irq => g (f irq)
  irqEoi := chip.irqEoi.map fun f irq => g (f irq)

/-- `i8259A_chip`. -/
def boardChip : IrqChip (Board K) := onMore Board.drive i8259AChip

/-- `irq_arch_init`. -/
def boardInit (s : Irq H D (Board K)) : Except Fault (Irq H D (Board K)) := do
  let (_, s) ← irqSetChip (some boardChip) s
  return s

/-! ## Requests -/

/-- A line of one of the chips. -/
inductive Wire
  | master (b : Fin 8)
  | slave (b : Fin 8)
  deriving Repr

/-- The lines of the timer and of the keyboard controller, and the one that the slave is on. -/
abbrev Wire.timer : Wire := .master 0

abbrev Wire.keyboard : Wire := .master 1

abbrev Wire.cascade : Wire := .master 2

def Wire.irq : Wire → Int
  | .master b => b
  | .slave b => b + 8

/-- A device asks on a line. -/
def Chips.raise (c : Chips) : Wire → Chips
  | .master b => { c with master := c.master.raise b }
  | .slave b => { c with slave := c.slave.raise b }

def Pic.masked (pic : Pic) : Finset (Fin 8) := Finset.univ.filter fun b => ¬pic.Open b

/-- The line that the slave asks for. -/
def Chips.slavePending (c : Chips) : Option (Fin 8) := c.slave.pending c.regs.slave.masked

/-- The requests that the master sees. -/
def Chips.masterLines (c : Chips) : Lines (Fin 8) :=
  if c.slavePending.isSome then c.master.raise 2 else c.master

/-- The line that the master asks the processor for. -/
def Chips.masterPending (c : Chips) : Option (Fin 8) := c.masterLines.pending c.regs.master.masked

/-! ## Acknowledgement -/

/-- What the processor's acknowledgement meets: a request, or that of a chip which was withdrawn meanwhile. -/
inductive Answer
  | request
  | spuriousMaster
  | spuriousSlave
  deriving DecidableEq, Repr

/-- The vector of a chip's line. -/
def Pic.vector (pic : Pic) (b : Fin 8) : UInt8 := (pic.icw2 &&& 0xF8) ||| UInt8.ofNat b

/-- The master leaves line 2 to the slave, and the slave answers to that number. -/
def Chips.Cascaded (c : Chips) : Prop := c.regs.master.icw3 &&& 0x04 ≠ 0 ∧ c.regs.slave.icw3 &&& 0x07 = 2

instance (c : Chips) : Decidable c.Cascaded := inferInstanceAs (Decidable (_ ∧ _))

/-- The slave's answer: without a request it is that of its last line, which is not in service then. -/
def Chips.slaveAnswers (c : Chips) : UInt8 × Chips :=
  match c.slavePending with
  | none => (c.regs.slave.vector 7, c)
  | some b => (c.regs.slave.vector b, { c with slave := c.slave.acknowledge b })

/-- The vector that the processor gets and the chips after it. -/
def Chips.acknowledge (c : Chips) : Answer → UInt8 × Chips
  | .request =>
    match c.masterPending with
    | none => (c.regs.master.vector 7, c)
    | some b =>
      if b = 2 ∧ c.Cascaded then
        let (vec, c') := c.slaveAnswers
        (vec, { c' with master := c.master.acknowledge 2 })
      else (c.regs.master.vector b, { c with master := c.master.acknowledge b })
  | .spuriousMaster => (c.regs.master.vector 7, c)
  | .spuriousSlave => (c.regs.slave.vector 7, { c with master := c.master.acknowledge 2 })

theorem Chips.slaveAnswers_regs (c : Chips) : c.slaveAnswers.2.regs = c.regs := by
  unfold slaveAnswers
  cases c.slavePending with
  | none => rfl
  | some b => rfl

/-- The processor's acknowledgement programs nothing. -/
theorem Chips.acknowledge_regs (c : Chips) (a : Answer) : (c.acknowledge a).2.regs = c.regs := by
  cases a with
  | request =>
    unfold acknowledge
    cases c.masterPending with
    | none => rfl
    | some b =>
      by_cases hslave : b = 2 ∧ c.Cascaded
      · simp only [if_pos hslave]
        exact c.slaveAnswers_regs
      · simp only [if_neg hslave]
  | spuriousMaster => rfl
  | spuriousSlave => rfl

/-! ## The driver over the registers -/

/-- The chips as `i8259A_init` programs them. -/
structure Programmed (hw : Pics) : Prop extends Ready hw where
  masterVector : hw.master.icw2 = PIC1_IDT_POS
  slaveVector : hw.slave.icw2 = PIC2_IDT_POS
  slaveId : hw.slave.icw3 = 0x02

theorem i8259AInit_programmed (hw : Pics) : Programmed (i8259AInit hw) := ⟨i8259AInit_ready hw, rfl, rfl, rfl⟩

theorem outb_writes (port : UInt16) (value : UInt8) (hw : Pics) :
    (outb port value hw).writes = hw.writes ++ [(port, value)] := by
  unfold outb
  split_ifs <;> rfl

/-- A mask written to a data port changes nothing else of the chips. -/
theorem Programmed.outb {hw : Pics} (h : Programmed hw) {port : UInt16} (hport : port = PIC1_DATA ∨ port = PIC2_DATA)
    (value : UInt8) : Programmed (outb port value hw) := by
  obtain ⟨⟨hm, hs, hc⟩, hmv, hsv, hid⟩ := h
  rcases hport with rfl | rfl
  · have hrun : Arch.outb PIC1_DATA value hw = { hw with
        writes := hw.writes ++ [(PIC1_DATA, value)], master := hw.master.data value } := rfl
    rw [hrun]
    unfold Pic.data
    rw [hm]
    exact ⟨⟨rfl, hs, hc⟩, hmv, hsv, hid⟩
  · have hrun : Arch.outb PIC2_DATA value hw = { hw with
        writes := hw.writes ++ [(PIC2_DATA, value)], slave := hw.slave.data value } := rfl
    rw [hrun]
    unfold Pic.data
    rw [hs]
    exact ⟨⟨hm, rfl, hc⟩, hmv, hsv, hid⟩

theorem lineOf_port (irq : Int) : (lineOf irq).1 = PIC1_DATA ∨ (lineOf irq).1 = PIC2_DATA := by
  unfold lineOf
  split
  · exact .inl rfl
  · exact .inr rfl

namespace Chips

theorem drive_eq {f : Pics → Pics} {c : Chips} {ws : List (UInt16 × UInt8)}
    (h : (f c.regs).writes = c.regs.writes ++ ws) : c.drive f = ws.foldl observe { c with regs := f c.regs } := by
  unfold drive
  simp only [h, List.drop_left]

theorem observe_data (c : Chips) {w : UInt16 × UInt8} (h : w.1 = PIC1_DATA ∨ w.1 = PIC2_DATA) : c.observe w = c := by
  unfold observe
  rcases h with h | h
  · rw [h, if_neg (by decide), if_neg (by decide)]
  · rw [h, if_neg (by decide), if_neg (by decide)]

/-- The initialisation leaves no request and nothing in service. -/
theorem drive_init (c : Chips) : c.drive i8259AInit = ⟨i8259AInit c.regs, ⟨∅, ∅⟩, ⟨∅, ∅⟩⟩ := by
  have hwrites : (i8259AInit c.regs).writes = c.regs.writes ++ [(PIC1_CMD, 0x11), (PIC2_CMD, 0x11),
      (PIC1_DATA, PIC1_IDT_POS), (PIC2_DATA, PIC2_IDT_POS), (PIC1_DATA, 0x04), (PIC2_DATA, 0x02),
      (PIC1_DATA, 0x1), (PIC2_DATA, 0x1), (PIC1_DATA, 0xFF), (PIC2_DATA, 0xFF)] := by
    simp only [i8259AInit, i8259AMaskAll, outb_writes, List.append_assoc, List.cons_append, List.nil_append]
  rw [drive_eq hwrites]
  rfl

/-- A change of the masks leaves the requests and what is in service. -/
theorem drive_unmask (irq : Int) (c : Chips) :
    c.drive (i8259AUnmaskIrq irq) = { c with regs := i8259AUnmaskIrq irq c.regs } := by
  have hrun : i8259AUnmaskIrq irq c.regs =
    Arch.outb (lineOf irq).1 (inb (lineOf irq).1 c.regs &&& ~~~lineBit (lineOf irq).2) c.regs := rfl
  have hwrites := outb_writes (lineOf irq).1 (inb (lineOf irq).1 c.regs &&& ~~~lineBit (lineOf irq).2) c.regs
  rw [← hrun] at hwrites
  rw [drive_eq hwrites]
  exact observe_data _ (lineOf_port irq)

theorem drive_eoi (irq : Int) (c : Chips) : c.drive (i8259ASendEoi irq) =
    ⟨i8259ASendEoi irq c.regs, c.master.eoi, if 8 ≤ irq then c.slave.eoi else c.slave⟩ := by
  have hwrites : (i8259ASendEoi irq c.regs).writes = c.regs.writes ++ eoiWrites irq := by
    rw [i8259ASendEoi_eq]
  rw [drive_eq hwrites]
  unfold eoiWrites
  by_cases h : 8 ≤ irq
  · rw [if_pos h, if_pos h]
    rfl
  · rw [if_neg h, if_neg h]
    rfl

end Chips

/-! ## All lines in one order -/

/-- The slave's lines come where line 2 of the master does. -/
def Wire.rank : Wire → Nat
  | .master b => 16 * b
  | .slave b => 33 + b

theorem Wire.rank_injective : Function.Injective Wire.rank := by
  rintro (b | b) (b' | b') h
  · have h : 16 * b.val = 16 * b'.val := h
    rw [Fin.ext (show b.val = b'.val by omega)]
  · have h : 16 * b.val = 33 + b'.val := h
    omega
  · have h : 33 + b.val = 16 * b'.val := h
    omega
  · have h : 33 + b.val = 33 + b'.val := h
    rw [Fin.ext (show b.val = b'.val by omega)]

/-- The order of priority. -/
instance : LinearOrder Wire := LinearOrder.lift' Wire.rank Wire.rank_injective

instance (irq : Int) (hw : Pics) : Decidable (Deliverable irq hw) :=
  inferInstanceAs (Decidable (if irq < 8 then hw.master.Open irq.toNat
    else hw.slave.Open (irq - 8).toNat ∧ hw.master.Open 2))

namespace Chips

/-- The lines on which a request is latched. -/
def requests (c : Chips) : Finset Wire := c.master.irr.image .master ∪ c.slave.irr.image .slave

/-- The requests that no mask holds back. -/
def wanted (c : Chips) : Finset Wire := c.requests.filter fun w => Deliverable w.irq c.regs

theorem mem_requests_master {c : Chips} {b : Fin 8} : .master b ∈ c.requests ↔ b ∈ c.master.irr := by
  simp [requests]

theorem mem_requests_slave {c : Chips} {b : Fin 8} : .slave b ∈ c.requests ↔ b ∈ c.slave.irr := by
  simp [requests]

theorem requests_raise (c : Chips) (w : Wire) : (c.raise w).requests = insert w c.requests := by
  unfold requests raise Lines.raise
  cases w with
  | master b => simp [Finset.image_insert, Finset.insert_union]
  | slave b => simp [Finset.image_insert, Finset.union_insert]

theorem mem_wanted_master {c : Chips} {b : Fin 8} :
    .master b ∈ c.wanted ↔ b ∈ c.master.irr ∧ c.regs.master.Open b := by
  have hlow : (b : Int) < 8 := by omega
  unfold wanted
  rw [Finset.mem_filter, mem_requests_master]
  unfold Deliverable Wire.irq
  rw [if_pos hlow]
  rfl

theorem mem_wanted_slave {c : Chips} {b : Fin 8} :
    .slave b ∈ c.wanted ↔ b ∈ c.slave.irr ∧ c.regs.slave.Open b ∧ c.regs.master.Open 2 := by
  have hhigh : ¬((b : Int) + 8 < 8) := by omega
  have hsub : ((b : Int) + 8 - 8).toNat = b := by omega
  unfold wanted
  rw [Finset.mem_filter, mem_requests_slave]
  unfold Deliverable Wire.irq
  rw [if_neg hhigh, hsub]

theorem mem_open {pic : Pic} {b : Fin 8} {s : Finset (Fin 8)} : b ∈ s \ pic.masked ↔ b ∈ s ∧ pic.Open b := by
  unfold Pic.masked
  simp

end Chips

/-! ## Acknowledgement and end of interrupt -/

/-- The chips as the driver programmed them, with nothing in service and no device on line 2 of the master. -/
structure Quiet (c : Chips) : Prop where
  programmed : Programmed c.regs
  master : c.master.Idle
  slave : c.slave.Idle
  cascade : 2 ∉ c.master.irr

/-- The chips once they have answered for a line. -/
def Chips.serve (c : Chips) : Wire → Chips
  | .master b => { c with master := c.master.acknowledge b }
  | .slave b => { c with master := c.master.acknowledge 2, slave := c.slave.acknowledge b }

theorem Chips.serve_requests (c : Chips) (hc : 2 ∉ c.master.irr) (w : Wire) :
    (c.serve w).requests = c.requests.erase w := by
  ext w'
  rw [Finset.mem_erase]
  cases w with
  | master b =>
    cases w' with
    | master b' =>
      rw [mem_requests_master, mem_requests_master]
      show b' ∈ c.master.irr.erase b ↔ _
      rw [Finset.mem_erase, ne_eq, ne_eq, Wire.master.injEq]
    | slave b' =>
      rw [mem_requests_slave, mem_requests_slave]
      exact ⟨fun h' => ⟨Wire.noConfusion, h'⟩, fun h' => h'.2⟩
  | slave b =>
    cases w' with
    | master b' =>
      rw [mem_requests_master, mem_requests_master]
      show b' ∈ c.master.irr.erase 2 ↔ _
      rw [Finset.erase_eq_of_notMem hc]
      exact ⟨fun h' => ⟨Wire.noConfusion, h'⟩, fun h' => h'.2⟩
    | slave b' =>
      rw [mem_requests_slave, mem_requests_slave]
      show b' ∈ c.slave.irr.erase b ↔ _
      rw [Finset.mem_erase, ne_eq, ne_eq, Wire.slave.injEq]

theorem Quiet.slavePending {c : Chips} (h : Quiet c) :
    c.slavePending = first (c.slave.irr \ c.regs.slave.masked) := h.slave.pending _

theorem Quiet.masterPending {c : Chips} (h : Quiet c) :
    c.masterPending = first (c.masterLines.irr \ c.regs.master.masked) := by
  have hidle : c.masterLines.Idle := by
    unfold Chips.masterLines
    split
    · exact h.master
    · exact h.master
  exact hidle.pending _

theorem Quiet.mem_master {c : Chips} (h : Quiet c) {b : Fin 8} : b ∈ c.masterLines.irr \ c.regs.master.masked ↔
    .master b ∈ c.wanted ∨ b = 2 ∧ ∃ b', .slave b' ∈ c.wanted := by
  have hslave : c.slavePending.isSome ↔ ∃ b', b' ∈ c.slave.irr ∧ c.regs.slave.Open b' := by
    rw [h.slavePending, first_isSome]
    exact exists_congr fun b' => Chips.mem_open
  rw [Chips.mem_open, Chips.mem_wanted_master]
  simp only [Chips.mem_wanted_slave]
  unfold Chips.masterLines
  by_cases hsome : c.slavePending.isSome
  · rw [if_pos hsome]
    obtain ⟨b', hb', hopen'⟩ := hslave.1 hsome
    show b ∈ insert 2 c.master.irr ∧ _ ↔ _
    rw [Finset.mem_insert]
    constructor
    · rintro ⟨rfl | hb, hopen⟩
      · exact .inr ⟨rfl, b', hb', hopen', hopen⟩
      · exact .inl ⟨hb, hopen⟩
    · rintro (⟨hb, hopen⟩ | ⟨rfl, b', -, -, hopen⟩)
      · exact ⟨.inr hb, hopen⟩
      · exact ⟨.inl rfl, hopen⟩
  · rw [if_neg hsome]
    constructor
    · exact .inl
    · rintro (hb | ⟨-, b', hb', hopen', -⟩)
      · exact hb
      · exact absurd (hslave.2 ⟨b', hb', hopen'⟩) hsome

/-- The processor is asked for exactly when a request is wanted. -/
theorem Quiet.asks_iff {c : Chips} (h : Quiet c) : c.masterPending.isSome ↔ c.wanted.Nonempty := by
  rw [h.masterPending, first_isSome]
  constructor
  · rintro ⟨b, hb⟩
    rcases h.mem_master.1 hb with hb | ⟨-, b', hb'⟩
    · exact ⟨_, hb⟩
    · exact ⟨_, hb'⟩
  · rintro ⟨b | b, hw⟩
    · exact ⟨b, h.mem_master.2 (.inl hw)⟩
    · exact ⟨2, h.mem_master.2 (.inr ⟨rfl, b, hw⟩)⟩

theorem vector_eq {pic : Pic} {pos : UInt8} (h : pic.icw2 = pos) (hpos : pos = PIC1_IDT_POS ∨ pos = PIC2_IDT_POS)
    (b : Fin 8) : (pic.vector b).toNat = pos.toNat + b := by
  unfold Pic.vector
  rw [h]
  rcases hpos with rfl | rfl
  · revert b
    decide
  · revert b
    decide

/-- The chips answer for the first of the wanted requests. -/
theorem Quiet.acknowledge {c : Chips} (h : Quiet c) {w : Wire} (hw : first c.wanted = some w) :
    ((c.acknowledge .request).1.toNat : Int) = 0x20 + w.irq ∧ (c.acknowledge .request).2 = c.serve w := by
  obtain ⟨hmem, hle⟩ := first_eq_some.1 hw
  have hcascaded : c.Cascaded := by
    unfold Chips.Cascaded
    rw [h.programmed.cascade, h.programmed.slaveId]
    decide
  cases w with
  | master b =>
    have hpending : c.masterPending = some b := by
      rw [h.masterPending, first_eq_some]
      refine ⟨h.mem_master.2 (.inl hmem), fun j hj => ?_⟩
      rcases h.mem_master.1 hj with hj | ⟨rfl, b', hb'⟩
      · have hrank : 16 * b.val ≤ 16 * j.val := hle _ hj
        exact Fin.le_def.2 (by omega)
      · have hrank : 16 * b.val ≤ 33 + b'.val := hle _ hb'
        exact Fin.le_def.2 (show b.val ≤ 2 by omega)
    have hb2 : ¬(b = 2 ∧ c.Cascaded) := by
      rintro ⟨rfl, -⟩
      exact h.cascade (Chips.mem_wanted_master.1 hmem).1
    unfold Chips.acknowledge
    simp only [hpending, if_neg hb2]
    refine ⟨?_, rfl⟩
    rw [vector_eq h.programmed.masterVector (.inl rfl)]
    rfl
  | slave b =>
    have hpending : c.masterPending = some 2 := by
      rw [h.masterPending, first_eq_some]
      refine ⟨h.mem_master.2 (.inr ⟨rfl, b, hmem⟩), fun j hj => ?_⟩
      rcases h.mem_master.1 hj with hj | ⟨rfl, -⟩
      · have hrank : 33 + b.val ≤ 16 * j.val := hle _ hj
        exact Fin.le_def.2 (show 2 ≤ j.val by omega)
      · exact le_rfl
    have hslave : c.slavePending = some b := by
      obtain ⟨hb, hopen, hopen2⟩ := Chips.mem_wanted_slave.1 hmem
      rw [h.slavePending, first_eq_some]
      refine ⟨Chips.mem_open.2 ⟨hb, hopen⟩, fun j hj => ?_⟩
      have hj := Chips.mem_open.1 hj
      have hrank : 33 + b.val ≤ 33 + j.val := hle _ (Chips.mem_wanted_slave.2 ⟨hj.1, hj.2, hopen2⟩)
      exact Fin.le_def.2 (by omega)
    unfold Chips.acknowledge
    simp only [hpending, hcascaded, and_self, if_true]
    unfold Chips.slaveAnswers
    simp only [hslave]
    refine ⟨?_, rfl⟩
    rw [vector_eq h.programmed.slaveVector (.inr rfl)]
    show ((40 + b.val : Nat) : Int) = 0x20 + (b.val + 8)
    omega

/-- The chips after they have answered for the line `irq` and before the end of the interrupt. -/
structure Busy (irq : Int) (c : Chips) : Prop where
  programmed : Programmed c.regs
  master : c.master.isr.card ≤ 1
  slave : c.slave.isr.card ≤ if 8 ≤ irq then 1 else 0
  cascade : 2 ∉ c.master.irr

theorem Quiet.slave_card {c : Chips} (h : Quiet c) (irq : Int) : c.slave.isr.card ≤ if 8 ≤ irq then 1 else 0 := by
  rw [show c.slave.isr = ∅ from h.slave, Finset.card_empty]
  exact Nat.zero_le _

theorem Quiet.serve {c : Chips} (h : Quiet c) (w : Wire) : Busy w.irq (c.serve w) := by
  have hmaster : ∀ b, (c.master.acknowledge b).isr.card ≤ 1 := by
    intro b
    show (insert b c.master.isr).card ≤ 1
    rw [show c.master.isr = ∅ from h.master]
    exact (Finset.card_singleton b).le
  have hcascade : ∀ b, 2 ∉ (c.master.acknowledge b).irr := fun b h2 => h.cascade (Finset.mem_of_mem_erase h2)
  cases w with
  | master b => exact ⟨h.programmed, hmaster b, h.slave_card _, hcascade b⟩
  | slave b =>
    refine ⟨h.programmed, hmaster 2, ?_, hcascade 2⟩
    show (insert b c.slave.isr).card ≤ if 8 ≤ (b : Int) + 8 then 1 else 0
    rw [show c.slave.isr = ∅ from h.slave, if_pos (by omega)]
    exact (Finset.card_singleton b).le

theorem Wire.isLine (w : Wire) : IsLine w.irq := by
  unfold IsLine
  cases w with
  | master b => exact ⟨Int.natCast_nonneg _, show (b.val : Int) < 16 by omega⟩
  | slave b => exact ⟨show (0 : Int) ≤ b.val + 8 by omega, show (b.val : Int) + 8 < 16 by omega⟩

/-- The acknowledgement meets a wanted request, or the last line of a chip is answered for and no request is taken. -/
theorem Quiet.answer {c : Chips} (h : Quiet c) (a : Answer) : (∃ w, a = .request ∧ first c.wanted = some w) ∨
    ∃ irq : Int, (irq = 7 ∨ irq = 15) ∧ ((c.acknowledge a).1.toNat : Int) = 0x20 + irq ∧
      Busy irq (c.acknowledge a).2 ∧ (c.acknowledge a).2.requests = c.requests := by
  have hseven : ((c.regs.master.vector 7).toNat : Int) = 0x20 + 7 := by
    rw [vector_eq h.programmed.masterVector (.inl rfl)]
    rfl
  have hnone : c.master.isr.card ≤ 1 := by
    rw [show c.master.isr = ∅ from h.master]
    decide
  have hsame : Busy 7 c := ⟨h.programmed, hnone, h.slave_card 7, h.cascade⟩
  cases a with
  | request =>
    cases hw : first c.wanted with
    | some w => exact .inl ⟨w, rfl, rfl⟩
    | none =>
      have hpending : c.masterPending = none := by
        rw [← Option.not_isSome_iff_eq_none, h.asks_iff, first_eq_none.1 hw]
        exact Finset.not_nonempty_empty
      have hack : c.acknowledge .request = (c.regs.master.vector 7, c) := by
        unfold Chips.acknowledge
        simp only [hpending]
      rw [hack]
      exact .inr ⟨7, .inl rfl, hseven, hsame, rfl⟩
  | spuriousMaster => exact .inr ⟨7, .inl rfl, hseven, hsame, rfl⟩
  | spuriousSlave =>
    have hvec : ((c.regs.slave.vector 7).toNat : Int) = 0x20 + 15 := by
      rw [vector_eq h.programmed.slaveVector (.inr rfl)]
      rfl
    have hbusy := h.serve (.slave 7)
    refine .inr ⟨15, .inr rfl, hvec, ⟨hbusy.programmed, hbusy.master, h.slave_card 15, hbusy.cascade⟩, ?_⟩
    show Finset.image _ (c.master.irr.erase 2) ∪ _ = _
    rw [Finset.erase_eq_of_notMem h.cascade]
    rfl

/-- Whatever the acknowledgement meets, the processor gets the vector of a line, and there is no more to end than
an end of that line's interrupt ends. -/
theorem Quiet.busy {c : Chips} (h : Quiet c) (a : Answer) : ∃ irq, IsLine irq ∧
    ((c.acknowledge a).1.toNat : Int) = 0x20 + irq ∧ Busy irq (c.acknowledge a).2 := by
  rcases h.answer a with ⟨w, rfl, hw⟩ | ⟨irq, hirq, hvec, hbusy, -⟩
  · obtain ⟨hvec, hserve⟩ := h.acknowledge hw
    rw [hserve]
    exact ⟨w.irq, w.isLine, hvec, h.serve w⟩
  · refine ⟨irq, ?_, hvec, hbusy⟩
    rcases hirq with rfl | rfl
    · decide
    · decide

/-- The end of the interrupt leaves nothing in service, and the requests as they are. -/
theorem Busy.eoi {irq : Int} {c : Chips} (h : Busy irq c) :
    Quiet (c.drive (i8259ASendEoi irq)) ∧ (c.drive (i8259ASendEoi irq)).requests = c.requests := by
  have hslave : (if 8 ≤ irq then c.slave.eoi else c.slave).Idle ∧
      (if 8 ≤ irq then c.slave.eoi else c.slave).irr = c.slave.irr := by
    have hcard := h.slave
    by_cases hhigh : 8 ≤ irq
    · rw [if_pos hhigh] at hcard ⊢
      exact ⟨Lines.idle_eoi hcard, Lines.eoi_irr _⟩
    · rw [if_neg hhigh] at hcard ⊢
      exact ⟨Finset.card_eq_zero.1 (Nat.le_zero.1 hcard), rfl⟩
  have hprogrammed : Programmed (i8259ASendEoi irq c.regs) := by
    rw [i8259ASendEoi_eq]
    obtain ⟨⟨hm, hs, hc⟩, hmv, hsv, hid⟩ := h.programmed
    exact ⟨⟨hm, hs, hc⟩, hmv, hsv, hid⟩
  rw [Chips.drive_eoi]
  refine ⟨⟨hprogrammed, Lines.idle_eoi h.master, hslave.1, ?_⟩, ?_⟩
  · show 2 ∉ c.master.eoi.irr
    rw [Lines.eoi_irr]
    exact h.cascade
  · unfold Chips.requests
    simp only [hslave.2, Lines.eoi_irr]

end SnakeOS.Arch
