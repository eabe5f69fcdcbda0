/-
kernel/irq.c: the table of interrupt lines and the active interrupt chip, for handlers `H`, device
cookies `D` and chips that act on hardware `σ`. A null pointer is `none`.
-/
import SnakeOS.Kernel.Kprint

namespace SnakeOS.Kernel

open C Term

/-! ## The IRQ core -/

abbrev NMBR_IRQS : Nat := 16

structure IrqChip (σ : Type) where
  name : List UInt8
  irqInit : Option (σ → σ)
  irqShutdown : Option (σ → σ)
  irqMask : Option (Int → σ → σ)
  irqUnmask : Option (Int → σ → σ)
  irqEoi : Option (Int → σ → σ)

structure IrqDesc (H D : Type) where
  handler : Option H
  devId : Option D

variable {H D σ : Type}

/-- The static variables, with the hardware that the chips drive and the console. -/
structure Irq (H D σ : Type) where
  irqTable : Vector (IrqDesc H D) NMBR_IRQS
  irqChipActive : Option (IrqChip σ)
  hw : σ
  con : Console

/-- The value returned and the state after `irq_set_chip`. -/
def irqSetChip (chip : Option (IrqChip σ)) (s : Irq H D σ) : Except Fault (Int × Irq H D σ) :=
  match chip with
  | none => do
    let con ← kprint (Byte.text "ERROR: irq_set_chip(NULL)\n") [] s.con
    return (1, { s with con })
  | some chip =>
    let s := { s with irqChipActive := some chip }
    match chip.irqInit with
    | some irqInit => .ok (0, { s with hw := irqInit s.hw })
    | none => do
      let con ← kprint (Byte.text "ERROR: irq_chip is missing irq_init() method\n") [] s.con
      return (1, { s with con })

/-- The value returned and the state after `irq_request`. -/
def irqRequest (irq : Int) (handler : Option H) (dev : Option D) (s : Irq H D σ) :
    Except Fault (Int × Irq H D σ) := do
  let con ← kprint (Byte.text "Requesting %d IRQ\n") [.int irq] s.con
  let s := { s with con }
  if irq < 0 ∨ irq ≥ NMBR_IRQS then
    let con ← kprint (Byte.text "ERROR: %d is an invalid IRQ number\n") [.int irq] s.con
    return (1, { s with con })
  else match s.irqChipActive.bind IrqChip.irqUnmask with
    | none =>
      let con ← kprint (Byte.text "ERROR: irq_chip inactive or has no irq_unmask method\n") [] s.con
      return (1, { s with con })
    | some irqUnmask =>
      let irqTable ← store s.irqTable irq.toNat ⟨handler, dev⟩
      return (0, { s with irqTable, hw := irqUnmask irq s.hw })

/-- The state after `irq_handle`; `call` is what a handler does with the line, the frame and its
cookie. -/
def irqHandle {F : Type} (call : H → Int → F → Option D → Irq H D σ → Except Fault (Irq H D σ)) (irq : Int)
    (frame : F) (s : Irq H D σ) : Except Fault (Irq H D σ) := do
  if irq < 0 ∨ irq ≥ NMBR_IRQS then
    let con ← kprint (Byte.text "ERROR: invalid IRQ (%d) in irq_handler.\n") [.int irq] s.con
    let _ ← kprint (Byte.text "System halted.\n") [] con
    throw (.halt (Byte.text "System halted.\n"))
  else
    let desc ← load s.irqTable irq.toNat
    let s ← match desc.handler with
      | some handler => call handler irq frame desc.devId s
      | none => do
        let con ← kprint (Byte.text "Unhandled IRQ: %d. No action taken.\n") [.int irq] s.con
        pure { s with con }
    match s.irqChipActive.bind IrqChip.irqEoi with
    | some irqEoi => return { s with hw := irqEoi irq s.hw }
    | none => return s

/-! ## What a call does -/

/-- The number of an interrupt line. -/
def IsLine (irq : Int) : Prop := 0 ≤ irq ∧ irq < NMBR_IRQS

instance (irq : Int) : Decidable (IsLine irq) := inferInstanceAs (Decidable (_ ∧ _))

/-- The first message of `irq_request`. -/
theorem kprint_requesting (irq : Int) (con : Console) :
    ∃ con', kprint (Byte.text "Requesting %d IRQ\n") [.int irq] con = .ok con' :=
  kprint_ok [.int irq] (show fits (Byte.text "Requesting %d IRQ\n") [.int] by decide) con

/-- A request for a line of a chip that can unmask it is granted. -/
theorem irqRequest_line {irq : Int} (hirq : IsLine irq) {s : Irq H D σ} {irqUnmask : Int → σ → σ}
    (h : s.irqChipActive.bind IrqChip.irqUnmask = some irqUnmask) (handler : Option H) (dev : Option D) :
    ∃ con irqTable, store s.irqTable irq.toNat ⟨handler, dev⟩ = .ok irqTable ∧
      irqRequest irq handler dev s = .ok (0, { s with con, irqTable, hw := irqUnmask irq s.hw }) := by
  obtain ⟨con, hcon⟩ := kprint_requesting irq s.con
  obtain ⟨h0, h16⟩ := hirq
  have hlt : irq.toNat < NMBR_IRQS := by omega
  refine ⟨con, _, store_ok hlt, ?_⟩
  unfold irqRequest
  rw [hcon]
  simp only [ok_bind, h]
  rw [if_neg (by omega), store_ok hlt]
  rfl

/-- Any other request is refused and changes nothing but the console. -/
theorem irqRequest_invalid {irq : Int} (hirq : ¬IsLine irq) (s : Irq H D σ) (handler : Option H) (dev : Option D) :
    ∃ con, irqRequest irq handler dev s = .ok (1, { s with con }) := by
  obtain ⟨con, hcon⟩ := kprint_requesting irq s.con
  obtain ⟨con', hcon'⟩ := kprint_ok [.int irq]
    (show fits (Byte.text "ERROR: %d is an invalid IRQ number\n") [.int] by decide) con
  have hout : irq < 0 ∨ irq ≥ NMBR_IRQS := by
    unfold IsLine at hirq
    omega
  refine ⟨con', ?_⟩
  unfold irqRequest
  rw [hcon]
  simp only [ok_bind]
  rw [if_pos hout, hcon']
  rfl

/-- So is a request for a line when no chip is active or the active one cannot unmask. -/
theorem irqRequest_inactive {irq : Int} (hirq : IsLine irq) {s : Irq H D σ}
    (h : s.irqChipActive.bind IrqChip.irqUnmask = none) (handler : Option H) (dev : Option D) :
    ∃ con, irqRequest irq handler dev s = .ok (1, { s with con }) := by
  obtain ⟨con, hcon⟩ := kprint_requesting irq s.con
  obtain ⟨con', hcon'⟩ := kprint_ok []
    (show fits (Byte.text "ERROR: irq_chip inactive or has no irq_unmask method\n") [] by decide) con
  obtain ⟨h0, h16⟩ := hirq
  refine ⟨con', ?_⟩
  unfold irqRequest
  rw [hcon]
  simp only [ok_bind, h]
  rw [if_neg (by omega), hcon']
  rfl

theorem irqSetChip_null (s : Irq H D σ) : ∃ con, irqSetChip none s = .ok (1, { s with con }) := by
  obtain ⟨con, hcon⟩ := kprint_ok [] (show fits (Byte.text "ERROR: irq_set_chip(NULL)\n") [] by decide) s.con
  refine ⟨con, ?_⟩
  unfold irqSetChip
  simp only [hcon]
  rfl

theorem irqSetChip_init {chip : IrqChip σ} {irqInit : σ → σ} (h : chip.irqInit = some irqInit) (s : Irq H D σ) :
    irqSetChip (some chip) s = .ok (0, { s with irqChipActive := some chip, hw := irqInit s.hw }) := by
  unfold irqSetChip
  simp only [h]

/-- A chip that cannot be initialised is refused, but it is the active one from then on. -/
theorem irqSetChip_noInit {chip : IrqChip σ} (h : chip.irqInit = none) (s : Irq H D σ) :
    ∃ con, irqSetChip (some chip) s = .ok (1, { s with irqChipActive := some chip, con }) := by
  obtain ⟨con, hcon⟩ := kprint_ok []
    (show fits (Byte.text "ERROR: irq_chip is missing irq_init() method\n") [] by decide) s.con
  refine ⟨con, ?_⟩
  unfold irqSetChip
  simp only [h, hcon]
  rfl

/-- For a line with a handler `irq_handle` is one call of it and then the chip's end of interrupt. -/
theorem irqHandle_handler {F : Type} {irq : Int} (hirq : IsLine irq) {s : Irq H D σ} {handler : H}
    {dev : Option D} (hdesc : load s.irqTable irq.toNat = .ok ⟨some handler, dev⟩)
    {call : H → Int → F → Option D → Irq H D σ → Except Fault (Irq H D σ)} {frame : F}
    {irqEoi : Int → σ → σ}
    (hchip : ∀ s', call handler irq frame dev s = .ok s' →
      s'.irqChipActive.bind IrqChip.irqEoi = some irqEoi) :
    irqHandle call irq frame s =
      (call handler irq frame dev s).map fun s' => { s' with hw := irqEoi irq s'.hw } := by
  obtain ⟨h0, h16⟩ := hirq
  unfold irqHandle
  rw [if_neg (by omega), hdesc]
  simp only [ok_bind]
  cases hcall : call handler irq frame dev s with
  | error e => rfl
  | ok s' =>
    simp only [ok_bind, hchip s' hcall]
    rfl

end SnakeOS.Kernel
