/-
Interrupts from the request of a device to the end of interrupt that the driver sends, in any order with requests for
lines and with what the devices ask.
-/
import SnakeOS.Arch.Chips
import SnakeOS.Kernel.Exception

namespace SnakeOS.Arch

open C Kernel Priority Term

variable {H D K : Type}

/-! ## One interrupt -/

/-- The stub of a vector: below `PIC_IDT_BASE` it calls `exception_handle`, which does not return, else
`irq_handle`. -/
def dispatch (call : H → Int → InterruptFrame → Option D → Irq H D (Board K) → Except Fault (Irq H D (Board K)))
    (vec : UInt8) (frame : InterruptFrame) (s : Irq H D (Board K)) : Except Fault (Int × Irq H D (Board K)) :=
  if vec < 0x20 then do
    let _ ← exceptionHandle vec.toNat frame s.con
    throw (.halt (Byte.text "System halted\n"))
  else do
    let irq : Int := vec.toNat - 0x20
    return (irq, ← irqHandle call irq frame s)

/-- The line that is handled and the state after an interrupt. -/
def interrupt (call : H → Int → InterruptFrame → Option D → Irq H D (Board K) → Except Fault (Irq H D (Board K)))
    (a : Answer) (frame : InterruptFrame) (s : Irq H D (Board K)) : Except Fault (Int × Irq H D (Board K)) :=
  let (vec, chips) := s.hw.chips.acknowledge a
  dispatch call vec frame { s with hw := { s.hw with chips } }

/-- What a handler leaves of the chips: devices may ask for more, and nothing else changes. -/
structure Kept (s s' : Irq H D (Board K)) : Prop where
  chip : s'.irqChipActive = s.irqChipActive
  regs : s'.hw.chips.regs = s.hw.chips.regs
  master : s'.hw.chips.master.isr = s.hw.chips.master.isr
  slave : s'.hw.chips.slave.isr = s.hw.chips.slave.isr
  requests : s.hw.chips.requests ⊆ s'.hw.chips.requests
  cascade : 2 ∈ s'.hw.chips.master.irr → 2 ∈ s.hw.chips.master.irr

theorem Kept.print (s : Irq H D (Board K)) (con : Console) : Kept s { s with con } :=
  ⟨rfl, rfl, rfl, rfl, Finset.Subset.refl _, id⟩

theorem Kept.trans {s t u : Irq H D (Board K)} (h : Kept s t) (h' : Kept t u) : Kept s u :=
  ⟨h'.chip.trans h.chip, h'.regs.trans h.regs, h'.master.trans h.master, h'.slave.trans h.slave,
    h.requests.trans h'.requests, h.cascade ∘ h'.cascade⟩

/-- A device asks on a line other than that of the slave. -/
theorem Kept.raise {s s' : Irq H D (Board K)} {w : Wire} (hw : w ≠ .cascade)
    (hchip : s'.irqChipActive = s.irqChipActive) (hchips : s'.hw.chips = s.hw.chips.raise w) : Kept s s' := by
  have hrequests : s.hw.chips.requests ⊆ (s.hw.chips.raise w).requests := by
    rw [Chips.requests_raise]
    exact Finset.subset_insert _ _
  cases w with
  | master b =>
    refine ⟨hchip, ?_, ?_, ?_, hchips ▸ hrequests, ?_⟩
    · rw [hchips]
      rfl
    · rw [hchips]
      rfl
    · rw [hchips]
      rfl
    · rw [hchips]
      intro h2
      rcases Finset.mem_insert.1 h2 with rfl | h2
      · exact absurd rfl hw
      · exact h2
  | slave b =>
    refine ⟨hchip, ?_, ?_, ?_, hchips ▸ hrequests, ?_⟩
    · rw [hchips]
      rfl
    · rw [hchips]
      rfl
    · rw [hchips]
      rfl
    · rw [hchips]
      exact id

/-- The same while no device asks for more. -/
structure Leaves (s s' : Irq H D (Board K)) : Prop where
  chip : s'.irqChipActive = s.irqChipActive
  chips : s'.hw.chips = s.hw.chips

theorem Leaves.kept {s s' : Irq H D (Board K)} (h : Leaves s s') : Kept s s' := by
  refine ⟨h.chip, ?_, ?_, ?_, ?_, ?_⟩
  · rw [h.chips]
  · rw [h.chips]
  · rw [h.chips]
  · rw [h.chips]
  · rw [h.chips]
    exact id

theorem Kept.busy {s s' : Irq H D (Board K)} (h : Kept s s') {irq : Int} (hb : Busy irq s.hw.chips) :
    Busy irq s'.hw.chips :=
  ⟨h.regs ▸ hb.programmed, h.master ▸ hb.master, h.slave ▸ hb.slave, fun h2 => hb.cascade (h.cascade h2)⟩

/-- `irq_handle` up to the end of interrupt: the handler of the line, or the message that there is none. -/
def runLine (call : H → Int → InterruptFrame → Option D → Irq H D (Board K) → Except Fault (Irq H D (Board K)))
    (irq : Int) (frame : InterruptFrame) (s : Irq H D (Board K)) : Except Fault (Irq H D (Board K)) := do
  let desc ← load s.irqTable irq.toNat
  match desc.handler with
  | some handler => call handler irq frame desc.devId s
  | none => do
    let con ← kprint (Byte.text "Unhandled IRQ: %d. No action taken.\n") [.int irq] s.con
    return { s with con }

/-- The driver's chip is the active one, and its chips are quiet. -/
structure Served (s : Irq H D (Board K)) : Prop where
  chip : s.irqChipActive = some boardChip
  quiet : Quiet s.hw.chips

theorem Served.kept {s s' : Irq H D (Board K)} (h : Served s) (h' : Kept s s') : Served s' :=
  ⟨h'.chip.trans h.chip, h'.regs ▸ h.quiet.programmed, h'.master.trans h.quiet.master, h'.slave.trans h.quiet.slave,
    fun h2 => h.quiet.cascade (h'.cascade h2)⟩

section Handlers

variable {call : H → Int → InterruptFrame → Option D → Irq H D (Board K) → Except Fault (Irq H D (Board K))}

theorem runLine_handler {irq : Int} {s : Irq H D (Board K)} {handler : H} {dev : Option D}
    (h : load s.irqTable irq.toNat = .ok ⟨some handler, dev⟩) (frame : InterruptFrame) :
    runLine call irq frame s = call handler irq frame dev s := by
  unfold runLine
  rw [h]
  rfl

variable (call) in
theorem runLine_none {irq : Int} {s : Irq H D (Board K)} {dev : Option D}
    (h : load s.irqTable irq.toNat = .ok ⟨none, dev⟩) (frame : InterruptFrame) :
    ∃ con, kprint (Byte.text "Unhandled IRQ: %d. No action taken.\n") [.int irq] s.con = .ok con ∧
      runLine call irq frame s = .ok { s with con } := by
  obtain ⟨con, hcon⟩ := kprint_ok [.int irq]
    (show fits (Byte.text "Unhandled IRQ: %d. No action taken.\n") [.int] by decide) s.con
  refine ⟨con, hcon, ?_⟩
  unfold runLine
  rw [h]
  simp only [ok_bind, hcon, pure_eq_ok]

/-- What every handler does to the state, and printing a message does, holds of every line. -/
theorem runLine_rel {R : Irq H D (Board K) → Irq H D (Board K) → Prop} (hprint : ∀ s con, R s { s with con })
    (hcall : ∀ handler irq frame dev s, ∃ s', call handler irq frame dev s = .ok s' ∧ R s s') {irq : Int}
    (hirq : IsLine irq) (frame : InterruptFrame) (s : Irq H D (Board K)) :
    ∃ s', runLine call irq frame s = .ok s' ∧ R s s' := by
  obtain ⟨h0, h16⟩ := hirq
  obtain ⟨⟨handler, dev⟩, hload⟩ : ∃ desc, load s.irqTable irq.toNat = .ok desc :=
    ⟨_, load_ok (show irq.toNat < NMBR_IRQS by omega)⟩
  cases handler with
  | none =>
    obtain ⟨con, -, hrun⟩ := runLine_none call hload frame
    exact ⟨_, hrun, hprint s con⟩
  | some handler =>
    rw [runLine_handler hload]
    exact hcall handler irq frame dev s

/-- An interrupt that is answered with the vector of a line ends it. -/
theorem Served.dispatch {s s₁ : Irq H D (Board K)} (hchip : s.irqChipActive = some boardChip) {vec : UInt8} {irq : Int}
    (hirq : IsLine irq) (hvec : (vec.toNat : Int) = 0x20 + irq) (hbusy : Busy irq s.hw.chips) {frame : InterruptFrame}
    (hrun : runLine call irq frame s = .ok s₁) (hkept : Kept s s₁) :
    dispatch call vec frame s = .ok (irq, { s₁ with hw := s₁.hw.drive (i8259ASendEoi irq) }) ∧
      Served { s₁ with hw := s₁.hw.drive (i8259ASendEoi irq) } ∧
      (s₁.hw.drive (i8259ASendEoi irq)).chips.requests = s₁.hw.chips.requests := by
  obtain ⟨h0, h16⟩ := hirq
  obtain ⟨hquiet, hreq⟩ := (hkept.busy hbusy).eoi
  have heoi : s₁.irqChipActive.bind IrqChip.irqEoi = some fun irq hw => Board.drive (i8259ASendEoi irq) hw := by
    rw [hkept.chip, hchip]
    rfl
  have hhandle : irqHandle call irq frame s = .ok { s₁ with hw := s₁.hw.drive (i8259ASendEoi irq) } := by
    unfold runLine at hrun
    obtain ⟨desc, hdesc, hline⟩ := bind_eq_ok hrun
    unfold irqHandle
    rw [if_neg (by omega), hdesc]
    simp only [ok_bind]
    cases hhandler : desc.handler with
    | none =>
      simp only [hhandler] at hline ⊢
      obtain ⟨con, hcon, hprinted⟩ := bind_eq_ok hline
      obtain rfl := Except.ok.inj hprinted
      simp only [hcon, ok_bind, heoi, pure_eq_ok]
    | some handler =>
      simp only [hhandler] at hline ⊢
      rw [hline]
      simp only [ok_bind, heoi, pure_eq_ok]
  have hlow : ¬vec < 0x20 := by
    rw [UInt8.lt_iff_toNat_lt]
    show ¬vec.toNat < 32
    omega
  have hnum : (vec.toNat : Int) - 0x20 = irq := by omega
  refine ⟨?_, ⟨hkept.chip.trans hchip, hquiet⟩, hreq⟩
  unfold Arch.dispatch
  rw [if_neg hlow]
  simp only [hnum, hhandle, ok_bind, pure_eq_ok]

/-- The interrupt for the first of the wanted requests. -/
theorem Served.interrupt_first {s s₁ : Irq H D (Board K)} (h : Served s) {w : Wire}
    (hw : first s.hw.chips.wanted = some w) {frame : InterruptFrame}
    (hrun : runLine call w.irq frame { s with hw := { s.hw with chips := s.hw.chips.serve w } } = .ok s₁)
    (hkept : Kept { s with hw := { s.hw with chips := s.hw.chips.serve w } } s₁) :
    interrupt call .request frame s = .ok (w.irq, { s₁ with hw := s₁.hw.drive (i8259ASendEoi w.irq) }) ∧
      Served { s₁ with hw := s₁.hw.drive (i8259ASendEoi w.irq) } ∧
      (s₁.hw.drive (i8259ASendEoi w.irq)).chips.requests = s₁.hw.chips.requests := by
  obtain ⟨hvec, hserve⟩ := h.quiet.acknowledge hw
  have hdispatch := Served.dispatch (s := { s with hw := { s.hw with chips := s.hw.chips.serve w } })
    h.chip w.isLine hvec (h.quiet.serve w) hrun hkept
  unfold interrupt
  simp only [hserve]
  exact hdispatch

/-- Every interrupt is handled as one of a line, and nothing is in service after it. -/
theorem Served.interrupt (hcall : ∀ handler irq frame dev s, ∃ s', call handler irq frame dev s = .ok s' ∧ Kept s s')
    {s : Irq H D (Board K)} (h : Served s) (a : Answer) (frame : InterruptFrame) :
    ∃ irq s', IsLine irq ∧ interrupt call a frame s = .ok (irq, s') ∧ Served s' := by
  obtain ⟨irq, hirq, hvec, hbusy⟩ := h.quiet.busy a
  let t : Irq H D (Board K) := { s with hw := { s.hw with chips := (s.hw.chips.acknowledge a).2 } }
  obtain ⟨s₁, hrun, hkept⟩ := runLine_rel Kept.print hcall hirq frame t
  obtain ⟨hdispatch, hserved, -⟩ := Served.dispatch (s := t) h.chip hirq hvec hbusy hrun hkept
  exact ⟨irq, _, hirq, hdispatch, hserved⟩

end Handlers

/-! ## Runs -/

/-- What happens between two interrupts, or an interrupt: a call of `irq_request`, a device asking on a line other
than that of the slave, an interrupt. -/
inductive BoardEvent (H D : Type)
  | request (irq : Int) (handler : Option H) (dev : Option D)
  | raise (w : Wire) (wired : w ≠ .cascade)
  | interrupt (a : Answer) (frame : InterruptFrame)

def BoardEvent.run (call : H → Int → InterruptFrame → Option D → Irq H D (Board K) → Except Fault (Irq H D (Board K)))
    (s : Irq H D (Board K)) : BoardEvent H D → Except Fault (Irq H D (Board K))
  | .request irq handler dev => do
    let (_, s) ← irqRequest irq handler dev s
    return s
  | .raise w _ => .ok { s with hw := { s.hw with chips := s.hw.chips.raise w } }
  | .interrupt a frame => do
    let (_, s) ← Arch.interrupt call a frame s
    return s

theorem Quiet.raise {c : Chips} (h : Quiet c) {w : Wire} (hw : w ≠ .cascade) : Quiet (c.raise w) := by
  cases w with
  | master b =>
    refine ⟨h.programmed, h.master, h.slave, fun h2 => ?_⟩
    rcases Finset.mem_insert.1 h2 with rfl | h2
    · exact hw rfl
    · exact h.cascade h2
  | slave b => exact ⟨h.programmed, h.master, h.slave, h.cascade⟩

theorem Quiet.unmask {c : Chips} (h : Quiet c) (irq : Int) : Quiet (c.drive (i8259AUnmaskIrq irq)) := by
  rw [Chips.drive_unmask]
  exact ⟨h.programmed.outb (lineOf_port irq) _, h.master, h.slave, h.cascade⟩

/-- Whatever is requested, granted or not, leaves the chips quiet. -/
theorem Served.request {s : Irq H D (Board K)} (h : Served s) (irq : Int) (handler : Option H) (dev : Option D) :
    ∃ ret s', irqRequest irq handler dev s = .ok (ret, s') ∧ Served s' := by
  by_cases hirq : IsLine irq
  · have hunmask : s.irqChipActive.bind IrqChip.irqUnmask =
        some fun irq hw => Board.drive (i8259AUnmaskIrq irq) hw := by
      rw [h.chip]
      rfl
    obtain ⟨con, irqTable, -, hrun⟩ := irqRequest_line hirq hunmask handler dev
    exact ⟨0, _, hrun, h.chip, h.quiet.unmask irq⟩
  · obtain ⟨con, hrun⟩ := irqRequest_invalid hirq s handler dev
    exact ⟨1, _, hrun, h.chip, h.quiet⟩

theorem boardInit_served (s : Irq H D (Board K)) : ∃ s', boardInit s = .ok s' ∧ Served s' := by
  refine ⟨{ s with irqChipActive := some boardChip, hw := s.hw.drive i8259AInit }, rfl, rfl, ?_⟩
  show Quiet (s.hw.chips.drive i8259AInit)
  rw [Chips.drive_init]
  exact ⟨i8259AInit_programmed _, rfl, rfl, Finset.notMem_empty 2⟩

section Handlers

variable {call : H → Int → InterruptFrame → Option D → Irq H D (Board K) → Except Fault (Irq H D (Board K))}

theorem Served.event (hcall : ∀ handler irq frame dev s, ∃ s', call handler irq frame dev s = .ok s' ∧ Kept s s')
    {s : Irq H D (Board K)} (h : Served s) (ev : BoardEvent H D) : ∃ s', ev.run call s = .ok s' ∧ Served s' := by
  cases ev with
  | request irq handler dev =>
    obtain ⟨ret, s', hrun, hs'⟩ := h.request irq handler dev
    refine ⟨s', ?_, hs'⟩
    simp only [BoardEvent.run, hrun, ok_bind, pure_eq_ok]
  | raise w hw => exact ⟨_, rfl, h.chip, h.quiet.raise hw⟩
  | interrupt a frame =>
    obtain ⟨irq, s', -, hrun, hs'⟩ := h.interrupt hcall a frame
    refine ⟨s', ?_, hs'⟩
    simp only [BoardEvent.run, hrun, ok_bind, pure_eq_ok]

/-- After `irq_arch_init`, on chips in any state, and then whatever is requested, asked for and interrupted, also
when requests are withdrawn: no interrupt fails, nothing is in service outside the handlers, and the processor is
asked for exactly when a request is latched that no mask holds back. The interrupt is then for the first of these
requests: it runs the handler of its line, and no request but its own is lost. -/
theorem no_request_blocked
    (hcall : ∀ handler irq frame dev s, ∃ s', call handler irq frame dev s = .ok s' ∧ Kept s s')
    (s₀ : Irq H D (Board K)) : ∃ s₁, boardInit s₀ = .ok s₁ ∧ ∀ evs : List (BoardEvent H D),
      ∃ s, evs.foldlM (fun s ev => ev.run call s) s₁ = .ok s ∧
        s.hw.chips.master.isr = ∅ ∧ s.hw.chips.slave.isr = ∅ ∧
        (s.hw.chips.masterPending.isSome ↔ ∃ w ∈ s.hw.chips.requests, Deliverable w.irq s.hw.chips.regs) ∧
        ∀ w, first s.hw.chips.wanted = some w → ∀ frame, ∃ s₂ s',
          runLine call w.irq frame { s with hw := { s.hw with chips := s.hw.chips.serve w } } = .ok s₂ ∧
          interrupt call .request frame s = .ok (w.irq, s') ∧
          s' = { s₂ with hw := s₂.hw.drive (i8259ASendEoi w.irq) } ∧
          s.hw.chips.requests.erase w ⊆ s'.hw.chips.requests := by
  obtain ⟨s₁, hinit, hserved⟩ := boardInit_served s₀
  refine ⟨s₁, hinit, fun evs => ?_⟩
  obtain ⟨s, hrun, h⟩ := Run.foldlM_inv Served (fun s ev hs => hs.event hcall ev) evs s₁ hserved
  refine ⟨s, hrun, h.quiet.master, h.quiet.slave, ?_, fun w hw frame => ?_⟩
  · rw [h.quiet.asks_iff]
    exact exists_congr fun w => Finset.mem_filter
  · obtain ⟨s₂, hline, hkept⟩ := runLine_rel Kept.print hcall w.isLine frame
      { s with hw := { s.hw with chips := s.hw.chips.serve w } }
    obtain ⟨hint, -, hreq⟩ := h.interrupt_first hw hline hkept
    refine ⟨s₂, _, hline, hint, rfl, ?_⟩
    show _ ⊆ (s₂.hw.drive (i8259ASendEoi w.irq)).chips.requests
    rw [hreq, ← s.hw.chips.serve_requests h.quiet.cascade w]
    exact hkept.requests

/-- Handlers that return at once. -/
def returnAtOnce : Unit → Int → InterruptFrame → Option Unit → Irq Unit Unit (Board Unit) →
    Except Fault (Irq Unit Unit (Board Unit)) := fun _ _ _ _ s => .ok s

/-- The static variables before any call, on chips that are not initialised. -/
def bareBoard : Irq Unit Unit (Board Unit) :=
  ⟨Vector.replicate NMBR_IRQS ⟨none, none⟩, none, ⟨⟨Arch.bootIrq.hw, ⟨∅, ∅⟩, ⟨∅, ∅⟩⟩, ()⟩, Console.boot⟩

/-- Line 1 is requested, a device asks on it and a spurious interrupt comes in. -/
theorem no_request_blocked_bare : ∃ s₁, boardInit bareBoard = .ok s₁ ∧
    ∃ s, [BoardEvent.request 1 (some ()) none, .raise .keyboard (by decide),
        .interrupt .spuriousSlave ⟨0, 0, 0, 0⟩].foldlM (fun s ev => ev.run returnAtOnce s) s₁ = .ok s ∧
      s.hw.chips.master.isr = ∅ ∧ s.hw.chips.slave.isr = ∅ := by
  have hcall : ∀ handler irq frame dev s, ∃ s', returnAtOnce handler irq frame dev s = .ok s' ∧ Kept s s' :=
    fun _ _ _ _ s => ⟨s, rfl, Kept.print s s.con⟩
  obtain ⟨s₁, hinit, hruns⟩ := no_request_blocked hcall bareBoard
  obtain ⟨s, hrun, hmaster, hslave, -⟩ := hruns [.request 1 (some ()) none, .raise .keyboard (by decide),
    .interrupt .spuriousSlave ⟨0, 0, 0, 0⟩]
  exact ⟨s₁, hinit, s, hrun, hmaster, hslave⟩

/-! ## All requests served -/

/-- The end of an interrupt leaves the masks as they are. -/
theorem deliverable_eoi (irq irq' : Int) (hw : Pics) :
    Deliverable irq (i8259ASendEoi irq' hw) ↔ Deliverable irq hw := by
  rw [i8259ASendEoi_eq]
  exact Iff.rfl

/-- When no device asks meanwhile, an interrupt takes the first of the wanted requests and leaves the others. -/
theorem Served.wanted_erase
    (hcall : ∀ handler irq frame dev s, ∃ s', call handler irq frame dev s = .ok s' ∧ Leaves s s')
    {s : Irq H D (Board K)} (h : Served s) {w : Wire} (hw : first s.hw.chips.wanted = some w) (frame : InterruptFrame) :
    ∃ s', Arch.interrupt call .request frame s = .ok (w.irq, s') ∧ Served s' ∧
      s'.hw.chips.wanted = s.hw.chips.wanted.erase w := by
  obtain ⟨s₁, hline, hleaves⟩ := runLine_rel (R := Leaves) (fun _ _ => ⟨rfl, rfl⟩) hcall w.isLine frame
    { s with hw := { s.hw with chips := s.hw.chips.serve w } }
  obtain ⟨hint, hserved, hreq⟩ := h.interrupt_first hw hline hleaves.kept
  have hchips : s₁.hw.chips = s.hw.chips.serve w := hleaves.chips
  have hregs : (s₁.hw.drive (i8259ASendEoi w.irq)).chips.regs = i8259ASendEoi w.irq s.hw.chips.regs := by
    show (s₁.hw.chips.drive (i8259ASendEoi w.irq)).regs = _
    rw [Chips.drive_eoi, hchips]
    cases w <;> rfl
  refine ⟨_, hint, hserved, ?_⟩
  show (s₁.hw.drive (i8259ASendEoi w.irq)).chips.wanted = _
  unfold Chips.wanted
  rw [hreq, hchips, s.hw.chips.serve_requests h.quiet.cascade w, hregs]
  ext w'
  simp only [Finset.mem_filter, Finset.mem_erase, deliverable_eoi, and_assoc]

/-- After every such run, with handlers during which devices may ask for more, and then while the devices are silent,
also during the handlers: as many interrupts as there are requests that no mask holds back serve all of them, each once,
in the order of priority 0, 1, 8 to 15, 3 to 7; then the processor is not asked for any more. -/
theorem all_requests_served
    {silent : H → Int → InterruptFrame → Option D → Irq H D (Board K) → Except Fault (Irq H D (Board K))}
    (hcall : ∀ handler irq frame dev s, ∃ s', call handler irq frame dev s = .ok s' ∧ Kept s s')
    (hsilent : ∀ handler irq frame dev s, ∃ s', silent handler irq frame dev s = .ok s' ∧ Leaves s s')
    (s₀ : Irq H D (Board K)) : ∃ s₁, boardInit s₀ = .ok s₁ ∧ ∀ (evs : List (BoardEvent H D)) (frame : InterruptFrame),
      ∃ s s', evs.foldlM (fun s ev => ev.run call s) s₁ = .ok s ∧
        served (interrupt silent .request frame) s.hw.chips.wanted.card s =
          .ok (s.hw.chips.wanted.sort.map Wire.irq, s') ∧
        s'.hw.chips.wanted = ∅ ∧ s'.hw.chips.masterPending = none := by
  obtain ⟨s₁, hinit, hserved⟩ := boardInit_served s₀
  refine ⟨s₁, hinit, fun evs frame => ?_⟩
  obtain ⟨s, hrun, h⟩ := Run.foldlM_inv Served (fun s ev hs => hs.event hcall ev) evs s₁ hserved
  have hstep : ∀ t w, Served t → first t.hw.chips.wanted = some w →
      ∃ t', interrupt silent .request frame t = .ok (w.irq, t') ∧ Served t' ∧
        t'.hw.chips.wanted = t.hw.chips.wanted.erase w := fun t w ht hw => ht.wanted_erase hsilent hw frame
  obtain ⟨s', hall, h', hempty⟩ := served_sort hstep _ s rfl h
  refine ⟨s, s', hrun, hall, hempty, ?_⟩
  rw [← Option.not_isSome_iff_eq_none, h'.quiet.asks_iff, hempty]
  exact Finset.not_nonempty_empty

/-- Handlers during which the timer asks. -/
def timerAsks : Unit → Int → InterruptFrame → Option Unit → Irq Unit Unit (Board Unit) →
    Except Fault (Irq Unit Unit (Board Unit)) :=
  fun _ _ _ _ s => .ok { s with hw := { s.hw with chips := s.hw.chips.raise .timer } }

/-- Two lines are requested and the devices of three ask, one of them while the handler of another runs. -/
theorem all_requests_served_bare : ∃ s₁, boardInit bareBoard = .ok s₁ ∧
    ∃ s s', [BoardEvent.request 1 (some ()) none, .request 0 none none, .raise .keyboard (by decide),
        .raise (.slave 0) (by decide), .interrupt .request ⟨0, 0, 0, 0⟩].foldlM
          (fun s ev => ev.run timerAsks s) s₁ = .ok s ∧
      served (interrupt returnAtOnce .request ⟨0, 0, 0, 0⟩) s.hw.chips.wanted.card s =
        .ok (s.hw.chips.wanted.sort.map Wire.irq, s') ∧ s'.hw.chips.masterPending = none := by
  have hcall : ∀ handler irq frame dev s, ∃ s', timerAsks handler irq frame dev s = .ok s' ∧ Kept s s' :=
    fun _ _ _ _ s => ⟨_, rfl, Kept.raise (w := .timer) (by decide) rfl rfl⟩
  have hsilent : ∀ handler irq frame dev s, ∃ s', returnAtOnce handler irq frame dev s = .ok s' ∧ Leaves s s' :=
    fun _ _ _ _ s => ⟨s, rfl, rfl, rfl⟩
  obtain ⟨s₁, hinit, hruns⟩ := all_requests_served hcall hsilent bareBoard
  obtain ⟨s, s', hrun, hall, -, hnone⟩ := hruns [.request 1 (some ()) none, .request 0 none none,
    .raise .keyboard (by decide), .raise (.slave 0) (by decide), .interrupt .request ⟨0, 0, 0, 0⟩] ⟨0, 0, 0, 0⟩
  exact ⟨s₁, hinit, s, s', hrun, hall, hnone⟩

end Handlers

end SnakeOS.Arch
