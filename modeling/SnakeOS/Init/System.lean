/-
The running kernel: the steps of `kmain`, what the devices do and interrupts, in any order.
-/
import SnakeOS.Init.Handlers
import SnakeOS.Init.Kmain
import SnakeOS.Kernel.Sections

namespace SnakeOS.Init

open C Kernel Arch Drivers Term Priority

/-! ## Runs -/

/-- `kmain` with the steps that are to come, the state, and the lines of the interrupts so far. -/
structure Running where
  todo : List Step
  sys : System
  log : List Int

inductive SystemEvent
  | step
  | arrival (d : Arrival)
  | interrupt (a : Answer) (before between : List Arrival) (frame : InterruptFrame)

/-- After its last step `kmain` halts until the next interrupt. The processor takes no interrupt while they are
off. -/
def SystemEvent.run (r : Running) : SystemEvent → Except Fault Running
  | .step =>
    match r.todo with
    | [] => .ok r
    | st :: todo => .ok { r with todo, sys := st.run r.sys }
  | .arrival d => .ok { r with sys := d.run r.sys }
  | .interrupt a before between frame =>
    if interruptsOn r.sys.hw.rest.rflags then do
      let (irq, sys) ← takeInterrupt a before between frame r.sys
      return { r with sys, log := r.log ++ [irq] }
    else .ok r

theorem run_interrupt {r : Running} (hon : interruptsOn r.sys.hw.rest.rflags) {a : Answer}
    {before between : List Arrival} {frame : InterruptFrame} {irq : Int} {s' : System}
    (h : takeInterrupt a before between frame r.sys = .ok (irq, s')) :
    (SystemEvent.interrupt a before between frame).run r = .ok { r with sys := s', log := r.log ++ [irq] } := by
  refine (if_pos hon).trans ?_
  rw [h]
  rfl

/-! ## The lines that `kmain` opens -/

def Step.isControl : Step → Bool
  | .desc .. => true
  | .unmask _ => true
  | _ => false

theorem filter_putc (cs : List UInt8) : (cs.map Step.putc).filter Step.isControl = [] := by
  rw [List.filter_eq_nil_iff]
  intro st hst
  obtain ⟨c, -, rfl⟩ := List.mem_map.1 hst
  exact Bool.false_ne_true

theorem kmainSteps_controls (mem : Nat → UInt8) : (kmainSteps mem).filter Step.isControl = controls := by
  unfold kmainSteps requestSteps
  simp only [List.filter_append, filter_putc]
  rfl

/-- After `k` of these steps the lines that they open are open, and no others. -/
structure Opened (k : Nat) (hw : Pics) : Prop where
  master : ∀ b < 8, hw.master.Open b ↔ (b = 0 ∧ 2 ≤ k) ∨ (b = 1 ∧ 4 ≤ k)
  slave : ∀ b < 8, ¬hw.slave.Open b

theorem opened_init (hw : Pics) : Opened 0 (i8259AInit hw) := by
  refine ⟨fun b hb => iff_of_false (i8259AInit_masked hw hb).1 (by omega), fun b hb => (i8259AInit_masked hw hb).2⟩

theorem Opened.unmask {k : Nat} {hw : Pics} (h : Opened k hw) (hready : Ready hw) {irq : Nat}
    (hk : irq = 0 ∧ k = 1 ∨ irq = 1 ∧ k = 3) : Opened (k + 1) (i8259AUnmaskIrq irq hw) := by
  have hline : IsLine (irq : Int) := by
    rcases hk with ⟨rfl, -⟩ | ⟨rfl, -⟩
    · decide
    · decide
  obtain ⟨-, hopen⟩ := i8259AUnmaskIrq_spec hready hline
  refine ⟨fun b hb => ?_, fun b hb => ?_⟩
  · rw [(hopen b hb).1, h.master b hb]
    omega
  · rw [(hopen b hb).2]
    rintro (hopen' | hirq)
    · exact h.slave b hb hopen'
    · omega

theorem Opened.eoi {k : Nat} {hw : Pics} (h : Opened k hw) (irq : Int) : Opened k (i8259ASendEoi irq hw) := by
  rw [i8259ASendEoi_eq]
  exact ⟨h.master, h.slave⟩

/-- The lines that reach the processor are those of the timer and of the keyboard. -/
theorem Opened.deliverable_iff {k : Nat} {hw : Pics} (h : Opened k hw) (w : Wire) :
    Deliverable w.irq hw ↔ w = .timer ∧ 2 ≤ k ∨ w = .keyboard ∧ 4 ≤ k := by
  cases w with
  | master b =>
    have hopen : Deliverable (Wire.master b).irq hw ↔ hw.master.Open b := by
      unfold Deliverable Wire.irq
      rw [if_pos (show (b : Int) < 8 by omega)]
      rfl
    rw [hopen, h.master b b.isLt, Wire.master.injEq, Wire.master.injEq, Fin.ext_iff, Fin.ext_iff]
    rfl
  | slave b =>
    have hclosed : ¬Deliverable (Wire.slave b).irq hw := by
      unfold Deliverable Wire.irq
      rw [if_neg (show ¬((b : Int) + 8 < 8) by omega), show ((b : Int) + 8 - 8).toNat = b by omega]
      exact fun hopen => h.slave b b.isLt hopen.1
    exact iff_of_false hclosed (by simp)

theorem Opened.wanted {k : Nat} {c : Chips} (h : Opened k c.regs) {w : Wire} (hw : w ∈ c.wanted) :
    w = .timer ∧ 2 ≤ k ∨ w = .keyboard ∧ 4 ≤ k :=
  (h.deliverable_iff w).1 (Finset.mem_filter.1 hw).2

/-! ## One interrupt -/

/-- The state once the processor has the vector. -/
def answered (a : Answer) (s : System) : System :=
  { s with hw.rest.rflags := s.hw.rest.rflags &&& ~~~RFLAGS_CLEARED, hw.chips := (s.hw.chips.acknowledge a).2 }

/-- `s'` is the state after an interrupt that the handler left in `s₁`. -/
structure Ends (s s₁ s' : System) : Prop where
  served : Served s'
  same : s' = { s₁ with hw.chips := s'.hw.chips, hw.rest.rflags := s.hw.rest.rflags }
  requests : s'.hw.chips.requests = s₁.hw.chips.requests
  opened : ∀ k, Opened k s₁.hw.chips.regs → Opened k s'.hw.chips.regs

theorem takeInterrupt_ends {s s₁ : System} (h : Served s) {a : Answer} {before between : List Arrival}
    {frame : InterruptFrame} {irq : Int} (hirq : IsLine irq)
    (hvec : ((s.hw.chips.acknowledge a).1.toNat : Int) = 0x20 + irq) (hbusy : Busy irq (s.hw.chips.acknowledge a).2)
    (hrun : runLine (callHandler before between) irq frame (answered a s) = .ok s₁) (hkept : Kept (answered a s) s₁) :
    ∃ s', takeInterrupt a before between frame s = .ok (irq, s') ∧ Ends s s₁ s' := by
  obtain ⟨hdispatch, hserved, hreq⟩ := Served.dispatch (s := answered a s) h.chip hirq hvec hbusy hrun hkept
  have htake : interrupt (callHandler before between) a frame
      { s with hw.rest.rflags := s.hw.rest.rflags &&& ~~~RFLAGS_CLEARED } =
        .ok (irq, { s₁ with hw := s₁.hw.drive (i8259ASendEoi irq) }) := hdispatch
  refine ⟨{ s₁ with hw.chips := s₁.hw.chips.drive (i8259ASendEoi irq), hw.rest.rflags := s.hw.rest.rflags }, ?_,
    ⟨hserved.chip, hserved.quiet⟩, rfl, hreq, fun k hk => ?_⟩
  · show (interrupt (callHandler before between) a frame
        { s with hw.rest.rflags := s.hw.rest.rflags &&& ~~~RFLAGS_CLEARED } >>= fun p =>
          .ok (p.1, { p.2 with hw.rest.rflags := s.hw.rest.rflags })) = _
    rw [htake]
    rfl
  · show Opened k (s₁.hw.chips.drive (i8259ASendEoi irq)).regs
    rw [Chips.drive_eoi]
    exact hk.eoi irq

theorem Ends.statics {k ticks : Nat} {bytes : List UInt8} {s s₁ s' : System} (h : Ends s s₁ s')
    (hs : Statics k ticks bytes s₁) : Statics k ticks bytes s' := by
  rw [h.same]
  exact ⟨hs.table, hs.timer, ⟨hs.types.shift, hs.types.caps, hs.types.unlocked, hs.types.holds⟩, hs.console⟩

theorem Ends.wired {stuck : Prop} {sent : List UInt8} {s s₁ s' : System} (h : Ends s s₁ s')
    (hs : Wired stuck sent s₁) : Wired stuck sent s' := by
  refine hs.of_same ?_ (by rw [h.requests])
  rw [h.same]

/-! ## The invariant -/

/-- After `k` of the steps that register and open the lines and the scancodes `bytes` handled. -/
structure Sound (stuck : Prop) (sent : List UInt8) (k : Nat) (bytes : List UInt8) (r : Running) : Prop where
  served : Served r.sys
  interrupts : interruptsOn r.sys.hw.rest.rflags
  statics : Statics k (r.log.count 0) bytes r.sys
  opened : Opened k r.sys.hw.chips.regs
  todo : r.todo.filter Step.isControl = controls.drop k
  wired : Wired stuck (sent ++ bytes) r.sys
  length : bytes.length = r.log.count 1
  idle : stuck → bytes = []

section Sound

variable {stuck : Prop} {sent : List UInt8} {k : Nat} {bytes : List UInt8} {r : Running}

theorem Sound.arrival (h : Sound stuck sent k bytes r) (d : Arrival) :
    Sound stuck sent k bytes { r with sys := d.run r.sys } := by
  have harrived := d.run_arrived r.sys
  have hkept := harrived.kept
  refine ⟨h.served.kept hkept, ?_, h.statics.arrived harrived, ?_, h.todo, h.wired.run d, h.length, h.idle⟩
  · show interruptsOn (d.run r.sys).hw.rest.rflags
    rw [harrived.same]
    exact h.interrupts
  · show Opened k (d.run r.sys).hw.chips.regs
    rw [hkept.regs]
    exact h.opened

/-- A step that is none of those for the lines leaves them as they are. -/
theorem Sound.other (h : Sound stuck sent k bytes r) {todo : List Step} {s : System}
    (htodo : todo.filter Step.isControl = r.todo.filter Step.isControl) (hchip : s.irqChipActive = r.sys.irqChipActive)
    (hchips : s.hw.chips = r.sys.hw.chips) (hdev : s.hw.rest.dev = r.sys.hw.rest.dev)
    (hrflags : s.hw.rest.rflags = r.sys.hw.rest.rflags) (hstatics : Statics k (r.log.count 0) bytes s) :
    Sound stuck sent k bytes { r with todo, sys := s } := by
  refine ⟨⟨hchip.trans h.served.chip, ?_⟩, ?_, hstatics, ?_, htodo.trans h.todo, ?_, h.length, h.idle⟩
  · show Quiet s.hw.chips
    rw [hchips]
    exact h.served.quiet
  · show interruptsOn s.hw.rest.rflags
    rw [hrflags]
    exact h.interrupts
  · show Opened k s.hw.chips.regs
    rw [hchips]
    exact h.opened
  · exact h.wired.of_same hdev (by rw [hchips])

/-- The next of the steps that register and open the lines. -/
theorem control_cases {st : Step} {todo : List Step} (hst : st.isControl)
    (h : (st :: todo).filter Step.isControl = controls.drop k) :
    todo.filter Step.isControl = controls.drop (k + 1) ∧
      (k = 0 ∧ st = .desc 0 .i8253IrqHandle ∨ k = 1 ∧ st = .unmask 0 ∨
        k = 2 ∧ st = .desc 1 .i8042IrqHandler ∨ k = 3 ∧ st = .unmask 1) := by
  rw [List.filter_cons_of_pos hst] at h
  match k, h with
  | 0, h =>
    obtain ⟨rfl, htodo⟩ := List.cons.inj h
    exact ⟨htodo, .inl ⟨rfl, rfl⟩⟩
  | 1, h =>
    obtain ⟨rfl, htodo⟩ := List.cons.inj h
    exact ⟨htodo, .inr (.inl ⟨rfl, rfl⟩)⟩
  | 2, h =>
    obtain ⟨rfl, htodo⟩ := List.cons.inj h
    exact ⟨htodo, .inr (.inr (.inl ⟨rfl, rfl⟩))⟩
  | 3, h =>
    obtain ⟨rfl, htodo⟩ := List.cons.inj h
    exact ⟨htodo, .inr (.inr (.inr ⟨rfl, rfl⟩))⟩
  | k + 4, h =>
    rw [List.drop_of_length_le (show controls.length ≤ k + 4 from Nat.le_add_left 4 k)] at h
    cases h

theorem handlerOf_timer (hk : 1 ≤ k) : handlerOf k 0 = some .i8253IrqHandle := if_pos ⟨rfl, hk⟩

theorem handlerOf_keyboard (hk : 3 ≤ k) : handlerOf k 1 = some .i8042IrqHandler :=
  (if_neg fun h => absurd h.1 Nat.one_ne_zero).trans (if_pos ⟨rfl, hk⟩)

theorem handlerOf_succ {irq : Nat} {handler : Handler}
    (hk : k = 0 ∧ irq = 0 ∧ handler = .i8253IrqHandle ∨ k = 2 ∧ irq = 1 ∧ handler = .i8042IrqHandler) (i : Nat) :
    handlerOf (k + 1) i = if irq = i then some handler else handlerOf k i := by
  unfold handlerOf
  rcases hk with ⟨rfl, rfl, rfl⟩ | ⟨rfl, rfl, rfl⟩
  · by_cases hi : i = 0
    · simp [hi]
    · simp [hi, Ne.symm hi]
  · by_cases hi : i = 1
    · simp [hi]
    · simp [hi, Ne.symm hi]

/-- After an even number of the steps the line that the next one opens is closed. -/
theorem handlerOf_unmask (hk : k = 1 ∨ k = 3) (i : Nat) : handlerOf (k + 1) i = handlerOf k i := by
  unfold handlerOf
  rcases hk with rfl | rfl
  · simp
  · simp

theorem Sound.desc (h : Sound stuck sent k bytes r) {irq : Fin NMBR_IRQS} {handler : Handler} {todo : List Step}
    (htodo : todo.filter Step.isControl = controls.drop (k + 1))
    (hk : k = 0 ∧ (irq : Nat) = 0 ∧ handler = .i8253IrqHandle ∨ k = 2 ∧ (irq : Nat) = 1 ∧ handler = .i8042IrqHandler) :
    Sound stuck sent (k + 1) bytes { r with todo, sys := Step.run r.sys (.desc irq handler) } := by
  have hs := h.statics
  refine ⟨⟨h.served.chip, h.served.quiet⟩, h.interrupts, ⟨fun i hi => ?_, hs.timer,
    ⟨hs.types.shift, hs.types.caps, hs.types.unlocked, hs.types.holds⟩, hs.console⟩, ?_, htodo,
    h.wired.of_same rfl Iff.rfl, h.length, h.idle⟩
  · show (r.sys.irqTable.set irq ⟨some handler, none⟩)[i] = _
    rw [Vector.getElem_set, hs.table i hi, handlerOf_succ hk]
    split
    · rfl
    · rfl
  · refine ⟨fun b hb => (h.opened.master b hb).trans ?_, h.opened.slave⟩
    omega

theorem Sound.unmask (h : Sound stuck sent k bytes r) {irq : Fin NMBR_IRQS} {todo : List Step}
    (htodo : todo.filter Step.isControl = controls.drop (k + 1))
    (hk : (irq : Nat) = 0 ∧ k = 1 ∨ (irq : Nat) = 1 ∧ k = 3) :
    Sound stuck sent (k + 1) bytes { r with todo, sys := Step.run r.sys (.unmask irq) } := by
  have hs := h.statics
  have hready := h.served.quiet.programmed.toReady
  refine ⟨⟨h.served.chip, h.served.quiet.unmask _⟩, h.interrupts, ⟨fun i hi => ?_, hs.timer,
    ⟨hs.types.shift, hs.types.caps, hs.types.unlocked, hs.types.holds⟩, hs.console⟩, ?_, htodo,
    h.wired.of_same rfl ?_, h.length, h.idle⟩
  · rw [handlerOf_unmask (by omega)]
    exact hs.table i hi
  · show Opened (k + 1) (r.sys.hw.chips.drive (i8259AUnmaskIrq irq)).regs
    rw [Chips.drive_unmask]
    exact h.opened.unmask hready hk
  · show _ ∈ (r.sys.hw.chips.drive (i8259AUnmaskIrq irq)).requests ↔ _
    rw [Chips.drive_unmask]
    rfl

/-- A step of `kmain`. -/
theorem Sound.step (h : Sound stuck sent k bytes r) {st : Step} {todo : List Step} (htodo : r.todo = st :: todo) :
    ∃ k', Sound stuck sent k' bytes { r with todo, sys := st.run r.sys } := by
  have hs := h.statics
  have htypes := hs.types
  have hcontrols := h.todo
  rw [htodo] at hcontrols
  cases st with
  | putc c =>
    refine ⟨k, h.other ?_ rfl rfl rfl rfl (hs.print [c])⟩
    rw [htodo]
    rfl
  | pit port value =>
    refine ⟨k, h.other ?_ rfl rfl rfl rfl
      ⟨hs.table, hs.timer, ⟨htypes.shift, htypes.caps, htypes.unlocked, htypes.holds⟩, hs.console⟩⟩
    rw [htodo]
    rfl
  | desc irq handler =>
    obtain ⟨hrest, hcases⟩ := control_cases rfl hcontrols
    refine ⟨k + 1, h.desc hrest ?_⟩
    rcases hcases with ⟨rfl, hst⟩ | ⟨-, hst⟩ | ⟨rfl, hst⟩ | ⟨-, hst⟩
    · cases hst
      exact .inl ⟨rfl, rfl, rfl⟩
    · cases hst
    · cases hst
      exact .inr ⟨rfl, rfl, rfl⟩
    · cases hst
  | unmask irq =>
    obtain ⟨hrest, hcases⟩ := control_cases rfl hcontrols
    refine ⟨k + 1, h.unmask hrest ?_⟩
    rcases hcases with ⟨-, hst⟩ | ⟨rfl, hst⟩ | ⟨-, hst⟩ | ⟨rfl, hst⟩
    · cases hst
    · cases hst
      exact .inl ⟨rfl, rfl⟩
    · cases hst
    · cases hst
      exact .inr ⟨rfl, rfl⟩
  | lockInit =>
    -- the lock is free outside the handlers, so that nothing is lost when it is made so again
    refine ⟨k, h.other ?_ rfl rfl rfl rfl
      ⟨hs.table, hs.timer, ⟨htypes.shift, htypes.caps, rfl, htypes.holds⟩, hs.console⟩⟩
    rw [htodo]
    rfl

/-! ## Interrupts -/

theorem Sound.ends (h : Sound stuck sent k bytes r) {irq : Int} {s₁ s' : System} {bytes' : List UInt8}
    (he : Ends r.sys s₁ s') (hstatics : Statics k ((r.log ++ [irq]).count 0) bytes' s₁)
    (hregs : s₁.hw.chips.regs = r.sys.hw.chips.regs) (hwired : Wired stuck (sent ++ bytes') s₁)
    (hlength : bytes'.length = (r.log ++ [irq]).count 1) (hidle : stuck → bytes' = []) :
    Sound stuck sent k bytes' { r with sys := s', log := r.log ++ [irq] } := by
  refine ⟨he.served, ?_, he.statics hstatics, he.opened k (hregs ▸ h.opened), h.todo, he.wired hwired, hlength, hidle⟩
  show interruptsOn s'.hw.rest.rflags
  rw [he.same]
  exact h.interrupts

/-- The static variables are no part of what the processor changes for an interrupt. -/
theorem Sound.answered (h : Sound stuck sent k bytes r) (a : Answer) :
    Statics k (r.log.count 0) bytes (answered a r.sys) := by
  have hs := h.statics
  exact ⟨hs.table, hs.timer, ⟨hs.types.shift, hs.types.caps, hs.types.unlocked, hs.types.holds⟩, hs.console⟩

theorem Statics.load {ticks : Nat} {s : System} (h : Statics k ticks bytes s) {irq : Int} (hirq : IsLine irq) :
    load s.irqTable irq.toNat = .ok ⟨handlerOf k irq.toNat, none⟩ := by
  obtain ⟨h0, h16⟩ := hirq
  have hlt : irq.toNat < NMBR_IRQS := by omega
  rw [load_ok hlt, h.table _ hlt]

/-- An interrupt for a line of which no request is latched: the kernel says that it has no handler. -/
theorem Sound.spurious (h : Sound stuck sent k bytes r) {a : Answer} {irq : Int} (hirq : irq = 7 ∨ irq = 15)
    (hvec : ((r.sys.hw.chips.acknowledge a).1.toNat : Int) = 0x20 + irq)
    (hbusy : Busy irq (r.sys.hw.chips.acknowledge a).2)
    (hreq : (r.sys.hw.chips.acknowledge a).2.requests = r.sys.hw.chips.requests)
    (before between : List Arrival) (frame : InterruptFrame) :
    ∃ s', takeInterrupt a before between frame r.sys = .ok (irq, s') ∧
      Sound stuck sent k bytes { r with sys := s', log := r.log ++ [irq] } ∧
      Balanced 0 r.sys s' ∧ s'.hw.rest.pit = r.sys.hw.rest.pit := by
  have hline : IsLine irq := by
    rcases hirq with rfl | rfl
    · decide
    · decide
  have hnone : handlerOf k irq.toNat = none := by
    rcases hirq with rfl | rfl
    · rfl
    · rfl
  have hstatics := h.answered a
  have hload := hstatics.load hline
  rw [hnone] at hload
  have hprint := @kprint_int (Byte.text "Unhandled IRQ: %d. No action taken.\n") (Byte.text "Unhandled IRQ: ")
    (Byte.text ". No action taken.\n") (Byte.ne_zero_of_all (by decide)) (by decide) (by decide) (fun _ => rfl) irq
    (Init.answered a r.sys).con
  obtain ⟨con, hcon, hrun⟩ := runLine_none (callHandler before between) hload frame
  obtain rfl := Except.ok.inj (hprint.symm.trans hcon)
  obtain ⟨s', htake, hends⟩ := takeInterrupt_ends h.served hline hvec hbusy hrun (Kept.print _ _)
  have hcount : (r.log ++ [irq]).count 0 = r.log.count 0 ∧ (r.log ++ [irq]).count 1 = r.log.count 1 := by
    rcases hirq with rfl | rfl
    · simp
    · simp
  refine ⟨s', htake, h.ends hends ?_ (Chips.acknowledge_regs _ a) (h.wired.of_same rfl ?_) ?_ h.idle,
    .of_same ?_ ?_ (hends.requests.trans hreq), ?_⟩
  · rw [hcount.1]
    exact hstatics.print _
  · show _ ∈ (r.sys.hw.chips.acknowledge a).2.requests ↔ _
    rw [hreq]
  · rw [hcount.2]
    exact h.length
  · rw [hends.same]
    rfl
  · rw [hends.same]
    rfl
  · rw [hends.same]
    rfl

/-- The chips answer for a line that a handler is registered for. -/
theorem Sound.serve (h : Sound stuck sent k bytes r) {w : Wire} (hw : first r.sys.hw.chips.wanted = some w)
    {handler : Handler} (hhandler : handlerOf k w.irq.toNat = some handler) (before between : List Arrival)
    (frame : InterruptFrame) {s₁ : System}
    (hrun : callHandler before between handler w.irq frame none (Init.answered .request r.sys) = .ok s₁)
    (hkept : Kept (Init.answered .request r.sys) s₁) :
    ∃ s', takeInterrupt .request before between frame r.sys = .ok (w.irq, s') ∧ Ends r.sys s₁ s' := by
  obtain ⟨hvec, hserve⟩ := h.served.quiet.acknowledge hw
  have hload := (h.answered .request).load w.isLine
  rw [hhandler] at hload
  have hbusy : Busy w.irq (r.sys.hw.chips.acknowledge .request).2 := by
    rw [hserve]
    exact h.served.quiet.serve w
  exact takeInterrupt_ends h.served w.isLine hvec hbusy ((runLine_handler hload frame).trans hrun) hkept

theorem Sound.answered_requests (h : Sound stuck sent k bytes r) {w : Wire}
    (hw : first r.sys.hw.chips.wanted = some w) :
    (Init.answered .request r.sys).hw.chips.requests = r.sys.hw.chips.requests.erase w := by
  have hquiet := h.served.quiet
  show (r.sys.hw.chips.acknowledge .request).2.requests = _
  rw [(hquiet.acknowledge hw).2, Chips.serve_requests _ hquiet.cascade]

/-- The request for `w` is taken, and no other is lost. -/
structure Left (w : Wire) (before between : List Arrival) (s s' : System) : Prop where
  kept : s.hw.chips.requests.erase w ⊆ s'.hw.chips.requests
  asked : s'.hw.chips.requests ⊆ s.hw.chips.requests.erase w ∪ asked (before ++ between)
  balanced : Balanced (if w = .timer then 1 else 0) s s'
  pit : s'.hw.rest.pit = s.hw.rest.pit

theorem Sound.left (h : Sound stuck sent k bytes r) {w : Wire} (hw : first r.sys.hw.chips.wanted = some w)
    {before between : List Arrival} {s₁ s' : System} (hends : Ends r.sys s₁ s')
    (hkept : Kept (Init.answered .request r.sys) s₁)
    (hmeanwhile : Meanwhile (before ++ between) (Init.answered .request r.sys) s₁) :
    Left w before between r.sys s' := by
  have hrequests := h.answered_requests hw
  have hmem : w ∈ r.sys.hw.chips.requests := Finset.mem_of_mem_filter _ (first_eq_some.1 hw).1
  have hdev : s'.hw.rest.dev = s₁.hw.rest.dev := by rw [hends.same]
  have hpit : s'.hw.rest.pit = r.sys.hw.rest.pit := by
    rw [hends.same]
    exact hmeanwhile.pit
  have hlatched : latched r.sys = latched (Init.answered .request r.sys) + if w = .timer then 1 else 0 := by
    unfold latched
    simp only [hrequests, Finset.mem_erase]
    by_cases h0 : w = .timer
    · subst h0
      simp [hmem]
    · simp [h0, Ne.symm h0]
  have htaken : Balanced (if w = .timer then 1 else 0) r.sys (Init.answered .request r.sys) := by
    refine ⟨?_, le_rfl⟩
    rw [hlatched]
    simp only [Init.answered]
    omega
  have hended : Balanced 0 s₁ s' := .of_same (congrArg _ hdev) (congrArg _ hdev) hends.requests
  exact ⟨hends.requests ▸ hrequests ▸ hkept.requests, hends.requests ▸ hrequests ▸ hmeanwhile.asked,
    (htaken.trans hmeanwhile.balanced).trans hended, hpit⟩

/-- An interrupt of the timer. -/
theorem Sound.tick (h : Sound stuck sent k bytes r) (hw : first r.sys.hw.chips.wanted = some .timer) (hk : 2 ≤ k)
    (before between : List Arrival) (frame : InterruptFrame) :
    ∃ s', takeInterrupt .request before between frame r.sys = .ok (0, s') ∧
      Sound stuck sent k bytes { r with sys := s', log := r.log ++ [0] } ∧
      Left .timer before between r.sys s' := by
  have hwired : Wired stuck (sent ++ bytes) (Init.answered .request r.sys) := by
    refine h.wired.of_same rfl ?_
    rw [h.answered_requests hw, Finset.mem_erase]
    exact and_iff_right (by decide)
  obtain ⟨s₁, hs₁, hkept, hstatics, hwired₁, hmeanwhile⟩ := i8253_spec (h.answered .request) hwired before between
  have hregs : s₁.hw.chips.regs = r.sys.hw.chips.regs := hkept.regs.trans (Chips.acknowledge_regs _ .request)
  obtain ⟨s', htake, hends⟩ := h.serve hw (handlerOf_timer (by omega)) before between frame
    (congrArg Except.ok hs₁.symm) hkept
  refine ⟨s', htake, h.ends hends ?_ hregs hwired₁ ?_ h.idle, ?_⟩
  · rw [List.count_append]
    exact hstatics
  · rw [List.count_append, h.length]
    rfl
  · exact h.left hw hends hkept hmeanwhile

/-- An interrupt of the keyboard. -/
theorem Sound.key (h : Sound stuck sent k bytes r) (hw : first r.sys.hw.chips.wanted = some .keyboard) (hk : 4 ≤ k)
    (before between : List Arrival) (frame : InterruptFrame) :
    ∃ s', takeInterrupt .request before between frame r.sys = .ok (1, s') ∧
      Sound stuck sent k (bytes ++ [r.sys.hw.rest.dev.data]) { r with sys := s', log := r.log ++ [1] } ∧
      Left .keyboard before between r.sys s' := by
  have hmem : .keyboard ∈ r.sys.hw.chips.requests := Finset.mem_of_mem_filter _ (first_eq_some.1 hw).1
  have hwired : Wired True (sent ++ bytes ++ [r.sys.hw.rest.dev.data]) (Init.answered .request r.sys) := by
    refine h.wired.serve hmem rfl ?_
    rw [h.answered_requests hw]
    exact Finset.notMem_erase _ _
  obtain ⟨s₁, hs₁, hkept, hstatics, hwired₁, hmeanwhile⟩ := i8042_spec (h.answered .request) hwired before between
  have hregs : s₁.hw.chips.regs = r.sys.hw.chips.regs := hkept.regs.trans (Chips.acknowledge_regs _ .request)
  obtain ⟨s', htake, hends⟩ := h.serve hw (handlerOf_keyboard (by omega)) before between frame
    hs₁ hkept
  have hstuck : stuck ↔ False := iff_false_intro (h.wired.asks hmem)
  refine ⟨s', htake, h.ends hends ?_ hregs ?_ ?_ fun hs => (hstuck.1 hs).elim, ?_⟩
  · rw [List.count_append]
    exact hstatics
  · rw [← List.append_assoc, propext hstuck]
    exact hwired₁
  · rw [List.count_append, List.length_append, h.length]
    rfl
  · exact h.left hw hends hkept hmeanwhile

/-- An interrupt, whatever the chips answer: the log tells what it did. -/
theorem Sound.interrupt (h : Sound stuck sent k bytes r) (a : Answer) (before between : List Arrival)
    (frame : InterruptFrame) : ∃ irq s' bytes', takeInterrupt a before between frame r.sys = .ok (irq, s') ∧
      Sound stuck sent k bytes' { r with sys := s', log := r.log ++ [irq] } ∧
      Balanced (if irq = 0 then 1 else 0) r.sys s' ∧ s'.hw.rest.pit = r.sys.hw.rest.pit := by
  rcases h.served.quiet.answer a with ⟨w, rfl, hw⟩ | ⟨irq, hirq, hvec, hbusy, hreq⟩
  · rcases h.opened.wanted (first_eq_some.1 hw).1 with ⟨rfl, hk⟩ | ⟨rfl, hk⟩
    · obtain ⟨s', htake, hsound, hleft⟩ := h.tick hw hk before between frame
      exact ⟨0, s', bytes, htake, hsound, hleft.balanced, hleft.pit⟩
    · obtain ⟨s', htake, hsound, hleft⟩ := h.key hw hk before between frame
      exact ⟨1, s', _, htake, hsound, hleft.balanced, hleft.pit⟩
  · obtain ⟨s', htake, hsound, hbalanced, hpit⟩ := h.spurious hirq hvec hbusy hreq before between frame
    refine ⟨irq, s', bytes, htake, hsound, ?_, hpit⟩
    rw [if_neg (show irq ≠ 0 by omega)]
    exact hbalanced

end Sound

end SnakeOS.Init
