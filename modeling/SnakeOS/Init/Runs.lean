/-
The kernel from the first line of `kmain` on, whatever the devices do and whenever the interrupts come.
-/
import SnakeOS.Init.System

namespace SnakeOS.Init

open C Kernel Arch Drivers Term Priority

/-! ## The start -/

/-- The static variables as the loader leaves them; devices, screen and processor are in any state. -/
structure AtBoot (s : System) : Prop where
  table : s.irqTable = Vector.replicate NMBR_IRQS ⟨none, none⟩
  chip : s.irqChipActive = none
  timer : s.hw.rest.timer = Timer.boot
  kbd : s.hw.rest.kbd = KeyboardState.init
  tty : s.hw.rest.tty = ttyActive

/-- A machine at the entry of `kmain`, with empty buffers and a timer chip that was never programmed. -/
def powerOn : System :=
  let counter : Counter := ⟨0, false, .loHi, none, none⟩
  ⟨Vector.replicate NMBR_IRQS ⟨none, none⟩, none, ⟨⟨bootIrq.hw, ⟨∅, ∅⟩, ⟨∅, ∅⟩⟩,
    ⟨⟨counter, counter, counter⟩, ⟨0, false, [], 0, 0⟩, Timer.boot, KeyboardState.init, 0x2, ttyActive⟩⟩, Console.boot⟩

theorem powerOn_atBoot : AtBoot powerOn := ⟨rfl, rfl, rfl, rfl, rfl⟩

/-- A scancode is in the keyboard controller's buffer when `irq_arch_init` is called. -/
def Held (early : List Arrival) (s : System) : Prop := s.hw.rest.dev.full ∨ ∃ b, .scancode b ∈ early

theorem arrive_held (early : List Arrival) (s : System) : (arrive early s).hw.rest.dev.full ↔ Held early s := by
  unfold Held
  induction early generalizing s with
  | nil => simp [arrive]
  | cons d early ih =>
    show (arrive early (d.run s)).hw.rest.dev.full ↔ _
    rw [ih (d.run s)]
    cases d with
    | scancode b =>
      have hfull : (Arrival.run s (.scancode b)).hw.rest.dev.full := by
        unfold Arrival.run
        simp only
        split
        · assumption
        · rfl
      exact iff_of_true (.inl hfull) (.inr ⟨b, List.mem_cons_self⟩)
    | raise w hw =>
      rw [(sameBuffer_raise s hw).full]
      simp

/-- Without a scancode the controller stays as it is. -/
theorem arrive_free {early : List Arrival} {s : System} (h : ¬Held early s) : SameBuffer s (arrive early s) := by
  have hnone : ∀ d ∈ early, ∀ b, d ≠ .scancode b := by
    rintro d hd b rfl
    exact h (.inr ⟨b, hd⟩)
  clear h
  induction early generalizing s with
  | nil => exact ⟨rfl, rfl, rfl⟩
  | cons d early ih =>
    have hrest := ih (s := d.run s) fun d' hd' => hnone d' (List.mem_cons_of_mem _ hd')
    cases d with
    | scancode b => exact absurd rfl (hnone _ List.mem_cons_self b)
    | raise w hw => exact (sameBuffer_raise s hw).trans hrest

theorem interruptsOn_sti (rflags : UInt64) : interruptsOn (rflags ||| RFLAGS_IF) := by
  intro hoff
  have hbit := congrArg (fun x : UInt64 => x.toBitVec.getLsbD 9) hoff
  simp [RFLAGS_IF] at hbit

/-- The state after `irq_arch_init`. -/
def started (early : List Arrival) (s : System) : System :=
  let s := arrive early { s with
    con := (consoleInit s.con s.hw.rest.timer).1, hw.rest.timer := (consoleInit s.con s.hw.rest.timer).2 }
  { s with irqChipActive := some boardChip, hw := s.hw.drive i8259AInit }

theorem kmainStart_eq (early late : List Arrival) (s : System) :
    kmainStart early late s = .ok { arrive late (started early s) with
      con := putcs (Byte.text "Interrupts are enabled!!!\n") (arrive late (started early s)).con
      hw.rest.rflags := (arrive late (started early s)).hw.rest.rflags ||| RFLAGS_IF } := by
  have hprint : ∀ con, kprint (Byte.text "Interrupts are enabled!!!\n") [] con =
      .ok (putcs (Byte.text "Interrupts are enabled!!!\n") con) := fun _ => rfl
  show (do
    let con ← kprint (Byte.text "Interrupts are enabled!!!\n") [] (arrive late (started early s)).con
    return { arrive late (started early s) with
      con, hw.rest.rflags := (arrive late (started early s)).hw.rest.rflags ||| RFLAGS_IF }) = _
  rw [hprint]
  rfl

theorem statics_boot {s : System} (h : AtBoot s) : Statics 0 0 [] { s with
    con := (consoleInit s.con s.hw.rest.timer).1, hw.rest.timer := (consoleInit s.con s.hw.rest.timer).2 } := by
  refine ⟨fun irq hirq => ?_, ?_, ?_, bounded_consoleInit s.con s.hw.rest.timer⟩
  · show s.irqTable[irq] = _
    simp only [h.table, Vector.getElem_replicate]
    simp [handlerOf]
  · show timerRegisterSecsHook (some .vgaDrawClock) s.hw.rest.timer = _
    rw [h.timer]
    rfl
  · show Types ⟨s.hw.rest.kbd, s.hw.rest.rflags, ⟨s.hw.rest.tty, _⟩⟩ Typing.boot
    rw [h.kbd, h.tty]
    exact boot_types _ _

/-- What `kmain` leaves when it turns interrupts on. -/
theorem kmainStart_sound {s₀ : System} (h : AtBoot s₀) (mem : Nat → UInt8) (early late : List Arrival) :
    ∃ s₁ sent, kmainStart early late s₀ = .ok s₁ ∧ (¬Held early s₀ → sent = s₀.hw.rest.dev.sent) ∧
      Sound (Held early s₀) sent 0 [] ⟨kmainSteps mem, s₁, []⟩ := by
  let s : System := { s₀ with
    con := (consoleInit s₀.con s₀.hw.rest.timer).1, hw.rest.timer := (consoleInit s₀.con s₀.hw.rest.timer).2 }
  let t : System := started early s₀
  have hstart := kmainStart_eq early late s₀
  have hchips : t.hw.chips = ⟨i8259AInit (arrive early s).hw.chips.regs, ⟨∅, ∅⟩, ⟨∅, ∅⟩⟩ := Chips.drive_init _
  have hheld : t.hw.rest.dev.full ↔ Held early s₀ := arrive_held early s
  have hserved : Served t := by
    refine ⟨rfl, ?_⟩
    rw [hchips]
    exact ⟨i8259AInit_programmed _, rfl, rfl, Finset.notMem_empty 2⟩
  have hrequests : t.hw.chips.requests = ∅ := by
    rw [hchips]
    rfl
  have hstatics : Statics 0 0 [] t := by
    have ht := (statics_boot h).arrived (arrive_arrived early s)
    exact ⟨ht.table, ht.timer, ⟨ht.types.shift, ht.types.caps, ht.types.unlocked, ht.types.holds⟩, ht.console⟩
  have hwired : Wired (Held early s₀) t.hw.rest.dev.sent t := by
    refine ⟨?_, ?_, ?_⟩
    · rw [hheld, hrequests]
      simp
    · rw [hrequests]
      exact fun hmem => absurd hmem (Finset.notMem_empty _)
    · rw [hrequests, if_neg (Finset.notMem_empty _), List.append_nil]
  have hlate := arrive_arrived late t
  have hdone := (hstatics.arrived hlate).print (Byte.text "Interrupts are enabled!!!\n")
  refine ⟨_, t.hw.rest.dev.sent, hstart, fun hfree => ?_, ⟨?_, ?_, ?_, ?_, ?_, ?_, rfl, fun _ => rfl⟩⟩
  · exact (arrive_free (s := s) hfree).sent
  · have hkept := hserved.kept hlate.kept
    exact ⟨hkept.chip, hkept.quiet⟩
  · exact interruptsOn_sti _
  · exact ⟨hdone.table, hdone.timer, ⟨hdone.types.shift, hdone.types.caps, hdone.types.unlocked, hdone.types.holds⟩,
      hdone.console⟩
  · show Opened 0 (arrive late t).hw.chips.regs
    rw [hlate.kept.regs, hchips]
    exact opened_init _
  · exact kmainSteps_controls mem
  · rw [List.append_nil]
    exact (hwired.arrive late).of_same rfl Iff.rfl

/-! ## Runs -/

theorem Sound.event {stuck : Prop} {sent : List UInt8} {r : Running}
    (h : ∃ k bytes, Sound stuck sent k bytes r) (ev : SystemEvent) :
    ∃ r', ev.run r = .ok r' ∧ ∃ k bytes, Sound stuck sent k bytes r' := by
  obtain ⟨k, bytes, h⟩ := h
  cases ev with
  | step =>
    unfold SystemEvent.run
    cases htodo : r.todo with
    | nil => exact ⟨r, rfl, k, bytes, h⟩
    | cons st todo =>
      obtain ⟨k', h'⟩ := h.step htodo
      exact ⟨_, rfl, k', bytes, h'⟩
  | arrival d => exact ⟨_, rfl, k, bytes, h.arrival d⟩
  | interrupt a before between frame =>
    obtain ⟨irq, s', bytes', htake, h', -⟩ := h.interrupt a before between frame
    exact ⟨_, run_interrupt h.interrupts htake, k, bytes', h'⟩

/-- Every run from the start is without a fault and keeps the invariant. -/
theorem AtBoot.runs {s₀ : System} (h : AtBoot s₀) (mem : Nat → UInt8) (early late : List Arrival) :
    ∃ s₁ sent, kmainStart early late s₀ = .ok s₁ ∧ (¬Held early s₀ → sent = s₀.hw.rest.dev.sent) ∧
      ∀ evs : List SystemEvent, ∃ r, evs.foldlM SystemEvent.run ⟨kmainSteps mem, s₁, []⟩ = .ok r ∧
        ∃ k bytes, Sound (Held early s₀) sent k bytes r := by
  obtain ⟨s₁, sent, hstart, hsent, hsound⟩ := kmainStart_sound h mem early late
  exact ⟨s₁, sent, hstart, hsent, fun evs => Run.foldlM_inv _ (fun _ ev hr => Sound.event hr ev) evs _ ⟨0, [], hsound⟩⟩

/-- Once `kmain` is done, both lines are open. -/
theorem Sound.done {stuck : Prop} {sent : List UInt8} {k : Nat} {bytes : List UInt8} {r : Running}
    (h : Sound stuck sent k bytes r) (htodo : r.todo = []) : 4 ≤ k := by
  have hdrop := h.todo
  rw [htodo] at hdrop
  exact List.drop_eq_nil_iff.1 hdrop.symm

/-- Whatever devices do before, in and after the set-up and whenever the interrupts come, between any two steps of
`kmain`: the kernel does not fault; nothing stays in service; interrupts are on; the tick count is the number of
timer interrupts, modulo its width; the cursor is on the screen; only the lines of the timer and of the keyboard can
ask, each once its handler is in the table, and from the end of `kmain` on both can. -/
theorem kmain_safe {s₀ : System} (h : AtBoot s₀) (mem : Nat → UInt8) (early late : List Arrival) :
    ∃ s₁, kmainStart early late s₀ = .ok s₁ ∧ ∀ evs : List SystemEvent,
      ∃ r, evs.foldlM SystemEvent.run ⟨kmainSteps mem, s₁, []⟩ = .ok r ∧
        (r.sys.hw.chips.master.isr = ∅ ∧ r.sys.hw.chips.slave.isr = ∅) ∧
        interruptsOn r.sys.hw.rest.rflags ∧
        timerGetTicks r.sys.hw.rest.timer = UInt64.ofNat (r.log.count 0) ∧
        (∃ v, r.sys.con.view = some v ∧ v.con.row < 25 ∧ v.con.col < 80) ∧
        (∀ w : Wire, Deliverable w.irq r.sys.hw.chips.regs →
          w = .timer ∧ load r.sys.irqTable 0 = .ok ⟨some .i8253IrqHandle, none⟩ ∨
          w = .keyboard ∧ load r.sys.irqTable 1 = .ok ⟨some .i8042IrqHandler, none⟩) ∧
        (r.todo = [] → ∀ w : Wire, Deliverable w.irq r.sys.hw.chips.regs ↔ w = .timer ∨ w = .keyboard) := by
  obtain ⟨s₁, sent, hstart, -, hruns⟩ := h.runs mem early late
  refine ⟨s₁, hstart, fun evs => ?_⟩
  obtain ⟨r, hrun, k, bytes, hsound⟩ := hruns evs
  obtain ⟨v, hv, hon⟩ := hsound.statics.console
  have hquiet := hsound.served.quiet
  refine ⟨r, hrun, ⟨hquiet.master, hquiet.slave⟩, hsound.interrupts, ?_, ⟨v, hv, hon.row, hon.col⟩, fun w hw => ?_,
    fun htodo w => ?_⟩
  · unfold timerGetTicks
    rw [hsound.statics.timer]
  · rcases (hsound.opened.deliverable_iff w).1 hw with ⟨rfl, hk⟩ | ⟨rfl, hk⟩
    · refine .inl ⟨rfl, ?_⟩
      rw [← handlerOf_timer (show 1 ≤ k by omega)]
      exact hsound.statics.load (show IsLine 0 by decide)
    · refine .inr ⟨rfl, ?_⟩
      rw [← handlerOf_keyboard (show 3 ≤ k by omega)]
      exact hsound.statics.load (show IsLine 1 by decide)
  · have hk := hsound.done htodo
    rw [hsound.opened.deliverable_iff w]
    exact or_congr (and_iff_left (by omega)) (and_iff_left hk)

/-- A scancode comes in before the first step, and an interrupt after the second. -/
theorem kmain_safe_powerOn : ∃ s₁, kmainStart [] [] powerOn = .ok s₁ ∧
    ∃ r, [.arrival (.scancode 0x1E), .step, .step, .interrupt .request [] [] ⟨0, 0, 0, 0⟩].foldlM SystemEvent.run
        ⟨kmainSteps (fun _ => 0), s₁, []⟩ = .ok r ∧ interruptsOn r.sys.hw.rest.rflags := by
  obtain ⟨s₁, hstart, hruns⟩ := kmain_safe powerOn_atBoot (fun _ => 0) [] []
  obtain ⟨r, hrun, -, hon, -⟩ := hruns
    [.arrival (.scancode 0x1E), .step, .step, .interrupt .request [] [] ⟨0, 0, 0, 0⟩]
  exact ⟨s₁, hstart, r, hrun, hon⟩

/-! ## The keyboard -/

/-- A scancode that has been in the controller's buffer since interrupts were set up is there still, and asked for, or
has been handled once, in its turn. When one was there at that time, its interrupt is lost and with it the keyboard:
the buffer stays full and no scancode is handled. -/
theorem scancodes_conserved {s₀ : System} (h : AtBoot s₀) (mem : Nat → UInt8) (early late : List Arrival) :
    ∃ s₁, kmainStart early late s₀ = .ok s₁ ∧ ∀ evs : List SystemEvent,
      ∃ r bytes, evs.foldlM SystemEvent.run ⟨kmainSteps mem, s₁, []⟩ = .ok r ∧
        bytes.length = r.log.count 1 ∧ Types (keyboard r.sys) (typed bytes) ∧
        (¬Held early s₀ →
          r.sys.hw.rest.dev.sent = s₀.hw.rest.dev.sent ++ bytes ++
            (if r.sys.hw.rest.dev.full then [r.sys.hw.rest.dev.data] else []) ∧
          (r.sys.hw.rest.dev.full ↔ .keyboard ∈ r.sys.hw.chips.requests)) ∧
        (Held early s₀ → bytes = [] ∧ r.sys.hw.rest.dev.full ∧ .keyboard ∉ r.sys.hw.chips.requests) := by
  obtain ⟨s₁, sent, hstart, hsent, hruns⟩ := h.runs mem early late
  refine ⟨s₁, hstart, fun evs => ?_⟩
  obtain ⟨r, hrun, k, bytes, hsound⟩ := hruns evs
  obtain ⟨hfull, hasks, hbytes⟩ := hsound.wired
  refine ⟨r, bytes, hrun, hsound.length, hsound.statics.types, fun hfree => ?_, fun hheld => ?_⟩
  · rw [or_iff_right hfree] at hfull
    rw [hbytes, hsent hfree]
    simp only [hfull, and_self]
  · exact ⟨hsound.idle hheld, hfull.2 (.inl hheld), fun hmem => hasks hmem hheld⟩

/-- A scancode that comes in before `irq_arch_init` is never handled. -/
theorem scancodes_conserved_held : ∃ s₁, kmainStart [.scancode 0x1E] [] powerOn = .ok s₁ ∧
    ∃ r, [.step, .arrival (.scancode 0x9E), .interrupt .request [] [] ⟨0, 0, 0, 0⟩].foldlM SystemEvent.run
        ⟨kmainSteps (fun _ => 0), s₁, []⟩ = .ok r ∧ r.sys.hw.rest.dev.full := by
  obtain ⟨s₁, hstart, hruns⟩ := scancodes_conserved powerOn_atBoot (fun _ => 0) [.scancode 0x1E] []
  obtain ⟨r, bytes, hrun, -, -, -, hheld⟩ := hruns
    [.step, .arrival (.scancode 0x9E), .interrupt .request [] [] ⟨0, 0, 0, 0⟩]
  exact ⟨s₁, hstart, r, hrun, (hheld (.inr ⟨0x1E, List.mem_cons_self⟩)).2.1⟩

/-! ## Interrupts while the devices are silent -/

section Silent

variable {stuck : Prop} {sent : List UInt8} {k : Nat} {bytes : List UInt8} {r : Running}

theorem Sound.mem_wanted (h : Sound stuck sent k bytes r) (hk : 4 ≤ k) (w : Wire) :
    w ∈ r.sys.hw.chips.wanted ↔ w ∈ r.sys.hw.chips.requests ∧ (w = .timer ∨ w = .keyboard) := by
  have hopen := h.opened.deliverable_iff w
  rw [and_iff_left (show 2 ≤ k by omega), and_iff_left hk] at hopen
  unfold Chips.wanted
  rw [Finset.mem_filter, hopen]

theorem Sound.wanted_card (h : Sound stuck sent k bytes r) (hk : 4 ≤ k) : r.sys.hw.chips.wanted.card ≤ 2 := by
  have hsub : r.sys.hw.chips.wanted ⊆ {.timer, .keyboard} := by
    intro w hw
    rw [Finset.mem_insert, Finset.mem_singleton]
    exact ((h.mem_wanted hk w).1 hw).2
  exact (Finset.card_le_card hsub).trans Finset.card_le_two

theorem Left.silent {w : Wire} {s s' : System} (h : Left w [] [] s s') :
    s'.hw.chips.requests = s.hw.chips.requests.erase w :=
  Finset.Subset.antisymm (h.asked.trans (Finset.union_empty _).le) h.kept

theorem Sound.takes (h : Sound stuck sent k bytes r) (hk : 4 ≤ k) {w : Wire}
    (hw : first r.sys.hw.chips.wanted = some w) (frame : InterruptFrame) :
    ∃ s' bytes', takeInterrupt .request [] [] frame r.sys = .ok (w.irq, s') ∧
      Sound stuck sent k bytes' { r with sys := s', log := r.log ++ [w.irq] } ∧
      s'.hw.chips.requests = r.sys.hw.chips.requests.erase w := by
  rcases ((h.mem_wanted hk w).1 (first_eq_some.1 hw).1).2 with rfl | rfl
  · obtain ⟨s', htake, hsound, hleft⟩ := h.tick hw (by omega) [] [] frame
    exact ⟨s', bytes, htake, hsound, hleft.silent⟩
  · obtain ⟨s', htake, hsound, hleft⟩ := h.key hw hk [] [] frame
    exact ⟨s', _, htake, hsound, hleft.silent⟩

/-- As many interrupts as there are wanted requests, two at most, serve all of them. -/
theorem Sound.drained (h : Sound stuck sent k bytes r) (hk : 4 ≤ k) (frame : InterruptFrame) :
    ∃ irqs s' bytes' log', Priority.served (takeInterrupt .request [] [] frame) r.sys.hw.chips.wanted.card r.sys =
        .ok (irqs, s') ∧
      Sound stuck sent k bytes' ⟨r.todo, s', log'⟩ ∧ s'.hw.chips.wanted = ∅ := by
  have hstep : ∀ s w, (∃ bytes log, Sound stuck sent k bytes ⟨r.todo, s, log⟩) → first s.hw.chips.wanted = some w →
      ∃ s', takeInterrupt .request [] [] frame s = .ok (w.irq, s') ∧
        (∃ bytes log, Sound stuck sent k bytes ⟨r.todo, s', log⟩) ∧
        s'.hw.chips.wanted = s.hw.chips.wanted.erase w := by
    rintro s w ⟨bytes, log, hs⟩ hw
    obtain ⟨s', bytes', htake, hs', hreq⟩ := hs.takes hk hw frame
    refine ⟨s', htake, ⟨bytes', _, hs'⟩, ?_⟩
    ext w'
    have hs := hs.mem_wanted hk w'
    have hs' := hs'.mem_wanted hk w'
    simp only at hs hs'
    rw [hs', hreq, Finset.mem_erase, Finset.mem_erase, hs, and_assoc]
  obtain ⟨s', hserved, ⟨bytes', log', hs'⟩, hempty⟩ :=
    served_sort hstep _ r.sys rfl ⟨bytes, r.log, h⟩
  exact ⟨_, s', bytes', log', hserved, hs', hempty⟩

end Silent

/-- The steps of `kmain` without anything else. -/
theorem runs_to_end (s : System) (log : List Int) : ∀ todo : List Step, ∃ s',
    (List.replicate todo.length SystemEvent.step).foldlM SystemEvent.run ⟨todo, s, log⟩ = .ok ⟨[], s', log⟩ := by
  intro todo
  induction todo generalizing s with
  | nil => exact ⟨s, rfl⟩
  | cons st todo ih => exact ih (st.run s)

/-- No scancode is in the controller's buffer when `irq_arch_init` is called if and only if the keyboard works: from
every state after `kmain`, with silent devices, two interrupts at most leave the buffer empty and every scancode that
was in it typed, each once and in order. -/
theorem keyboard_works_iff {s₀ : System} (h : AtBoot s₀) (mem : Nat → UInt8) (early late : List Arrival)
    (frame : InterruptFrame) :
    ∃ s₁, kmainStart early late s₀ = .ok s₁ ∧
      (¬Held early s₀ ↔ ∀ (evs : List SystemEvent) (r : Running),
        evs.foldlM SystemEvent.run ⟨kmainSteps mem, s₁, []⟩ = .ok r → r.todo = [] →
          ∃ n irqs s', n ≤ 2 ∧ served (takeInterrupt .request [] [] frame) n r.sys = .ok (irqs, s') ∧
            s'.hw.rest.dev.full = false ∧
            ∃ bytes, s'.hw.rest.dev.sent = s₀.hw.rest.dev.sent ++ bytes ∧ Types (keyboard s') (typed bytes)) := by
  obtain ⟨s₁, sent, hstart, hsent, hruns⟩ := h.runs mem early late
  refine ⟨s₁, hstart, fun hfree evs r hrun htodo => ?_, fun hworks hheld => ?_⟩
  · obtain ⟨r', hrun', k, bytes, hsound⟩ := hruns evs
    obtain rfl := Except.ok.inj (hrun'.symm.trans hrun)
    have hk := hsound.done htodo
    obtain ⟨irqs, s', bytes', log', hserved, hs', hempty⟩ := hsound.drained hk frame
    have hmem : .keyboard ∉ s'.hw.chips.requests := by
      intro hmem
      have hwanted : .keyboard ∈ s'.hw.chips.wanted := (hs'.mem_wanted hk _).2 ⟨hmem, .inr rfl⟩
      rw [hempty] at hwanted
      exact Finset.notMem_empty _ hwanted
    obtain ⟨hfull, -, hbytes⟩ := hs'.wired
    simp only [hmem, if_false, List.append_nil, hsent hfree] at hbytes
    refine ⟨_, irqs, s', hsound.wanted_card hk, hserved, ?_, bytes', hbytes, hs'.statics.types⟩
    rw [← Bool.not_eq_true]
    exact fun h' => (hfull.1 h').elim hfree hmem
  · -- with a scancode held, the buffer is still full after the last step
    obtain ⟨s, hsteps⟩ := runs_to_end s₁ [] (kmainSteps mem)
    obtain ⟨r', hrun', k, bytes, hsound⟩ := hruns (List.replicate (kmainSteps mem).length .step)
    obtain rfl := Except.ok.inj (hrun'.symm.trans hsteps)
    obtain ⟨n, irqs, s', -, hserved, hfull, -⟩ := hworks _ _ hsteps rfl
    have hstep : ∀ t, (∃ bytes log, Sound (Held early s₀) sent k bytes ⟨[], t, log⟩) →
        ∃ irq t', takeInterrupt .request [] [] frame t = .ok (irq, t') ∧
          ∃ bytes log, Sound (Held early s₀) sent k bytes ⟨[], t', log⟩ := by
      rintro t ⟨bytes, log, ht⟩
      obtain ⟨irq, t', bytes', htake, ht', -⟩ := ht.interrupt .request [] [] frame
      exact ⟨irq, t', htake, bytes', _, ht'⟩
    obtain ⟨irqs', s'', hserved', bytes', log', hs''⟩ := served_inv hstep n s ⟨bytes, [], hsound⟩
    obtain ⟨-, rfl⟩ := Prod.mk.inj (Except.ok.inj (hserved'.symm.trans hserved))
    rw [hs''.wired.full.2 (.inl hheld)] at hfull
    cases hfull

/-- Without a scancode at `irq_arch_init` the keyboard works after `kmain`. -/
theorem keyboard_works_powerOn : ∃ s₁, kmainStart [] [] powerOn = .ok s₁ ∧
    ∃ r, (List.replicate (kmainSteps (fun _ => 0)).length SystemEvent.step).foldlM SystemEvent.run
        ⟨kmainSteps (fun _ => 0), s₁, []⟩ = .ok r ∧
      ∃ n irqs s', n ≤ 2 ∧ served (takeInterrupt .request [] [] ⟨0, 0, 0, 0⟩) n r.sys = .ok (irqs, s') ∧
        s'.hw.rest.dev.full = false := by
  have hfree : ¬Held [] powerOn := by
    rintro (hfull | ⟨b, hb⟩)
    · cases hfull
    · cases hb
  obtain ⟨s₁, hstart, hworks⟩ := keyboard_works_iff powerOn_atBoot (fun _ => 0) [] [] ⟨0, 0, 0, 0⟩
  obtain ⟨s, hsteps⟩ := runs_to_end s₁ [] (kmainSteps fun _ => 0)
  obtain ⟨n, irqs, s', hn, hserved, hfull, -⟩ := hworks.1 hfree _ _ hsteps rfl
  exact ⟨s₁, hstart, _, hsteps, n, irqs, s', hn, hserved, hfull⟩

end SnakeOS.Init
