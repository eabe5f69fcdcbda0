/-
The timer from the clocks of its chip to `timer_get_seconds`: each edge of the chip's output is one tick, unless it
comes while the tick before it is still to be taken.
-/
import SnakeOS.Init.Runs

namespace SnakeOS.Init

open C Kernel Arch Drivers Term

/-! ## The chip -/

/-- What a step of `kmain` writes to the timer chip. -/
def Step.program (pit : Pit) : Step → Pit
  | .pit port value => pit.outb port value
  | _ => pit

theorem Step.run_pit (s : System) (st : Step) : (st.run s).hw.rest.pit = st.program s.hw.rest.pit := by
  cases st <;> rfl

theorem putc_pit (cs : List UInt8) (pit : Pit) : (cs.map Step.putc).foldl Step.program pit = pit := by
  induction cs with
  | nil => rfl
  | cons c cs ih => exact ih

/-- All that `kmain` writes to the chip is its program. -/
theorem kmainSteps_pit (mem : Nat → UInt8) (pit : Pit) : (kmainSteps mem).foldl Step.program pit = pitProgram pit := by
  have hprogram : pitSteps.foldl Step.program pit = pitProgram pit := rfl
  unfold kmainSteps requestSteps
  simp only [List.foldl_append, putc_pit, hprogram]
  rfl

/-! ## Ticks -/

theorem Step.run_balanced (s : System) (st : Step) : Balanced 0 s (st.run s) := by
  cases st with
  | unmask irq =>
    refine .of_same rfl rfl ?_
    show (s.hw.chips.drive (i8259AUnmaskIrq irq)).requests = _
    rw [Chips.drive_unmask]
    rfl
  | _ => exact .of_same rfl rfl rfl

/-- What the timer's part of a run keeps, from `s₁` on. -/
structure Timed (mem : Nat → UInt8) (s₁ : System) (r : Running) : Prop where
  sound : ∃ stuck sent k bytes, Sound stuck sent k bytes r
  balanced : Balanced (r.log.count 0) s₁ r.sys
  pit : ∃ done, kmainSteps mem = done ++ r.todo ∧ r.sys.hw.rest.pit = done.foldl Step.program s₁.hw.rest.pit

theorem Timed.event {mem : Nat → UInt8} {s₁ : System} {r : Running} (h : Timed mem s₁ r) (ev : SystemEvent) :
    ∃ r', ev.run r = .ok r' ∧ Timed mem s₁ r' := by
  obtain ⟨⟨stuck, sent, k, bytes, hsound⟩, hbalanced, done, hsteps, hpit⟩ := h
  cases ev with
  | step =>
    unfold SystemEvent.run
    cases htodo : r.todo with
    | nil => exact ⟨r, rfl, ⟨stuck, sent, k, bytes, hsound⟩, hbalanced, done, hsteps, hpit⟩
    | cons st todo =>
      obtain ⟨k', hsound'⟩ := hsound.step htodo
      refine ⟨_, rfl, ⟨stuck, sent, k', bytes, hsound'⟩, hbalanced.trans (st.run_balanced r.sys), done ++ [st], ?_, ?_⟩
      · rw [hsteps, htodo, List.append_assoc]
        rfl
      · rw [List.foldl_append, ← hpit]
        exact Step.run_pit r.sys st
  | arrival d =>
    refine ⟨_, rfl, ⟨stuck, sent, k, bytes, hsound.arrival d⟩, hbalanced.trans (d.run_balanced r.sys), done, hsteps, ?_⟩
    show (d.run r.sys).hw.rest.pit = _
    rw [(d.run_arrived r.sys).same]
    exact hpit
  | interrupt a before between frame =>
    obtain ⟨irq, s', bytes', htake, hsound', hbalanced', hpit'⟩ := hsound.interrupt a before between frame
    refine ⟨_, run_interrupt hsound.interrupts htake, ⟨stuck, sent, k, bytes', hsound'⟩, ?_, done, hsteps,
      hpit'.trans hpit⟩
    rw [List.count_append, List.count_singleton]
    simpa using hbalanced.trans hbalanced'

theorem latched_le_one (s : System) : latched s ≤ 1 := by
  unfold latched
  split
  · exact le_rfl
  · exact Nat.zero_le 1

/-- Whatever state the timer chip is in before: once `kmain` is done channel 0 counts from 11931 in mode 3 and the
other channels are as they were. In every run in which the timer's line has risen as often as the output of such a
counter in `clocks` clocks, `timer_get_seconds` is never more than one tick ahead of the chip, 1193100 clocks to the
second; and when no edge came while the request of the one before was latched, it is never more than one behind. -/
theorem clock_follows_pit {s₀ : System} (h : AtBoot s₀) (mem : Nat → UInt8) (early late : List Arrival) :
    ∃ s₁, kmainStart early late s₀ = .ok s₁ ∧ ∀ evs : List SystemEvent,
      ∃ r, evs.foldlM SystemEvent.run ⟨kmainSteps mem, s₁, []⟩ = .ok r ∧
        (r.todo = [] →
          r.sys.hw.rest.pit = { s₁.hw.rest.pit with ch0 := ⟨3, false, .loHi, none, some 11931⟩ }) ∧
        ∀ clocks, r.sys.hw.rest.dev.edges = s₁.hw.rest.dev.edges + rises 11931 clocks → clocks / 11931 + 1 < 2 ^ 64 →
          (timerGetSeconds r.sys.hw.rest.timer).toNat * 1193100 ≤ clocks + 11931 ∧
          (r.sys.hw.rest.dev.lost = s₁.hw.rest.dev.lost →
            clocks < ((timerGetSeconds r.sys.hw.rest.timer).toNat + 1) * 1193100 + 11931) := by
  obtain ⟨s₁, sent, hstart, -, hsound⟩ := kmainStart_sound h mem early late
  have htimed : Timed mem s₁ ⟨kmainSteps mem, s₁, []⟩ :=
    ⟨⟨_, sent, 0, [], hsound⟩, .of_same rfl rfl rfl, [], rfl, rfl⟩
  refine ⟨s₁, hstart, fun evs => ?_⟩
  obtain ⟨r, hrun, ⟨stuck, sent, k, bytes, hr⟩, ⟨hedges, hlost⟩, done, hsteps, hpit⟩ :=
    Run.foldlM_inv _ (fun _ ev hr => Timed.event hr ev) evs _ htimed
  refine ⟨r, hrun, fun htodo => ?_, fun clocks hclocks hlt => ?_⟩
  · rw [htodo, List.append_nil] at hsteps
    rw [hpit, ← hsteps, kmainSteps_pit, pitProgram_eq]
  · rw [hclocks, rises_eq (by decide)] at hedges
    have hone := latched_le_one s₁
    have hone' := latched_le_one r.sys
    have hticks : (timerGetSeconds r.sys.hw.rest.timer).toNat = r.log.count 0 / 100 := by
      unfold timerGetSeconds
      rw [hr.statics.timer, UInt64.toNat_div, UInt64.toNat_ofNat', Nat.mod_eq_of_lt (by omega)]
      rfl
    rw [hticks]
    exact ⟨by omega, fun hnone => by omega⟩

/-- The steps of `kmain`, and then 101 edges, the interrupt of each taken before the next. -/
def secondEvents : List SystemEvent :=
  List.replicate (kmainSteps fun _ => 0).length .step ++ (List.replicate 101
    [.arrival (.raise .timer (by decide)), .interrupt .request [] [] ⟨0, 0, 0, 0⟩]).flatten

/-- After the clocks of 101 edges the bounds leave one second only. -/
theorem clock_follows_pit_second : ∃ s₁ r, kmainStart [] [] powerOn = .ok s₁ ∧
    secondEvents.foldlM SystemEvent.run ⟨kmainSteps (fun _ => 0), s₁, []⟩ = .ok r ∧ r.log = List.replicate 101 0 ∧
      r.sys.hw.rest.pit = { s₁.hw.rest.pit with ch0 := ⟨3, false, .loHi, none, some 11931⟩ } ∧
      r.sys.hw.rest.dev.edges = s₁.hw.rest.dev.edges + rises 11931 1205031 ∧
      (timerGetSeconds r.sys.hw.rest.timer).toNat = 1 := by
  obtain ⟨s₁, hstart, hruns⟩ := clock_follows_pit powerOn_atBoot (fun _ => 0) [] []
  obtain ⟨r, hrun, hpit, hclock⟩ := hruns secondEvents
  have hend : (kmainStart [] [] powerOn >>= fun s₁ =>
      secondEvents.foldlM SystemEvent.run ⟨kmainSteps (fun _ => 0), s₁, []⟩ >>= fun r =>
        .ok (s₁.hw.rest.dev, r.sys.hw.rest.dev, r.log, r.todo)).toOption =
      some (⟨0, false, [], 0, 0⟩, ⟨0, false, [], 101, 0⟩, List.replicate 101 0, []) := by
    decide +kernel
  rw [hstart] at hend
  simp only [ok_bind, hrun, Except.toOption, Option.some.injEq, Prod.mk.injEq] at hend
  obtain ⟨hdev, hdev', hlog, htodo⟩ := hend
  have hedges : r.sys.hw.rest.dev.edges = s₁.hw.rest.dev.edges + rises 11931 1205031 := by
    rw [hdev, hdev', rises_eq (by decide)]
  obtain ⟨hahead, hbehind⟩ := hclock 1205031 hedges (by decide)
  have hnone := hbehind (by rw [hdev, hdev'])
  exact ⟨s₁, r, hstart, hrun, hlog, hpit htodo, hedges, by omega⟩

end SnakeOS.Init
