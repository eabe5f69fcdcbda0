/-
The clock overlay and the console text. The seconds hook draws on the last eight cells of row 24
behind the console's back. Two runs are compared, one with the hook coming in between steps of the
console operations and one without it: they differ in these cells only, until a scroll copies the
cells into row 23.
-/
import SnakeOS.Lib.Run
import SnakeOS.Term.Console
import SnakeOS.Term.Window

namespace SnakeOS.Term

open C CLoop

/-! ## The timer tick -/

/-- A call through `timer_secs_hook`. -/
def TimerHook.run : TimerHook → Timer → Vga → Vga
  | .vgaDrawClock => Term.vgaDrawClock

def timerHandleTick (t : Timer) (v : Vga) : Timer × Vga :=
  let t := { t with tick := t.tick + 1 }
  if t.tick % CLOCK_FREQUENCY = 0 then
    match t.timerSecsHook with
    | none => (t, v)
    | some hook => (t, hook.run t v)
  else (t, v)

/-! ## Operations, and the hook in between -/

inductive ConsoleOp
  | putc (c : UInt8)
  | write (str : Option (List UInt8))
  | backspace
  | moveCursor (dx dy : Int)
  | clear

def ConsoleOp.run (s : Console) : ConsoleOp → Console
  | .putc c => consolePutc c s
  | .write str => consoleWrite str s
  | .backspace => consoleBackspace s
  | .moveCursor dx dy => consoleMoveCursor dx dy s
  | .clear => consoleClear s

/-- What a console operation does between two points where the hook can come in. -/
inductive ConsoleStep
  | putc (c : UInt8)
  | backspace
  | moveCursor (dx dy : Int)
  | clear
  deriving DecidableEq

def ConsoleStep.active (v : VgaConsole) : ConsoleStep → VgaConsole
  | .putc c => putcActive c v
  | .backspace => backspaceActive v
  | .moveCursor dx dy => moveCursorActive dx dy v
  | .clear => clearActive v

def ConsoleStep.run (s : Console) (st : ConsoleStep) : Console := s.withActive st.active

/-- The steps of an operation: a string is written character by character. -/
def ConsoleOp.steps : ConsoleOp → List ConsoleStep
  | .putc c => [.putc c]
  | .write none => []
  | .write (some str) => (str.takeWhile (· ≠ 0)).map .putc
  | .backspace => [.backspace]
  | .moveCursor dx dy => [.moveCursor dx dy]
  | .clear => [.clear]

theorem ConsoleOp.run_eq (s : Console) (op : ConsoleOp) : op.run s = op.steps.foldl ConsoleStep.run s := by
  cases op with
  | putc c => rfl
  | write str =>
    cases str with
    | none => rfl
    | some str =>
      simp only [ConsoleOp.run, ConsoleOp.steps, List.foldl_map]
      exact consoleWriteLoop_eq str s
  | backspace => rfl
  | moveCursor dx dy => rfl
  | clear => rfl

theorem ConsoleOp.foldl_run_eq (ops : List ConsoleOp) (s : Console) :
    ops.foldl ConsoleOp.run s = (ops.flatMap ConsoleOp.steps).foldl ConsoleStep.run s := by
  rw [List.foldl_flatMap]
  congr 1
  funext s op
  exact op.run_eq s

/-- One thing that happens to the screen: a step of an operation, or an invocation of the hook. -/
inductive Event
  | step (st : ConsoleStep)
  | clock (t : Timer)

def Event.step? : Event → Option ConsoleStep
  | .step st => some st
  | .clock _ => none

def Event.active (v : VgaConsole) : Event → VgaConsole
  | .step st => st.active v
  | .clock t => { v with vga := vgaDrawClock t v.vga }

/-- The hook draws on the screen whatever the active console is. -/
def Event.run (s : Console) : Event → Console
  | .step st => st.run s
  | .clock t => { s with vga := vgaDrawClock t s.vga }

/-- The events are the steps of the operations with invocations of the hook in between. -/
def Interleaves (evs : List Event) (ops : List ConsoleOp) : Prop :=
  evs.filterMap Event.step? = ops.flatMap ConsoleOp.steps

instance (evs : List Event) (ops : List ConsoleOp) : Decidable (Interleaves evs ops) :=
  inferInstanceAs (Decidable (_ = _))

/-- The run with the hook. -/
def withClock (evs : List Event) (s : Console) : Console := evs.foldl Event.run s

/-- The run of the same operations without the hook. -/
def withoutClock (evs : List Event) (s : Console) : Console := (evs.filterMap Event.step?).foldl ConsoleStep.run s

theorem Interleaves.withoutClock {evs : List Event} {ops : List ConsoleOp} (h : Interleaves evs ops) (s : Console) :
    withoutClock evs s = ops.foldl ConsoleOp.run s := by
  rw [ConsoleOp.foldl_run_eq]
  exact congrArg (List.foldl ConsoleStep.run s) h

/-! ## The text of two runs -/

/-- The cursors are equal and so is every cell outside row 24, columns 72 to 79. -/
structure SameText (v w : VgaConsole) : Prop where
  con : v.con = w.con
  cells : ∀ k < 1992, v.vga.memory k = w.vga.memory k

/-- A step that does not carry a difference out of the overlay: a character that scrolls the screen
finds the overlay's cells equal, but for the one it is stored in. -/
def OverlaySafe (v w : VgaConsole) : ConsoleStep → Prop
  | .putc c => v.con.row = 24 → c = 0x0A ∨ v.con.col = 79 →
      ∀ k, 1992 ≤ k → k < 2000 → (c ≠ 0x0A → k ≠ 1999) → v.vga.memory k = w.vga.memory k
  | _ => True

theorem SameText.pos {v w : VgaConsole} (h : SameText v w) : v.pos = w.pos := by unfold VgaConsole.pos; rw [h.con]

theorem OnScreen.con_eq {v w : VgaConsole} (hv : OnScreen v) (hw : OnScreen w) (h : v.pos = w.pos) : v.con = w.con := by
  obtain ⟨⟨r, c, o⟩, vga⟩ := v
  obtain ⟨⟨r', c', o'⟩, vga'⟩ := w
  have hops := hv.ops.trans hw.ops.symm
  have hcol := hv.col
  have hcol' := hw.col
  unfold VgaConsole.pos at h
  simp only at hops hcol hcol' h
  obtain rfl : r = r' := by omega
  obtain rfl : c = c' := by omega
  rw [hops]

/-- The clock draws on the overlay's cells only. -/
theorem vgaDrawClock_memory (t : Timer) (v : Vga) {k : Nat} (hk : k < 1992) :
    (vgaDrawClock t v).memory k = v.memory k := by
  unfold vgaDrawClock
  refine forUp_inv (fun _ (w : Vga) => w.memory k = v.memory k) (by omega) ?_ rfl
  rintro i w - hi hw
  simp only [VGA_NUM_ROWS, VGA_NUM_COLS]
  rw [vgaPutChar_memory _ _ (by omega) (by omega), Function.update_apply, if_neg (by omega), hw]

/-! ## One step in both runs -/

theorem SameText.clock {v w : VgaConsole} (h : SameText v w) (t : Timer) :
    SameText ((Event.clock t).active v) w :=
  ⟨h.con, fun k hk => (vgaDrawClock_memory t v.vga hk).trans (h.cells k hk)⟩

theorem SameText.stored {v w : VgaConsole} (h : SameText v w) (c : UInt8) {k : Nat} (hk : k < 1992 ∨ 2000 ≤ k) :
    storeAt c v k = storeAt c w k := by
  unfold storeAt
  rw [h.pos]
  split
  · rfl
  · split
    · exact h.cells k (by omega)
    · rfl

/-- Printing a character keeps the text equal exactly when it does not scroll a difference of the
overlays into row 23. -/
theorem SameText.putc_iff {v w : VgaConsole} (h : SameText v w) (hv : OnScreen v) (hw : OnScreen w) (c : UInt8) :
    SameText (putcActive c v) (putcActive c w) ↔ OverlaySafe v w (.putc c) := by
  obtain ⟨hov, hpv, -, hmv⟩ := putcActive_spec hv c
  obtain ⟨how, hpw, -, hmw⟩ := putcActive_spec hw c
  rw [← h.pos] at hpw hmw
  have hcon : (putcActive c v).con = (putcActive c w).con := hov.con_eq how (by omega)
  have hpos : v.pos = 80 * v.con.row + v.con.col := rfl
  have hr := hv.row
  have hc := hv.col
  simp only [OverlaySafe]
  by_cases hs : v.con.row = 24 ∧ (c = 0x0A ∨ v.con.col = 79)
  · have hd : scrollsAt c v.pos = 1 := by
      unfold scrollsAt nextPos
      rcases hs with ⟨hrow, hnl | hcol⟩
      · rw [if_pos hnl, if_neg (by omega)]
      · split
        · rw [if_neg (by omega)]
        · rw [if_neg (by omega)]
    rw [hd] at hmv hmw
    -- the cell that the scroll moves to `k`
    have hcell : ∀ k, 1992 ≤ k → k < 2000 → (storeAt c v k = storeAt c w k ↔
        ((c ≠ 0x0A → k ≠ 1999) → v.vga.memory k = w.vga.memory k)) := by
      intro k hk hk'
      unfold storeAt
      rw [← h.pos, if_pos hk', if_pos hk']
      by_cases hnl : c = 0x0A
      · simp [hnl]
      · have hp : v.pos = 1999 := by have := hs.2.resolve_left hnl; omega
        by_cases hk9 : k = 1999
        · simp [hp, hk9, hnl]
        · simp [hp, hk9]
    constructor
    · intro hsame _ _ k hk hk' hne
      have hkey := hsame.cells (k - 80) (by omega)
      rw [hmv _ (by omega), hmw _ (by omega), show k - 80 + 80 * 1 = k by omega] at hkey
      exact (hcell k hk hk').1 hkey hne
    · intro hsafe
      refine ⟨hcon, fun k hk => ?_⟩
      rw [hmv _ (by omega), hmw _ (by omega)]
      by_cases hov : 1992 ≤ k + 80 * 1 ∧ k + 80 * 1 < 2000
      · exact (hcell _ hov.1 hov.2).2 (hsafe hs.1 hs.2 _ hov.1 hov.2)
      · exact h.stored c (by omega)
  · have hd : scrollsAt c v.pos = 0 := by
      unfold scrollsAt nextPos
      by_cases hnl : c = 0x0A
      · have hrow : v.con.row ≠ 24 := fun hrow => hs ⟨hrow, .inl hnl⟩
        rw [if_pos hnl, if_pos (by omega)]
      · have hlast : ¬(v.con.row = 24 ∧ v.con.col = 79) := fun hl => hs ⟨hl.1, .inr hl.2⟩
        rw [if_neg hnl, if_pos (by omega)]
    rw [hd] at hmv hmw
    constructor
    · exact fun _ hrow hlast => absurd ⟨hrow, hlast⟩ hs
    · intro _
      refine ⟨hcon, fun k hk => ?_⟩
      rw [hmv _ (by omega), hmw _ (by omega)]
      exact h.stored c (.inl (by omega))

theorem vgaPutChar_same {v w : Vga} (h : ∀ k < 1992, v.memory k = w.memory k) (row col : Nat) (c : UInt8) :
    ∀ k < 1992, (vgaPutChar row col c v).memory k = (vgaPutChar row col c w).memory k := by
  intro k hk
  unfold vgaPutChar
  split
  · exact h k hk
  · simp only [write_memory, Function.update_apply]
    split
    · rfl
    · exact h k hk

theorem SameText.backspace {v w : VgaConsole} (h : SameText v w) :
    SameText (backspaceActive v) (backspaceActive w) := by
  unfold backspaceActive
  rw [← h.con]
  simp only
  split
  · split
    · exact h
    · exact ⟨rfl, vgaPutChar_same h.cells _ _ _⟩
  · exact ⟨rfl, vgaPutChar_same h.cells _ _ _⟩

theorem SameText.moveCursor {v w : VgaConsole} (h : SameText v w) (dx dy : Int) :
    SameText (moveCursorActive dx dy v) (moveCursorActive dx dy w) := by
  unfold moveCursorActive
  rw [← h.con]
  exact ⟨rfl, h.cells⟩

theorem SameText.clear {v w : VgaConsole} (h : SameText v w) : SameText (clearActive v) (clearActive w) := by
  unfold clearActive
  rw [← h.con]
  cases v.con.ops with
  | none => exact h
  | some ops =>
    cases ops
    refine ⟨?_, fun k hk => ?_⟩
    · show ({ v.con with row := 0, col := 0 } : Con) = { w.con with row := 0, col := 0 }
      rw [h.con]
    · show (vgaClearScreen v.vga).memory k = (vgaClearScreen w.vga).memory k
      rw [(vgaClearScreen_spec v.vga).1, (vgaClearScreen_spec w.vga).1, if_pos (by omega), if_pos (by omega)]

/-- A step keeps the text equal exactly when it is safe for the overlay. -/
theorem SameText.step_iff {v w : VgaConsole} (h : SameText v w) (hv : OnScreen v) (hw : OnScreen w) (st : ConsoleStep) :
    SameText (st.active v) (st.active w) ↔ OverlaySafe v w st := by
  cases st with
  | putc c => exact h.putc_iff hv hw c
  | backspace => exact iff_of_true h.backspace trivial
  | moveCursor dx dy => exact iff_of_true (h.moveCursor dx dy) trivial
  | clear => exact iff_of_true h.clear trivial

theorem OnScreen.step {v : VgaConsole} (h : OnScreen v) (st : ConsoleStep) : OnScreen (st.active v) := by
  cases st with
  | putc c => exact (putcActive_spec h c).1
  | backspace => exact (backspaceActive_spec h).1
  | moveCursor dx dy => exact h.moveCursor dx dy
  | clear =>
    unfold ConsoleStep.active clearActive
    rw [h.ops]
    exact ⟨h.ops, Nat.succ_pos 24, Nat.succ_pos 79⟩

theorem OnScreen.event {v : VgaConsole} (h : OnScreen v) (ev : Event) : OnScreen (ev.active v) := by
  cases ev with
  | step st => exact h.step st
  | clock t => exact ⟨h.ops, h.row, h.col⟩

/-! ## Both runs -/

theorem view_step (s : Console) (st : ConsoleStep) : (st.run s).view = s.view.map st.active :=
  Console.view_withActive _ s

theorem view_event (s : Console) (ev : Event) : (ev.run s).view = s.view.map ev.active := by
  cases ev with
  | step st => exact view_step s st
  | clock t =>
    unfold Event.run Console.view
    rw [Option.map_map]
    rfl

/-- The active consoles of the two runs, when both are on the screen. -/
structure Views (s t : Console) (v w : VgaConsole) : Prop where
  left : s.view = some v
  right : t.view = some w
  screenLeft : OnScreen v
  screenRight : OnScreen w

/-- The text of the active consoles is the same. -/
def TextAgrees (s t : Console) : Prop := ∃ v w, s.view = some v ∧ t.view = some w ∧ SameText v w

/-- The step is safe for the overlays of the active consoles. -/
def StepSafe (s t : Console) (st : ConsoleStep) : Prop :=
  ∀ v w, s.view = some v → t.view = some w → OverlaySafe v w st

theorem Views.textAgrees_iff {s t : Console} {v w : VgaConsole} (h : Views s t v w) :
    TextAgrees s t ↔ SameText v w := by
  constructor
  · rintro ⟨v', w', hv, hw, hsame⟩
    obtain rfl := Option.some.inj (h.left.symm.trans hv)
    obtain rfl := Option.some.inj (h.right.symm.trans hw)
    exact hsame
  · exact fun hsame => ⟨v, w, h.left, h.right, hsame⟩

theorem Views.stepSafe_iff {s t : Console} {v w : VgaConsole} (h : Views s t v w) (st : ConsoleStep) :
    StepSafe s t st ↔ OverlaySafe v w st := by
  constructor
  · exact fun hsafe => hsafe v w h.left h.right
  · intro hsafe v' w' hv hw
    obtain rfl := Option.some.inj (h.left.symm.trans hv)
    obtain rfl := Option.some.inj (h.right.symm.trans hw)
    exact hsafe

theorem Views.step {s t : Console} {v w : VgaConsole} (h : Views s t v w) (st : ConsoleStep) :
    Views (st.run s) (st.run t) (st.active v) (st.active w) :=
  ⟨by rw [view_step, h.left]; rfl, by rw [view_step, h.right]; rfl, h.screenLeft.step st, h.screenRight.step st⟩

theorem Views.clock {s t : Console} {v w : VgaConsole} (h : Views s t v w) (tm : Timer) :
    Views ((Event.clock tm).run s) t ((Event.clock tm).active v) w :=
  ⟨by rw [view_event, h.left]; rfl, h.right, h.screenLeft.event _, h.screenRight⟩

theorem withClock_snoc (pre : List Event) (ev : Event) (s : Console) :
    withClock (pre ++ [ev]) s = ev.run (withClock pre s) := by
  unfold withClock
  rw [List.foldl_append]
  rfl

theorem withoutClock_step (pre : List Event) (st : ConsoleStep) (s : Console) :
    withoutClock (pre ++ [.step st]) s = st.run (withoutClock pre s) := by
  unfold withoutClock
  rw [List.filterMap_append, List.foldl_append]
  rfl

theorem withoutClock_clock (pre : List Event) (t : Timer) (s : Console) :
    withoutClock (pre ++ [.clock t]) s = withoutClock pre s := by
  unfold withoutClock
  rw [List.filterMap_append, List.foldl_append]
  rfl

theorem views_run {s : Console} {v : VgaConsole} (hv : s.view = some v) (h : OnScreen v) (evs : List Event) :
    ∃ v' w', Views (withClock evs s) (withoutClock evs s) v' w' := by
  induction evs using List.reverseRecOn with
  | nil => exact ⟨v, v, hv, hv, h, h⟩
  | append_singleton pre ev ih =>
    obtain ⟨v', w', h'⟩ := ih
    rw [withClock_snoc]
    cases ev with
    | step st => rw [withoutClock_step]; exact ⟨_, _, h'.step st⟩
    | clock t => rw [withoutClock_clock]; exact ⟨_, _, h'.clock t⟩

/-- One more event keeps the text of the two runs equal exactly when it is the hook or a safe step. -/
theorem textAgrees_snoc {s : Console} {v : VgaConsole} (hv : s.view = some v) (h : OnScreen v) (pre : List Event)
    (ev : Event) (hpre : TextAgrees (withClock pre s) (withoutClock pre s)) :
    TextAgrees (withClock (pre ++ [ev]) s) (withoutClock (pre ++ [ev]) s) ↔
      ∀ st, ev = .step st → StepSafe (withClock pre s) (withoutClock pre s) st := by
  obtain ⟨v', w', h'⟩ := views_run hv h pre
  have hsame := h'.textAgrees_iff.1 hpre
  rw [withClock_snoc]
  cases ev with
  | step st =>
    rw [withoutClock_step, Event.run, (h'.step st).textAgrees_iff, hsame.step_iff h'.screenLeft h'.screenRight]
    constructor
    · rintro hsafe _ ⟨⟩
      exact (h'.stepSafe_iff st).2 hsafe
    · exact fun hsafe => (h'.stepSafe_iff st).1 (hsafe st rfl)
  | clock t =>
    rw [withoutClock_clock, (h'.clock t).textAgrees_iff]
    exact iff_of_true (hsame.clock t) (fun _ hst => nomatch hst)

/-- From any console on the screen, whatever the operations and wherever the hook comes in between
their steps: the text of the two runs is the same all along exactly when every character that
scrolls the screen finds the overlay's cells of the two runs equal, but for the cell it fills. -/
theorem text_undisturbed_iff (s : Console) (v : VgaConsole) (hv : s.view = some v) (h : OnScreen v)
    (ops : List ConsoleOp) (evs : List Event) (hi : Interleaves evs ops) :
    withoutClock evs s = ops.foldl ConsoleOp.run s ∧
      ((∀ pre, pre <+: evs → TextAgrees (withClock pre s) (withoutClock pre s)) ↔
        ∀ pre ev, pre ++ [ev] <+: evs →
          ∀ st, ev = .step st → StepSafe (withClock pre s) (withoutClock pre s) st) :=
  ⟨hi.withoutClock s, Run.forall_prefix_iff ⟨v, v, hv, hv, rfl, fun _ _ => rfl⟩
    fun pre ev _ => textAgrees_snoc hv h pre ev⟩

/-- The clock is drawn before and after a character of the overlay is deleted. -/
theorem text_undisturbed_iff_backspace :
    let evs : List Event := [.step (.moveCursor 79 24), .clock ⟨100, none⟩, .step .backspace, .clock ⟨200, none⟩]
    ∀ pre, pre <+: evs → TextAgrees (withClock pre (consoleInit Console.boot Timer.boot).1)
      (withoutClock pre (consoleInit Console.boot Timer.boot).1) := by
  intro evs
  obtain ⟨v, hv, hw⟩ := Cleared.window (.inl ⟨Console.boot, Timer.boot, rfl⟩)
  refine (text_undisturbed_iff _ v hv hw.onScreen [.moveCursor 79 24, .backspace] evs (by decide)).2.2 ?_
  rintro pre ev hp st rfl
  have hst : Event.step st ∈ evs := hp.subset (List.mem_append_right _ (List.mem_singleton_self _))
  have hcase : st = .moveCursor 79 24 ∨ st = .backspace := by simpa [evs] using hst
  rcases hcase with rfl | rfl
  · exact fun _ _ _ _ => trivial
  · exact fun _ _ _ _ => trivial

/-! ## A scroll that takes the clock along -/

/-- A character printed, as an event. -/
def printed (c : UInt8) : Event := .step (.putc c)

theorem view_withClock_printed (cs : List UInt8) (s : Console) :
    (withClock (cs.map printed) s).view = s.view.map (putcsActive cs) := by
  rw [← view_putcs]
  unfold withClock putcs
  rw [List.foldl_map]
  rfl

theorem view_withoutClock_printed (cs : List UInt8) (s : Console) :
    (withoutClock (cs.map printed) s).view = s.view.map (putcsActive cs) := by
  have hsteps : (cs.map printed).filterMap Event.step? = cs.map .putc := by
    rw [List.filterMap_map]
    exact congrFun (List.filterMap_eq_map' ..) cs
  rw [← view_putcs]
  unfold withoutClock putcs
  rw [hsteps, List.foldl_map]
  rfl

/-- One second after boot the clock begins with a zero. -/
theorem vgaDrawClock_first (v : Vga) : (vgaDrawClock ⟨100, some .vgaDrawClock⟩ v).memory 1992 = cellOf 0x30 := by rfl

/-- After 24 newlines on a new console the clock is drawn and a 25th newline is printed: a digit of
the clock is left in row 23. -/
theorem clock_disturbs_text : ¬ ∀ s v, s.view = some v → OnScreen v → ∀ ops evs, Interleaves evs ops →
    TextAgrees (withClock evs s) (ops.foldl ConsoleOp.run s) := by
  intro hall
  obtain ⟨v, hv, hw⟩ := Cleared.window (.inl ⟨Console.boot, Timer.boot, rfl⟩)
  have hon := hw.onScreen
  generalize (consoleInit Console.boot Timer.boot).1 = s at hv
  let lines : List UInt8 := List.replicate 24 0x0A
  let t : Timer := ⟨100, some .vgaDrawClock⟩
  let pre : List Event := lines.map printed ++ [.clock t]
  have hpre : Interleaves pre [.write (some lines)] := by decide
  have hall' : Interleaves (pre ++ [printed 0x0A]) [.write (some (lines ++ [0x0A]))] := by decide
  have h1 := hall s v hv hon _ _ hpre
  have h2 := hall s v hv hon _ _ hall'
  rw [← hpre.withoutClock] at h1
  rw [← hall'.withoutClock] at h2
  have hsafe := (textAgrees_snoc hv hon pre (printed 0x0A) h1).1 h2 _ rfl
  have hlines : Window (putcsActive lines v) (Paper.write 80 0x0A Paper.blank lines) :=
    Run.foldl_sim Window (fun v p c h => h.putc c) lines v Paper.blank hw
  have hrow : (putcsActive lines v).con.row = 24 := by
    have := hlines.row
    rw [show (Paper.write 80 0x0A Paper.blank lines).top 25 = 0 by decide,
      show (Paper.write 80 0x0A Paper.blank lines).row = 24 by decide] at this
    exact this
  have hcell : (putcsActive lines v).vga.memory 1992 = blank :=
    (hlines.cells 24 (by decide) 72 (by decide)).trans (by decide)
  have hleft : (withClock pre s).view = some ((Event.clock t).active (putcsActive lines v)) := by
    rw [withClock_snoc, view_event, view_withClock_printed, hv]
    rfl
  have hright : (withoutClock pre s).view = some (putcsActive lines v) := by
    rw [withoutClock_clock, view_withoutClock_printed, hv]
    rfl
  have hkey := hsafe _ _ hleft hright hrow (.inl rfl) 1992 (by decide) (by decide) (fun hne => absurd rfl hne)
  rw [hcell] at hkey
  exact absurd ((vgaDrawClock_first _).symm.trans hkey) (by decide)

end SnakeOS.Term
