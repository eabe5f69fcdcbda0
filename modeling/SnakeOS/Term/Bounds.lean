/-
The cursor never leaves the screen: `console_init` puts it on the screen and every console operation keeps it
there, for all bytes and all movements. So the check in `vga_put_char` never fails, and whatever is drawn is
drawn on the cell it is meant for.
-/
import SnakeOS.Term.Clock

namespace SnakeOS.Term

open C

/-! ## What is drawn -/

/-- Each step draws what it is to draw: a character on the cursor's cell, before the screen scrolls; a blank on
the cell before the cursor's; blanks on all cells. -/
def Draws (v : VgaConsole) : ConsoleStep → Prop
  | .putc c => putcActive c v = checkScroll (putAdvance c v) ∧ (c ≠ 0x0A → (putAdvance c v).vga.memory =
      Function.update v.vga.memory (80 * v.con.row + v.con.col) (cellOf c))
  | .backspace => 0 < 80 * v.con.row + v.con.col → (backspaceActive v).vga.memory =
      Function.update v.vga.memory (80 * v.con.row + v.con.col - 1) blank
  | .moveCursor dx dy => (moveCursorActive dx dy v).vga = v.vga
  | .clear => ∀ k < 2000, (clearActive v).vga.memory k = blank

theorem putAdvance_memory {v : VgaConsole} (h : OnScreen v) {c : UInt8} (hc : c ≠ 0x0A) :
    (putAdvance c v).vga.memory = Function.update v.vga.memory v.pos (cellOf c) := by
  unfold putAdvance
  rw [if_neg hc]
  simp only
  split
  · exact vgaPutChar_memory c v.vga h.row h.col
  · exact vgaPutChar_memory c v.vga h.row h.col

/-- The bounds of the cursor are what the check of `vga_put_char` asks for. -/
theorem OnScreen.draws {v : VgaConsole} (h : OnScreen v) (st : ConsoleStep) : Draws v st := by
  cases st with
  | putc c =>
    refine ⟨?_, putAdvance_memory h⟩
    unfold putcActive
    rw [h.ops]
    rfl
  | backspace =>
    intro hpos
    obtain ⟨-, -, -, hmem⟩ := backspaceActive_spec h
    rw [hmem]
    exact if_neg (Nat.ne_of_gt hpos)
  | moveCursor dx dy =>
    unfold Draws moveCursorActive
    rfl
  | clear =>
    intro k hk
    unfold clearActive
    rw [h.ops]
    exact ((vgaClearScreen_spec v.vga).1 k).trans (if_pos hk)

/-! ## From `console_init` on -/

/-- The active console is one whose cursor is on the screen. -/
def Bounded (s : Console) : Prop := ∃ v, s.view = some v ∧ OnScreen v

theorem bounded_consoleInit (s : Console) (t : Timer) : Bounded (consoleInit s t).1 := by
  obtain ⟨v, hv, hw⟩ := Cleared.window (Or.inl ⟨s, t, rfl⟩)
  exact ⟨v, hv, hw.onScreen⟩

theorem Bounded.step {s : Console} (h : Bounded s) (st : ConsoleStep) : Bounded (st.run s) := by
  obtain ⟨v, hv, hon⟩ := h
  refine ⟨st.active v, ?_, hon.step st⟩
  rw [view_step, hv]
  rfl

theorem Bounded.steps {s : Console} (h : Bounded s) (steps : List ConsoleStep) :
    Bounded (steps.foldl ConsoleStep.run s) :=
  Run.foldl_inv Bounded (fun _ st hs => hs.step st) steps s h

/-- From `console_init` on, whatever operations follow: the cursor is on the screen after all of them, and after
each of their steps; and the next step draws what it is to draw. -/
theorem cursor_stays_on_screen (s₀ : Console) (t₀ : Timer) (ops : List ConsoleOp) :
    (∃ v, (ops.foldl ConsoleOp.run (consoleInit s₀ t₀).1).view = some v ∧ v.con.row < 25 ∧ v.con.col < 80) ∧
    ops.foldl ConsoleOp.run (consoleInit s₀ t₀).1 =
      (ops.flatMap ConsoleOp.steps).foldl ConsoleStep.run (consoleInit s₀ t₀).1 ∧
    ∀ pre st, pre ++ [st] <+: ops.flatMap ConsoleOp.steps →
      ∃ v, (pre.foldl ConsoleStep.run (consoleInit s₀ t₀).1).view = some v ∧ v.con.row < 25 ∧ v.con.col < 80 ∧
        ((pre ++ [st]).foldl ConsoleStep.run (consoleInit s₀ t₀).1).view = some (st.active v) ∧ Draws v st := by
  have hinit := bounded_consoleInit s₀ t₀
  have hops := ConsoleOp.foldl_run_eq ops (consoleInit s₀ t₀).1
  refine ⟨?_, hops, ?_⟩
  · obtain ⟨v, hv, hon⟩ := hinit.steps (ops.flatMap ConsoleOp.steps)
    rw [← hops] at hv
    exact ⟨v, hv, hon.row, hon.col⟩
  · intro pre st _
    obtain ⟨v, hv, hon⟩ := hinit.steps pre
    refine ⟨v, hv, hon.row, hon.col, ?_, hon.draws st⟩
    rw [List.foldl_append]
    show (st.run (pre.foldl ConsoleStep.run (consoleInit s₀ t₀).1)).view = _
    rw [view_step, hv]
    rfl

end SnakeOS.Term
