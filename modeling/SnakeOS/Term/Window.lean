/-
The text screen as a window over unbounded paper: whatever is printed after the screen is cleared,
its rows are the last rows of the paper typed so far, and the cursor is the paper's.
-/
import SnakeOS.Lib.Paper
import SnakeOS.Lib.Run
import SnakeOS.Term.Console

namespace SnakeOS.Term

/-! ## Printing -/

/-- One call that prints: `console_putc` of any byte, or `console_write` of a string. -/
inductive Output
  | putc (c : UInt8)
  | write (str : List UInt8)

def Output.run (s : Console) : Output → Console
  | .putc c => consolePutc c s
  | .write str => consoleWrite (some str) s

/-- The bytes a call prints: a string ends at its first zero byte. -/
def Output.bytes : Output → List UInt8
  | .putc c => [c]
  | .write str => str.takeWhile (· ≠ 0)

theorem Output.run_eq (s : Console) (o : Output) : o.run s = putcs o.bytes s := by
  cases o with
  | putc c => rfl
  | write str => exact consoleWriteLoop_eq str s

theorem outputs_eq (outs : List Output) (s : Console) :
    outs.foldl Output.run s = putcs (outs.flatMap Output.bytes) s := by
  unfold putcs
  rw [List.foldl_flatMap]
  congr 1
  funext s o
  exact o.run_eq s

/-! ## The window -/

/-- What a screen cell shows of a paper cell. -/
def shown : Option UInt8 → VgaChar
  | none => blank
  | some c => cellOf c

/-- The screen shows the last rows of the paper and the cursors agree. -/
structure Window (v : VgaConsole) (p : Paper UInt8) : Prop where
  onScreen : OnScreen v
  row : v.con.row + p.top 25 = p.row
  col : v.con.col = p.col
  cells : ∀ i < 25, ∀ j < 80, v.vga.memory (80 * i + j) = shown (p.cell (p.top 25 + i) j)
  below : p.BlankBelow

/-- Where a character goes on the screen and on the paper it is a window of. -/
theorem Window.put_pos {v : VgaConsole} {p : Paper UInt8} (h : Window v p) (c : UInt8) :
    (Paper.put 80 0x0A p c).top 25 = p.top 25 + scrollsAt c v.pos ∧
      nextPos c v.pos = 80 * ((Paper.put 80 0x0A p c).row - p.top 25) + (Paper.put 80 0x0A p c).col ∧
      (Paper.put 80 0x0A p c).col < 80 := by
  have hr := h.row
  have hc := h.col
  have hrow := h.onScreen.row
  have hcol := h.onScreen.col
  have hp := h.onScreen.pos_div
  have hlt := h.onScreen.pos_lt
  have hpos : v.pos = 80 * v.con.row + v.con.col := rfl
  unfold scrollsAt nextPos Paper.put Paper.top at *
  by_cases hn : c = 0x0A
  · simp only [hn, if_true] at *
    refine ⟨?_, by omega, by omega⟩
    split <;> omega
  · simp only [hn, if_false] at *
    by_cases hw : p.col + 1 = 80
    · rw [if_pos hw]
      refine ⟨?_, by simp only; omega, by simp⟩
      simp only
      split <;> omega
    · rw [if_neg hw]
      refine ⟨?_, by simp only; omega, by simp only; omega⟩
      simp only
      rw [if_pos (by omega)]
      rfl

/-- Printing a character keeps the screen a window over the paper. -/
theorem Window.putc {v : VgaConsole} {p : Paper UInt8} (h : Window v p) (c : UInt8) :
    Window (putcActive c v) (Paper.put 80 0x0A p c) := by
  obtain ⟨hon, hpos, -, hmem⟩ := putcActive_spec h.onScreen c
  obtain ⟨htop, hnext, hcol⟩ := h.put_pos c
  have hle := Paper.put_row_le 80 0x0A p c
  have hr := h.row
  have hdiv : (putcActive c v).con.row + scrollsAt c v.pos = (Paper.put 80 0x0A p c).row - p.top 25 ∧
      (putcActive c v).con.col = (Paper.put 80 0x0A p c).col := by
    have := hon.col
    have hpos' : 80 * (putcActive c v).con.row + (putcActive c v).con.col + 80 * scrollsAt c v.pos =
      nextPos c v.pos := hpos
    omega
  refine ⟨hon, by omega, hdiv.2, fun i hi j hj => ?_, Paper.put_blankBelow h.below c⟩
  rw [hmem _ (by omega), htop, Paper.put_cell]
  -- the cell of the screen before the scroll that is shown at row `i`
  rw [show 80 * i + j + 80 * scrollsAt c v.pos = 80 * (i + scrollsAt c v.pos) + j by omega,
    show p.top 25 + scrollsAt c v.pos + i = p.top 25 + (i + scrollsAt c v.pos) by omega]
  have hd : scrollsAt c v.pos ≤ 1 := by unfold scrollsAt; split <;> omega
  generalize i + scrollsAt c v.pos = i' at *
  have hcell : (if 80 * i' + j < 2000 then v.vga.memory (80 * i' + j) else Term.blank) =
      shown (p.cell (p.top 25 + i') j) := by
    by_cases hi' : i' < 25
    · rw [if_pos (by omega)]; exact h.cells i' hi' j hj
    · rw [if_neg (by omega), h.below _ _ (by have := h.onScreen.row; omega)]
      rfl
  unfold storeAt Paper.store
  by_cases hn : c = 0x0A
  · rw [if_neg (by simp [hn]), if_pos hn]; exact hcell
  · rw [if_neg hn]
    have hcur : 80 * i' + j = v.pos ↔ p.top 25 + i' = p.row ∧ j = p.col := by
      have := h.onScreen.col
      have := h.col
      unfold VgaConsole.pos
      omega
    by_cases hk : 80 * i' + j = v.pos
    · rw [if_pos ⟨hn, hk⟩, if_pos (hcur.1 hk)]; rfl
    · rw [if_neg (fun h' => hk h'.2), if_neg (fun h' => hk (hcur.2 h'))]; exact hcell

/-! ## The screen after printing -/

/-- A VGA console that was just cleared is a window over blank paper. -/
theorem Window.cleared {v : VgaConsole} (ho : v.con.ops = some .consoleVgaOps) :
    Window (clearActive v) Paper.blank := by
  have hclear : clearActive v = consoleVgaClearScreen true v := by
    unfold clearActive; rw [ho]; rfl
  rw [hclear]
  refine ⟨⟨ho, by simp [consoleVgaClearScreen], by simp [consoleVgaClearScreen]⟩, rfl, rfl, fun i hi j hj => ?_,
    Paper.blank_blankBelow⟩
  show (vgaClearScreen v.vga).memory _ = _
  rw [(vgaClearScreen_spec v.vga).1, if_pos (by omega)]
  rfl

/-- A console that was just initialised, or a VGA console that was just cleared. -/
def Cleared (s : Console) : Prop :=
  (∃ s₀ t₀, s = (consoleInit s₀ t₀).1) ∨
    ∃ s₀ v₀, s₀.view = some v₀ ∧ v₀.con.ops = some .consoleVgaOps ∧ s = consoleClear s₀

theorem Cleared.window {s : Console} (h : Cleared s) : ∃ v, s.view = some v ∧ Window v Paper.blank := by
  rcases h with ⟨s₀, t₀, rfl⟩ | ⟨s₀, v₀, hv, ho, rfl⟩
  · refine ⟨clearActive ⟨⟨0, 0, some .consoleVgaOps⟩, s₀.vga⟩, ?_, Window.cleared rfl⟩
    unfold consoleInit
    simp only [Console.view_withActive]
    simp [Console.view, clearActive]
  · refine ⟨clearActive v₀, ?_, Window.cleared ho⟩
    unfold consoleClear
    rw [Console.view_withActive, hv]
    rfl

/-- Whatever is printed on a cleared console, the screen shows the last 25 rows of the paper typed
so far, blank where nothing was typed, and the console cursor is the paper's. -/
theorem screen_shows_paper (s : Console) (hs : Cleared s) (outs : List Output) :
    let p := Paper.write 80 0x0A Paper.blank (outs.flatMap Output.bytes)
    ∃ v, (outs.foldl Output.run s).view = some v ∧ v.con.row = p.row - p.top 25 ∧ v.con.col = p.col ∧
      ∀ i < 25, ∀ j < 80, v.vga.memory (80 * i + j) = shown (p.cell (p.top 25 + i) j) := by
  obtain ⟨v, hv, hw⟩ := hs.window
  have hrun := Run.foldl_sim Window (fun v p c h => h.putc c) (outs.flatMap Output.bytes) v Paper.blank hw
  refine ⟨_, by rw [outputs_eq, view_putcs, hv]; rfl, ?_, hrun.col, hrun.cells⟩
  have := hrun.row
  unfold Paper.write
  omega

/-- After printing 25 newlines and a letter on a new console, the letter is in the last row. -/
theorem screen_shows_paper_last_row :
    ∃ v, ([.write (List.replicate 25 0x0A), .putc 0x41].foldl Output.run
        (consoleInit Console.boot Timer.boot).1).view = some v ∧
      v.con.row = 24 ∧ v.con.col = 1 ∧ v.vga.memory 1920 = cellOf 0x41 := by
  obtain ⟨v, hv, hr, hc, hm⟩ := screen_shows_paper (consoleInit Console.boot Timer.boot).1 (.inl ⟨_, _, rfl⟩)
    [.write (List.replicate 25 0x0A), .putc 0x41]
  exact ⟨v, hv, hr.trans (by decide), hc.trans (by decide), (hm 24 (by decide) 0 (by decide)).trans (by decide)⟩

end SnakeOS.Term
