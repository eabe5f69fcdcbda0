/-
Where the console cursor is on the paper the screen is a window of: `pos + 80 * scrolls`. Printing
advances this position by `nextPos` whether or not the screen scrolls; moving the cursor left
takes it back within its row.
-/
import SnakeOS.Term.Console

namespace SnakeOS.Term

/-! ## Positions on the paper -/

/-- The position on the paper. -/
def VgaConsole.paperPos (v : VgaConsole) : Nat := v.pos + 80 * v.vga.scrolls

/-- The position after printing `cs` at `p`. -/
def advance (cs : List UInt8) (p : Nat) : Nat := cs.foldl (fun p c => nextPos c p) p

/-- The position `n` columns left of `q`, stopping at the start of the row. -/
def back (q n : Nat) : Nat := max (80 * (q / 80)) (q - n)

@[simp] theorem advance_nil (p : Nat) : advance [] p = p := rfl

@[simp] theorem advance_cons (c : UInt8) (cs : List UInt8) (p : Nat) :
    advance (c :: cs) p = advance cs (nextPos c p) := rfl

theorem nextPos_of_ne {c : UInt8} (hc : c ≠ 0x0A) (p : Nat) : nextPos c p = p + 1 := if_neg hc

theorem le_advance : ∀ (cs : List UInt8) (p : Nat), p + cs.length ≤ advance cs p
  | [], p => Nat.le_refl _
  | c :: cs, p => by
    have := le_advance cs (nextPos c p)
    have := lt_nextPos c p
    simp only [advance_cons, List.length_cons]
    omega

theorem advance_of_not_mem : ∀ {cs : List UInt8}, 0x0A ∉ cs → ∀ p, advance cs p = p + cs.length
  | [], _, p => rfl
  | c :: cs, h, p => by
    rw [List.mem_cons, not_or] at h
    rw [advance_cons, nextPos_of_ne (Ne.symm h.1), advance_of_not_mem h.2, List.length_cons]
    omega

/-- Text printed within one row holds no newline. -/
theorem not_mem_of_row : ∀ {cs : List UInt8} {p : Nat}, advance cs p / 80 = p / 80 → 0x0A ∉ cs
  | [], _, _ => List.not_mem_nil
  | c :: cs, p, h => by
    rw [advance_cons] at h
    have hle := le_advance cs (nextPos c p)
    have hlt := lt_nextPos c p
    rw [List.mem_cons, not_or]
    constructor
    · rintro rfl
      have : nextPos 0x0A p = 80 * (p / 80 + 1) := if_pos rfl
      omega
    · exact not_mem_of_row (p := nextPos c p) (by omega)

theorem sub_le_back (q n : Nat) : q - n ≤ back q n := Nat.le_max_right _ _

theorem back_eq {q n : Nat} (h : q / 80 = (q - n) / 80) : back q n = q - n := by unfold back; omega

theorem row_of_back_le {q n p : Nat} (h : back q n ≤ p) : q / 80 ≤ p / 80 := by unfold back at h; omega

/-! ## Printing and moving -/

theorem putcActive_paperPos {v : VgaConsole} (h : OnScreen v) (c : UInt8) :
    OnScreen (putcActive c v) ∧ (putcActive c v).paperPos = nextPos c v.paperPos := by
  obtain ⟨hon, hpos, hscr, -⟩ := putcActive_spec h c
  refine ⟨hon, ?_⟩
  unfold VgaConsole.paperPos
  rw [hscr]
  have : nextPos c (v.pos + 80 * v.vga.scrolls) = nextPos c v.pos + 80 * v.vga.scrolls := by
    unfold nextPos; split <;> omega
  omega

theorem putcsActive_paperPos : ∀ (cs : List UInt8) {v : VgaConsole}, OnScreen v →
    OnScreen (putcsActive cs v) ∧ (putcsActive cs v).paperPos = advance cs v.paperPos
  | [], v, h => ⟨h, rfl⟩
  | c :: cs, v, h => by
    obtain ⟨h1, h2⟩ := putcActive_paperPos h c
    obtain ⟨h3, h4⟩ := putcsActive_paperPos cs h1
    exact ⟨h3, by rw [advance_cons, ← h2]; exact h4⟩

theorem moveLeft_paperPos {v : VgaConsole} (h : OnScreen v) {n : Nat} (hn : n < 2 ^ 31) :
    OnScreen (moveCursorActive (-n) 0 v) ∧ (moveCursorActive (-n) 0 v).paperPos = back v.paperPos n := by
  have hc := h.col
  rw [moveCursorActive_left h hn]
  refine ⟨⟨h.ops, h.row, by simp only; omega⟩, ?_⟩
  unfold VgaConsole.paperPos VgaConsole.pos back
  simp only
  omega

theorem moveLeftOne_paperPos {v : VgaConsole} (h : OnScreen v) :
    OnScreen (moveCursorActive (-1) 0 v) ∧ (moveCursorActive (-1) 0 v).paperPos = back v.paperPos 1 :=
  moveLeft_paperPos h (n := 1) (by omega)

theorem moveRight_paperPos {v : VgaConsole} (h : OnScreen v) :
    OnScreen (moveCursorActive 1 0 v) ∧
      (moveCursorActive 1 0 v).paperPos = if v.paperPos % 80 = 79 then v.paperPos else v.paperPos + 1 := by
  have hc := h.col
  rw [moveCursorActive_right h]
  refine ⟨⟨h.ops, h.row, by simp only; omega⟩, ?_⟩
  unfold VgaConsole.paperPos VgaConsole.pos
  simp only
  split <;> omega

/-- Moving left one column at a time. -/
theorem moveLeft_iterate {v : VgaConsole} (h : OnScreen v) (n : Nat) :
    OnScreen ((moveCursorActive (-1) 0)^[n] v) ∧ ((moveCursorActive (-1) 0)^[n] v).paperPos = back v.paperPos n := by
  induction n with
  | zero => exact ⟨h, by simp [back]; omega⟩
  | succ n ih =>
    rw [Function.iterate_succ_apply']
    obtain ⟨h1, h2⟩ := moveLeftOne_paperPos ih.1
    refine ⟨h1, ?_⟩
    rw [h2, ih.2]
    unfold back
    omega

end SnakeOS.Term
