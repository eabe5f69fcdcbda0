/-
Paper of a fixed width and unlimited rows that characters are typed on, and the rows of it that a
screen of a fixed height shows.
-/
import Mathlib.Tactic.Common

/-- A sheet: the row and column typed at next and the characters typed so far. -/
structure Paper (α : Type) where
  row : Nat
  col : Nat
  cell : Nat → Nat → Option α

namespace Paper

variable {α : Type} [DecidableEq α]

def blank : Paper α := ⟨0, 0, fun _ _ => none⟩

/-- Stores `c` at the cursor. -/
def store (p : Paper α) (c : α) (i j : Nat) : Option α :=
  if i = p.row ∧ j = p.col then some c else p.cell i j

/-- Types one character: the newline goes to the start of the next row, any other character is
stored, and filling the last column goes to the start of the next row at once. -/
def put (width : Nat) (newline : α) (p : Paper α) (c : α) : Paper α :=
  if c = newline then { p with row := p.row + 1, col := 0 }
  else if p.col + 1 = width then ⟨p.row + 1, 0, p.store c⟩
  else ⟨p.row, p.col + 1, p.store c⟩

def write (width : Nat) (newline : α) (p : Paper α) (cs : List α) : Paper α := cs.foldl (put width newline) p

/-- The first row shown by a screen of `height` rows that follows the cursor. -/
def top (height : Nat) (p : Paper α) : Nat := p.row - (height - 1)

/-- Nothing is typed below the cursor's row. -/
def BlankBelow (p : Paper α) : Prop := ∀ i j, p.row < i → p.cell i j = none

omit [DecidableEq α] in
theorem blank_blankBelow : (blank : Paper α).BlankBelow := fun _ _ _ => rfl

theorem put_row_le (width : Nat) (newline : α) (p : Paper α) (c : α) : p.row ≤ (put width newline p c).row := by
  unfold put; split
  · exact Nat.le_succ _
  · split
    · exact Nat.le_succ _
    · exact Nat.le_refl _

theorem put_cell (width : Nat) (newline : α) (p : Paper α) (c : α) (i j : Nat) :
    (put width newline p c).cell i j = if c = newline then p.cell i j else p.store c i j := by
  unfold put; split
  · rfl
  · split <;> rfl

theorem put_blankBelow {width : Nat} {newline : α} {p : Paper α} (h : p.BlankBelow) (c : α) :
    (put width newline p c).BlankBelow := by
  intro i j hi
  have hle := put_row_le width newline p c
  rw [put_cell]
  have hb := h i j (by omega)
  split
  · exact hb
  · unfold store; rw [if_neg (by omega)]; exact hb

end Paper
