/-
A bounded line editor over any alphabet: the text on either side of the cursor as two lists whose
lengths together stay within the capacity, and its edits.
-/
import Mathlib.Tactic.Common

namespace LineEdit

variable {α : Type} {cap : Nat}

/-- A line: the characters before the cursor and those from the cursor on, within the capacity. -/
structure Line (α : Type) (cap : Nat) where
  left : List α
  right : List α
  bound : left.length + right.length ≤ cap

/-- What a user does to a line. -/
inductive Edit (α : Type)
  | insert (c : α)
  | backspace
  | moveLeft
  | moveRight
  | clear
  | keep
  deriving DecidableEq, Repr

namespace Line

def empty : Line α cap := ⟨[], [], Nat.zero_le _⟩

def cursor (l : Line α cap) : Nat := l.left.length

def length (l : Line α cap) : Nat := l.left.length + l.right.length

/-- Appends a character to the left part, unless the line is full. -/
def insert (l : Line α cap) (c : α) : Line α cap :=
  if h : l.length < cap then ⟨l.left ++ [c], l.right, by simp; unfold length at h; omega⟩ else l

/-- Drops the last character of the left part. -/
def backspace (l : Line α cap) : Line α cap :=
  ⟨l.left.dropLast, l.right, by have := l.bound; simp; omega⟩

/-- Moves the last character of the left part to the right part. -/
def moveLeft (l : Line α cap) : Line α cap :=
  ⟨l.left.dropLast, l.left.getLast?.toList ++ l.right, by
    have := l.bound
    cases h : l.left.getLast? with
    | none => simp; omega
    | some c =>
      have : 0 < l.left.length := List.length_pos_iff.2 (by rintro h0; simp [h0] at h)
      simp; omega⟩

/-- Moves the first character of the right part to the left part. -/
def moveRight (l : Line α cap) : Line α cap :=
  ⟨l.left ++ l.right.head?.toList, l.right.tail, by
    have := l.bound
    cases h : l.right with
    | nil => simp [h] at this ⊢; omega
    | cons c r => simp [h] at this ⊢; omega⟩

def apply (l : Line α cap) : Edit α → Line α cap
  | .insert c => l.insert c
  | .backspace => l.backspace
  | .moveLeft => l.moveLeft
  | .moveRight => l.moveRight
  | .clear => empty
  | .keep => l

def run (l : Line α cap) (es : List (Edit α)) : Line α cap := es.foldl apply l

/-! ## Lengths -/

theorem length_le (l : Line α cap) : l.length ≤ cap := l.bound

theorem insert_of_full {l : Line α cap} {c : α} (h : l.length = cap) : l.insert c = l :=
  dif_neg (by omega)

theorem insert_left {l : Line α cap} {c : α} (h : l.length < cap) : (l.insert c).left = l.left ++ [c] := by
  simp [insert, h]

theorem insert_right {l : Line α cap} {c : α} : (l.insert c).right = l.right := by
  unfold insert; split <;> rfl

end Line

end LineEdit
