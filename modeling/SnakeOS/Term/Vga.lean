/-
drivers/vga.c: the 80x25 text screen as the cells of `vga_memory`, and what each drawing function
leaves in every cell, by its linear index `80 * row + col`.
-/
import SnakeOS.Lib.Loop
import Mathlib.Logic.Function.Basic

namespace SnakeOS.Term

open CLoop

/-! ## The screen -/

abbrev VGA_NUM_COLS : Nat := 80
abbrev VGA_NUM_ROWS : Nat := 25

structure VgaChar where
  character : UInt8
  colour : UInt8
  deriving DecidableEq, Repr

def vgaColor (fg bg : UInt8) : UInt8 := (bg <<< 4) ||| (fg &&& 0x0F)

/-- `default_colour`: `VGA_COLOUR_BLACK` on `VGA_COLOUR_WHITE`. -/
def defaultColour : UInt8 := vgaColor 0 15

/-- `vga_memory` by cell index. `scrolls` is no variable of the source: it counts the calls of
`vga_scroll_up`. -/
structure Vga where
  memory : Nat → VgaChar
  scrolls : Nat

def cellOf (c : UInt8) : VgaChar := ⟨c, defaultColour⟩

def blank : VgaChar := cellOf 0x20

def Vga.write (k : Nat) (ch : VgaChar) (v : Vga) : Vga := { v with memory := Function.update v.memory k ch }

def vgaPutChar (row col : Nat) (c : UInt8) (v : Vga) : Vga :=
  if row ≥ VGA_NUM_ROWS ∨ col ≥ VGA_NUM_COLS then v else v.write (col + VGA_NUM_COLS * row) ⟨c, defaultColour⟩

def vgaClearRow (row : Nat) (v : Vga) : Vga :=
  forUp 0 VGA_NUM_COLS (fun col v => vgaPutChar row col 0x20 v) v

def vgaClearScreen (v : Vga) : Vga :=
  forUp 0 VGA_NUM_ROWS (fun row v => forUp 0 VGA_NUM_COLS (fun col v => vgaPutChar row col 0x20 v) v) v

def vgaScrollUp (v : Vga) : Vga :=
  let v := forUp 1 VGA_NUM_ROWS (fun row v => forUp 0 VGA_NUM_COLS (fun col v =>
    v.write ((row - 1) * VGA_NUM_COLS + col) (v.memory (row * VGA_NUM_COLS + col))) v) v
  let v := vgaClearRow (VGA_NUM_ROWS - 1) v
  { v with scrolls := v.scrolls + 1 }

/-! ## Drawing one character -/

@[simp] theorem write_memory (k : Nat) (ch : VgaChar) (v : Vga) :
    (v.write k ch).memory = Function.update v.memory k ch := rfl

@[simp] theorem write_scrolls (k : Nat) (ch : VgaChar) (v : Vga) : (v.write k ch).scrolls = v.scrolls := rfl

theorem vgaPutChar_memory {row col : Nat} (c : UInt8) (v : Vga) (hr : row < 25) (hc : col < 80) :
    (vgaPutChar row col c v).memory = Function.update v.memory (80 * row + col) (cellOf c) := by
  unfold vgaPutChar
  rw [if_neg (show ¬(row ≥ 25 ∨ col ≥ 80) by omega), show 80 * row + col = col + 80 * row by omega]
  rfl

@[simp] theorem vgaPutChar_scrolls (row col : Nat) (c : UInt8) (v : Vga) :
    (vgaPutChar row col c v).scrolls = v.scrolls := by
  unfold vgaPutChar; split <;> rfl

/-! ## Clearing -/

theorem vgaClearRow_spec {row : Nat} (v : Vga) (hr : row < 25) :
    (∀ k, (vgaClearRow row v).memory k = if 80 * row ≤ k ∧ k < 80 * row + 80 then blank else v.memory k) ∧
      (vgaClearRow row v).scrolls = v.scrolls := by
  refine forUp_inv (b := 80) (fun col (w : Vga) => (∀ k, w.memory k =
    if 80 * row ≤ k ∧ k < 80 * row + col then blank else v.memory k) ∧ w.scrolls = v.scrolls) (by omega) ?_ ?_
  · rintro col w - hc ⟨h1, h2⟩
    refine ⟨fun k => ?_, by rw [vgaPutChar_scrolls, h2]⟩
    rw [vgaPutChar_memory _ _ hr hc, Function.update_apply, h1]
    by_cases hk : k = 80 * row + col
    · rw [if_pos hk, if_pos (by omega)]; rfl
    · rw [if_neg hk]; congr 1; simp only [eq_iff_iff]; omega
  · exact ⟨fun k => (if_neg (by omega)).symm, rfl⟩

theorem vgaClearScreen_spec (v : Vga) :
    (∀ k, (vgaClearScreen v).memory k = if k < 2000 then blank else v.memory k) ∧
      (vgaClearScreen v).scrolls = v.scrolls := by
  refine forUp_inv (b := 25) (fun row (w : Vga) => (∀ k, w.memory k =
    if k < 80 * row then blank else v.memory k) ∧ w.scrolls = v.scrolls) (by omega) ?_ ?_
  · rintro row w - hr ⟨h1, h2⟩
    obtain ⟨c1, c2⟩ := vgaClearRow_spec w hr
    refine ⟨fun k => ?_, c2.trans h2⟩
    show (vgaClearRow row w).memory k = _
    rw [c1, h1]
    by_cases hk : 80 * row ≤ k ∧ k < 80 * row + 80
    · rw [if_pos hk, if_pos (by omega)]
    · rw [if_neg hk]; congr 1; simp only [eq_iff_iff]; omega
  · exact ⟨fun k => (if_neg (by omega)).symm, rfl⟩

/-! ## Scrolling -/

/-- The inner loop of a scroll copies a row over the one above it. -/
theorem scrollRow_spec {row : Nat} (v : Vga) (hr : 1 ≤ row) :
    let w := forUp 0 80 (fun col v => v.write ((row - 1) * 80 + col) (v.memory (row * 80 + col))) v
    (∀ k, w.memory k = if 80 * (row - 1) ≤ k ∧ k < 80 * (row - 1) + 80 then v.memory (k + 80)
      else v.memory k) ∧ w.scrolls = v.scrolls := by
  refine forUp_inv (fun col (w : Vga) => (∀ k, w.memory k = if 80 * (row - 1) ≤ k ∧
    k < 80 * (row - 1) + col then v.memory (k + 80) else v.memory k) ∧ w.scrolls = v.scrolls) (by omega) ?_ ?_
  · rintro col w - hc ⟨h1, h2⟩
    refine ⟨fun k => ?_, h2⟩
    simp only [write_memory, Function.update_apply, h1]
    by_cases hk : k = (row - 1) * 80 + col
    · rw [if_pos hk, if_neg (by omega), if_pos (by omega)]
      congr 1; omega
    · rw [if_neg hk]; congr 1; simp only [eq_iff_iff]; omega
  · exact ⟨fun k => (if_neg (by omega)).symm, rfl⟩

/-- The copying loops of a scroll move every cell of rows 1 to 24 up one row. -/
theorem scrollRows_spec (v : Vga) :
    let w := forUp 1 25 (fun row v => forUp 0 80 (fun col v =>
      v.write ((row - 1) * 80 + col) (v.memory (row * 80 + col))) v) v
    (∀ k, w.memory k = if k < 1920 then v.memory (k + 80) else v.memory k) ∧ w.scrolls = v.scrolls := by
  refine forUp_inv (fun row (w : Vga) => (∀ k, w.memory k =
    if k < 80 * (row - 1) then v.memory (k + 80) else v.memory k) ∧ w.scrolls = v.scrolls) (by omega) ?_ ?_
  · rintro row w hr - ⟨h1, h2⟩
    obtain ⟨c1, c2⟩ := scrollRow_spec w hr
    refine ⟨fun k => ?_, c2.trans h2⟩
    rw [c1, h1, h1]
    by_cases hk : 80 * (row - 1) ≤ k ∧ k < 80 * (row - 1) + 80
    · rw [if_pos hk, if_neg (by omega), if_pos (by omega)]
    · rw [if_neg hk]; congr 1; simp only [eq_iff_iff]; omega
  · exact ⟨fun k => (if_neg (by omega)).symm, rfl⟩

/-- A scroll moves every cell up one row and blanks the last. -/
theorem vgaScrollUp_memory (v : Vga) (k : Nat) : (vgaScrollUp v).memory k =
    if k < 1920 then v.memory (k + 80) else if k < 2000 then blank else v.memory k := by
  unfold vgaScrollUp
  simp only [VGA_NUM_ROWS, VGA_NUM_COLS]
  rw [(vgaClearRow_spec _ (by omega)).1, (scrollRows_spec v).1]
  by_cases h : k < 1920
  · rw [if_neg (by omega), if_pos h, if_pos h]
  · rw [if_neg h, if_neg h]; congr 1; simp only [eq_iff_iff]; omega

@[simp] theorem vgaScrollUp_scrolls (v : Vga) : (vgaScrollUp v).scrolls = v.scrolls + 1 := by
  unfold vgaScrollUp
  simp only [VGA_NUM_ROWS, VGA_NUM_COLS]
  rw [(vgaClearRow_spec _ (by omega)).2, (scrollRows_spec v).2]

end SnakeOS.Term
