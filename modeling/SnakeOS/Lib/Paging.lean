/-
Four-level paging: tables of 512 entries of 8 bytes, and the walk through them that finds the page
of a 48-bit address.
-/
import SnakeOS.Lib.Mem

namespace Paging

open Mem

/-! ## Entries -/

/-- An entry of the table at `table`. -/
def entry (m : Nat → UInt8) (table i : Nat) : Nat := littleEndian m (table + 8 * i) 8

def present (e : Nat) : Bool := e % 2 = 1
def writable (e : Nat) : Bool := e / 2 % 2 = 1
def large (e : Nat) : Bool := e / 2 ^ 7 % 2 = 1

/-- The 4 KiB frame that an entry, or the control register, points at. -/
def frame (e : Nat) : Nat := e / 2 ^ 12 % 2 ^ 40 * 2 ^ 12

/-- A page: where it starts, its size, and whether every entry on the way to it is writable. -/
structure Page where
  base : Nat
  size : Nat
  writable : Bool
  deriving DecidableEq, Repr

/-- The page of an entry that ends the walk early; its reserved bits, from 13 to the page's size, are
zero. -/
def largePage (size e : Nat) (w : Bool) : Option Page :=
  if e / 2 ^ 13 % (size / 2 ^ 13) = 0 then some ⟨e / size % (2 ^ 52 / size) * size, size, w && writable e⟩ else none

/-- The page of the address `v`; `none` when an entry on the way is not present or not well formed. -/
def walk (m : Nat → UInt8) (cr3 v : Nat) : Option Page :=
  let l4 := entry m (frame cr3) (v / 2 ^ 39 % 512)
  if present l4 && !large l4 then
    let l3 := entry m (frame l4) (v / 2 ^ 30 % 512)
    if present l3 then
      if large l3 then largePage (2 ^ 30) l3 (writable l4)
      else
        let l2 := entry m (frame l3) (v / 2 ^ 21 % 512)
        if present l2 then
          if large l2 then largePage (2 ^ 21) l2 (writable l4 && writable l3)
          else
            let l1 := entry m (frame l2) (v / 2 ^ 12 % 512)
            if present l1 then some ⟨frame l1, 2 ^ 12, writable l4 && writable l3 && writable l2 && writable l1⟩
            else none
        else none
    else none
  else none

/-- The physical address of `v`. -/
def translate (m : Nat → UInt8) (cr3 v : Nat) : Option Nat := (walk m cr3 v).map fun p => p.base + v % p.size

/-! ## Storing entries -/

theorem entry_blit_outside {m : Nat → UInt8} {table i a n : Nat} (h : Apart a n (table + 8 * i) 8) (f : Nat → UInt8) :
    entry (blit a n f m) table i = entry m table i :=
  littleEndian_blit_outside h.symm f m

theorem entry_frame {rs : List (Nat × Nat)} {m m' : Nat → UInt8} (h : Frame rs m m') {table i : Nat}
    (ha : ∀ r ∈ rs, Apart r.1 r.2 (table + 8 * i) 8) : entry m' table i = entry m table i :=
  h.littleEndian fun j hj r hr => by
    have := ha r hr
    unfold Apart at this
    omega

/-- Storing the low half of an entry that is zero. -/
theorem entry_storeLow {m : Nat → UInt8} {table i : Nat} (h : entry m table i = 0) {x : Nat} (hx : x < 2 ^ 32)
    (j : Nat) :
    entry (blitNum (table + 8 * i) 4 x m) table j = if j = i then x else entry m table j := by
  by_cases hj : j = i
  · subst hj
    have hsplit : littleEndian m (table + 8 * j) 8 = _ := littleEndian_add m (table + 8 * j) 4 4
    have hhigh : littleEndian m (table + 8 * j + 4) 4 = 0 := by
      unfold entry at h
      omega
    rw [if_pos rfl]
    exact (littleEndian_blitNum_low hhigh x).trans (Nat.mod_eq_of_lt hx)
  · rw [if_neg hj]
    exact entry_blit_outside (by unfold Apart; omega) _

/-! ## Walks -/

/-- An entry that points at a table, present and writable. -/
theorem pointer {table : Nat} (h : table % 2 ^ 12 = 0) (hlt : table < 2 ^ 52) :
    present (table + 3) = true ∧ writable (table + 3) = true ∧ large (table + 3) = false ∧
      frame (table + 3) = table := by
  unfold present writable large frame
  refine ⟨decide_eq_true ?_, decide_eq_true ?_, decide_eq_false ?_, ?_⟩ <;> omega

/-- An entry that maps a large page to itself, present and writable. -/
theorem largeEntry {i : Nat} (hi : i < 512) :
    present (2 ^ 21 * i + 0x83) = true ∧ large (2 ^ 21 * i + 0x83) = true ∧
      largePage (2 ^ 21) (2 ^ 21 * i + 0x83) true = some ⟨2 ^ 21 * i, 2 ^ 21, true⟩ := by
  unfold present large largePage writable
  refine ⟨decide_eq_true (by omega), decide_eq_true (by omega), ?_⟩
  rw [if_pos (by omega), decide_eq_true (by omega), show (2 ^ 21 * i + 0x83) / 2 ^ 21 = i by omega]
  congr 2
  omega

/-- The tables that map the first GiB to itself: the first entries of two tables lead to a table of
large pages, and the others are empty. -/
structure FirstGiB (m : Nat → UInt8) (cr3 l3 l2 : Nat) : Prop where
  entry4 : ∀ i < 512, entry m (frame cr3) i = if i = 0 then l3 + 3 else 0
  entry3 : ∀ i < 512, entry m l3 i = if i = 0 then l2 + 3 else 0
  entry2 : ∀ i < 512, entry m l2 i = 2 ^ 21 * i + 0x83
  table3 : l3 % 2 ^ 12 = 0 ∧ l3 < 2 ^ 52
  table2 : l2 % 2 ^ 12 = 0 ∧ l2 < 2 ^ 52

theorem FirstGiB.walk {m : Nat → UInt8} {cr3 l3 l2 : Nat} (h : FirstGiB m cr3 l3 l2) {v : Nat} (hv : v < 2 ^ 48) :
    Paging.walk m cr3 v = if v < 2 ^ 30 then some ⟨2 ^ 21 * (v / 2 ^ 21), 2 ^ 21, true⟩ else none := by
  obtain ⟨hp4, hw4, hl4, hf4⟩ := pointer h.table3.1 h.table3.2
  obtain ⟨hp3, hw3, hl3, hf3⟩ := pointer h.table2.1 h.table2.2
  have hempty : present 0 = false := rfl
  unfold Paging.walk
  rw [h.entry4 _ (Nat.mod_lt _ (by decide))]
  by_cases h4 : v / 2 ^ 39 % 512 = 0
  · rw [if_pos h4]
    simp only [hp4, hw4, hl4, hf4, Bool.not_false, Bool.and_true, if_true]
    rw [h.entry3 _ (Nat.mod_lt _ (by decide))]
    by_cases h3 : v / 2 ^ 30 % 512 = 0
    · obtain ⟨hp2, hl2, hpage⟩ := largeEntry (i := v / 2 ^ 21 % 512) (Nat.mod_lt _ (by decide))
      rw [if_pos h3]
      simp only [hp3, hw3, hl3, hf3, Bool.and_true, Bool.false_eq_true, if_true, if_false]
      rw [h.entry2 _ (Nat.mod_lt _ (by decide)), hp2, hl2, hpage, if_pos (show v < 2 ^ 30 by omega),
        show v / 2 ^ 21 % 512 = v / 2 ^ 21 by omega]
      rfl
    · rw [if_neg h3, if_neg (show ¬v < 2 ^ 30 by omega)]
      simp [hempty]
  · rw [if_neg h4, if_neg (show ¬v < 2 ^ 30 by omega)]
    simp [hempty]

theorem FirstGiB.translate {m : Nat → UInt8} {cr3 l3 l2 : Nat} (h : FirstGiB m cr3 l3 l2) {v : Nat} (hv : v < 2 ^ 30) :
    Paging.translate m cr3 v = some v := by
  unfold Paging.translate
  rw [h.walk (by omega), if_pos hv]
  simp only [Option.map_some, Option.some.injEq]
  omega

end Paging
