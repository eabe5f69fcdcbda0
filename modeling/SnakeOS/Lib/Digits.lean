/-
Numbers written with digits in any base, the highest first: what is written is read back, has no leading zero, and
is no longer than the number's bound allows.
-/
import Mathlib.Data.Nat.Digits.Lemmas
import Mathlib.Tactic.Common

namespace Digits

variable {α : Type} {b : Nat} {digit : Nat → α} {val : α → Nat}

/-- The number that digits stand for, the highest first. -/
def read (b : Nat) (val : α → Nat) (ds : List α) : Nat := ds.foldl (fun n c => b * n + val c) 0

/-- The digits of a number, the highest first; none for zero. -/
def written (b : Nat) (digit : Nat → α) (n : Nat) : List α := ((Nat.digits b n).map digit).reverse

theorem read_written (hb : 1 < b) (hval : ∀ d < b, val (digit d) = d) (n : Nat) :
    read b val (written b digit n) = n := by
  have hfold : ∀ ds : List Nat, (∀ d ∈ ds, d < b) → read b val (ds.map digit).reverse = Nat.ofDigits b ds := by
    intro ds hds
    induction ds with
    | nil => rfl
    | cons d ds ih =>
      have hd := hval d (hds d (by simp))
      have ih := ih (fun d' h => hds d' (by simp [h]))
      simp only [read, List.map_cons, List.reverse_cons, List.foldl_append, List.foldl_cons, List.foldl_nil] at ih ⊢
      rw [ih, hd, Nat.ofDigits_cons]
      omega
  unfold written
  rw [hfold _ (fun d hd => Nat.digits_lt_base hb hd), Nat.ofDigits_digits]

theorem mem_written (hb : 1 < b) {n : Nat} {c : α} (hc : c ∈ written b digit n) : ∃ d < b, digit d = c := by
  obtain ⟨d, hd, rfl⟩ := List.mem_map.1 (List.mem_reverse.1 hc)
  exact ⟨d, Nat.digits_lt_base hb hd, rfl⟩

theorem written_ne_nil {n : Nat} (hn : n ≠ 0) : written b digit n ≠ [] := by
  have hne : Nat.digits b n ≠ [] := Nat.digits_ne_nil_iff_ne_zero.2 hn
  simpa [written] using hne

/-- A positive number has no leading zero. -/
theorem head_written (hb : 1 < b) {zero : α} (hzero : ∀ d < b, digit d = zero ↔ d = 0) {n : Nat} (hn : n ≠ 0) :
    (written b digit n).head? ≠ some zero := by
  have hne : Nat.digits b n ≠ [] := Nat.digits_ne_nil_iff_ne_zero.2 hn
  have hlast := Nat.getLast_digit_ne_zero b hn
  have hlt : (Nat.digits b n).getLast hne < b := Nat.digits_lt_base hb (List.getLast_mem hne)
  simp only [written, List.head?_reverse, List.getLast?_map, List.getLast?_eq_getLast_of_ne_nil hne,
    Option.map_some, ne_eq, Option.some.injEq, hzero _ hlt]
  exact hlast

theorem written_length_le (hb : 1 < b) {n k : Nat} (h : n < b ^ k) : (written b digit n).length ≤ k := by
  simp only [written, List.length_reverse, List.length_map]
  exact (Nat.digits_length_le_iff hb n).2 h

end Digits
