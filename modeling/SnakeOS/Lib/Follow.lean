/-
Following a function from a value to the next until one is marked. Among finitely many values this ends
exactly when no value comes back before that, and then in as many steps as there are values.
-/
import Mathlib.Data.Finset.Card
import Mathlib.Logic.Function.Iterate

namespace Follow

variable {α : Type} {next : α → α} {last : α → Prop} {a : α}

/-- A marked value is reached from `a`. -/
def Ends (next : α → α) (last : α → Prop) (a : α) : Prop := ∃ k, last (next^[k + 1] a)

/-- A value comes back, and no value up to there is marked. -/
def Returns (next : α → α) (last : α → Prop) (a : α) : Prop :=
  ∃ i j, i < j ∧ next^[i] a = next^[j] a ∧ ∀ k < j, ¬last (next^[k + 1] a)

/-- The first step is marked, or a marked value is reached from there. -/
theorem within_succ_iff {n : Nat} : (∃ k < n + 1, last (next^[k + 1] a)) ↔
    last (next a) ∨ ∃ k < n, last (next^[k + 1] (next a)) := by
  constructor
  · rintro ⟨k, hk, h⟩
    cases k with
    | zero => exact .inl h
    | succ k => exact .inr ⟨k, Nat.lt_of_succ_lt_succ hk, h⟩
  · rintro (h | ⟨k, hk, h⟩)
    · exact ⟨0, Nat.succ_pos n, h⟩
    · exact ⟨k + 1, Nat.succ_lt_succ hk, h⟩

/-- After a value has come back the same values follow over and over. -/
theorem Returns.not_ends (h : Returns next last a) : ¬Ends next last a := by
  obtain ⟨i, j, hij, hback, hfree⟩ := h
  rintro ⟨k, hk⟩
  induction k using Nat.strong_induction_on with
  | _ k ih =>
    by_cases hkj : k < j
    · exact hfree k hkj hk
    · obtain ⟨d, hd⟩ := Nat.exists_eq_add_of_le (Nat.le_of_not_lt hkj)
      have hearlier : next^[k + 1] a = next^[i + d + 1] a := by
        rw [hd, show j + d + 1 = (d + 1) + j by omega, show i + d + 1 = (d + 1) + i by omega,
          Function.iterate_add_apply next (d + 1) j, Function.iterate_add_apply next (d + 1) i, hback]
      rw [hearlier] at hk
      exact ih (i + d) (by omega) hk

/-- Of `n + 1` values out of a set of `n`, two are the same. -/
theorem returns_of_free {s : Finset α} (hs : ∀ k, next^[k] a ∈ s) (hfree : ∀ k < s.card, ¬last (next^[k + 1] a)) :
    Returns next last a := by
  have hcard : s.card < (Finset.range (s.card + 1)).card := by
    rw [Finset.card_range]
    exact Nat.lt_succ_self _
  obtain ⟨i, hi, j, hj, hne, heq⟩ :=
    Finset.exists_ne_map_eq_of_card_lt_of_maps_to hcard (f := fun k => next^[k] a) fun k _ => hs k
  have hi := Finset.mem_range.1 hi
  have hj := Finset.mem_range.1 hj
  rcases Nat.lt_or_gt_of_ne hne with hlt | hgt
  · exact ⟨i, j, hlt, heq, fun k hk => hfree k (by omega)⟩
  · exact ⟨j, i, hgt, heq.symm, fun k hk => hfree k (by omega)⟩

/-- When no value comes back, a marked value is reached in at most as many steps as there are values. -/
theorem ends_within {s : Finset α} (hs : ∀ k, next^[k] a ∈ s) (h : ¬Returns next last a) :
    ∃ k < s.card, last (next^[k + 1] a) := by
  by_contra hfree
  refine h (returns_of_free hs fun k hk hlast => hfree ⟨k, hk, hlast⟩)

end Follow
