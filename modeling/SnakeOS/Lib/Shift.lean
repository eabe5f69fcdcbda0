/-
The two loops that open and close a gap in an array in place, and what they leave in every element.
-/
import SnakeOS.Lib.C
import SnakeOS.Lib.Loop

namespace C

open CLoop

variable {α : Type} {n : Nat}

/-- `for (i = a; i < b; i++) v[i] = v[i + 1]`. -/
def closeGap (a b : Nat) (v : Vector α n) : Except Fault (Vector α n) :=
  forUpM a b (fun i v => do store v i (← load v (i + 1))) v

/-- `for (i = a; i > b; i--) v[i] = v[i - 1]`. -/
def openGap (a b : Nat) (v : Vector α n) : Except Fault (Vector α n) :=
  forDownM a b (fun i v => do store v i (← load v (← sizeSub i 1))) v

/-- One assignment `v[i] = v[j]` within bounds. -/
theorem store_load {v : Vector α n} {i j : Nat} (hi : i < n) (hj : j < n) :
    ∃ w, (do store v i (← load v j)) = Except.ok w ∧ ∀ k : Nat, w[k]? = if k = i then v[j]? else v[k]? := by
  refine ⟨v.set i v[j], ?_, fun k => ?_⟩
  · rw [load_ok hj]; exact store_ok hi
  · rw [Vector.getElem?_set]
    by_cases hk : i = k
    · rw [if_pos hk, if_pos hk.symm, Vector.getElem?_eq_getElem hj]
    · rw [if_neg hk, if_neg (Ne.symm hk)]

theorem closeGap_spec {a b : Nat} (hab : a ≤ b) (hb : b < n) (v : Vector α n) :
    ∃ w, closeGap a b v = .ok w ∧ ∀ k : Nat, w[k]? = if a ≤ k ∧ k < b then v[k + 1]? else v[k]? := by
  refine forUpM_inv (fun i (w : Vector α n) => ∀ k : Nat, w[k]? =
    if a ≤ k ∧ k < i then v[k + 1]? else v[k]?) hab (fun i t hi hib h => ?_) (fun k => (if_neg (by omega)).symm)
  obtain ⟨w, hw, hk⟩ := store_load (v := t) (show i < n by omega) (show i + 1 < n by omega)
  refine ⟨w, hw, fun k => ?_⟩
  rw [hk, h, h]
  by_cases hki : k = i
  · rw [if_pos hki, if_neg (by omega), if_pos (by omega), hki]
  · rw [if_neg hki]; congr 1; simp only [eq_iff_iff]; omega

theorem openGap_spec {a b : Nat} (hab : b ≤ a) (ha : a < n) (v : Vector α n) :
    ∃ w, openGap a b v = .ok w ∧ ∀ k : Nat, w[k]? = if b < k ∧ k ≤ a then v[k - 1]? else v[k]? := by
  refine forDownM_inv (fun i (w : Vector α n) => ∀ k : Nat, w[k]? =
    if i < k ∧ k ≤ a then v[k - 1]? else v[k]?) hab (fun i t hi hia h => ?_) (fun k => (if_neg (by omega)).symm)
  obtain ⟨w, hw, hk⟩ := store_load (v := t) (show i < n by omega) (show i - 1 < n by omega)
  refine ⟨w, by simp only [sizeSub_ok (show 1 ≤ i by omega)]; exact hw, fun k => ?_⟩
  rw [hk, h, h]
  by_cases hki : k = i
  · rw [if_pos hki, if_neg (by omega), if_pos (by omega), hki]
  · rw [if_neg hki]; congr 1; simp only [eq_iff_iff]; omega

end C
