/-
The counted loops of C as structural recursions on the number of iterations, with their invariant
rules: `forUp` for a body that cannot fail, `forUpM` and `forDownM` for one that can.
-/
import Mathlib.Logic.Function.Iterate
import Mathlib.Tactic.Common

namespace CLoop

variable {σ ε : Type}

/-! ## Upward loops -/

def iterUp (body : Nat → σ → σ) : Nat → Nat → σ → σ
  | 0, _, s => s
  | n + 1, i, s => iterUp body n (i + 1) (body i s)

/-- `for (i = a; i < b; i++) body`. -/
def forUp (a b : Nat) (body : Nat → σ → σ) (s : σ) : σ := iterUp body (b - a) a s

theorem iterUp_inv {body : Nat → σ → σ} {P : Nat → σ → Prop} :
    ∀ (n i : Nat) (s : σ), (∀ j t, i ≤ j → j < i + n → P j t → P (j + 1) (body j t)) → P i s →
      P (i + n) (iterUp body n i s)
  | 0, i, s, _, h0 => h0
  | n + 1, i, s, hs, h0 => by
    have := iterUp_inv n (i + 1) (body i s) (fun j t h1 h2 => hs j t (by omega) (by omega))
      (hs i s (by omega) (by omega) h0)
    rw [show i + 1 + n = i + (n + 1) by omega] at this
    exact this

/-- The invariant rule of an upward loop: what holds at the counter's first value and is carried
from each value to the next holds at its last value. -/
theorem forUp_inv {a b : Nat} {body : Nat → σ → σ} {s : σ} (P : Nat → σ → Prop) (hab : a ≤ b)
    (hs : ∀ i t, a ≤ i → i < b → P i t → P (i + 1) (body i t)) (h0 : P a s) :
    P b (forUp a b body s) := by
  have := iterUp_inv (b - a) a s (fun j t h1 h2 => hs j t h1 (by omega)) h0
  rw [Nat.add_sub_cancel' hab] at this
  exact this

/-- A loop whose body ignores the counter iterates the body. -/
theorem forUp_const (a b : Nat) (f : σ → σ) (s : σ) : forUp a b (fun _ => f) s = f^[b - a] s := by
  unfold forUp
  generalize b - a = n
  induction n generalizing a s with
  | zero => rfl
  | succ n ih => exact ih (a + 1) (f s)

def iterUpM (body : Nat → σ → Except ε σ) : Nat → Nat → σ → Except ε σ
  | 0, _, s => .ok s
  | n + 1, i, s => body i s >>= iterUpM body n (i + 1)

/-- `for (i = a; i < b; i++) body`, for a body that can fail. -/
def forUpM (a b : Nat) (body : Nat → σ → Except ε σ) (s : σ) : Except ε σ := iterUpM body (b - a) a s

theorem iterUpM_inv {body : Nat → σ → Except ε σ} {P : Nat → σ → Prop} :
    ∀ (n i : Nat) (s : σ),
      (∀ j t, i ≤ j → j < i + n → P j t → ∃ t', body j t = .ok t' ∧ P (j + 1) t') → P i s →
      ∃ s', iterUpM body n i s = .ok s' ∧ P (i + n) s'
  | 0, i, s, _, h0 => ⟨s, rfl, h0⟩
  | n + 1, i, s, hs, h0 => by
    obtain ⟨t, ht, h1⟩ := hs i s (by omega) (by omega) h0
    obtain ⟨s', hs', h2⟩ := iterUpM_inv n (i + 1) t (fun j t h1 h2 => hs j t (by omega) (by omega)) h1
    rw [show i + 1 + n = i + (n + 1) by omega] at h2
    refine ⟨s', ?_, h2⟩
    simp only [iterUpM, ht]
    exact hs'

/-- The invariant rule of an upward loop that can fail: a body that succeeds and carries the
invariant from each value of the counter to the next makes the loop succeed. -/
theorem forUpM_inv {a b : Nat} {body : Nat → σ → Except ε σ} {s : σ} (P : Nat → σ → Prop) (hab : a ≤ b)
    (hs : ∀ i t, a ≤ i → i < b → P i t → ∃ t', body i t = .ok t' ∧ P (i + 1) t') (h0 : P a s) :
    ∃ s', forUpM a b body s = .ok s' ∧ P b s' := by
  obtain ⟨s', h, hP⟩ := iterUpM_inv (b - a) a s (fun j t h1 h2 => hs j t h1 (by omega)) h0
  rw [Nat.add_sub_cancel' hab] at hP
  exact ⟨s', h, hP⟩

/-! ## Downward loops -/

def iterDownM (body : Nat → σ → Except ε σ) : Nat → Nat → σ → Except ε σ
  | 0, _, s => .ok s
  | n + 1, i, s => body i s >>= iterDownM body n (i - 1)

/-- `for (i = a; i > b; i--) body`, for a body that can fail. -/
def forDownM (a b : Nat) (body : Nat → σ → Except ε σ) (s : σ) : Except ε σ := iterDownM body (a - b) a s

theorem iterDownM_inv {body : Nat → σ → Except ε σ} {P : Nat → σ → Prop} :
    ∀ (n i : Nat) (s : σ), n ≤ i →
      (∀ j t, i - n < j → j ≤ i → P j t → ∃ t', body j t = .ok t' ∧ P (j - 1) t') → P i s →
      ∃ s', iterDownM body n i s = .ok s' ∧ P (i - n) s'
  | 0, i, s, _, _, h0 => ⟨s, rfl, h0⟩
  | n + 1, i, s, hn, hs, h0 => by
    obtain ⟨t, ht, h1⟩ := hs i s (by omega) (by omega) h0
    obtain ⟨s', hs', h2⟩ := iterDownM_inv n (i - 1) t (by omega)
      (fun j t h1 h2 => hs j t (by omega) (by omega)) h1
    rw [show i - 1 - n = i - (n + 1) by omega] at h2
    refine ⟨s', ?_, h2⟩
    simp only [iterDownM, ht]
    exact hs'

theorem forDownM_inv {a b : Nat} {body : Nat → σ → Except ε σ} {s : σ} (P : Nat → σ → Prop) (hab : b ≤ a)
    (hs : ∀ i t, b < i → i ≤ a → P i t → ∃ t', body i t = .ok t' ∧ P (i - 1) t') (h0 : P a s) :
    ∃ s', forDownM a b body s = .ok s' ∧ P b s' := by
  obtain ⟨s', h, hP⟩ := iterDownM_inv (a - b) a s (by omega)
    (fun j t h1 h2 => hs j t (by omega) h2) h0
  rw [show a - (a - b) = b by omega] at hP
  exact ⟨s', h, hP⟩

/-! ## Loops with the test at the end -/

/-- `do body while (again)`; `none` when the loop runs longer than the fuel. -/
def doWhile (body : σ → σ) (again : σ → Bool) : Nat → σ → Option σ
  | 0, _ => none
  | fuel + 1, s => if again (body s) then doWhile body again fuel (body s) else some (body s)

/-- A loop whose test fails for the first time after `n` rounds runs exactly these. -/
theorem doWhile_eq {body : σ → σ} {again : σ → Bool} : ∀ {n : Nat} (fuel : Nat) {s : σ}, 0 < n →
    (∀ i, 0 < i → i < n → again (body^[i] s)) → again (body^[n] s) = false →
    doWhile body again fuel s = if fuel < n then none else some (body^[n] s)
  | n, 0, s, hn, _, _ => (if_pos hn).symm
  | 1, fuel + 1, s, _, _, hstop => by
    have hfirst : ¬again (body s) = true := by simpa using hstop
    unfold doWhile
    rw [if_neg hfirst, if_neg (by omega)]
    rfl
  | n + 2, fuel + 1, s, _, hagain, hstop => by
    have hfirst : again (body s) = true := hagain 1 (by omega) (by omega)
    unfold doWhile
    rw [if_pos hfirst, doWhile_eq fuel (Nat.succ_pos n) (fun i h0 hi => hagain (i + 1) (by omega) (by omega)) hstop]
    by_cases hfuel : fuel < n + 1
    · rw [if_pos hfuel, if_pos (by omega)]
    · rw [if_neg hfuel, if_neg (by omega)]
      rfl

end CLoop
