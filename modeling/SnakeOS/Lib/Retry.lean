/-
Trying again: every attempt has an argument, and one that fails leaves the argument of the next.
-/
import Mathlib.Tactic.Common

namespace Retry

variable {α : Type} {left : Nat → Option α}

/-- The arguments of the attempts from number `i` on, `n` at most, and whether the last one succeeds;
`left` is what an attempt that fails leaves. -/
def tried (left : Nat → Option α) : Nat → Nat → α → List α × Bool
  | 0, _, _ => ([], false)
  | n + 1, i, a =>
    match left i with
    | none => ([a], true)
    | some b => ((a :: (tried left n (i + 1) b).1), (tried left n (i + 1) b).2)

theorem tried_success {i : Nat} (h : left i = none) (n : Nat) (a : α) : tried left (n + 1) i a = ([a], true) := by
  unfold tried
  rw [h]

theorem tried_failure {i : Nat} {b : α} (h : left i = some b) (n : Nat) (a : α) : tried left (n + 1) i a =
    (a :: (tried left n (i + 1) b).1, (tried left n (i + 1) b).2) := by
  rw [tried.eq_def]
  simp only [h]

/-- The attempts from `i` on fail `k` times, and then one succeeds. -/
structure SucceedsAfter (left : Nat → Option α) (i k : Nat) : Prop where
  failed : ∀ j < k, left (i + j) ≠ none
  success : left (i + k) = none

theorem SucceedsAfter.tried : ∀ {k i n : Nat} (_ : SucceedsAfter left i k) (_ : k < n) (a : α),
    (tried left n i a).2 = true ∧ (tried left n i a).1.length = k + 1
  | 0, i, n + 1, h, _, a => by
    rw [tried_success (i := i) h.success]
    exact ⟨rfl, rfl⟩
  | k + 1, i, n + 1, h, hk, a => by
    obtain ⟨b, hb⟩ := Option.ne_none_iff_exists'.1 (h.failed 0 (Nat.succ_pos k))
    have hnext : SucceedsAfter left (i + 1) k := by
      refine ⟨fun j hj => ?_, ?_⟩
      · rw [Nat.add_right_comm]
        exact h.failed (j + 1) (by omega)
      · rw [Nat.add_right_comm]
        exact h.success
    obtain ⟨hok, hlen⟩ := hnext.tried (Nat.lt_of_succ_lt_succ hk) b
    rw [tried_failure (i := i) hb]
    exact ⟨hok, congrArg (· + 1) hlen⟩

theorem tried_failed : ∀ {n i : Nat} (_ : ∀ j < n, left (i + j) ≠ none) (a : α),
    (tried left n i a).2 = false ∧ (tried left n i a).1.length = n
  | 0, _, _, _ => ⟨rfl, rfl⟩
  | n + 1, i, h, a => by
    obtain ⟨b, hb⟩ := Option.ne_none_iff_exists'.1 (h 0 (Nat.succ_pos n))
    have hnext : ∀ j < n, left (i + 1 + j) ≠ none := by
      intro j hj
      rw [Nat.add_right_comm]
      exact h (j + 1) (by omega)
    obtain ⟨hok, hlen⟩ := tried_failed hnext b
    rw [tried_failure (i := i) hb]
    exact ⟨hok, congrArg (· + 1) hlen⟩

theorem succeedsAfter_or_failed (left : Nat → Option α) (i : Nat) : ∀ n,
    (∃ k < n, SucceedsAfter left i k) ∨ ∀ j < n, left (i + j) ≠ none
  | 0 => .inr fun _ hj => absurd hj (Nat.not_lt_zero _)
  | n + 1 => by
    rcases succeedsAfter_or_failed left i n with ⟨k, hk, h⟩ | h
    · exact .inl ⟨k, by omega, h⟩
    · cases hn : left (i + n) with
      | none => exact .inl ⟨n, Nat.lt_succ_self n, h, hn⟩
      | some b =>
        refine .inr fun j hj => ?_
        rcases Nat.lt_succ_iff_lt_or_eq.1 hj with hj | rfl
        · exact h j hj
        · rw [hn]
          exact Option.some_ne_none b

/-- The argument is `c` in all attempts exactly when it is at first, and every attempt that fails and is
not the last one leaves it. -/
theorem tried_eq_iff (c : α) : ∀ (n i : Nat) (a : α), (∀ b ∈ (tried left n i a).1, b = c) ↔
    (0 < n → a = c) ∧ ∀ k, k + 1 < n → (∀ j < k, left (i + j) ≠ none) → ∀ b ∈ left (i + k), b = c
  | 0, i, a => by simp [tried]
  | n + 1, i, a => by
    cases hleft : left i with
    | none =>
      rw [tried_success hleft]
      constructor
      · intro h
        refine ⟨fun _ => h a (List.mem_singleton_self a), fun k _ hfailed b hb => ?_⟩
        cases k with
        | zero => exact absurd (hleft.symm.trans hb) nofun
        | succ k => exact absurd hleft (hfailed 0 (Nat.succ_pos k))
      · rintro ⟨ha, -⟩ b hb
        exact (List.mem_singleton.1 hb).trans (ha (Nat.succ_pos n))
    | some b =>
      rw [tried_failure hleft, List.forall_mem_cons, tried_eq_iff c n (i + 1) b]
      constructor
      · rintro ⟨ha, hb, hrest⟩
        refine ⟨fun _ => ha, fun k hk hfailed d hd => ?_⟩
        cases k with
        | zero =>
          obtain rfl := Option.some.inj (hleft.symm.trans hd)
          exact hb (by omega)
        | succ k =>
          refine hrest k (by omega) (fun j hj => ?_) d ?_
          · rw [Nat.add_right_comm]
            exact hfailed (j + 1) (by omega)
          · rw [Nat.add_right_comm]
            exact hd
      · rintro ⟨ha, hrest⟩
        refine ⟨ha (Nat.succ_pos n), fun hn => hrest 0 (by omega) nofun b hleft, fun k hk hfailed d hd => ?_⟩
        rw [Nat.add_right_comm] at hd
        refine hrest (k + 1) (by omega) (fun j hj => ?_) d hd
        cases j with
        | zero =>
          rw [Nat.add_zero, hleft]
          exact Option.some_ne_none b
        | succ j =>
          have hj := hfailed j (by omega)
          rwa [Nat.add_right_comm] at hj

end Retry
