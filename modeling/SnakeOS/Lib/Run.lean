/-
Runs of a step function over a list of events: what one step preserves a whole run preserves, a
step that simulates another makes the runs simulate each other, and a property of every state of
a run is equivalent to a condition on its steps when each step keeps it exactly under the condition.
-/
import Mathlib.Data.List.Induction
import Mathlib.Tactic.Common

namespace Run

variable {σ τ α ε : Type}

/-! ## Runs that can fail -/

/-- A step that succeeds and preserves `P` makes every run succeed and end in `P`. -/
theorem foldlM_inv {step : σ → α → Except ε σ} (P : σ → Prop)
    (hs : ∀ s a, P s → ∃ s', step s a = .ok s' ∧ P s') :
    ∀ (as : List α) (s : σ), P s → ∃ s', as.foldlM step s = .ok s' ∧ P s'
  | [], s, h => ⟨s, rfl, h⟩
  | a :: as, s, h => by
    obtain ⟨s₁, h₁, hP⟩ := hs s a h
    obtain ⟨s', h', hP'⟩ := foldlM_inv P hs as s₁ hP
    refine ⟨s', ?_, hP'⟩
    rw [List.foldlM_cons, h₁]
    exact h'

/-- The same for events of one kind. -/
theorem foldlM_inv_of {step : σ → α → Except ε σ} (P : σ → Prop) {G : α → Prop}
    (hs : ∀ s a, G a → P s → ∃ s', step s a = .ok s' ∧ P s') :
    ∀ (as : List α) (s : σ), (∀ a ∈ as, G a) → P s → ∃ s', as.foldlM step s = .ok s' ∧ P s'
  | [], s, _, h => ⟨s, rfl, h⟩
  | a :: as, s, hG, h => by
    obtain ⟨s₁, h₁, hP⟩ := hs s a (hG a (by simp)) h
    obtain ⟨s', h', hP'⟩ := foldlM_inv_of P hs as s₁ (fun b hb => hG b (by simp [hb])) hP
    refine ⟨s', ?_, hP'⟩
    rw [List.foldlM_cons, h₁]
    exact h'

/-- A step that succeeds and simulates an abstract one makes every run do so. -/
theorem foldlM_sim {step : σ → α → Except ε σ} {astep : τ → α → τ} (R : σ → τ → Prop)
    (hs : ∀ s t a, R s t → ∃ s', step s a = .ok s' ∧ R s' (astep t a)) :
    ∀ (as : List α) (s : σ) (t : τ), R s t → ∃ s', as.foldlM step s = .ok s' ∧ R s' (as.foldl astep t)
  | [], s, t, h => ⟨s, rfl, h⟩
  | a :: as, s, t, h => by
    obtain ⟨s₁, h₁, hR⟩ := hs s t a h
    obtain ⟨s', h', hR'⟩ := foldlM_sim R hs as s₁ (astep t a) hR
    refine ⟨s', ?_, hR'⟩
    rw [List.foldlM_cons, h₁]
    exact h'

/-- A run over a list and one more event is the run over the list followed by one step. -/
theorem foldlM_snoc {step : σ → α → Except ε σ} {as : List α} {s s₁ : σ} (h : as.foldlM step s = .ok s₁)
    (a : α) : (as ++ [a]).foldlM step s = step s₁ a := by
  rw [List.foldlM_append, h]
  show [a].foldlM step s₁ = _
  rw [List.foldlM_cons]
  cases step s₁ a <;> rfl

/-! ## Runs that cannot fail -/

theorem foldl_inv {step : σ → α → σ} (P : σ → Prop) (hs : ∀ s a, P s → P (step s a)) :
    ∀ (as : List α) (s : σ), P s → P (as.foldl step s)
  | [], _, h => h
  | a :: as, s, h => foldl_inv P hs as (step s a) (hs s a h)

theorem foldl_sim {step : σ → α → σ} {astep : τ → α → τ} (R : σ → τ → Prop)
    (hs : ∀ s t a, R s t → R (step s a) (astep t a)) :
    ∀ (as : List α) (s : σ) (t : τ), R s t → R (as.foldl step s) (as.foldl astep t)
  | [], _, _, h => h
  | a :: as, s, t, h => foldl_sim R hs as (step s a) (astep t a) (hs s t a h)

/-! ## Properties of every state of a run -/

/-- When the property `I` of the events seen so far holds at the start, and after one more event
of the run holds exactly under the condition `G` on that step, it holds all along the run exactly
when every step meets the condition. -/
theorem forall_prefix_iff {I : List α → Prop} {G : List α → α → Prop} {as : List α} (h0 : I [])
    (hs : ∀ pre a, pre ++ [a] <+: as → I pre → (I (pre ++ [a]) ↔ G pre a)) :
    (∀ pre, pre <+: as → I pre) ↔ ∀ pre a, pre ++ [a] <+: as → G pre a := by
  constructor
  · intro h pre a hp
    exact (hs pre a hp (h pre ((List.prefix_append pre [a]).trans hp))).1 (h _ hp)
  · intro h pre
    induction pre using List.reverseRecOn with
    | nil => exact fun _ => h0
    | append_singleton pre a ih =>
      intro hp
      exact (hs pre a hp (ih ((List.prefix_append pre [a]).trans hp))).2 (h pre a hp)

/-! ## What happened last -/

/-- `x` is in the log, and every entry after it satisfies `P`. -/
def Since (x : α) (P : α → Prop) (log : List α) : Prop :=
  ∃ pre post, log = pre ++ x :: post ∧ ∀ y ∈ post, P y

theorem not_since_nil (x : α) (P : α → Prop) : ¬Since x P [] := by
  rintro ⟨pre, post, h, -⟩
  exact absurd h (by simp)

theorem since_snoc {x : α} {P : α → Prop} {log : List α} {e : α} :
    Since x P (log ++ [e]) ↔ x = e ∨ P e ∧ Since x P log := by
  constructor
  · rintro ⟨pre, post, h, hpost⟩
    cases post using List.reverseRecOn with
    | nil => exact Or.inl (List.append_inj_right' h rfl |> List.singleton_inj.1).symm
    | append_singleton post y =>
      rw [← List.cons_append, ← List.append_assoc] at h
      obtain ⟨rfl, hy⟩ := List.append_inj' h rfl
      obtain rfl := List.singleton_inj.1 hy
      exact Or.inr ⟨hpost e (by simp), pre, post, rfl, fun z hz => hpost z (by simp [hz])⟩
  · rintro (rfl | ⟨he, pre, post, rfl, hpost⟩)
    · exact ⟨log, [], rfl, by simp⟩
    · refine ⟨pre, post ++ [e], by simp, fun y hy => ?_⟩
      rcases List.mem_append.1 hy with hy | hy
      · exact hpost y hy
      · exact List.mem_singleton.1 hy ▸ he

theorem Since.mem {x : α} {P : α → Prop} {log : List α} (h : Since x P log) : x ∈ log := by
  obtain ⟨pre, post, rfl, -⟩ := h
  simp

end Run
