/-
Priority interrupt controllers over linearly ordered lines, the least of which has the highest priority: requests
are latched, masked and acknowledged, and a line is in service until the end of its interrupt.
-/
import Mathlib.Data.Finset.Sort

namespace Priority

variable {α : Type} [LinearOrder α]

/-! ## The first of a set -/

def first (s : Finset α) : Option α := if h : s.Nonempty then some (s.min' h) else none

theorem first_eq_none {s : Finset α} : first s = none ↔ s = ∅ := by
  unfold first
  by_cases h : s.Nonempty
  · rw [dif_pos h]
    exact iff_of_false (Option.some_ne_none _) h.ne_empty
  · rw [dif_neg h]
    exact iff_of_true rfl (Finset.not_nonempty_iff_eq_empty.1 h)

theorem first_eq_some {s : Finset α} {k : α} : first s = some k ↔ k ∈ s ∧ ∀ j ∈ s, k ≤ j := by
  unfold first
  by_cases h : s.Nonempty
  · rw [dif_pos h, Option.some_inj, Finset.min'_eq_iff]
  · rw [dif_neg h]
    refine iff_of_false (by simp) fun hk => h ⟨k, hk.1⟩

theorem first_isSome {s : Finset α} : (first s).isSome ↔ s.Nonempty := by
  rw [Option.isSome_iff_ne_none, ne_eq, first_eq_none, Finset.nonempty_iff_ne_empty]

/-- The lines of a set in the order of their priority are the first one and then the others. -/
theorem sort_eq_cons {s : Finset α} {k : α} (h : first s = some k) : s.sort = k :: (s.erase k).sort := by
  obtain ⟨hk, hle⟩ := first_eq_some.1 h
  have hinsert := Finset.sort_insert (r := (· ≤ ·)) (fun j hj => hle j (Finset.mem_of_mem_erase hj))
    (Finset.notMem_erase k s)
  rwa [Finset.insert_erase hk] at hinsert

/-! ## One controller -/

/-- The request register and the in-service register. -/
structure Lines (α : Type) where
  irr : Finset α
  isr : Finset α
  deriving DecidableEq

namespace Lines

def raise (k : α) (l : Lines α) : Lines α := { l with irr := insert k l.irr }

/-- The line for which the controller interrupts: the first request that is not masked, if it comes before all
lines in service. -/
def pending (mask : Finset α) (l : Lines α) : Option α :=
  (first (l.irr \ mask)).filter fun k => ∀ j ∈ l.isr, k < j

def acknowledge (k : α) (l : Lines α) : Lines α := ⟨l.irr.erase k, insert k l.isr⟩

/-- The end of an interrupt that does not name its line: the first one in service. -/
def eoi (l : Lines α) : Lines α :=
  match first l.isr with
  | none => l
  | some k => { l with isr := l.isr.erase k }

/-- Nothing is in service. -/
def Idle (l : Lines α) : Prop := l.isr = ∅

theorem Idle.pending {l : Lines α} (h : l.Idle) (mask : Finset α) : l.pending mask = first (l.irr \ mask) := by
  unfold Lines.pending
  rw [show l.isr = ∅ from h]
  cases first (l.irr \ mask) with
  | none => rfl
  | some k => simp

/-- With one line in service at most, an end of interrupt leaves none. -/
theorem idle_eoi {l : Lines α} (h : l.isr.card ≤ 1) : l.eoi.Idle := by
  unfold Lines.eoi Idle
  cases hfirst : first l.isr with
  | none => exact first_eq_none.1 hfirst
  | some k =>
    have hmem := (first_eq_some.1 hfirst).1
    show l.isr.erase k = ∅
    rw [← Finset.card_eq_zero, Finset.card_erase_of_mem hmem]
    omega

theorem eoi_irr (l : Lines α) : l.eoi.irr = l.irr := by
  unfold Lines.eoi
  split
  · rfl
  · rfl

end Lines

/-! ## Serving one line after another -/

section Drain

variable {σ ε β : Type}

/-- What `n` steps return and the state after them. -/
def served (step : σ → Except ε (β × σ)) : Nat → σ → Except ε (List β × σ)
  | 0, s => .ok ([], s)
  | n + 1, s => do
    let (b, s) ← step s
    let (bs, s) ← served step n s
    return (b :: bs, s)

/-- What each step keeps all of them keep. -/
theorem served_inv {step : σ → Except ε (β × σ)} {P : σ → Prop}
    (hstep : ∀ s, P s → ∃ b s', step s = .ok (b, s') ∧ P s') :
    ∀ (n : Nat) (s : σ), P s → ∃ bs s', served step n s = .ok (bs, s') ∧ P s'
  | 0, s, hP => ⟨[], s, rfl, hP⟩
  | n + 1, s, hP => by
    obtain ⟨b, s₁, hs₁, hP₁⟩ := hstep s hP
    obtain ⟨bs, s', hs', hP'⟩ := served_inv hstep n s₁ hP₁
    refine ⟨b :: bs, s', ?_, hP'⟩
    unfold served
    rw [hs₁]
    show (served step n s₁ >>= _) = _
    rw [hs']
    rfl

/-- When each step serves the first of the wanted lines and leaves the others wanted, as many steps as there are
wanted lines serve all of them, in the order of their priority. -/
theorem served_sort {step : σ → Except ε (β × σ)} {P : σ → Prop} {want : σ → Finset α} {name : α → β}
    (hstep : ∀ s k, P s → first (want s) = some k →
      ∃ s', step s = .ok (name k, s') ∧ P s' ∧ want s' = (want s).erase k) :
    ∀ (n : Nat) (s : σ), (want s).card = n → P s →
      ∃ s', served step n s = .ok ((want s).sort.map name, s') ∧ P s' ∧ want s' = ∅
  | 0, s, hcard, hP => by
    have hempty := Finset.card_eq_zero.1 hcard
    refine ⟨s, ?_, hP, hempty⟩
    rw [hempty, Finset.sort_empty]
    rfl
  | n + 1, s, hcard, hP => by
    have hpos : 0 < (want s).card := hcard ▸ Nat.succ_pos n
    obtain ⟨k, hk⟩ := Option.isSome_iff_exists.1 (first_isSome.2 (Finset.card_pos.1 hpos))
    obtain ⟨s₁, hs₁, hP₁, hwant⟩ := hstep s k hP hk
    have hcard₁ : (want s₁).card = n := by
      rw [hwant, Finset.card_erase_of_mem (first_eq_some.1 hk).1]
      omega
    obtain ⟨s', hs', hP', hempty⟩ := served_sort hstep n s₁ hcard₁ hP₁
    refine ⟨s', ?_, hP', hempty⟩
    rw [sort_eq_cons hk, ← hwant, List.map_cons]
    show (step s >>= fun p => served step n p.2 >>= fun q => Except.ok (p.1 :: q.1, q.2)) = _
    rw [hs₁]
    show (served step n s₁ >>= fun q => Except.ok (name k :: q.1, q.2)) = _
    rw [hs']
    rfl

end Drain

end Priority
