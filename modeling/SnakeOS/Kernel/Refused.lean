/-
What a refused call of the IRQ core leaves behind: `irq_request` checks before it assigns, `irq_set_chip`
assigns before it checks.
-/
import SnakeOS.Lib.Run
import SnakeOS.Kernel.Irq

namespace SnakeOS.Kernel

open C Term

variable {H D σ : Type}

/-! ## Histories -/

/-- A call of `irq_set_chip` or `irq_request`; the chips need not have any of their methods. -/
inductive CoreCall (H D σ : Type)
  | setChip (chip : Option (IrqChip σ))
  | request (irq : Int) (handler : Option H) (dev : Option D)

def CoreCall.run : CoreCall H D σ → Irq H D σ → Except Fault (Int × Irq H D σ)
  | .setChip chip, s => irqSetChip chip s
  | .request irq handler dev, s => irqRequest irq handler dev s

/-- The state after the calls, whatever they return. -/
def runCore (calls : List (CoreCall H D σ)) (s : Irq H D σ) : Except Fault (Irq H D σ) :=
  calls.foldlM (fun s c => do
    let (_, s) ← c.run s
    return s) s

/-- The same state but for what is on the console. -/
structure SameIrq (s s' : Irq H D σ) : Prop where
  table : s'.irqTable = s.irqTable
  chip : s'.irqChipActive = s.irqChipActive
  hw : s'.hw = s.hw

/-- The call replaces the active chip by one that cannot be initialised. Chips are told apart by their
fields, where the source has pointers to them. -/
def LeavesUninit (s : Irq H D σ) (c : CoreCall H D σ) : Prop :=
  ∃ chip : IrqChip σ, c = .setChip (some chip) ∧ chip.irqInit = none ∧ s.irqChipActive ≠ some chip

/-! ## How a call ends -/

inductive CoreEnd (s : Irq H D σ) (c : CoreCall H D σ) : Int → Irq H D σ → Prop
  | granted (s' : Irq H D σ) (hinit : ∀ chip : IrqChip σ, c = .setChip (some chip) → chip.irqInit ≠ none) :
      CoreEnd s c 0 s'
  | refused (con : Console) (hchip : ∀ chip, c ≠ .setChip (some chip)) : CoreEnd s c 1 { s with con }
  | noInit (con : Console) (chip : IrqChip σ) (hc : c = .setChip (some chip)) (hinit : chip.irqInit = none) :
      CoreEnd s c 1 { s with irqChipActive := some chip, con }

theorem CoreCall.run_ends (c : CoreCall H D σ) (s : Irq H D σ) :
    ∃ ret s', c.run s = .ok (ret, s') ∧ CoreEnd s c ret s' := by
  cases c with
  | setChip chip =>
    cases chip with
    | none =>
      obtain ⟨con, hrun⟩ := irqSetChip_null s
      refine ⟨1, _, hrun, .refused con ?_⟩
      rintro chip ⟨⟩
    | some chip =>
      cases hinit : chip.irqInit with
      | none =>
        obtain ⟨con, hrun⟩ := irqSetChip_noInit hinit s
        exact ⟨1, _, hrun, .noInit con chip rfl hinit⟩
      | some irqInit =>
        refine ⟨0, _, irqSetChip_init hinit s, .granted _ ?_⟩
        rintro _ ⟨⟩
        rw [hinit]
        exact Option.some_ne_none irqInit
  | request irq handler dev =>
    by_cases hirq : IsLine irq
    · cases hchip : s.irqChipActive.bind IrqChip.irqUnmask with
      | none =>
        obtain ⟨con, hrun⟩ := irqRequest_inactive hirq hchip handler dev
        refine ⟨1, _, hrun, .refused con ?_⟩
        rintro chip ⟨⟩
      | some irqUnmask =>
        obtain ⟨con, irqTable, -, hrun⟩ := irqRequest_line hirq hchip handler dev
        refine ⟨0, _, hrun, .granted _ ?_⟩
        rintro chip ⟨⟩
    · obtain ⟨con, hrun⟩ := irqRequest_invalid hirq s handler dev
      refine ⟨1, _, hrun, .refused con ?_⟩
      rintro chip ⟨⟩

theorem runCore_ok (calls : List (CoreCall H D σ)) (s : Irq H D σ) : ∃ s', runCore calls s = .ok s' := by
  let step (s : Irq H D σ) (c : CoreCall H D σ) : Except Fault (Irq H D σ) := do
    let (_, s) ← c.run s
    return s
  have hone : ∀ s c, True → ∃ s', step s c = .ok s' ∧ True := by
    intro s c _
    obtain ⟨ret, s', hrun, -⟩ := c.run_ends s
    refine ⟨s', ?_, trivial⟩
    simp only [step, hrun, ok_bind, pure_eq_ok]
  obtain ⟨s', hrun, -⟩ := Run.foldlM_inv (fun _ => True) hone calls s trivial
  exact ⟨s', hrun⟩

/-! ## Refused calls -/

/-- Only the assignment of a chip without `irq_init` is not undone. -/
theorem CoreEnd.same_iff {s s' : Irq H D σ} {c : CoreCall H D σ} {ret : Int} (h : CoreEnd s c ret s') :
    (ret ≠ 0 → SameIrq s s') ↔ ¬LeavesUninit s c := by
  cases h with
  | granted s' hinit =>
    refine iff_of_true (fun h => absurd rfl h) ?_
    rintro ⟨chip, hc, hnone, -⟩
    exact hinit chip hc hnone
  | refused con hchip =>
    refine iff_of_true (fun _ => ⟨rfl, rfl, rfl⟩) ?_
    rintro ⟨chip, hc, -⟩
    exact hchip chip hc
  | noInit con chip hc hinit =>
    constructor
    · rintro hsame ⟨chip', hc', -, hactive⟩
      obtain rfl : chip = chip' := by simpa using hc.symm.trans hc'
      exact hactive (hsame Int.one_ne_zero).chip.symm
    · intro h
      have hactive : s.irqChipActive = some chip := by
        by_contra hactive
        exact h ⟨chip, hc, hinit, hactive⟩
      exact fun _ => ⟨rfl, hactive.symm, rfl⟩

/-- After every history of calls, with chips that may lack any of their methods, and for every further call:
it leaves the table, the active chip and the chips' masks as they are when it is refused, exactly when it is
not a call of `irq_set_chip` with a chip without `irq_init` in place of another one. -/
theorem refused_same_iff (s₀ : Irq H D σ) (calls : List (CoreCall H D σ)) (c : CoreCall H D σ) :
    ∃ s ret s', runCore calls s₀ = .ok s ∧ c.run s = .ok (ret, s') ∧
      ((ret ≠ 0 → SameIrq s s') ↔ ¬LeavesUninit s c) := by
  obtain ⟨s, hcalls⟩ := runCore_ok calls s₀
  obtain ⟨ret, s', hrun, hend⟩ := c.run_ends s
  exact ⟨s, ret, s', hcalls, hrun, hend.same_iff⟩

/-- A chip with every method but `irq_init`. -/
def noInitChip : IrqChip Unit where
  name := Byte.text "no init"
  irqInit := none
  irqShutdown := some id
  irqMask := some fun _ => id
  irqUnmask := some fun _ => id
  irqEoi := some fun _ => id

/-- The static variables before any call. -/
def bootIrq : Irq Unit Unit Unit := ⟨Vector.replicate NMBR_IRQS ⟨none, none⟩, none, (), Console.boot⟩

/-- The first call is refused, and its chip is active. -/
theorem refused_not_same : ¬∀ calls (c : CoreCall Unit Unit Unit) s ret s', runCore calls bootIrq = .ok s →
    c.run s = .ok (ret, s') → ret ≠ 0 → SameIrq s s' := by
  intro h
  obtain ⟨con, hrun⟩ := @irqSetChip_noInit Unit Unit Unit noInitChip rfl bootIrq
  have hsame := h [] (.setChip (some noInitChip)) bootIrq 1 _ rfl hrun Int.one_ne_zero
  exact absurd hsame.chip (Option.some_ne_none noInitChip)

end SnakeOS.Kernel
