/-
Requested lines and the lines that reach the processor. `irq_request` opens the line it is asked
for and nothing else, so a line of the slave reaches the processor only once line 2 of the master,
which the slave is wired to, has been requested as well.
-/
import SnakeOS.Lib.Run
import SnakeOS.Arch.I8259

namespace SnakeOS.Arch

open C Kernel

variable {H D : Type}

/-! ## Requests -/

structure Request (H D : Type) where
  irq : Int
  handler : Option H
  dev : Option D

/-- The values returned and the state after a list of `irq_request` calls. -/
def requestAll (reqs : List (Request H D)) (s : Irq H D Pics) : Except Fault (List Int × Irq H D Pics) :=
  reqs.foldlM (fun (rets, s) r => do
    let (ret, s) ← irqRequest r.irq r.handler r.dev s
    return (rets ++ [ret], s)) ([], s)

def Requested (reqs : List (Request H D)) (irq : Int) : Prop := ∃ r ∈ reqs, r.irq = irq

/-- No mask is between a line and the processor: for a line of the slave neither its own nor that
of the master's line 2. -/
def Deliverable (irq : Int) (hw : Pics) : Prop :=
  if irq < 8 then hw.master.Open irq.toNat else hw.slave.Open (irq - 8).toNat ∧ hw.master.Open 2

/-- Every call that returned success asked for a line that reaches the processor now. -/
def GrantedDeliver (s : Irq H D Pics) (reqs : List (Request H D)) : Prop :=
  ∃ rets s', requestAll reqs s = .ok (rets, s') ∧
    ∀ call ∈ reqs.zip rets, call.2 = 0 → Deliverable call.1.irq s'.hw

theorem requested_snoc (reqs : List (Request H D)) (r : Request H D) (irq : Int) :
    Requested (reqs ++ [r]) irq ↔ Requested reqs irq ∨ r.irq = irq := by
  unfold Requested
  simp only [List.mem_append, List.mem_singleton, or_and_right, exists_or, exists_eq_left]

/-! ## The masks after requests -/

/-- What holds after the chip is set and the requests are made: the open lines are those requested. -/
structure Masks (reqs : List (Request H D)) (s : Irq H D Pics) : Prop where
  chip : s.irqChipActive = some i8259AChip
  ready : Ready s.hw
  master : ∀ b < 8, s.hw.master.Open b ↔ Requested reqs b
  slave : ∀ b < 8, s.hw.slave.Open b ↔ Requested reqs (b + 8)

/-- The value that a request returns. -/
def returned (r : Request H D) : Int := if IsLine r.irq then 0 else 1

theorem irqArchInit_spec (s : Irq H D Pics) : ∃ s', irqArchInit s = .ok s' ∧ Masks [] s' := by
  have hnone : ∀ irq, ¬Requested ([] : List (Request H D)) irq := fun _ ⟨_, hr, _⟩ => nomatch hr
  refine ⟨{ s with irqChipActive := some i8259AChip, hw := i8259AInit s.hw }, rfl, rfl, i8259AInit_ready s.hw, ?_, ?_⟩
  · intro b hb
    exact iff_of_false (i8259AInit_masked s.hw hb).1 (hnone _)
  · intro b hb
    exact iff_of_false (i8259AInit_masked s.hw hb).2 (hnone _)

/-- One request opens its line, when there is such a line. -/
theorem Masks.request {reqs : List (Request H D)} {s : Irq H D Pics} (h : Masks reqs s) (r : Request H D) :
    ∃ s', irqRequest r.irq r.handler r.dev s = .ok (returned r, s') ∧ Masks (reqs ++ [r]) s' := by
  unfold returned
  by_cases hline : IsLine r.irq
  · have hchip : s.irqChipActive.bind IrqChip.irqUnmask = some i8259AUnmaskIrq := by rw [h.chip]; rfl
    obtain ⟨con, irqTable, -, hrun⟩ := irqRequest_line hline hchip r.handler r.dev
    obtain ⟨hready, hopen⟩ := i8259AUnmaskIrq_spec h.ready hline
    rw [if_pos hline]
    refine ⟨_, hrun, h.chip, hready, fun b hb => ?_, fun b hb => ?_⟩
    · rw [requested_snoc, ← h.master b hb]
      exact (hopen b hb).1
    · rw [requested_snoc, ← h.slave b hb]
      exact (hopen b hb).2
  · obtain ⟨con, hrun⟩ := irqRequest_invalid hline s r.handler r.dev
    rw [if_neg hline]
    unfold IsLine at hline
    refine ⟨_, hrun, h.chip, h.ready, fun b hb => ?_, fun b hb => ?_⟩
    · rw [requested_snoc, or_iff_left (by simp only [NMBR_IRQS] at hline; omega)]
      exact h.master b hb
    · rw [requested_snoc, or_iff_left (by simp only [NMBR_IRQS] at hline; omega)]
      exact h.slave b hb

theorem Masks.requestAll {s : Irq H D Pics} (h : Masks [] s) (reqs : List (Request H D)) :
    ∃ s', requestAll reqs s = .ok (reqs.map returned, s') ∧ Masks reqs s' := by
  induction reqs using List.reverseRecOn with
  | nil => exact ⟨s, rfl, h⟩
  | append_singleton pre r ih =>
    obtain ⟨s₁, hpre, hmasks⟩ := ih
    obtain ⟨s₂, hr, hmasks'⟩ := hmasks.request r
    refine ⟨s₂, ?_, hmasks'⟩
    unfold Arch.requestAll at hpre ⊢
    rw [Run.foldlM_snoc hpre r]
    simp only [hr, ok_bind, pure_eq_ok, List.map_append, List.map_singleton]

/-! ## Lines that reach the processor -/

theorem Masks.deliverable_iff {reqs : List (Request H D)} {s : Irq H D Pics} (h : Masks reqs s) {irq : Int}
    (hirq : IsLine irq) (hreq : Requested reqs irq) : Deliverable irq s.hw ↔ (8 ≤ irq → Requested reqs 2) := by
  obtain ⟨h0, h16⟩ := hirq
  simp only [NMBR_IRQS] at h16
  unfold Deliverable
  split
  · rename_i hlow
    obtain ⟨k, rfl⟩ : ∃ k : Nat, irq = k := ⟨irq.toNat, by omega⟩
    exact iff_of_true ((h.master k (by omega)).2 hreq) (fun hge => absurd hge (by omega))
  · rename_i hhigh
    obtain ⟨k, rfl⟩ : ∃ k : Nat, irq = k + 8 := ⟨(irq - 8).toNat, by omega⟩
    have hopen : s.hw.slave.Open k := (h.slave k (by omega)).2 hreq
    have hcascade : s.hw.master.Open 2 ↔ Requested reqs 2 := h.master 2 (by omega)
    rw [Int.add_sub_cancel, Int.toNat_natCast, hcascade]
    exact ⟨fun h2 _ => h2.2, fun h2 => ⟨hopen, h2 (by omega)⟩⟩

theorem Masks.grantedDeliver_iff {s : Irq H D Pics} (h : Masks [] s) (reqs : List (Request H D)) :
    GrantedDeliver s reqs ↔ ∀ r ∈ reqs, 8 ≤ r.irq → r.irq < 16 → Requested reqs 2 := by
  obtain ⟨s', hrun, hmasks⟩ := h.requestAll reqs
  have hzip : reqs.zip (reqs.map returned) = reqs.map fun r => (r, returned r) := (List.map_prod_left_eq_zip ..).symm
  have hcalls : GrantedDeliver s reqs ↔ ∀ r ∈ reqs, IsLine r.irq → Deliverable r.irq s'.hw := by
    constructor
    · rintro ⟨rets, s'', hrun', hcall⟩ r hr hline
      obtain ⟨rfl, rfl⟩ := Prod.mk.inj (Except.ok.inj (hrun'.symm.trans hrun))
      refine hcall (r, returned r) ?_ (if_pos hline)
      rw [hzip]
      exact List.mem_map_of_mem hr
    · intro hall
      refine ⟨_, _, hrun, fun call hcall hret => ?_⟩
      rw [hzip] at hcall
      obtain ⟨r, hr, rfl⟩ := List.mem_map.1 hcall
      refine hall r hr ?_
      by_contra hline
      exact absurd ((if_neg hline).symm.trans hret) (by decide)
  rw [hcalls]
  constructor
  · intro hall r hr h8 h16
    have hline : IsLine r.irq := ⟨by omega, h16⟩
    exact (hmasks.deliverable_iff hline ⟨r, hr, rfl⟩).1 (hall r hr hline) h8
  · intro hall r hr hline
    exact (hmasks.deliverable_iff hline ⟨r, hr, rfl⟩).2 fun h8 => hall r hr h8 hline.2

/-- After one more request the granted lines still reach the processor exactly when it is not for a
line of the slave, or the cascade line was requested before. -/
theorem Masks.grantedDeliver_snoc {s : Irq H D Pics} (h : Masks [] s) {pre : List (Request H D)}
    (hpre : GrantedDeliver s pre) (r : Request H D) :
    GrantedDeliver s (pre ++ [r]) ↔ (8 ≤ r.irq → r.irq < 16 → Requested pre 2) := by
  have hearlier := (h.grantedDeliver_iff pre).1 hpre
  rw [h.grantedDeliver_iff]
  constructor
  · intro hall h8 h16
    have h2 := hall r (List.mem_append_right _ (List.mem_singleton_self r)) h8 h16
    exact ((requested_snoc pre r 2).1 h2).resolve_right (by omega)
  · intro hr q hq h8 h16
    refine (requested_snoc pre r 2).2 (.inl ?_)
    rcases List.mem_append.1 hq with hq | hq
    · exact hearlier q hq h8 h16
    · obtain rfl := List.mem_singleton.1 hq
      exact hr h8 h16

/-- After `irq_arch_init`, whatever is requested: every line that was granted reaches the processor
from then on exactly when every request for a line of the slave comes after one for line 2. -/
theorem granted_deliver_iff (s₀ : Irq H D Pics) : ∃ s, irqArchInit s₀ = .ok s ∧ ∀ reqs : List (Request H D),
    (∀ pre, pre <+: reqs → GrantedDeliver s pre) ↔
      ∀ pre r, pre ++ [r] <+: reqs → 8 ≤ r.irq → r.irq < 16 → Requested pre 2 := by
  obtain ⟨s, hinit, hmasks⟩ := irqArchInit_spec s₀
  refine ⟨s, hinit, fun reqs => Run.forall_prefix_iff ?_ ?_⟩
  · exact (hmasks.grantedDeliver_iff []).2 fun r hr => absurd hr List.not_mem_nil
  · exact fun pre r _ hpre => hmasks.grantedDeliver_snoc hpre r

/-- A single request, for line 8, is granted, but line 2 of the master is masked. -/
theorem granted_not_delivered : ¬∃ s, irqArchInit bootIrq = .ok s ∧ GrantedDeliver s [⟨8, some (), none⟩] := by
  rintro ⟨s, hinit, hgranted⟩
  obtain ⟨s', hinit', hmasks⟩ := irqArchInit_spec bootIrq
  obtain rfl := Except.ok.inj (hinit.symm.trans hinit')
  have h2 := (hmasks.grantedDeliver_iff _).1 hgranted _ (List.mem_singleton_self _) (by decide) (by decide)
  obtain ⟨r, hr, hr2⟩ := h2
  rw [List.mem_singleton.1 hr] at hr2
  exact absurd hr2 (by decide)

end SnakeOS.Arch
