/-
Histories of calls of the IRQ core over the 8259A chips: the handler table and the masks stay in
step with the requests granted, and `irq_handle` runs the handler granted last.
-/
import SnakeOS.Lib.Run
import SnakeOS.Arch.I8259

namespace SnakeOS.Arch

open C Kernel

variable {H D : Type}

/-! ## Histories -/

/-- A call of `irq_request`, or of `irq_set_chip` on the 8259A chip. -/
inductive IrqCall (H D : Type)
  | request (irq : Int) (handler : Option H) (dev : Option D)
  | setChip

def IrqCall.run : IrqCall H D → Irq H D Pics → Except Fault (Int × Irq H D Pics)
  | .request irq handler dev, s => irqRequest irq handler dev s
  | .setChip, s => irqSetChip (some i8259AChip) s

/-- The calls made, each with the value it returned. -/
abbrev Log (H D : Type) := List (IrqCall H D × Int)

/-- The log and the state after a list of calls. -/
def runCalls (calls : List (IrqCall H D)) (s : Irq H D Pics) : Except Fault (Log H D × Irq H D Pics) :=
  calls.foldlM (fun (log, s) c => do
    let (ret, s) ← c.run s
    return (log ++ [(c, ret)], s)) ([], s)

/-- A request for the line has succeeded, and the chip has not been initialised after it. -/
def GrantedSinceInit (log : Log H D) (irq : Int) : Prop :=
  ∃ handler dev, Run.Since (.request irq handler dev, 0) (fun e => e.1 ≠ .setChip) log

/-- The last successful request for the line gave it this handler and this cookie. -/
def LastGranted (log : Log H D) (irq : Int) (handler : Option H) (dev : Option D) : Prop :=
  Run.Since (.request irq handler dev, 0) (fun e => ∀ handler dev, e ≠ (.request irq handler dev, 0)) log

/-- The mask bit of a line is clear. -/
def LineOpen (irq : Int) (hw : Pics) : Prop :=
  if irq < 8 then hw.master.Open irq.toNat else hw.slave.Open (irq - 8).toNat

/-! ## The masks and the end of interrupt -/

theorem lineOpen_init {irq : Int} (hirq : IsLine irq) (hw : Pics) : ¬LineOpen irq (i8259AInit hw) := by
  obtain ⟨h0, h16⟩ := hirq
  simp only [NMBR_IRQS] at h16
  unfold LineOpen
  split
  · exact (i8259AInit_masked hw (by omega)).1
  · exact (i8259AInit_masked hw (by omega)).2

/-- Unmasking a line opens it, and leaves the fifteen others as they are. -/
theorem lineOpen_unmask {hw : Pics} (h : Ready hw) {irq irq' : Int} (hirq : IsLine irq) (hirq' : IsLine irq') :
    LineOpen irq (i8259AUnmaskIrq irq' hw) ↔ LineOpen irq hw ∨ irq' = irq := by
  obtain ⟨h0, h16⟩ := hirq
  simp only [NMBR_IRQS] at h16
  have hopen := (i8259AUnmaskIrq_spec h hirq').2
  unfold LineOpen
  split
  · rw [(hopen irq.toNat (by omega)).1]
    exact or_congr_right (by omega)
  · rw [(hopen (irq - 8).toNat (by omega)).2]
    exact or_congr_right (by omega)

/-- The ports and values that end an interrupt: the slave for its lines, and always the master. -/
def eoiWrites (irq : Int) : List (UInt16 × UInt8) :=
  (if 8 ≤ irq then [(PIC2_CMD, PIC_EOI)] else []) ++ [(PIC1_CMD, PIC_EOI)]

theorem i8259ASendEoi_eq (irq : Int) (hw : Pics) :
    i8259ASendEoi irq hw = { hw with writes := hw.writes ++ eoiWrites irq } := by
  have hmaster : ∀ hw, outb PIC1_CMD PIC_EOI hw = { hw with writes := hw.writes ++ [(PIC1_CMD, PIC_EOI)] } :=
    fun _ => rfl
  have hslave : ∀ hw, outb PIC2_CMD PIC_EOI hw = { hw with writes := hw.writes ++ [(PIC2_CMD, PIC_EOI)] } :=
    fun _ => rfl
  unfold i8259ASendEoi eoiWrites
  by_cases h : 8 ≤ irq
  · rw [if_pos h, if_pos h, hslave, hmaster, List.append_assoc]
  · rw [if_neg h, if_neg h, hmaster]
    rfl

/-! ## The invariant -/

/-- The masks and the table are in step with the log. -/
structure InStep (log : Log H D) (s : Irq H D Pics) : Prop where
  chip : s.irqChipActive = some i8259AChip
  ready : Ready s.hw
  lines : ∀ irq handler dev, (.request irq handler dev, 0) ∈ log → IsLine irq
  masks : ∀ irq, IsLine irq → (LineOpen irq s.hw ↔ GrantedSinceInit log irq)
  table : ∀ irq handler dev, LastGranted log irq handler dev → load s.irqTable irq.toNat = .ok ⟨handler, dev⟩

theorem InStep.init (s : Irq H D Pics) :
    InStep [] { s with irqChipActive := some i8259AChip, hw := i8259AInit s.hw } where
  chip := rfl
  ready := i8259AInit_ready s.hw
  lines _ _ _ h := absurd h List.not_mem_nil
  masks _ hirq := iff_of_false (lineOpen_init hirq s.hw) fun ⟨_, _, h⟩ => Run.not_since_nil _ _ h
  table _ _ _ h := absurd h (Run.not_since_nil _ _)

theorem grantedSinceInit_request {log : Log H D} {irq irq' : Int} {handler : Option H} {dev : Option D}
    {ret : Int} : GrantedSinceInit (log ++ [(.request irq' handler dev, ret)]) irq ↔
      GrantedSinceInit log irq ∨ irq' = irq ∧ ret = 0 := by
  unfold GrantedSinceInit
  simp only [Run.since_snoc, Prod.mk.injEq, IrqCall.request.injEq]
  constructor
  · rintro ⟨handler', dev', ⟨⟨rfl, -, -⟩, rfl⟩ | ⟨-, h⟩⟩
    · exact Or.inr ⟨rfl, rfl⟩
    · exact Or.inl ⟨handler', dev', h⟩
  · rintro (⟨handler', dev', h⟩ | ⟨rfl, rfl⟩)
    · exact ⟨handler', dev', Or.inr ⟨by simp, h⟩⟩
    · exact ⟨handler, dev, Or.inl ⟨⟨rfl, rfl, rfl⟩, rfl⟩⟩

theorem not_grantedSinceInit_setChip {log : Log H D} {irq ret : Int} :
    ¬GrantedSinceInit (log ++ [(.setChip, ret)]) irq := by
  rintro ⟨handler, dev, h⟩
  rw [Run.since_snoc] at h
  rcases h with h | ⟨h, -⟩
  · exact absurd h (by simp)
  · exact h rfl

/-- A call keeps the masks and the table in step. -/
theorem InStep.run {log : Log H D} {s : Irq H D Pics} (h : InStep log s) (c : IrqCall H D) :
    ∃ ret s', c.run s = .ok (ret, s') ∧ InStep (log ++ [(c, ret)]) s' := by
  cases c with
  | setChip =>
    refine ⟨0, _, rfl, rfl, i8259AInit_ready s.hw, ?_, ?_, ?_⟩
    · intro irq handler dev hmem
      exact h.lines irq handler dev (by simpa using hmem)
    · intro irq hirq
      exact iff_of_false (lineOpen_init hirq s.hw) not_grantedSinceInit_setChip
    · intro irq handler dev hlast
      unfold LastGranted at hlast
      rw [Run.since_snoc] at hlast
      rcases hlast with heq | ⟨-, hlast⟩
      · exact absurd heq (by simp)
      · exact h.table irq handler dev hlast
  | request irq' handler' dev' =>
    by_cases hline : IsLine irq'
    · have hchip : s.irqChipActive.bind IrqChip.irqUnmask = some i8259AUnmaskIrq := by rw [h.chip]; rfl
      obtain ⟨con, irqTable, htable, hrun⟩ := irqRequest_line hline hchip handler' dev'
      obtain ⟨hready, -⟩ := i8259AUnmaskIrq_spec h.ready hline
      refine ⟨0, _, hrun, h.chip, hready, ?_, ?_, ?_⟩
      · intro irq handler dev hmem
        rcases List.mem_append.1 hmem with hmem | hmem
        · exact h.lines irq handler dev hmem
        · simp only [List.mem_singleton, Prod.mk.injEq, IrqCall.request.injEq] at hmem
          obtain ⟨⟨rfl, -, -⟩, -⟩ := hmem
          exact hline
      · intro irq hirq
        rw [grantedSinceInit_request, ← h.masks irq hirq, and_iff_left rfl]
        exact lineOpen_unmask h.ready hirq hline
      · intro irq handler dev hlast
        unfold LastGranted at hlast
        rw [Run.since_snoc] at hlast
        rcases hlast with heq | ⟨hother, hlast⟩
        · simp only [Prod.mk.injEq, IrqCall.request.injEq, and_true] at heq
          obtain ⟨rfl, rfl, rfl⟩ := heq
          show load irqTable irq.toNat = _
          exact load_store htable
        · have hne : irq' ≠ irq := by
            rintro rfl
            exact hother handler' dev' rfl
          obtain ⟨h0, -⟩ := h.lines irq handler dev hlast.mem
          show load irqTable irq.toNat = _
          rw [load_store_ne htable (by have := hline.1; omega)]
          exact h.table irq handler dev hlast
    · obtain ⟨con, hrun⟩ := irqRequest_invalid hline s handler' dev'
      refine ⟨1, _, hrun, h.chip, h.ready, ?_, ?_, ?_⟩
      · intro irq handler dev hmem
        exact h.lines irq handler dev (by simpa using hmem)
      · intro irq hirq
        rw [grantedSinceInit_request, ← h.masks irq hirq]
        simp
      · intro irq handler dev hlast
        unfold LastGranted at hlast
        rw [Run.since_snoc] at hlast
        rcases hlast with heq | ⟨-, hlast⟩
        · exact absurd heq (by simp)
        · exact h.table irq handler dev hlast

theorem InStep.runCalls {s : Irq H D Pics} (h : InStep [] s) (calls : List (IrqCall H D)) :
    ∃ log s', runCalls calls s = .ok (log, s') ∧ InStep log s' := by
  let step (p : Log H D × Irq H D Pics) (c : IrqCall H D) := do
    let (ret, s) ← IrqCall.run c p.2
    return (p.1 ++ [(c, ret)], s)
  have hone : ∀ p c, InStep p.1 p.2 → ∃ p', step p c = .ok p' ∧ InStep p'.1 p'.2 := by
    intro p c hp
    obtain ⟨ret, s', hrun, hstep⟩ := hp.run c
    refine ⟨(p.1 ++ [(c, ret)], s'), ?_, hstep⟩
    simp only [step, hrun, ok_bind, pure_eq_ok]
  obtain ⟨⟨log, s'⟩, hrun, hstep⟩ := Run.foldlM_inv (fun p => InStep p.1 p.2) hone calls ([], s) h
  exact ⟨log, s', hrun, hstep⟩

/-! ## The law -/

/-- After `irq_arch_init`, whatever is requested and however often the chip is set again: the open
lines are those granted since the last initialisation, the table holds what was granted last, a
request for no line returns 1 and changes only the console, and `irq_handle` calls a line's handler
once with its cookie and then ends the interrupt at the slave, for its lines, and at the master. -/
theorem irq_history {F : Type} (s₀ : Irq H D Pics) : ∃ s, irqArchInit s₀ = .ok s ∧
    ∀ calls, ∃ log s', runCalls calls s = .ok (log, s') ∧
      (∀ irq, IsLine irq → (LineOpen irq s'.hw ↔ GrantedSinceInit log irq)) ∧
      (∀ irq handler dev, LastGranted log irq handler dev → load s'.irqTable irq.toNat = .ok ⟨handler, dev⟩) ∧
      (∀ irq handler dev, ¬IsLine irq → ∃ con, irqRequest irq handler dev s' = .ok (1, { s' with con })) ∧
      ∀ irq handler dev, IsLine irq → load s'.irqTable irq.toNat = .ok ⟨some handler, dev⟩ →
        ∀ (call : H → Int → F → Option D → Irq H D Pics → Except Fault (Irq H D Pics)) (frame : F),
          (∀ t, call handler irq frame dev s' = .ok t → t.irqChipActive = s'.irqChipActive) →
          irqHandle call irq frame s' = (call handler irq frame dev s').map fun t =>
            { t with hw := { t.hw with writes := t.hw.writes ++ eoiWrites irq } } := by
  refine ⟨_, rfl, fun calls => ?_⟩
  obtain ⟨log, s', hrun, h⟩ := (InStep.init s₀).runCalls calls
  refine ⟨log, s', hrun, h.masks, h.table, ?_, ?_⟩
  · intro irq handler dev hline
    exact irqRequest_invalid hline s' handler dev
  · intro irq handler dev hline hdesc call frame hcall
    have heoi : ∀ t, call handler irq frame dev s' = .ok t →
        t.irqChipActive.bind IrqChip.irqEoi = some i8259ASendEoi := by
      intro t ht
      rw [hcall t ht, h.chip]
      rfl
    rw [irqHandle_handler hline hdesc heoi]
    simp only [i8259ASendEoi_eq]

/-- A handler that returns when it gets its cookie. -/
def needsCookie : Unit → Int → Unit → Option Unit → Irq Unit Unit Pics → Except Fault (Irq Unit Unit Pics) :=
  fun _ _ _ dev s => if dev = some () then .ok s else .error (.halt [])

/-- Line 9 is granted; its handler is called with the cookie, and the interrupt is ended at the slave and
then at the master. -/
theorem irq_history_cookie : ∃ s log s', irqArchInit bootIrq = .ok s ∧
    runCalls [.request 9 (some ()) (some ())] s = .ok (log, s') ∧ irqHandle needsCookie 9 () s' =
      .ok { s' with hw := { s'.hw with writes := s'.hw.writes ++ [(PIC2_CMD, PIC_EOI), (PIC1_CMD, PIC_EOI)] } } := by
  obtain ⟨s, hinit, hcalls⟩ := irq_history (F := Unit) bootIrq
  obtain ⟨log, s', hrun, -, htable, -, hhandle⟩ := hcalls [.request 9 (some ()) (some ())]
  have hchip : s.irqChipActive.bind IrqChip.irqUnmask = some i8259AUnmaskIrq := by
    obtain rfl := Except.ok.inj hinit
    rfl
  obtain ⟨con, irqTable, -, hrequest⟩ := irqRequest_line (show IsLine 9 by decide) hchip (some ()) (some ())
  have hlog : log = [(.request 9 (some ()) (some ()), 0)] := by
    simp only [runCalls, List.foldlM_cons, List.foldlM_nil, IrqCall.run, hrequest, ok_bind, pure_eq_ok,
      List.nil_append] at hrun
    exact (congrArg Prod.fst (Except.ok.inj hrun)).symm
  have hlast : LastGranted log 9 (some ()) (some ()) := ⟨[], [], hlog, fun _ h => absurd h List.not_mem_nil⟩
  exact ⟨s, log, s', hinit, hrun, hhandle 9 () (some ()) (by decide) (htable 9 _ _ hlast) needsCookie () fun t ht => by
    rw [← Except.ok.inj ht]⟩

end SnakeOS.Arch
