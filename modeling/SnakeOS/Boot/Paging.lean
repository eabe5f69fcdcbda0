/-
`set_up_paging` of boot/x86/stage1/utils_protected_mode.asm: the tables it leaves in memory,
whatever was there, map the first GiB to itself and nothing else. Segments are flat and the
direction flag is clear.
-/
import SnakeOS.Boot.Print
import SnakeOS.Lib.Loop
import SnakeOS.Lib.Paging

namespace SnakeOS.Boot

open Mem CLoop Paging

namespace Cpu

/-- `mul` by a doubleword. -/
def mul (x : BitVec 32) (s : Cpu) : Cpu :=
  let p := s.regs.eax.toNat * x.toNat
  { s with regs := { s.regs with eax := BitVec.ofNat 32 p, edx := BitVec.ofNat 32 (p / 2 ^ 32) } }

/-- `stosd` the given number of times, which is what ECX counts down. -/
def repStosd : Nat → Cpu → Cpu
  | 0, s => s
  | n + 1, s =>
    let s := s.store32 s.regs.edi s.regs.eax
    repStosd n { s with regs := { s.regs with edi := s.regs.edi + 4, ecx := s.regs.ecx - 1 } }

end Cpu

/-! ## `set_up_paging` -/

abbrev page_table_size : BitVec 32 := 4096
abbrev page_table_l4_address : BitVec 32 := 0x1000
abbrev page_table_l3_address : BitVec 32 := 0x2000
abbrev page_table_l2_address : BitVec 32 := 0x3000

/-- Up to `rep stosd`. -/
def pointAtTables (s : Cpu) : Cpu :=
  let s := { s with regs := { s.regs with edi := page_table_l4_address } }
  let s := { s with cr3 := s.regs.edi }
  let s := { s with regs := { s.regs with eax := 0 } }
  { s with regs := { s.regs with ecx := page_table_size } }

/-- The tables are filled with zeros. -/
def cleanTables (s : Cpu) : Cpu :=
  let s := pointAtTables s
  let s := s.repStosd s.regs.ecx.toNat
  { s with regs := { s.regs with edi := s.cr3 } }

/-- The entries in the l4 and the l3 table. -/
def createEntries (s : Cpu) : Cpu :=
  let s := { s with regs := { s.regs with eax := page_table_l3_address } }
  let s := { s with regs := { s.regs with eax := s.regs.eax ||| 0b11 } }
  let s := s.store32 page_table_l4_address s.regs.eax
  let s := { s with regs := { s.regs with eax := page_table_l2_address } }
  let s := { s with regs := { s.regs with eax := s.regs.eax ||| 0b11 } }
  s.store32 page_table_l3_address s.regs.eax

/-- `.fill_l2_table_loop` up to the comparison. -/
def fillL2Entry (s : Cpu) : Cpu :=
  let s := { s with regs := { s.regs with eax := 0x200000 } }
  let s := s.mul s.regs.ecx
  let s := { s with regs := { s.regs with eax := s.regs.eax ||| 0b10000011 } }
  let s := s.store32 (page_table_l2_address + s.regs.ecx * 8) s.regs.eax
  { s with regs := { s.regs with ecx := s.regs.ecx + 1 } }

def fillL2Table (fuel : Nat) (s : Cpu) : Option Cpu :=
  doWhile fillL2Entry (fun s => s.regs.ecx ≠ 512) fuel { s with regs := { s.regs with ecx := 0 } }

/-- `none` when one of its two loops runs longer than the fuel. -/
def setUpPaging (l : Stage1) (fuel : Nat) (s : Cpu) : Option Cpu := do
  let s ← fillL2Table fuel (createEntries (cleanTables s))
  let s ← printMessage l .MSG_PAGING_SET_UP fuel s
  return { s with esp := s.esp + 4 }

/-- How `set_up_paging` is entered: the position on the screen and the top of the stack. -/
structure Entry where
  screen : BitVec 32
  esp : BitVec 32
  screen_range : OnScreen screen.toNat
  esp_range : 0x5010 ≤ esp.toNat ∧ esp.toNat ≤ 0x80000

/-- The memory `set_up_paging` finds: the data of stage1 over anything else. -/
def Stage1.image (l : Stage1) (e : Entry) (m : Nat → UInt8) : Nat → UInt8 :=
  blitNum l.printStringPossition.toNat 4 e.screen.toNat
    (blit (l.message .MSG_PAGING_SET_UP).toNat (Message.MSG_PAGING_SET_UP.length + 1)
      (fun i => Message.MSG_PAGING_SET_UP.text.getD i 0) m)

def Stage1.enter (l : Stage1) (e : Entry) (s : Cpu) : Cpu := { s with esp := e.esp, mem := l.image e s.mem }

/-! ## The tables -/

theorem repStosd_zero : ∀ (n : Nat) (s : Cpu), s.regs.eax = 0 → s.regs.edi.toNat + 4 * n < 2 ^ 32 →
    (s.repStosd n).mem = blit s.regs.edi.toNat (4 * n) (fun _ => 0) s.mem ∧
      (s.repStosd n).cr3 = s.cr3 ∧ (s.repStosd n).esp = s.esp
  | 0, s, _, _ => ⟨funext fun k => (blit_outside (by omega) _ _).symm, rfl, rfl⟩
  | n + 1, s, heax, hedi => by
    have hnext : (s.regs.edi + 4).toNat = s.regs.edi.toNat + 4 := by bv_omega
    obtain ⟨hmem, hcr3, hesp⟩ := repStosd_zero n
      { s.store32 s.regs.edi s.regs.eax with regs := { s.regs with edi := s.regs.edi + 4, ecx := s.regs.ecx - 1 } }
      heax (by simp only [hnext]; omega)
    refine ⟨hmem.trans (funext fun k => ?_), hcr3, hesp⟩
    simp only [hnext, Cpu.store32, heax, blitNum, blit]
    by_cases h1 : s.regs.edi.toNat + 4 ≤ k ∧ k < s.regs.edi.toNat + 4 + 4 * n
    · rw [if_pos h1, if_pos (by omega)]
    · rw [if_neg h1]
      by_cases h2 : s.regs.edi.toNat ≤ k ∧ k < s.regs.edi.toNat + 4
      · rw [if_pos h2, if_pos (by omega)]
        simp
      · rw [if_neg h2, if_neg (by omega)]

theorem cleanTables_spec (s : Cpu) : (cleanTables s).mem = blit 0x1000 0x4000 (fun _ => 0) s.mem ∧
    (cleanTables s).cr3 = 0x1000 ∧ (cleanTables s).esp = s.esp := by
  have hecx : (pointAtTables s).regs.ecx.toNat = 4096 := rfl
  have hedi : (pointAtTables s).regs.edi.toNat = 0x1000 := rfl
  obtain ⟨hmem, hcr3, hesp⟩ := repStosd_zero (pointAtTables s).regs.ecx.toNat (pointAtTables s) rfl (by omega)
  unfold cleanTables
  simp only
  rw [hmem, hcr3, hesp, hecx, hedi]
  exact ⟨rfl, rfl, rfl⟩

/-- The tables when `n` entries of the l2 table are filled, over the memory `m₀`. -/
structure Filled (n : Nat) (m₀ : Nat → UInt8) (s : Cpu) : Prop where
  entry4 : ∀ i < 512, entry s.mem 0x1000 i = if i = 0 then 0x2003 else 0
  entry3 : ∀ i < 512, entry s.mem 0x2000 i = if i = 0 then 0x3003 else 0
  entry2 : ∀ i < 512, entry s.mem 0x3000 i = if i < n then 2 ^ 21 * i + 0x83 else 0
  frame : Frame [(0x1000, 0x4000)] m₀ s.mem
  cr3 : s.cr3 = 0x1000

theorem createEntries_filled {m₀ : Nat → UInt8} {s : Cpu} (hcr3 : s.cr3 = 0x1000)
    (hframe : Frame [(0x1000, 0x4000)] m₀ s.mem)
    (hzero : ∀ table i, 0x1000 ≤ table → table ≤ 0x4000 → i < 512 → entry s.mem table i = 0) :
    Filled 0 m₀ (createEntries s) ∧ (createEntries s).esp = s.esp := by
  have hl4 : (page_table_l3_address ||| 0b11).toNat = 0x2003 := by decide
  have hl3 : (page_table_l2_address ||| 0b11).toNat = 0x3003 := by decide
  have hmem : (createEntries s).mem = blitNum (0x2000 + 8 * 0) 4 0x3003 (blitNum (0x1000 + 8 * 0) 4 0x2003 s.mem) := by
    unfold createEntries Cpu.store32
    simp only [hl4, hl3]
    rfl
  have hfirst : ∀ i < 512, entry (blitNum (0x1000 + 8 * 0) 4 0x2003 s.mem) 0x1000 i = if i = 0 then 0x2003 else 0 := by
    intro i hi
    rw [entry_storeLow (hzero 0x1000 0 (by omega) (by omega) (by omega)) (by omega),
      hzero 0x1000 i (by omega) (by omega) hi]
  have hother : ∀ table i, 0x2000 ≤ table → table ≤ 0x4000 → i < 512 →
      entry (blitNum (0x1000 + 8 * 0) 4 0x2003 s.mem) table i = 0 := by
    intro table i h1 h2 hi
    have hapart : Apart (0x1000 + 8 * 0) 4 (table + 8 * i) 8 := by unfold Apart; omega
    exact (entry_blit_outside hapart _).trans (hzero table i (by omega) h2 hi)
  refine ⟨⟨fun i hi => ?_, fun i hi => ?_, fun i hi => ?_, ?_, hcr3⟩, rfl⟩
  · have hapart : Apart (0x2000 + 8 * 0) 4 (0x1000 + 8 * i) 8 := by unfold Apart; omega
    rw [hmem]
    exact (entry_blit_outside hapart _).trans (hfirst i hi)
  · rw [hmem, entry_storeLow (hother 0x2000 0 (by omega) (by omega) (by omega)) (by omega),
      hother 0x2000 i (by omega) (by omega) hi]
  · have hapart : Apart (0x2000 + 8 * 0) 4 (0x3000 + 8 * i) 8 := by unfold Apart; omega
    rw [hmem, if_neg (by omega)]
    exact (entry_blit_outside hapart _).trans (hother 0x3000 i (by omega) (by omega) hi)
  · have hin : (0x1000, 0x4000) ∈ [(0x1000, 0x4000)] := List.mem_singleton_self _
    rw [hmem]
    exact (hframe.trans (Frame.blitNum hin (by decide) (by decide) _ _)).trans
      (Frame.blitNum hin (by decide) (by decide) _ _)

/-- One round of the loop. -/
theorem fillL2Entry_filled {n : Nat} {m₀ : Nat → UInt8} {s : Cpu} (h : Filled n m₀ s) (hn : n < 512)
    (hecx : s.regs.ecx.toNat = n) :
    Filled (n + 1) m₀ (fillL2Entry s) ∧ (fillL2Entry s).regs.ecx.toNat = n + 1 ∧ (fillL2Entry s).esp = s.esp := by
  have haddr : (page_table_l2_address + s.regs.ecx * 8).toNat = 0x3000 + 8 * n := by bv_omega
  have hentry : (BitVec.ofNat 32 (0x200000 * s.regs.ecx.toNat) ||| 0b10000011#32).toNat = 2 ^ 21 * n + 0x83 := by
    rw [hecx, BitVec.toNat_or, BitVec.toNat_ofNat, Nat.mod_eq_of_lt (by omega)]
    exact (Nat.two_pow_add_eq_or_of_lt (i := 21) (b := 0x83) (by decide) n).symm
  have hmem : (fillL2Entry s).mem = blitNum (0x3000 + 8 * n) 4 (2 ^ 21 * n + 0x83) s.mem := by
    rw [← haddr, ← hentry]
    rfl
  have hempty : entry s.mem 0x3000 n = 0 := by rw [h.entry2 n hn, if_neg (by omega)]
  refine ⟨⟨fun i hi => ?_, fun i hi => ?_, fun i hi => ?_, ?_, h.cr3⟩, ?_, rfl⟩
  · have hapart : Apart (0x3000 + 8 * n) 4 (0x1000 + 8 * i) 8 := by unfold Apart; omega
    rw [hmem]
    exact (entry_blit_outside hapart _).trans (h.entry4 i hi)
  · have hapart : Apart (0x3000 + 8 * n) 4 (0x2000 + 8 * i) 8 := by unfold Apart; omega
    rw [hmem]
    exact (entry_blit_outside hapart _).trans (h.entry3 i hi)
  · rw [hmem, entry_storeLow hempty (by omega), h.entry2 i hi]
    by_cases hin : i = n
    · rw [if_pos hin, if_pos (by omega), hin]
    · rw [if_neg hin]
      exact if_congr (by omega) rfl rfl
  · rw [hmem]
    exact h.frame.trans (Frame.blitNum (List.mem_singleton_self _) (by omega) (by omega) _ _)
  · show (s.regs.ecx + 1).toNat = n + 1
    bv_omega

theorem fillL2Entry_iterate {m₀ : Nat → UInt8} {s : Cpu} (h : Filled 0 m₀ s) (hecx : s.regs.ecx.toNat = 0) (n : Nat)
    (hn : n ≤ 512) : Filled n m₀ (fillL2Entry^[n] s) ∧ (fillL2Entry^[n] s).regs.ecx.toNat = n ∧
      (fillL2Entry^[n] s).esp = s.esp := by
  induction n with
  | zero => exact ⟨h, hecx, rfl⟩
  | succ n ih =>
    obtain ⟨hfilled, hcount, hesp⟩ := ih (by omega)
    obtain ⟨hfilled', hcount', hesp'⟩ := fillL2Entry_filled hfilled (by omega) hcount
    rw [Function.iterate_succ_apply']
    exact ⟨hfilled', hcount', hesp'.trans hesp⟩

/-- The loop ends after 512 rounds, with the table filled. -/
theorem fillL2Table_spec {m₀ : Nat → UInt8} {s : Cpu} (h : Filled 0 m₀ s) :
    ∃ s', (∀ fuel, fillL2Table fuel s = if fuel < 512 then none else some s') ∧ Filled 512 m₀ s' ∧ s'.esp = s.esp := by
  have hstart : Filled 0 m₀ { s with regs := { s.regs with ecx := 0 } } :=
    ⟨h.entry4, h.entry3, h.entry2, h.frame, h.cr3⟩
  have hround := fillL2Entry_iterate hstart rfl
  have hesp : ({ s with regs := { s.regs with ecx := 0 } } : Cpu).esp = s.esp := rfl
  unfold fillL2Table
  generalize ({ s with regs := { s.regs with ecx := 0 } } : Cpu) = s₁ at *
  have hagain : ∀ n, 0 < n → n < 512 → decide ((fillL2Entry^[n] s₁).regs.ecx ≠ 512) = true := by
    intro n _ hn
    obtain ⟨-, hcount, -⟩ := hround n (by omega)
    exact decide_eq_true (by bv_omega)
  obtain ⟨hfilled, hcount, hesp'⟩ := hround 512 (Nat.le_refl _)
  have hstop : decide ((fillL2Entry^[512] s₁).regs.ecx ≠ 512) = false := decide_eq_false (by bv_omega)
  exact ⟨_, fun fuel => doWhile_eq fuel (by omega) hagain hstop, hfilled, hesp'.trans hesp⟩

/-! ## The mapping -/

/-- The tables are created, whatever was in memory. -/
theorem createEntries_cleanTables (s : Cpu) :
    Filled 0 s.mem (createEntries (cleanTables s)) ∧ (createEntries (cleanTables s)).esp = s.esp := by
  obtain ⟨hmem, hcr3, hesp⟩ := cleanTables_spec s
  generalize cleanTables s = s₁ at *
  have hframe : Frame [(0x1000, 0x4000)] s.mem s₁.mem := by
    rw [hmem]
    exact Frame.blit (List.mem_singleton_self _) (Nat.le_refl _) (Nat.le_refl _) _ _
  obtain ⟨hfilled, hesp'⟩ := createEntries_filled hcr3 hframe fun table i h1 h2 hi =>
    littleEndian_zero fun j hj => by
      rw [hmem]
      exact if_pos (by omega)
  exact ⟨hfilled, hesp'.trans hesp⟩

/-- Full tables that are kept map the first GiB. -/
theorem Filled.firstGiB {m₀ m : Nat → UInt8} {s : Cpu} (h : Filled 512 m₀ s) {rs : List (Nat × Nat)}
    (hframe : Frame rs s.mem m) (hrs : ∀ r ∈ rs, 0x5000 ≤ r.1) : FirstGiB m 0x1000 0x2000 0x3000 := by
  have hkeep : ∀ table i, table ≤ 0x4000 → i < 512 → entry m table i = entry s.mem table i := by
    intro table i htable hi
    refine entry_frame hframe fun r hr => ?_
    have habove := hrs r hr
    unfold Apart
    omega
  refine ⟨fun i hi => ?_, fun i hi => ?_, fun i hi => ?_, by decide, by decide⟩
  · exact (hkeep 0x1000 i (by omega) hi).trans (h.entry4 i hi)
  · exact (hkeep 0x2000 i (by omega) hi).trans (h.entry3 i hi)
  · rw [hkeep 0x3000 i (by omega) hi, h.entry2 i hi, if_pos hi]

/-- What `set_up_paging` writes. -/
def Stage1.pagingWrites (l : Stage1) (stack : Nat × Nat) (pos : Nat) : List (Nat × Nat) :=
  (0x1000, 0x4000) :: l.printed stack pos .MSG_PAGING_SET_UP

theorem Stage1.pagingWrites_covered (l : Stage1) {pos : Nat} (hscreen : OnScreen pos) :
    Covered (l.pagingWrites stackRoom pos) l.writes := by
  rintro r hr
  rcases List.mem_cons.1 hr with rfl | hr
  · exact ⟨(0x1000, 0x4000), by simp [Stage1.writes], Nat.le_refl _, Nat.le_refl _⟩
  · exact l.printed_covered hscreen _ r hr

/-- The first GiB is mapped, and the message is printed at `pos`. -/
structure PagingSet (l : Stage1) (stack : Nat × Nat) (pos : Nat) (s s' : Cpu) : Prop where
  esp : s'.esp = s.esp + 4
  cr3 : s'.cr3 = page_table_l4_address
  tables : FirstGiB s'.mem 0x1000 0x2000 0x3000
  possition : littleEndian s'.mem l.printStringPossition.toNat 4 = pos + 160
  frame : Frame (l.pagingWrites stack pos) s.mem s'.mem

/-- The loop over the entries ends after 512 rounds. -/
theorem setUpPaging_spec {l : Stage1} {stack : Nat × Nat} {pos : Nat} {s : Cpu} (htables : 0x5000 ≤ stack.1)
    (hroom : Room stack s.esp.toNat 16) (hscreen : OnScreen pos)
    (hstr : StringAt s.mem (l.message .MSG_PAGING_SET_UP).toNat Message.MSG_PAGING_SET_UP.length)
    (hpos : littleEndian s.mem l.printStringPossition.toNat 4 = pos) :
    ∃ s', (∀ fuel, setUpPaging l fuel s = if fuel < 512 then none else some s') ∧ PagingSet l stack pos s s' := by
  have hposs := l.possition_range.1
  have hmsg := (l.message_range .MSG_PAGING_SET_UP).1
  have hlen := Message.MSG_PAGING_SET_UP.length_le
  obtain ⟨hcreated, hesp₀⟩ := createEntries_cleanTables s
  obtain ⟨s₁, hfill, hfilled, hesp₁⟩ := fillL2Table_spec hcreated
  have hesp : s₁.esp = s.esp := hesp₁.trans hesp₀
  have hkept : ∀ k, 0x80000 ≤ k → s₁.mem k = s.mem k := fun k hk => hfilled.frame k fun r hr => by
    obtain rfl := List.mem_singleton.1 hr
    simp only
    omega
  obtain ⟨s₂, hprint, hprinted⟩ := printMessage_spec (l := l) (s := s₁) .MSG_PAGING_SET_UP (hesp ▸ hroom) hscreen
    (hstr.congr fun i _ => hkept _ (by omega)) ((littleEndian_congr fun i _ => hkept _ (by omega)).trans hpos)
  have habove : ∀ r ∈ l.printed stack pos .MSG_PAGING_SET_UP, 0x5000 ≤ r.1 := by
    unfold OnScreen at hscreen
    unfold Stage1.printed
    rintro r hr
    simp only [List.mem_cons, List.not_mem_nil, or_false] at hr
    rcases hr with rfl | rfl | rfl
    · exact htables
    · simp only
      omega
    · simp only
      omega
  refine ⟨{ s₂ with esp := s₂.esp + 4 }, fun fuel => ?_, ?_, hprinted.cr3.trans hfilled.cr3,
    hfilled.firstGiB hprinted.frame habove, hprinted.possition, ?_⟩
  · unfold setUpPaging
    rw [hfill fuel]
    by_cases hfuel : fuel < 512
    · rw [if_pos hfuel, if_pos hfuel]
      rfl
    · rw [if_neg hfuel, if_neg hfuel]
      simp only [Option.bind_eq_bind, Option.bind_some]
      rw [hprint fuel, if_neg (by omega)]
      rfl
  · show s₂.esp + 4 = s.esp + 4
    rw [hprinted.esp, hesp]
  · exact (hfilled.frame.subset (by simp [Stage1.pagingWrites])).trans
      (hprinted.frame.subset (List.subset_cons_self _ _))

/-- Whatever was in memory, the tables that `set_up_paging` leaves map each address below 2^30 to
itself, in writable pages of 2 MiB, and no other 48-bit address. Nothing else is written than the
tables, the stack, the message and the print position, and the loop over the entries ends after 512
rounds. -/
theorem set_up_paging_identity (l : Stage1) (e : Entry) (s : Cpu) :
    ∃ s', (∀ fuel, setUpPaging l fuel (l.enter e s) = if fuel < 512 then none else some s') ∧
      s'.cr3 = page_table_l4_address ∧
      (∀ v < 2 ^ 30, translate s'.mem s'.cr3.toNat v = some v ∧
        ∃ base, walk s'.mem s'.cr3.toNat v = some ⟨base, 2 ^ 21, true⟩) ∧
      (∀ v, 2 ^ 30 ≤ v → v < 2 ^ 48 → walk s'.mem s'.cr3.toNat v = none) ∧
      Frame (l.pagingWrites (e.esp.toNat - 16, 16) e.screen.toNat) (l.enter e s).mem s'.mem := by
  have hesp := e.esp_range
  have hapart := l.apart .MSG_PAGING_SET_UP
  unfold Apart at hapart
  have htext : ∀ i ≤ Message.MSG_PAGING_SET_UP.length,
      (l.enter e s).mem ((l.message .MSG_PAGING_SET_UP).toNat + i) = Message.MSG_PAGING_SET_UP.text.getD i 0 := by
    intro i hi
    exact (blitNum_outside (by omega) _ _).trans (blit_inside (by omega) _ _)
  have hpos : littleEndian (l.enter e s).mem l.printStringPossition.toNat 4 = e.screen.toNat :=
    (littleEndian_blitNum ..).trans (Nat.mod_eq_of_lt e.screen.isLt)
  have hroom : Room (e.esp.toNat - 16, 16) (l.enter e s).esp.toNat 16 := by
    unfold Stage1.enter
    exact ⟨by simp only; omega, by simp only; omega, by simp only; omega⟩
  have hstr : StringAt (l.enter e s).mem (l.message .MSG_PAGING_SET_UP).toNat Message.MSG_PAGING_SET_UP.length :=
    ⟨fun i hi => (htext i (by omega)).trans_ne (Message.chars _ hi), (htext _ (Nat.le_refl _)).trans (Message.nul _)⟩
  obtain ⟨s', hrun, hset⟩ := setUpPaging_spec (by simp only; omega) hroom e.screen_range hstr hpos
  have hroot : s'.cr3.toNat = 0x1000 := by
    rw [hset.cr3]
    rfl
  refine ⟨s', hrun, hset.cr3, fun v hv => ?_, fun v hv hlt => ?_, hset.frame⟩
  · rw [hroot]
    refine ⟨hset.tables.translate hv, 2 ^ 21 * (v / 2 ^ 21), ?_⟩
    rw [hset.tables.walk (by omega), if_pos hv]
  · rw [hroot, hset.tables.walk hlt, if_neg (by omega)]

/-- A place for the variable, code behind it, and a place for a text. -/
def smallLayout : Stage1 where
  message _ := 0x80200
  printStringPossition := 0x80100
  ret := 0x80124
  message_range msg := by
    have hlen := msg.length_le
    rw [show (0x80200 : BitVec 32).toNat = 0x80200 from rfl]
    omega
  possition_range := by decide
  apart _ := .inr (by decide)

def blankCpu : Cpu := ⟨blankMachine.regs, 0, 0, 0, 0, 0, 0, fun _ => 0⟩

/-- As `start_protected_mode` calls it: after four messages, with its return address on the stack. -/
def pagingEntry : Entry := ⟨0xB8280, 0x7FFFC, ⟨by decide, by decide⟩, by decide⟩

/-- The kernel's address is mapped to itself, and the first address above 1 GiB to nothing. -/
theorem set_up_paging_identity_stage1 : ∃ s', setUpPaging smallLayout 512 (smallLayout.enter pagingEntry blankCpu) =
    some s' ∧ translate s'.mem s'.cr3.toNat 0x90000 = some 0x90000 ∧ walk s'.mem s'.cr3.toNat (2 ^ 30) = none := by
  obtain ⟨s', hrun, -, hmapped, hunmapped, -⟩ := set_up_paging_identity smallLayout pagingEntry blankCpu
  exact ⟨s', hrun 512, (hmapped 0x90000 (by decide)).1, hunmapped (2 ^ 30) (Nat.le_refl _) (by decide)⟩

end SnakeOS.Boot
