/-
The tables of arch/x86/gdt.c and arch/x86/idt.c together: what the processor does on an interrupt once `gdt_init` and
`idt_init` have run.
-/
import SnakeOS.Arch.Idt
import SnakeOS.Arch.Segments
import SnakeOS.Arch.Stub

namespace SnakeOS.Arch

open C Kernel Mem

/-! ## Delivery -/

/-- The registers that an interrupt is delivered with; `tss` is the address in the task register. -/
structure Tables where
  gdtr : Gdtr
  idtr : Idtr
  tss : Nat
  deriving DecidableEq, Repr

/-- The memory by the numbers of the addresses. -/
def Cpu.bytes (s : Cpu) (a : Nat) : UInt8 := ⟨s.mem (BitVec.ofNat 64 a)⟩

/-- RSP before the frame is pushed: that of the stack which the gate names, that of the inner ring, or the one in
use. -/
def Tables.stack (t : Tables) (ist ring : Nat) (s : Cpu) : BitVec 64 :=
  if ist ≠ 0 then BitVec.ofNat 64 (littleEndian s.bytes (t.tss + 36 + 8 * (ist - 1)) 8)
  else if ring < s.cs.toNat % 4 then BitVec.ofNat 64 (littleEndian s.bytes (t.tss + 4 + 8 * ring) 8)
  else s.regs .rsp

/-- The frame on the stack at `top`, and then the first instruction at `offset`. -/
def Cpu.enter (top : BitVec 64) (ss cs : BitVec 16) (mask offset : BitVec 64) (s : Cpu) : Cpu :=
  let sp := s.regs .rsp
  let s' := s.set .rsp (top &&& ~~~15)
  let s' := s'.push (s.ss.setWidth 64)
  let s' := s'.push sp
  let s' := s'.push s.rflags
  let s' := s'.push (s.cs.setWidth 64)
  let s' := s'.push s.rip
  { s' with rip := offset, cs, ss, rflags := s.rflags &&& ~~~mask }

/-- What an interrupt may go to from a ring: 64-bit code that is marked as accessed. -/
def Descriptor.runs64 (d : Descriptor) (cpl : Nat) : Bool :=
  d.codeOrData && d.present && d.executable && decide (d.dpl ≤ cpl) && d.long && !d.size32 && d.access.testBit 0

/-- What the processor does for a vector, up to the error code. `none` stands for another exception on the way, and
for a code segment that is not yet marked as accessed. -/
def Tables.deliver (t : Tables) (vec : Nat) (s : Cpu) : Option Cpu := do
  guard (16 * vec + 15 ≤ t.idtr.limit)
  let gate := Gate.decode (littleEndian s.bytes (t.idtr.base + 16 * vec) 16)
  guard (gate.present = 1 ∧ gate.afterType = 0 ∧ (gate.type = 0xE ∨ gate.type = 0xF))
  let q ← t.gdtr.fetch s.bytes gate.selector
  let desc := Descriptor.decode q
  let cpl := s.cs.toNat % 4
  guard (desc.runs64 cpl)
  let ring := if desc.conforming then cpl else desc.dpl
  let ss := if ring < cpl then BitVec.ofNat 16 ring else s.ss
  -- an interrupt gate clears IF as well
  let mask := if gate.type = 0xE then 0x34300 else 0x34100
  return s.enter (t.stack gate.ist ring s) ss (BitVec.ofNat 16 (gate.selector / 4 * 4 + ring)) mask
    (BitVec.ofNat 64 gate.offset)

/-! ## The gates of the kernel -/

variable {t : Tables} {s : Cpu} {vec : Nat}

/-- A gate of `idt_init` and the code segment of `gdt_load` let every interrupt through. -/
theorem Tables.deliver_eq {stub : UInt64} {q : Nat} (hlimit : 16 * vec + 15 ≤ t.idtr.limit)
    (hgate : Gate.decode (littleEndian s.bytes (t.idtr.base + 16 * vec) 16) = Gate.interrupt stub.toNat)
    (hfetch : t.gdtr.fetch s.bytes 0x8 = some q) (hcode : Descriptor.decode q = .flat 0x9B 0xA) :
    t.deliver vec s = some (s.enter (t.stack 0 0 s) (if 0 < s.cs.toNat % 4 then 0 else s.ss) 0x08 0x34300
      stub.toBitVec) := by
  have hoffset : BitVec.ofNat 64 stub.toNat = stub.toBitVec := BitVec.ofNat_toNat ..
  have hruns : (Descriptor.flat 0x9B 0xA).runs64 (s.cs.toNat % 4) := by
    have hring : (Descriptor.flat 0x9B 0xA).dpl ≤ s.cs.toNat % 4 := Nat.zero_le _
    unfold Descriptor.runs64
    rw [decide_eq_true hring]
    decide
  have hring : (if (Descriptor.flat 0x9B 0xA).conforming then s.cs.toNat % 4 else (Descriptor.flat 0x9B 0xA).dpl) = 0 :=
    if_neg (by decide)
  unfold Tables.deliver
  rw [hgate]
  simp only [hlimit, guard_true, true_or, and_self, Option.pure_def, Option.bind_eq_bind, Option.bind_some, hfetch,
    hcode, hruns, hring,
    show (Gate.interrupt stub.toNat).selector = 0x8 from rfl, show (Gate.interrupt stub.toNat).present = 1 from rfl,
    show (Gate.interrupt stub.toNat).afterType = 0 from rfl, show (Gate.interrupt stub.toNat).type = 0xE from rfl,
    show (Gate.interrupt stub.toNat).ist = 0 from rfl, show (Gate.interrupt stub.toNat).offset = stub.toNat from rfl,
    hoffset]
  rfl

/-- In ring 0 that is the interrupt which the stubs are about. -/
theorem Cpu.enter_interrupt (s : Cpu) (offset : BitVec 64) :
    s.enter (s.regs .rsp) s.ss 0x08 0x34300 offset = { s.interrupt with rip := offset } := rfl

/-! ## `gdt_init` and `idt_init` -/

/-- The first half of `kmain`, but for the console: the processor after both functions, and its IDTR. -/
def loadTables (l : GdtLayout) (i : IdtLayout) (here : Nat) (after : Nat × Nat) (p : Processor) :
    Option (Processor × Idtr) := do
  let p ← gdtInitLoad l here after p
  let (idtr, mem) := idtInit i p.mem
  return ({ p with mem }, idtr)

/-- The objects of both files are apart, and those of the table of gates are not on the stack of `gdt_init`. -/
structure TablesRoom (l : GdtLayout) (i : IdtLayout) (rsp : Nat) : Prop extends l.Room rsp where
  stubs : ∀ r ∈ l.all rsp, Apart r.1 r.2 i.idtStubTable (8 * IDT_DESCRIPTORS)
  idt_gdt : Apart i.idtTable sizeofIdtTable l.gdtTable (8 * GDT_ENTRY_COUNT)
  idt_tss : Apart i.idtTable sizeofIdtTable l.tss sizeofTss
  meta_gdt : Apart i.idtMetadata 10 l.gdtTable (8 * GDT_ENTRY_COUNT)
  meta_tss : Apart i.idtMetadata 10 l.tss sizeofTss

/-- What the processor reads when it delivers an interrupt. -/
def tableBytes (l : GdtLayout) (i : IdtLayout) : List (Nat × Nat) :=
  [(l.gdtTable, 8 * GDT_ENTRY_COUNT), (l.tss, sizeofTss), (i.idtTable, sizeofIdtTable)]

/-- Two memories with the same tables. -/
def SameTables (l : GdtLayout) (i : IdtLayout) (m m' : Nat → UInt8) : Prop :=
  ∀ r ∈ tableBytes l i, ∀ k < r.2, m' (r.1 + k) = m (r.1 + k)

variable {l : GdtLayout} {i : IdtLayout} {m m' : Nat → UInt8}

theorem SameTables.littleEndian (h : SameTables l i m m') {r : Nat × Nat} (hr : r ∈ tableBytes l i) {a n : Nat}
    (hlo : r.1 ≤ a) (hhi : a + n ≤ r.1 + r.2) : Mem.littleEndian m' a n = Mem.littleEndian m a n := by
  refine littleEndian_congr fun k hk => ?_
  have hbyte := h r hr (a - r.1 + k) (by omega)
  rwa [show r.1 + (a - r.1 + k) = a + k by omega] at hbyte

theorem idtInit_frame (i : IdtLayout) (m : Nat → UInt8) :
    Frame [(i.idtTable, sizeofIdtTable), (i.idtMetadata, 10)] m (idtInit i m).2 := by
  refine ((filled_idtFill i m).frame.subset (List.cons_subset_cons _ (List.nil_subset _))).trans ?_
  exact Frame.blitNum (List.mem_cons_of_mem _ List.mem_cons_self) (Nat.le_refl _) (Nat.le_refl _) _ _

theorem idtInit_gate (i : IdtLayout) (m : Nat → UInt8) {vec : Nat} (hvec : vec < IDT_DESCRIPTORS) :
    Gate.decode (idtSlot i (idtInit i m).2 vec) = Gate.interrupt (idtStub i m vec).toNat := by
  rw [← (filled_idtFill i m).gates vec hvec]
  exact congrArg Gate.decode (idtSlot_blitNum i.metadata_apart _ _ hvec)

theorem idtInit_idtr (i : IdtLayout) (m : Nat → UInt8) : (idtInit i m).1 = ⟨sizeofIdtTable - 1, i.idtTable⟩ := by
  have hload := idtLoad_blitNum i.idtMetadata ⟨UInt16.ofNat (sizeofIdtTable - 1), UInt64.ofNat i.idtTable⟩ (idtFill i m)
  rw [UInt64.toNat_ofNat_of_lt' i.table_lt] at hload
  exact hload

/-- The table of gates does not change the segments. -/
theorem GdtRight.idtInit {p : Processor} {rsp : Nat} (h : GdtRight l p) (hroom : TablesRoom l i rsp) :
    GdtRight l { p with mem := (Arch.idtInit i p.mem).2 } := by
  have hframe := idtInit_frame i p.mem
  have hslot : ∀ j < GDT_ENTRY_COUNT, gdtSlot l (Arch.idtInit i p.mem).2 j = gdtSlot l p.mem j := by
    intro j hj
    refine hframe.littleEndian fun k hk r hr => ?_
    have hgdt := hroom.idt_gdt
    have hmeta := hroom.meta_gdt
    simp only [Apart, GDT_ENTRY_COUNT] at hgdt hmeta hj
    rcases List.mem_cons.1 hr with rfl | hr
    · simp only
      omega
    · obtain rfl := List.mem_singleton.1 hr
      simp only
      omega
  refine ⟨⟨h.cs, h.seg⟩, h.gdtr, h.tr, ?_, ?_, h.tss.frame hframe fun r hr => ?_⟩
  · exact (congrArg Descriptor.decode (hslot 1 (by decide))).trans h.code
  · exact (congrArg Descriptor.decode (hslot 2 (by decide))).trans h.data
  · rcases List.mem_cons.1 hr with rfl | hr
    · exact hroom.idt_tss
    · obtain rfl := List.mem_singleton.1 hr
      exact hroom.meta_tss

/-- The stub table is as it was before `gdt_init`. -/
theorem TablesRoom.stub {rsp : Nat} (h : TablesRoom l i rsp) (hframe : Frame (l.all rsp) m m')
    (hvec : vec < IDT_DESCRIPTORS) : idtStub i m' vec = idtStub i m vec := by
  unfold idtStub
  refine congrArg UInt64.ofNat (hframe.littleEndian fun k hk r hr => ?_)
  have hstubs := h.stubs r hr
  simp only [Apart, IDT_DESCRIPTORS] at hstubs hvec
  omega

/-- From ring 0 the stack in use, and from the others the stack that `gdt_init` put into the TSS. -/
theorem GdtRight.stack {p : Processor} {idtr : Idtr} (h : GdtRight l p) (hs : SameTables l i p.mem s.bytes) :
    (Tables.mk p.gdtr idtr p.tr.base).stack 0 0 s =
      if 0 < s.cs.toNat % 4 then BitVec.ofNat 64 (l.kernelStack + 16384) else s.regs .rsp := by
  have hrsp0 : littleEndian s.bytes (l.tss + 4) 8 = (l.kernelStack + 16384) % 2 ^ 64 := by
    have hin : (l.tss, sizeofTss) ∈ tableBytes l i := List.mem_cons_of_mem _ List.mem_cons_self
    rw [hs.littleEndian hin (Nat.le_add_right _ _) (by simp only [sizeofTss]; omega)]
    exact h.tss.rsp0
  have hbase : p.tr.base = l.tss := by rw [h.tr]
  unfold Tables.stack
  simp only [ne_eq, not_true_eq_false, if_false, hbase, Nat.mul_zero, Nat.add_zero, hrsp0]
  refine if_congr Iff.rfl ?_ rfl
  exact BitVec.eq_of_toNat_eq (by simp only [BitVec.toNat_ofNat, Nat.mod_mod])

/-- Wherever the objects of the two files are and whatever the memory holds, `gdt_init` and `idt_init` run to their
end in ring 0, with the segments of the kernel in all registers. From then on, as long as the tables are left alone,
an interrupt or exception with any of the 256 vectors is delivered to its own stub, in the code segment of the kernel
and with interrupts off: from ring 0 on the stack in use and from the other rings on the kernel stack. No vector uses
the stack for double faults. -/
theorem tables_deliver (l : GdtLayout) (i : IdtLayout) {here : Nat} {after : Nat × Nat} (hhere : here < 2 ^ 64)
    (hfirst : after.1 < 2 ^ 64) (hsecond : after.2 < 2 ^ 64) (p : Processor) (hcpl : p.cpl = 0)
    (hroom : TablesRoom l i p.rsp) : ∃ p' idtr, loadTables l i here after p = some (p', idtr) ∧ GdtRight l p' ∧
      p'.rsp = p.rsp ∧ ∀ s : Cpu, SameTables l i p'.mem s.bytes → ∀ vec < IDT_DESCRIPTORS,
        (Tables.mk p'.gdtr idtr p'.tr.base).deliver vec s = some
          (if s.cs.toNat % 4 = 0 then { s.interrupt with rip := (idtStub i p.mem vec).toBitVec }
          else s.enter (BitVec.ofNat 64 (l.kernelStack + 16384)) 0 0x08 0x34300 (idtStub i p.mem vec).toBitVec) := by
  obtain ⟨p₁, hload, hright₁, hrsp, hframe⟩ := gdtInitLoad_spec hhere hfirst hsecond hcpl hroom.toRoom
  have hright := hright₁.idtInit hroom
  have hidtr := idtInit_idtr i p₁.mem
  refine ⟨{ p₁ with mem := (idtInit i p₁.mem).2 }, (idtInit i p₁.mem).1, ?_, hright, hrsp, ?_⟩
  · unfold loadTables
    simp only [hload, Option.bind_eq_bind, Option.bind_some]
    rfl
  · intro s hs vec hvec
    have hgate : Gate.decode (littleEndian s.bytes (i.idtTable + 16 * vec) 16) =
        Gate.interrupt (idtStub i p.mem vec).toNat := by
      have hin : (i.idtTable, sizeofIdtTable) ∈ tableBytes l i := by simp [tableBytes]
      simp only [IDT_DESCRIPTORS] at hvec
      rw [hs.littleEndian hin (Nat.le_add_right _ _) (by simp only [sizeofIdtTable]; omega),
        ← hroom.stub hframe hvec]
      exact idtInit_gate i p₁.mem hvec
    have hfetch : p₁.gdtr.fetch s.bytes 0x8 = some (gdtSlot l (idtInit i p₁.mem).2 1) := by
      have hslot := hs.littleEndian (a := l.gdtTable + 8 * 1) (n := 8) List.mem_cons_self (Nat.le_add_right _ _)
        (show _ ≤ l.gdtTable + 8 * GDT_ENTRY_COUNT by simp only [GDT_ENTRY_COUNT]; omega)
      unfold Gdtr.fetch
      rw [hright₁.gdtr]
      exact (if_neg (show ¬(8 / 4 = 0 ∨ 8 / 4 % 2 = 1 ∨ 55 < 8 * (8 / 8) + 7) by decide)).trans (congrArg some hslot)
    rw [Tables.deliver_eq (q := gdtSlot l (idtInit i p₁.mem).2 1) ?_ ?_ hfetch hright.code, hright.stack hs]
    · by_cases hring : s.cs.toNat % 4 = 0
      · rw [if_pos hring, if_neg (by omega), if_neg (by omega), Cpu.enter_interrupt]
      · rw [if_neg hring, if_pos (by omega), if_pos (by omega)]
    · rw [hidtr]
      simp only [sizeofIdtTable, IDT_DESCRIPTORS] at hvec ⊢
      omega
    · rw [hidtr]
      exact hgate

/-- A processor in ring 0 that has loaded nothing yet, with one address in the stub table. -/
def sampleProcessor : Processor where
  gdtr := ⟨0, 0⟩
  cs := ⟨0x8, .flat 0x9B 0xA⟩
  seg _ := ⟨0, ⟨0, 0, 0, 0⟩⟩
  tr := ⟨0, 0, 0⟩
  rip := 0x91000
  rsp := 0x7FF80
  mem := blitNum (0x90800 + 8 * 8) 8 0x90100 fun _ => 0

/-- A double fault in each ring, with the objects where a kernel at `0x90000` may have them. -/
theorem tables_deliver_double_fault : ∃ p' idtr,
    loadTables sampleLayout sampleIdtLayout 0x91020 (0x91010, 0x91018) sampleProcessor = some (p', idtr) ∧
      ∀ cs, ∃ s s' : Cpu, s.cs = cs ∧
        (Tables.mk p'.gdtr idtr p'.tr.base).deliver 8 s = some s' ∧ s'.rip = 0x90100 ∧ s'.cs = 0x08 := by
  have hroom : TablesRoom sampleLayout sampleIdtLayout 0x7FF80 := by
    refine ⟨⟨by decide, by decide, by decide, by decide, by decide, by decide⟩, ?_, by decide, by decide, by decide,
      by decide⟩
    decide
  obtain ⟨p', idtr, hload, -, -, hdeliver⟩ := @tables_deliver sampleLayout sampleIdtLayout 0x91020 (0x91010, 0x91018)
    (by decide) (by decide) (by decide) sampleProcessor rfl hroom
  have hstub : (idtStub sampleIdtLayout sampleProcessor.mem 8).toBitVec = 0x90100 := by
    have hread : littleEndian sampleProcessor.mem (0x90800 + 8 * 8) 8 = 0x90100 := littleEndian_blitNum ..
    exact congrArg (fun n => (UInt64.ofNat n).toBitVec) hread
  refine ⟨p', idtr, hload, fun cs => ?_⟩
  let s : Cpu := ⟨fun _ => 0x80000, 0x92000, cs, 0x10, 0x202, fun a => (p'.mem a.toNat).toBitVec⟩
  have hs : SameTables sampleLayout sampleIdtLayout p'.mem s.bytes := by
    intro r hr k hk
    have hrange : ∀ r ∈ tableBytes sampleLayout sampleIdtLayout, r.1 + r.2 ≤ 2 ^ 64 := by decide
    have hlt := hrange r hr
    have hbytes : s.bytes (r.1 + k) = p'.mem (BitVec.ofNat 64 (r.1 + k)).toNat := rfl
    rw [hbytes, BitVec.toNat_ofNat, Nat.mod_eq_of_lt (by omega)]
  refine ⟨s, _, rfl, hdeliver s hs 8 (by decide), ?_⟩
  rw [hstub]
  split
  · exact ⟨rfl, rfl⟩
  · exact ⟨rfl, rfl⟩

end SnakeOS.Arch
