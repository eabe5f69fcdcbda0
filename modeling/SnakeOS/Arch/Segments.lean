/-
arch/x86/gdt.asm: `gdt_load` and `gdt_load_tss`, with the descriptors that the processor reads from the table when a
register is loaded, what it refuses, and the bits that it sets in the table.
-/
import SnakeOS.Arch.Gdt

namespace SnakeOS.Arch

open C Kernel Mem

/-! ## The registers -/

/-- The register that `lgdt` loads. -/
structure Gdtr where
  limit : Nat
  base : Nat
  deriving DecidableEq, Repr

/-- A segment register, with the descriptor that was read when it was loaded. -/
structure Segment where
  selector : Nat
  desc : Descriptor
  deriving DecidableEq, Repr

inductive DataReg
  | ds | es | fs | gs | ss
  deriving DecidableEq, Repr

structure TaskRegister where
  selector : Nat
  base : Nat
  limit : Nat
  deriving DecidableEq, Repr

structure Processor where
  gdtr : Gdtr
  cs : Segment
  seg : DataReg → Segment
  tr : TaskRegister
  rip : Nat
  rsp : Nat
  mem : Nat → UInt8

namespace Descriptor

/-- The same bit as `writable`, of a code segment. -/
def readable (d : Descriptor) : Bool := d.access.testBit 1
def conforming (d : Descriptor) : Bool := d.executable && d.access.testBit 2
def size32 (d : Descriptor) : Bool := d.flags.testBit 2
def granular (d : Descriptor) : Bool := d.flags.testBit 3

/-- What a register may be loaded with in a ring, by a selector with the ring `rpl`. -/
def fits (d : Descriptor) (cpl rpl : Nat) : DataReg → Bool
  | .ss => d.codeOrData && d.present && !d.executable && d.writable && rpl == cpl && d.dpl == cpl
  | _ => d.codeOrData && d.present && (!d.executable || d.readable) &&
      (d.conforming || (decide (cpl ≤ d.dpl) && decide (rpl ≤ d.dpl)))

/-- What CS may be loaded with by a return to the same ring. -/
def returns (d : Descriptor) (cpl : Nat) : Bool :=
  d.codeOrData && d.present && d.executable && (if d.conforming then decide (d.dpl ≤ cpl) else d.dpl == cpl) &&
    !(d.long && d.size32)

/-- An available 64-bit TSS, with the slot after it. -/
def available (d : Descriptor) (hi : Nat) : Bool :=
  d.present && !d.codeOrData && d.access % 16 == 0x9 && hi / 2 ^ 40 % 2 ^ 5 == 0

end Descriptor

/-- The slot that a selector names, unless it is null, in a local table or past the limit. -/
def Gdtr.fetch (g : Gdtr) (m : Nat → UInt8) (selector : Nat) : Option Nat :=
  if selector / 4 = 0 ∨ selector / 4 % 2 = 1 ∨ g.limit < 8 * (selector / 8) + 7 then none
  else some (littleEndian m (g.base + 8 * (selector / 8)) 8)

namespace Processor

def cpl (p : Processor) : Nat := p.cs.selector % 4

/-- A bit set in the access byte of the slot that a selector names. -/
def mark (selector : Nat) (bit : UInt8) (p : Processor) : Processor :=
  let a := p.gdtr.base + 8 * (selector / 8) + 5
  { p with mem := blit a 1 (fun _ => p.mem a ||| bit) p.mem }

/-- The descriptor that a selector names. -/
def named (selector : Nat) (p : Processor) : Option Descriptor :=
  (p.gdtr.fetch p.mem selector).map Descriptor.decode

def push (x : Nat) (p : Processor) : Processor :=
  { p with rsp := p.rsp - 8, mem := blitNum (p.rsp - 8) 8 x p.mem }

def ret (p : Processor) : Processor := { p with rip := littleEndian p.mem p.rsp 8, rsp := p.rsp + 8 }

-- `rfl` would compare the whole processors first
@[simp] theorem ret_gdtr (p : Processor) : p.ret.gdtr = p.gdtr := by simp only [ret]
@[simp] theorem ret_cs (p : Processor) : p.ret.cs = p.cs := by simp only [ret]
@[simp] theorem ret_seg (p : Processor) : p.ret.seg = p.seg := by simp only [ret]
@[simp] theorem ret_tr (p : Processor) : p.ret.tr = p.tr := by simp only [ret]
@[simp] theorem ret_mem (p : Processor) : p.ret.mem = p.mem := by simp only [ret]
@[simp] theorem ret_rsp (p : Processor) : p.ret.rsp = p.rsp + 8 := by simp only [ret]
@[simp] theorem ret_rip (p : Processor) : p.ret.rip = littleEndian p.mem p.rsp 8 := by simp only [ret]

/-- `lgdt [a]`. -/
def lgdt (a : Nat) (p : Processor) : Processor :=
  { p with gdtr := ⟨littleEndian p.mem a 2, littleEndian p.mem (a + 2) 8⟩ }

/-- `mov r, selector`; a null selector is loaded without a descriptor, but into SS only in its own ring below 3. -/
def mov (r : DataReg) (selector : Nat) (p : Processor) : Option Processor :=
  if selector / 4 = 0 then do
    guard (r ≠ .ss ∨ p.cpl ≠ 3 ∧ selector % 4 = p.cpl)
    return { p with seg := Function.update p.seg r ⟨selector, ⟨0, 0, 0, 0⟩⟩ }
  else do
    let d ← p.named selector
    guard (d.fits p.cpl (selector % 4) r)
    -- the processor sets the accessed bit
    let p := p.mark selector 1
    let d ← p.named selector
    return { p with seg := Function.update p.seg r ⟨selector, d⟩ }

/-- `retfq` to the same ring. -/
def retfq (p : Processor) : Option Processor := do
  let rip := littleEndian p.mem p.rsp 8
  let selector := littleEndian p.mem (p.rsp + 8) 8 % 2 ^ 16
  let d ← p.named selector
  guard (selector % 4 = p.cpl ∧ d.returns p.cpl)
  let p := p.mark selector 1
  let d ← p.named selector
  return { p with cs := ⟨selector, d⟩, rip, rsp := p.rsp + 16 }

def ltr (selector : Nat) (p : Processor) : Option Processor := do
  let d ← p.named selector
  let hi := littleEndian p.mem (p.gdtr.base + 8 * (selector / 8) + 8) 8
  guard (8 * (selector / 8) + 15 ≤ p.gdtr.limit ∧ p.cpl = 0 ∧ d.available hi)
  let limit := if d.granular then 2 ^ 12 * d.limit + 0xFFF else d.limit
  -- the TSS is busy from now on
  return { p.mark selector 2 with tr := ⟨selector, d.base + 2 ^ 32 * (hi % 2 ^ 32), limit⟩ }

end Processor

/-! ## The two functions -/

/-- `gdt_load`; `here` is the address of its label `.return`. -/
def gdtLoad (here gdtMeta : Nat) (p : Processor) : Option Processor := do
  let p := p.lgdt gdtMeta
  let p ← [DataReg.ds, .es, .fs, .gs, .ss].foldlM (fun p r => p.mov r 0x10) p
  let p := (p.push 0x8).push here
  let p ← p.retfq
  guard (p.rip = here)
  return p.ret

def gdtLoadTss (gdtTssOffset : Nat) (p : Processor) : Option Processor := do
  let p ← p.ltr gdtTssOffset
  return p.ret

/-- `gdt_init`, which calls the two functions; `after` are the addresses that they return to. -/
def gdtInitLoad (l : GdtLayout) (here : Nat) (after : Nat × Nat) (p : Processor) : Option Processor := do
  let mem ← (gdtInit l p.mem).toOption
  let p ← gdtLoad here l.gdtMeta ({ p with mem }.push after.1)
  guard (p.rip = after.1)
  let p ← gdtLoadTss (5 * 2 ^ 3) (p.push after.2)
  guard (p.rip = after.2)
  return p

/-! ## Bits set in the table -/

theorem Descriptor.decode_access {lo b hi : Nat} (hlo : lo < 2 ^ 40) (hb : b < 2 ^ 8) (hhi : hi < 2 ^ 16) :
    decode (lo + 2 ^ 40 * (b + 2 ^ 8 * hi)) =
      ⟨lo / 2 ^ 16 + 2 ^ 24 * (hi / 2 ^ 8), lo % 2 ^ 16 + 2 ^ 16 * (hi % 2 ^ 4), b, hi / 2 ^ 4 % 2 ^ 4⟩ := by
  unfold decode
  congr 1 <;> omega

/-- A number of eight bytes around its sixth. -/
theorem littleEndian_access (m : Nat → UInt8) (a : Nat) :
    littleEndian m a 8 = littleEndian m a 5 + 2 ^ 40 * ((m (a + 5)).toNat + 2 ^ 8 * littleEndian m (a + 6) 2) := by
  have hsplit := littleEndian_add m a 5 3
  have hhigh : littleEndian m (a + 5) 3 = (m (a + 5)).toNat + 2 ^ 8 * littleEndian m (a + 6) 2 := rfl
  rw [hhigh] at hsplit
  exact hsplit

/-- The bit is set in the access byte, and the rest of the descriptor is as before. -/
theorem Descriptor.decode_mark (m : Nat → UInt8) (a : Nat) (bit : UInt8) :
    decode (littleEndian (blit (a + 5) 1 (fun _ => m (a + 5) ||| bit) m) a 8) =
      { decode (littleEndian m a 8) with access := (decode (littleEndian m a 8)).access ||| bit.toNat } := by
  have hbyte : blit (a + 5) 1 (fun _ => m (a + 5) ||| bit) m (a + 5) = m (a + 5) ||| bit := blit_first Nat.one_pos _ m
  have hlo : littleEndian (blit (a + 5) 1 (fun _ => m (a + 5) ||| bit) m) a 5 = littleEndian m a 5 :=
    littleEndian_blit_outside (.inl (Nat.le_refl _)) _ m
  have hhi : littleEndian (blit (a + 5) 1 (fun _ => m (a + 5) ||| bit) m) (a + 6) 2 = littleEndian m (a + 6) 2 :=
    littleEndian_blit_outside (.inr (Nat.le_refl _)) _ m
  have hlt := littleEndian_lt m a 5
  have hlt' := littleEndian_lt m (a + 6) 2
  rw [littleEndian_access, littleEndian_access m, hbyte, hlo, hhi, decode_access hlt (UInt8.toNat_lt _) hlt',
    decode_access hlt (UInt8.toNat_lt _) hlt', UInt8.toNat_or]

variable {l : GdtLayout} {D : Nat → Descriptor} {hi : Nat} {p p' : Processor}

/-- The processor has the table, with these descriptors in it; `hi` is the upper slot of the TSS. -/
structure HasGdt (l : GdtLayout) (D : Nat → Descriptor) (hi : Nat) (p : Processor) : Prop where
  gdtr : p.gdtr = ⟨8 * GDT_ENTRY_COUNT - 1, l.gdtTable⟩
  slots : ∀ j < GDT_ENTRY_COUNT, Descriptor.decode (gdtSlot l p.mem j) = D j
  upper : gdtSlot l p.mem 6 = hi

/-- A bit set in the access byte of one descriptor. -/
def marked (j bit : Nat) (D : Nat → Descriptor) : Nat → Descriptor :=
  Function.update D j { D j with access := (D j).access ||| bit }

theorem HasGdt.named (h : HasGdt l D hi p) {j : Nat} (h0 : 0 < j) (hj : j < GDT_ENTRY_COUNT) :
    p.named (8 * j) = some (D j) := by
  simp only [GDT_ENTRY_COUNT] at hj
  have hfetch : p.gdtr.fetch p.mem (8 * j) = some (gdtSlot l p.mem j) := by
    have hindex : 8 * j / 8 = j := by omega
    unfold Gdtr.fetch
    rw [h.gdtr, if_neg (by simp only [GDT_ENTRY_COUNT]; omega), hindex]
    rfl
  unfold Processor.named
  rw [hfetch, Option.map_some, h.slots j hj]

/-- What is written elsewhere leaves the table as it is. -/
theorem HasGdt.congr (h : HasGdt l D hi p) (hgdtr : p'.gdtr = p.gdtr)
    (hslots : ∀ j < GDT_ENTRY_COUNT, gdtSlot l p'.mem j = gdtSlot l p.mem j) : HasGdt l D hi p' := by
  refine ⟨hgdtr.trans h.gdtr, fun j hj => ?_, ?_⟩
  · rw [hslots j hj]
    exact h.slots j hj
  · rw [hslots 6 (by decide)]
    exact h.upper

theorem HasGdt.of_eq (h : HasGdt l D hi p) (hgdtr : p'.gdtr = p.gdtr) (hmem : p'.mem = p.mem) : HasGdt l D hi p' :=
  h.congr hgdtr fun j _ => congrArg (gdtSlot l · j) hmem

theorem HasGdt.ret (h : HasGdt l D hi p) : HasGdt l D hi p.ret := h.of_eq p.ret_gdtr p.ret_mem

theorem HasGdt.push (h : HasGdt l D hi p) (hapart : Apart (p.rsp - 8) 8 l.gdtTable (8 * GDT_ENTRY_COUNT)) (x : Nat) :
    HasGdt l D hi (p.push x) := h.congr rfl fun _ hj => slot_blit hapart _ p.mem hj

theorem Processor.mark_mem (h : p.gdtr = ⟨8 * GDT_ENTRY_COUNT - 1, l.gdtTable⟩) (j : Nat) (bit : UInt8) :
    (p.mark (8 * j) bit).mem = blit (slotAt l j + 5) 1 (fun _ => p.mem (slotAt l j + 5) ||| bit) p.mem := by
  have hindex : 8 * j / 8 = j := by omega
  unfold mark slotAt
  simp only [h, hindex]

theorem Processor.mark_frame (h : p.gdtr = ⟨8 * GDT_ENTRY_COUNT - 1, l.gdtTable⟩) {j : Nat}
    (hj : j < GDT_ENTRY_COUNT) (bit : UInt8) :
    Frame [(l.gdtTable, 8 * GDT_ENTRY_COUNT)] p.mem (p.mark (8 * j) bit).mem := by
  simp only [GDT_ENTRY_COUNT] at hj
  rw [mark_mem h]
  unfold slotAt
  refine Frame.blit (List.mem_singleton_self _) ?_ ?_ _ p.mem
  · simp only
    omega
  · simp only [GDT_ENTRY_COUNT]
    omega

/-- One descriptor is marked and the others are as they were. -/
theorem HasGdt.mark (h : HasGdt l D hi p) {j : Nat} (hj : j < 6) (bit : UInt8) :
    HasGdt l (marked j bit.toNat D) hi (p.mark (8 * j) bit) := by
  have hmem := Processor.mark_mem h.gdtr j bit
  have hother : ∀ k < GDT_ENTRY_COUNT, k ≠ j → gdtSlot l (p.mark (8 * j) bit).mem k = gdtSlot l p.mem k := by
    intro k _ hkj
    rw [hmem]
    refine littleEndian_blit_outside ?_ _ p.mem
    unfold slotAt
    omega
  refine ⟨h.gdtr, fun k hk => ?_, (hother 6 (by decide) (by omega)).trans h.upper⟩
  unfold marked
  by_cases hkj : k = j
  · subst hkj
    rw [Function.update_self, ← h.slots k hk, hmem]
    exact Descriptor.decode_mark p.mem (slotAt l k) bit
  · rw [Function.update_of_ne hkj, hother k hk hkj]
    exact h.slots k hk

/-! ## The data segments -/

/-- A segment of the whole address space. -/
def Descriptor.flat (access flags : Nat) : Descriptor := ⟨0, 0xFFFFF, access, flags⟩

/-- Only the data registers and the table have changed. -/
structure Moved (l : GdtLayout) (p p' : Processor) : Prop where
  cs : p'.cs = p.cs
  tr : p'.tr = p.tr
  rsp : p'.rsp = p.rsp
  frame : Frame [(l.gdtTable, 8 * GDT_ENTRY_COUNT)] p.mem p'.mem

theorem Moved.trans {q : Processor} (h : Moved l p p') (h' : Moved l p' q) : Moved l p q :=
  ⟨h'.cs.trans h.cs, h'.tr.trans h.tr, h'.rsp.trans h.rsp, h.frame.trans h'.frame⟩

/-- The data segment fits each of the registers in ring 0. -/
theorem Descriptor.flat_fits {access : Nat} (h : access = 0x92 ∨ access = 0x93) (r : DataReg) :
    (flat access 0x8).fits 0 0 r ∧ access ||| 1 = 0x93 := by
  rcases h with rfl | rfl <;> cases r <;> decide

/-- A register is loaded with the data segment, which is marked as accessed. -/
theorem HasGdt.mov {access : Nat} (h : HasGdt l (Function.update D 2 (.flat access 0x8)) hi p) (hcpl : p.cpl = 0)
    (haccess : access = 0x92 ∨ access = 0x93) (r : DataReg) : ∃ p', p.mov r 0x10 = some p' ∧
      HasGdt l (Function.update D 2 (.flat 0x93 0x8)) hi p' ∧ Moved l p p' ∧
      p'.seg = Function.update p.seg r ⟨0x10, .flat 0x93 0x8⟩ := by
  obtain ⟨hfits, hbit⟩ := Descriptor.flat_fits haccess r
  have hnamed := h.named (j := 2) (by decide) (by decide)
  have hmark := h.mark (j := 2) (by decide) 1
  have hdesc : marked 2 (1 : UInt8).toNat (Function.update D 2 (.flat access 0x8)) =
      Function.update D 2 (.flat 0x93 0x8) := by
    unfold marked
    rw [Function.update_self, Function.update_idem]
    exact congrArg (fun a => Function.update D 2 (Descriptor.flat a 0x8)) hbit
  rw [hdesc] at hmark
  have hagain := hmark.named (j := 2) (by decide) (by decide)
  rw [Function.update_self] at hnamed hagain
  have hframe := Processor.mark_frame h.gdtr (j := 2) (by decide) 1
  obtain ⟨q, hq⟩ : ∃ q, p.mark (8 * 2) 1 = q := ⟨_, rfl⟩
  have hcs : q.cs = p.cs ∧ q.tr = p.tr ∧ q.rsp = p.rsp ∧ q.seg = p.seg := by
    subst hq
    exact ⟨rfl, rfl, rfl, rfl⟩
  rw [hq] at hmark hagain hframe
  refine ⟨{ q with seg := Function.update q.seg r ⟨0x10, .flat 0x93 0x8⟩ }, ?_, hmark.of_eq rfl rfl,
    ⟨hcs.1, hcs.2.1, hcs.2.2.1, hframe⟩, congrArg (Function.update · r _) hcs.2.2.2⟩
  unfold Processor.mov
  rw [if_neg (by decide), hcpl]
  simp only [show (0x10 : Nat) = 8 * 2 from rfl] at *
  rw [hnamed]
  simp only [Option.bind_eq_bind, Option.bind_some, hfits, guard_true]
  rw [hq, hagain]
  rfl

/-- Any of the registers, one after the other. -/
theorem HasGdt.movs : ∀ (rs : List DataReg) {p : Processor}, HasGdt l (Function.update D 2 (.flat 0x93 0x8)) hi p →
    p.cpl = 0 → ∃ p', rs.foldlM (fun p r => p.mov r 0x10) p = some p' ∧
      HasGdt l (Function.update D 2 (.flat 0x93 0x8)) hi p' ∧ Moved l p p' ∧
      ∀ r, p'.seg r = if r ∈ rs then ⟨0x10, .flat 0x93 0x8⟩ else p.seg r
  | [], p, h, _ => ⟨p, rfl, h, ⟨rfl, rfl, rfl, Frame.refl _ _⟩, fun _ => rfl⟩
  | r :: rs, p, h, hcpl => by
    obtain ⟨p₁, hmov, hready, hmoved, hseg⟩ := h.mov hcpl (.inr rfl) r
    have hcpl₁ : p₁.cpl = 0 := (congrArg (·.selector % 4) hmoved.cs).trans hcpl
    obtain ⟨p', hrun, hready', hmoved', hsegs⟩ := movs rs hready hcpl₁
    refine ⟨p', ?_, hready', hmoved.trans hmoved', fun r' => ?_⟩
    · rw [List.foldlM_cons, hmov]
      exact hrun
    · rw [hsegs r', hseg]
      by_cases hr : r' = r
      · subst hr
        simp
      · simp [hr]

/-! ## `gdt_load` -/

theorem HasGdt.retfq (h : HasGdt l D hi p) (hcode : D 1 = .flat 0x9A 0xA) (hcpl : p.cpl = 0)
    (hselector : littleEndian p.mem (p.rsp + 8) 8 = 0x8) : ∃ p', p.retfq = some p' ∧
      HasGdt l (Function.update D 1 (.flat 0x9B 0xA)) hi p' ∧ p'.cs = ⟨0x8, .flat 0x9B 0xA⟩ ∧ p'.seg = p.seg ∧
      p'.tr = p.tr ∧ p'.rip = littleEndian p.mem p.rsp 8 ∧ p'.rsp = p.rsp + 16 ∧
      Frame [(l.gdtTable, 8 * GDT_ENTRY_COUNT)] p.mem p'.mem := by
  have hnamed := h.named (j := 1) (by decide) (by decide)
  have hmark := h.mark (j := 1) (by decide) 1
  have hdesc : marked 1 (1 : UInt8).toNat D = Function.update D 1 (.flat 0x9B 0xA) := by
    unfold marked
    rw [hcode]
    rfl
  rw [hdesc] at hmark
  have hagain := hmark.named (j := 1) (by decide) (by decide)
  rw [hcode] at hnamed
  rw [Function.update_self] at hagain
  have hframe := Processor.mark_frame h.gdtr (j := 1) (by decide) 1
  obtain ⟨q, hq⟩ : ∃ q, p.mark (8 * 1) 1 = q := ⟨_, rfl⟩
  have hkept : q.seg = p.seg ∧ q.tr = p.tr ∧ q.rsp = p.rsp := by
    subst hq
    exact ⟨rfl, rfl, rfl⟩
  rw [hq] at hmark hagain hframe
  refine ⟨{ q with cs := ⟨0x8, .flat 0x9B 0xA⟩, rip := littleEndian p.mem p.rsp 8, rsp := q.rsp + 16 }, ?_,
    hmark.of_eq rfl rfl, rfl, hkept.1, hkept.2.1, rfl, congrArg (· + 16) hkept.2.2, hframe⟩
  unfold Processor.retfq
  rw [hselector, hcpl]
  simp only [show 0x8 % 2 ^ 16 = 8 * 1 from rfl]
  rw [hnamed]
  simp only [Option.bind_eq_bind, Option.bind_some]
  rw [hq, hagain]
  rfl

/-- The bytes of the table and `n` bytes of the stack below `rsp`. -/
def GdtLayout.loadWrites (l : GdtLayout) (rsp n : Nat) : List (Nat × Nat) :=
  [(l.gdtTable, 8 * GDT_ENTRY_COUNT), (rsp - n, n)]

/-- The segments and the tables of the kernel, in ring 0. -/
structure InKernel (p : Processor) : Prop where
  cs : p.cs = ⟨0x8, .flat 0x9B 0xA⟩
  seg : ∀ r, p.seg r = ⟨0x10, .flat 0x93 0x8⟩

/-- All five data registers hold the data segment. -/
theorem HasGdt.segments (h : HasGdt l D hi p) (hcpl : p.cpl = 0) (hdata : D 2 = .flat 0x92 0x8) :
    ∃ p', [DataReg.ds, .es, .fs, .gs, .ss].foldlM (fun p r => p.mov r 0x10) p = some p' ∧
      HasGdt l (Function.update D 2 (.flat 0x93 0x8)) hi p' ∧ Moved l p p' ∧
      ∀ r, p'.seg r = ⟨0x10, .flat 0x93 0x8⟩ := by
  have hfirst : HasGdt l (Function.update D 2 (.flat 0x92 0x8)) hi p := by rwa [← hdata, Function.update_eq_self]
  obtain ⟨p₁, hds, hready₁, hmoved₁, hseg₁⟩ := hfirst.mov hcpl (.inl rfl) .ds
  obtain ⟨p₂, hmovs, hready₂, hmoved₂, hsegs⟩ := hready₁.movs [.es, .fs, .gs, .ss]
    ((congrArg (·.selector % 4) hmoved₁.cs).trans hcpl)
  refine ⟨p₂, ?_, hready₂, hmoved₁.trans hmoved₂, fun r => ?_⟩
  · rw [List.foldlM_cons, hds]
    exact hmovs
  · rw [hsegs r, hseg₁]
    cases r <;> rfl

/-- The far return finds on the stack what was pushed for it. -/
theorem Processor.far_frame {here : Nat} (hhere : here < 2 ^ 64) (h : 16 ≤ p.rsp) :
    ((p.push 0x8).push here).rsp = p.rsp - 16 ∧
      littleEndian ((p.push 0x8).push here).mem (p.rsp - 16 + 8) 8 = 0x8 ∧
      littleEndian ((p.push 0x8).push here).mem (p.rsp - 16) 8 = here ∧
      Frame [(p.rsp - 16, 16)] p.mem ((p.push 0x8).push here).mem := by
  have hrsp : p.rsp - 8 - 8 = p.rsp - 16 := Nat.sub_sub ..
  have hmem : ((p.push 0x8).push here).mem = blitNum (p.rsp - 16) 8 here (blitNum (p.rsp - 16 + 8) 8 0x8 p.mem) := by
    have hhigh : p.rsp - 16 + 8 = p.rsp - 8 := by omega
    rw [hhigh, ← hrsp]
    rfl
  rw [hmem]
  refine ⟨hrsp, ?_, ?_, ?_⟩
  · exact (littleEndian_blit_outside (.inr (Nat.le_refl _)) _ _).trans (littleEndian_blitNum ..)
  · rw [littleEndian_blitNum]
    exact Nat.mod_eq_of_lt hhere
  · refine (Frame.blitNum (List.mem_singleton_self _) ?_ ?_ _ _).trans
      (Frame.blitNum (List.mem_singleton_self _) ?_ ?_ _ _) <;> simp only <;> omega

/-- The far return goes on at `.return` in the kernel's code segment, and the stack is as it was. -/
theorem gdtLoad_spec {here a : Nat} (hhere : here < 2 ^ 64) (h : HasGdt l D hi (p.lgdt a)) (hcpl : p.cpl = 0)
    (hcode : D 1 = .flat 0x9A 0xA) (hdata : D 2 = .flat 0x92 0x8) (hroom : 16 ≤ p.rsp)
    (hstack : Apart l.gdtTable (8 * GDT_ENTRY_COUNT) (p.rsp - 16) 24) : ∃ p', gdtLoad here a p = some p' ∧
      HasGdt l (Function.update (Function.update D 2 (.flat 0x93 0x8)) 1 (.flat 0x9B 0xA)) hi p' ∧ InKernel p' ∧
      p'.rip = littleEndian p.mem p.rsp 8 ∧ p'.rsp = p.rsp + 8 ∧ Frame (l.loadWrites p.rsp 16) p.mem p'.mem := by
  obtain ⟨p₂, hmovs, hready₂, ⟨hcs₂, -, hrsp₂, hframe₂⟩, hsegs⟩ := h.segments hcpl hdata
  have hrsp : p₂.rsp = p.rsp := hrsp₂
  obtain ⟨hrsp₃, hselector, hrip, hframe₃⟩ := Processor.far_frame (p := p₂) hhere (hrsp ▸ hroom)
  have hready₃ : HasGdt l (Function.update D 2 (.flat 0x93 0x8)) hi ((p₂.push 0x8).push here) := by
    unfold Apart at hstack
    refine (hready₂.push ?_ 0x8).push ?_ here
    · unfold Apart
      omega
    · show Apart (p₂.rsp - 8 - 8) 8 _ _
      unfold Apart
      omega
  obtain ⟨p₃, hp₃⟩ : ∃ q, (p₂.push 0x8).push here = q := ⟨_, rfl⟩
  have hkept₃ : p₃.cs = p.cs ∧ p₃.seg = p₂.seg := by
    subst hp₃
    exact ⟨hcs₂, rfl⟩
  rw [hp₃] at hrsp₃ hselector hrip hframe₃ hready₃
  rw [hrsp] at hrsp₃ hrip hframe₃
  rw [hrsp, ← hrsp₃] at hselector
  have hcode₃ : Function.update D 2 (.flat 0x93 0x8) 1 = .flat 0x9A 0xA :=
    (Function.update_of_ne (by decide) _ _).trans hcode
  obtain ⟨p₄, hret, hready₄, hcs, hseg, -, hrip₄, hrsp₄, hframe₄⟩ := hready₃.retfq
    hcode₃ ((congrArg (·.selector % 4) hkept₃.1).trans hcpl) hselector
  have hframe : Frame (l.loadWrites p.rsp 16) p.mem p₄.mem := by
    have htable : [(l.gdtTable, 8 * GDT_ENTRY_COUNT)] ⊆ l.loadWrites p.rsp 16 :=
      List.cons_subset_cons _ (List.nil_subset _)
    have hpushed := hframe₃.subset (List.subset_cons_self (l.gdtTable, 8 * GDT_ENTRY_COUNT) _)
    exact ((hframe₂.subset htable).trans hpushed).trans (hframe₄.subset htable)
  have hrsp' : p₄.rsp = p.rsp := hrsp₄.trans (hrsp₃ ▸ Nat.sub_add_cancel hroom)
  have hreturn : littleEndian p₄.mem p.rsp 8 = littleEndian p.mem p.rsp 8 := by
    refine hframe.littleEndian fun i hi r hr => ?_
    unfold Apart at hstack
    rcases List.mem_cons.1 hr with rfl | hr
    · simp only
      omega
    · obtain rfl := List.mem_singleton.1 hr
      simp only
      omega
  refine ⟨p₄.ret, ?_, hready₄.ret, ⟨p₄.ret_cs.trans hcs, fun r => ?_⟩, ?_, ?_, ?_⟩
  · unfold gdtLoad
    simp only [Option.bind_eq_bind, hmovs, Option.bind_some, hp₃, hret, hrip₄, hrsp₃, hrip, guard_true]
    rfl
  · rw [Processor.ret_seg, hseg, hkept₃.2, hsegs r]
  · rw [Processor.ret_rip, hrsp', hreturn]
  · rw [Processor.ret_rsp, hrsp']
  · rw [Processor.ret_mem]
    exact hframe

/-! ## `gdt_load_tss` -/

/-- The task register names the TSS, which is marked as busy. -/
theorem HasGdt.ltr (h : HasGdt l D hi p) (hcpl : p.cpl = 0) (havailable : (D 5).available hi)
    (hgranular : (D 5).granular = false) : ∃ p', p.ltr 0x28 = some p' ∧ HasGdt l (marked 5 2 D) hi p' ∧ p'.cs = p.cs ∧
      p'.seg = p.seg ∧ p'.tr = ⟨0x28, (D 5).base + 2 ^ 32 * (hi % 2 ^ 32), (D 5).limit⟩ ∧ p'.rsp = p.rsp ∧
      Frame [(l.gdtTable, 8 * GDT_ENTRY_COUNT)] p.mem p'.mem := by
  have hnamed := h.named (j := 5) (by decide) (by decide)
  have hmark := h.mark (j := 5) (by decide) 2
  have hframe := Processor.mark_frame h.gdtr (j := 5) (by decide) 2
  have hupper : littleEndian p.mem (p.gdtr.base + 8 * (8 * 5 / 8) + 8) 8 = hi := by
    rw [h.gdtr, ← h.upper]
    rfl
  have hlimit : 8 * (8 * 5 / 8) + 15 ≤ p.gdtr.limit := by
    rw [h.gdtr]
    exact Nat.le_refl 55
  obtain ⟨q, hq⟩ : ∃ q, p.mark (8 * 5) 2 = q := ⟨_, rfl⟩
  have hkept : q.cs = p.cs ∧ q.seg = p.seg ∧ q.rsp = p.rsp := by
    subst hq
    exact ⟨rfl, rfl, rfl⟩
  rw [hq] at hmark hframe
  refine ⟨{ q with tr := ⟨0x28, (D 5).base + 2 ^ 32 * (hi % 2 ^ 32), (D 5).limit⟩ }, ?_, hmark.of_eq rfl rfl,
    hkept.1, hkept.2.1, rfl, hkept.2.2, hframe⟩
  unfold Processor.ltr
  simp only [show 0x28 = 8 * 5 from rfl]
  rw [hnamed]
  simp only [Option.bind_eq_bind, Option.bind_some, hupper, hlimit, hcpl, havailable, and_self, guard_true, hgranular]
  rw [hq]
  rfl

/-! ## The memory of `gdt_init` -/

/-- The TSS as `gdt_init` fills it. -/
def tssInit (l : GdtLayout) (m : Nat → UInt8) : Nat → UInt8 :=
  blitNum (l.tss + 102) 2 sizeofTss (blitNum (l.tss + 36) 8 (l.emergencyStack + 4096)
    (blitNum (l.tss + 4) 8 (l.kernelStack + 16384) (memset l.tss 0 sizeofTss m).2))

/-- The stacks of the TSS, and a port bitmap past its limit, where no port is allowed. -/
structure TssRight (l : GdtLayout) (m : Nat → UInt8) : Prop where
  rsp0 : littleEndian m (l.tss + 4) 8 = (l.kernelStack + 16384) % 2 ^ 64
  ist1 : littleEndian m (l.tss + 36) 8 = (l.emergencyStack + 4096) % 2 ^ 64
  iomap : littleEndian m (l.tss + 102) 2 = sizeofTss

theorem tssInit_right (l : GdtLayout) (m : Nat → UInt8) : TssRight l (tssInit l m) := by
  unfold tssInit
  refine ⟨?_, ?_, littleEndian_blitNum ..⟩
  · unfold blitNum
    rw [littleEndian_blit_outside (by omega), littleEndian_blit_outside (by omega)]
    exact littleEndian_blitNum ..
  · unfold blitNum
    rw [littleEndian_blit_outside (by omega)]
    exact littleEndian_blitNum ..

theorem tssInit_frame (l : GdtLayout) (m : Nat → UInt8) : Frame [(l.tss, sizeofTss)] m (tssInit l m) := by
  have hset : (memset l.tss 0 sizeofTss m).2 = blit l.tss sizeofTss (fun _ => 0) m := memsetLoop_eq ..
  have hin := List.mem_singleton_self (l.tss, sizeofTss)
  unfold tssInit
  rw [hset]
  refine (((Frame.blit hin (Nat.le_refl _) (Nat.le_refl _) _ m).trans (Frame.blitNum hin ?_ ?_ _ _)).trans
    (Frame.blitNum hin ?_ ?_ _ _)).trans (Frame.blitNum hin ?_ ?_ _ _)
  all_goals
    simp only [sizeofTss]
    omega

/-- The TSS is as it was when nothing of it is written. -/
theorem TssRight.frame {m m' : Nat → UInt8} (h : TssRight l m) {rs : List (Nat × Nat)} (hframe : Frame rs m m')
    (hrs : ∀ r ∈ rs, Apart r.1 r.2 l.tss sizeofTss) : TssRight l m' := by
  have hkept : ∀ a n, l.tss ≤ a → a + n ≤ l.tss + sizeofTss → littleEndian m' a n = littleEndian m a n := by
    intro a n hlo hhi
    refine hframe.littleEndian fun i hi r hr => ?_
    have hapart := hrs r hr
    unfold Apart at hapart
    omega
  refine ⟨?_, ?_, ?_⟩
  · rw [hkept _ _ (by omega) (by simp only [sizeofTss]; omega)]
    exact h.rsp0
  · rw [hkept _ _ (by omega) (by simp only [sizeofTss]; omega)]
    exact h.ist1
  · rw [hkept _ _ (by omega) (by simp only [sizeofTss]; omega)]
    exact h.iomap

/-- What `gdt_init` writes but for the TSS. -/
def GdtLayout.written (l : GdtLayout) : List (Nat × Nat) :=
  [(l.gdtTable, 8 * GDT_ENTRY_COUNT), (l.s, 8), (l.sys, 16), (l.gdtMeta, 10)]

theorem gdtAssignSeg_frame {idx : Nat} (hidx : idx < GDT_ENTRY_COUNT) (d : GdtSegDesc) (m : Nat → UInt8) :
    Frame l.written m (gdtAssignSeg l idx d m) := by
  simp only [GDT_ENTRY_COUNT] at hidx
  have hapart : Apart l.s 8 (slotAt l idx) 8 := by
    have hs := l.s_apart
    simp only [Apart, GDT_ENTRY_COUNT, slotAt] at hs ⊢
    omega
  have hs : (l.s, 8) ∈ l.written := by simp [GdtLayout.written]
  refine (Frame.blitNum hs (Nat.le_refl _) (Nat.le_refl _) d.value m).trans
    ((gdtSetSeg_spec hapart _).2.widen fun r hr => ?_)
  obtain rfl := List.mem_singleton.1 hr
  refine ⟨(l.gdtTable, 8 * GDT_ENTRY_COUNT), List.mem_cons_self, Nat.le_add_right _ _, ?_⟩
  simp only [slotAt, GDT_ENTRY_COUNT]
  omega

theorem copySys_frame (d : GdtSysDesc) (m : Nat → UInt8) :
    Frame l.written m (memcopy (l.gdtTable + 8 * 5) l.sys 16 (blitNum l.sys 16 d.value m)).2 := by
  have hapart : Apart l.sys 16 (slotAt l 5) 16 := by
    have hsys := l.sys_apart
    simp only [Apart, GDT_ENTRY_COUNT, slotAt] at hsys ⊢
    omega
  have hsys : (l.sys, 16) ∈ l.written := by simp [GdtLayout.written]
  refine (Frame.blitNum hsys (Nat.le_refl _) (Nat.le_refl _) d.value m).trans
    ((gdtSetSys_spec hapart _).2.2.widen fun r hr => ?_)
  obtain rfl := List.mem_singleton.1 hr
  exact ⟨(l.gdtTable, 8 * GDT_ENTRY_COUNT), List.mem_cons_self, Nat.le_add_right _ _,
    by simp only [slotAt, GDT_ENTRY_COUNT]; omega⟩

/-- What `gdt_load` is called with: the slots, the TSS, and the address and the limit of the table. -/
theorem gdtInit_loaded (m : Nat → UInt8) (hlt : l.gdtTable < 2 ^ 64)
    (htss : ∀ r ∈ l.written, Apart r.1 r.2 l.tss sizeofTss) : ∃ m', gdtInit l m = .ok m' ∧
      (∀ j < GDT_ENTRY_COUNT, gdtSlot l m' j = slotLoaded l j (gdtSlot l m j)) ∧ TssRight l m' ∧
      littleEndian m' l.gdtMeta 2 = 8 * GDT_ENTRY_COUNT - 1 ∧ littleEndian m' (l.gdtMeta + 2) 8 = l.gdtTable ∧
      Frame ((l.tss, sizeofTss) :: l.written) m m' := by
  obtain ⟨m', hrun, hslots⟩ := gdtInit_slots l m
  have hparts : ∃ m₂, m' = blitNum l.gdtMeta 10 (8 * GDT_ENTRY_COUNT - 1 + 2 ^ 16 * l.gdtTable) m₂ ∧
      Frame l.written (tssInit l m) m₂ := by
    unfold gdtInit at hrun
    simp only [gdtGenerateSegDesc_null, gdtGenerateSegDesc_flat, ok_bind, pure_eq_ok] at hrun
    refine ⟨_, (Except.ok.inj hrun).symm, ?_⟩
    exact (((((gdtAssignSeg_frame (by decide) _ _).trans (gdtAssignSeg_frame (by decide) _ _)).trans
      (gdtAssignSeg_frame (by decide) _ _)).trans (gdtAssignSeg_frame (by decide) _ _)).trans
      (gdtAssignSeg_frame (by decide) _ _)).trans (copySys_frame _ _)
  obtain ⟨m₂, rfl, hframe⟩ := hparts
  have hmeta : (l.gdtMeta, 10) ∈ l.written := by simp [GdtLayout.written]
  have hall := hframe.trans (Frame.blitNum hmeta (Nat.le_refl _) (Nat.le_refl _)
    (8 * GDT_ENTRY_COUNT - 1 + 2 ^ 16 * l.gdtTable) m₂)
  have hnum := littleEndian_blitNum l.gdtMeta 10 (8 * GDT_ENTRY_COUNT - 1 + 2 ^ 16 * l.gdtTable) m₂
  refine ⟨_, hrun, hslots, (tssInit_right l m).frame hall htss, ?_, ?_, ?_⟩
  · have hslice := littleEndian_slice (blitNum l.gdtMeta 10 (8 * GDT_ENTRY_COUNT - 1 + 2 ^ 16 * l.gdtTable) m₂)
      l.gdtMeta (show 0 + 2 ≤ 10 by omega)
    rw [hnum, Nat.add_zero] at hslice
    rw [← hslice]
    simp only [GDT_ENTRY_COUNT]
    omega
  · have hslice := littleEndian_slice (blitNum l.gdtMeta 10 (8 * GDT_ENTRY_COUNT - 1 + 2 ^ 16 * l.gdtTable) m₂)
      l.gdtMeta (show 2 + 8 ≤ 10 by omega)
    rw [hnum] at hslice
    rw [← hslice]
    simp only [GDT_ENTRY_COUNT]
    omega
  · exact ((tssInit_frame l m).subset (List.cons_subset_cons _ (List.nil_subset _))).trans
      (hall.subset (List.subset_cons_self _ _))

/-- The TSS is available, and its limit counts bytes. -/
theorem tssDesc_available (l : GdtLayout) :
    (Descriptor.decode ((tssDesc l).value % 2 ^ 64)).available ((tssDesc l).value / 2 ^ 64) ∧
      (Descriptor.decode ((tssDesc l).value % 2 ^ 64)).granular = false := by
  obtain ⟨haccess, -, -, hreserved⟩ := @gdtGenerateSysDesc_isTss (UInt64.ofNat l.tss) (UInt32.ofNat (sizeofTss - 1))
    (by decide)
  have hvalue := gdtGenerateSysDesc_value (UInt64.ofNat l.tss) (UInt32.ofNat (sizeofTss - 1))
  have hlimit : (UInt32.ofNat (sizeofTss - 1)).toNat = 103 := rfl
  have hflags : (Descriptor.decode ((tssDesc l).value % 2 ^ 64)).flags = 0 := by
    rw [hlimit] at hvalue
    unfold tssDesc Descriptor.decode
    rw [hvalue]
    simp only
    omega
  constructor
  · have htype : (tssDesc l).value / 2 ^ 64 / 2 ^ 40 % 2 ^ 5 = 0 := by
      have hsmall : (tssDesc l).value / 2 ^ 64 < 2 ^ 32 := Nat.lt_of_div_eq_zero (by decide) hreserved
      rw [Nat.div_eq_of_lt (hsmall.trans (by decide)), Nat.zero_mod]
    unfold Descriptor.available Descriptor.present Descriptor.codeOrData
    rw [htype]
    unfold tssDesc
    rw [haccess]
    decide
  · unfold Descriptor.granular
    rw [hflags]
    decide

/-! ## The processor after `gdt_init` -/

/-- The objects of `gdt_init`, its locals and the stack below them, none of which shares a byte with the TSS or the
table, nor the stack with the structure for `lgdt`. -/
structure GdtLayout.Room (l : GdtLayout) (rsp : Nat) : Prop where
  table_lt : l.gdtTable < 2 ^ 64
  tss : ∀ r ∈ l.written, Apart r.1 r.2 l.tss sizeofTss
  deep : 24 ≤ rsp
  table_stack : Apart l.gdtTable (8 * GDT_ENTRY_COUNT) (rsp - 24) 24
  tss_stack : Apart (rsp - 24) 24 l.tss sizeofTss
  meta_stack : Apart (rsp - 24) 24 l.gdtMeta 10

/-- The processor has the table of the kernel: its registers name the segments of the kernel and the TSS. -/
structure GdtRight (l : GdtLayout) (p : Processor) : Prop extends InKernel p where
  gdtr : p.gdtr = ⟨8 * GDT_ENTRY_COUNT - 1, l.gdtTable⟩
  tr : p.tr = ⟨0x28, l.tss, sizeofTss - 1⟩
  code : Descriptor.decode (gdtSlot l p.mem 1) = .flat 0x9B 0xA
  data : Descriptor.decode (gdtSlot l p.mem 2) = .flat 0x93 0x8
  tss : TssRight l p.mem

/-- What `gdt_init` writes with the functions that it calls. -/
def GdtLayout.all (l : GdtLayout) (rsp : Nat) : List (Nat × Nat) := (rsp - 24, 24) :: (l.tss, sizeofTss) :: l.written

theorem HasGdt.call (h : HasGdt l D hi p) (hroom : Apart l.gdtTable (8 * GDT_ENTRY_COUNT) (p.rsp - 24) 24)
    (hdeep : 24 ≤ p.rsp) (x : Nat) : HasGdt l D hi (p.push x) := by
  refine h.push ?_ x
  unfold Apart at hroom ⊢
  omega

/-- A call leaves the return address on the stack. -/
theorem Processor.push_top {x : Nat} (hx : x < 2 ^ 64) (p : Processor) :
    littleEndian (p.push x).mem (p.push x).rsp 8 = x :=
  (littleEndian_blitNum ..).trans (Nat.mod_eq_of_lt hx)

/-- The descriptors in the slots at the call of `gdt_load`. -/
def loadedDesc (l : GdtLayout) (m : Nat → UInt8) (j : Nat) : Descriptor :=
  Descriptor.decode (slotLoaded l j (gdtSlot l m j))

theorem loadedDesc_code (l : GdtLayout) (m : Nat → UInt8) : loadedDesc l m 1 = .flat 0x9A 0xA := by
  show Descriptor.decode (flatDesc GDT_KERNEL_CODE GDT_FLAGS_CODE64).value = _
  decide

theorem loadedDesc_data (l : GdtLayout) (m : Nat → UInt8) : loadedDesc l m 2 = .flat 0x92 0x8 := by
  show Descriptor.decode (flatDesc GDT_KERNEL_DATA GDT_FLAGS_DATA).value = _
  decide

/-- `lgdt` finds the table of `gdt_init` below the return address. -/
theorem gdtInit_ready {m : Nat → UInt8} {q : Processor} {ret : Nat} (h : l.Room p.rsp)
    (hq : q.mem = blitNum (p.rsp - 8) 8 ret m)
    (hslots : ∀ j < GDT_ENTRY_COUNT, gdtSlot l m j = slotLoaded l j (gdtSlot l p.mem j))
    (hlimit : littleEndian m l.gdtMeta 2 = 8 * GDT_ENTRY_COUNT - 1)
    (hbase : littleEndian m (l.gdtMeta + 2) 8 = l.gdtTable) :
    HasGdt l (loadedDesc l p.mem) ((tssDesc l).value / 2 ^ 64) (q.lgdt l.gdtMeta) := by
  obtain ⟨-, -, hdeep, htable, -, hmeta⟩ := h
  have hkept : ∀ a n, l.gdtMeta ≤ a → a + n ≤ l.gdtMeta + 10 → littleEndian q.mem a n = littleEndian m a n := by
    intro a n hlo hhi
    rw [hq]
    refine littleEndian_blit_outside ?_ _ m
    unfold Apart at hmeta
    omega
  have hslot : ∀ j < GDT_ENTRY_COUNT, gdtSlot l q.mem j = gdtSlot l m j := by
    intro j hj
    rw [hq]
    refine slot_blit ?_ _ m hj
    unfold Apart at htable ⊢
    omega
  unfold Processor.lgdt
  rw [hkept _ _ (Nat.le_refl _) (by omega), hkept _ _ (by omega) (by omega), hlimit, hbase]
  refine ⟨rfl, fun j hj => ?_, ?_⟩
  · exact congrArg Descriptor.decode ((hslot j hj).trans (hslots j hj))
  · have hupper : slotLoaded l 6 (gdtSlot l p.mem 6) = (tssDesc l).value / 2 ^ 64 :=
      (if_neg (by decide)).trans (if_pos rfl)
    exact ((hslot 6 (by decide)).trans (hslots 6 (by decide))).trans hupper

theorem loadedDesc_tss (l : GdtLayout) (m : Nat → UInt8) :
    loadedDesc l m 5 = Descriptor.decode ((tssDesc l).value % 2 ^ 64) := congrArg Descriptor.decode (if_pos rfl)

/-- The second of the two calls: the task register is loaded, and the return address is found again. -/
theorem HasGdt.loadTss {ret : Nat} (hret : ret < 2 ^ 64) (h : HasGdt l D ((tssDesc l).value / 2 ^ 64) p)
    (hdesc : D 5 = Descriptor.decode ((tssDesc l).value % 2 ^ 64)) (hkernel : InKernel p) (hroom : l.Room p.rsp) :
    ∃ p', gdtLoadTss (5 * 2 ^ 3) (p.push ret) = some p' ∧ HasGdt l (marked 5 2 D) ((tssDesc l).value / 2 ^ 64) p' ∧
      InKernel p' ∧ p'.tr = ⟨0x28, l.tss, sizeofTss - 1⟩ ∧ p'.rip = ret ∧ p'.rsp = p.rsp ∧
      Frame (l.loadWrites p.rsp 8) p.mem p'.mem := by
  have htss := @gdtGenerateSysDesc_isTss (UInt64.ofNat l.tss) (UInt32.ofNat (sizeofTss - 1)) (by decide)
  rw [UInt64.toNat_ofNat_of_lt' l.tss_lt] at htss
  obtain ⟨-, hbase, hlimit, -⟩ := htss
  obtain ⟨havailable, hgranular⟩ := tssDesc_available l
  have hdeep := hroom.deep
  have htable := hroom.table_stack
  have hready := h.call htable hdeep ret
  have htop := p.push_top hret
  obtain ⟨q, hq⟩ : ∃ q, p.push ret = q := ⟨_, rfl⟩
  have hkept : q.rsp = p.rsp - 8 ∧ q.cs = p.cs ∧ q.seg = p.seg ∧ q.mem = blitNum (p.rsp - 8) 8 ret p.mem := by
    subst hq
    exact ⟨rfl, rfl, rfl, rfl⟩
  rw [hq] at hready htop
  have hcpl : q.cpl = 0 := by
    unfold Processor.cpl
    rw [hkept.2.1, hkernel.cs]
    rfl
  obtain ⟨p', hltr, hready', hcs, hseg, htr, hrsp, hframe⟩ := hready.ltr hcpl (hdesc ▸ havailable) (hdesc ▸ hgranular)
  have hrsp' : p'.rsp = p.rsp - 8 := hrsp.trans hkept.1
  have hreturn : littleEndian p'.mem p'.rsp 8 = ret := by
    rw [← htop, hrsp]
    refine hframe.littleEndian fun i hi r hr => ?_
    obtain rfl := List.mem_singleton.1 hr
    rw [hkept.1]
    unfold Apart at htable
    simp only
    omega
  refine ⟨p'.ret, ?_, hready'.ret, ⟨?_, fun r => ?_⟩, ?_, ?_, ?_, ?_⟩
  · unfold gdtLoadTss
    rw [hq, show 5 * 2 ^ 3 = 0x28 from rfl, hltr]
    rfl
  · rw [Processor.ret_cs, hcs, hkept.2.1, hkernel.cs]
  · rw [Processor.ret_seg, hseg, hkept.2.2.1, hkernel.seg r]
  · rw [Processor.ret_tr, htr, hdesc]
    exact congrArg₂ (TaskRegister.mk 0x28) hbase hlimit
  · rw [Processor.ret_rip, hreturn]
  · rw [Processor.ret_rsp, hrsp']
    omega
  · rw [Processor.ret_mem]
    have hpush : Frame (l.loadWrites p.rsp 8) p.mem q.mem := by
      rw [hkept.2.2.2]
      exact Frame.blitNum (List.mem_cons_of_mem _ List.mem_cons_self) (Nat.le_refl _) (Nat.le_refl _) ret p.mem
    exact hpush.trans (hframe.subset (List.cons_subset_cons _ (List.nil_subset _)))

/-- In ring 0 `gdt_init` runs to its end, whatever was in the registers, in the table and in the rest of the memory. -/
theorem gdtInitLoad_spec {here : Nat} {after : Nat × Nat} (hhere : here < 2 ^ 64) (hfirst : after.1 < 2 ^ 64)
    (hsecond : after.2 < 2 ^ 64) (hcpl : p.cpl = 0) (h : l.Room p.rsp) : ∃ p', gdtInitLoad l here after p = some p' ∧
      GdtRight l p' ∧ p'.rsp = p.rsp ∧ Frame (l.all p.rsp) p.mem p'.mem := by
  obtain ⟨m, hrun, hslots, htss, hlimit, hbase, hframe⟩ := gdtInit_loaded p.mem h.table_lt h.tss
  have hdeep := h.deep
  have htable := h.table_stack
  have htop := Processor.push_top hfirst { p with mem := m }
  obtain ⟨p₁, hp₁⟩ : ∃ q, { p with mem := m }.push after.1 = q := ⟨_, rfl⟩
  have hkept₁ : p₁.mem = blitNum (p.rsp - 8) 8 after.1 m ∧ p₁.rsp = p.rsp - 8 ∧ p₁.cpl = 0 := by
    subst hp₁
    exact ⟨rfl, rfl, hcpl⟩
  rw [hp₁] at htop
  have hready := gdtInit_ready h hkept₁.1 hslots hlimit hbase
  obtain ⟨p₂, hload, hready₂, hkernel, hrip₂, hrsp₂, hframe₂⟩ := gdtLoad_spec hhere hready hkept₁.2.2
    (loadedDesc_code ..) (loadedDesc_data ..) (by omega) (by unfold Apart at htable ⊢; omega)
  have hback : p₂.rsp = p.rsp := by omega
  obtain ⟨p₃, hloadTss, hready₃, hkernel₃, htr, hrip₃, hrsp₃, hframe₃⟩ := hready₂.loadTss hsecond
    (loadedDesc_tss ..) hkernel (by rwa [hback])
  -- nothing but the table and the stack is written after `gdt_init` filled the TSS
  have hafter : Frame [(p.rsp - 24, 24), (l.gdtTable, 8 * GDT_ENTRY_COUNT)] m p₃.mem := by
    have hpush : Frame [(p.rsp - 24, 24), (l.gdtTable, 8 * GDT_ENTRY_COUNT)] m p₁.mem := by
      rw [hkept₁.1]
      refine Frame.blitNum List.mem_cons_self ?_ ?_ _ _ <;> simp only <;> omega
    rw [hkept₁.2.1] at hframe₂
    rw [hback] at hframe₃
    refine (hpush.trans (hframe₂.widen fun r hr => ?_)).trans (hframe₃.widen fun r hr => ?_)
    all_goals
      rcases List.mem_cons.1 hr with rfl | hr
      · exact ⟨_, List.mem_cons_of_mem _ List.mem_cons_self, Nat.le_refl _, Nat.le_refl _⟩
      · obtain rfl := List.mem_singleton.1 hr
        exact ⟨_, List.mem_cons_self, by simp only; omega, by simp only; omega⟩
  refine ⟨p₃, ?_, ⟨hkernel₃, hready₃.gdtr, htr, ?_, ?_, ?_⟩, hrsp₃.trans hback, ?_⟩
  · unfold gdtInitLoad
    simp only [hrun, Except.toOption, Option.bind_eq_bind, Option.bind_some, hp₁, hload, hrip₂, htop, guard_true,
      hloadTss, hrip₃]
    rfl
  · exact hready₃.slots 1 (by decide)
  · exact hready₃.slots 2 (by decide)
  · refine htss.frame hafter fun r hr => ?_
    rcases List.mem_cons.1 hr with rfl | hr
    · exact h.tss_stack
    · obtain rfl := List.mem_singleton.1 hr
      exact h.tss _ List.mem_cons_self
  · refine (hframe.subset (List.subset_cons_self _ _)).trans (hafter.subset ?_)
    intro r hr
    simp only [List.mem_cons, List.not_mem_nil, or_false] at hr
    rcases hr with rfl | rfl
    · exact List.mem_cons_self
    · exact List.mem_cons_of_mem _ (List.mem_cons_of_mem _ List.mem_cons_self)

end SnakeOS.Arch
