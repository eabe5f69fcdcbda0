/-
arch/x86/idt.c: the table of interrupt gates that `idt_init` builds for `idt_load`, one gate for each stub of
arch/x86/idt.asm, and the gates as the processor reads them.
-/
import SnakeOS.Lib.Field
import SnakeOS.Lib.Loop
import SnakeOS.Lib.Mem

namespace SnakeOS.Arch

open CLoop Mem

/-! ## Descriptors -/

abbrev IDT_DESCRIPTORS : Nat := 256
abbrev KERNEL_CS : UInt16 := 0x08
abbrev IDT_FLAG_INTERRUPT_GATE : UInt8 := 0x8E

structure IdtDescriptor64 where
  offsetLow : UInt16
  selector : UInt16
  ist : UInt8
  typeAttr : UInt8
  offsetMid : UInt16
  offsetHigh : UInt32
  reserved : UInt32
  deriving DecidableEq, Repr

/-- The number in the sixteen bytes of the packed structure. -/
def IdtDescriptor64.value (d : IdtDescriptor64) : Nat :=
  d.offsetLow.toNat + 2 ^ 16 * d.selector.toNat + 2 ^ 32 * d.ist.toNat + 2 ^ 40 * d.typeAttr.toNat +
    2 ^ 48 * d.offsetMid.toNat + 2 ^ 64 * d.offsetHigh.toNat + 2 ^ 96 * d.reserved.toNat

structure IdtMetadata where
  limit : UInt16
  base : UInt64
  deriving DecidableEq, Repr

/-- The number in the ten bytes of the packed structure. -/
def IdtMetadata.value (d : IdtMetadata) : Nat := d.limit.toNat + 2 ^ 16 * d.base.toNat

/-! ## The table -/

/-- `sizeof(idt_table)`. -/
abbrev sizeofIdtTable : Nat := 4096

/-- Where the tables and the local of `idt_init` are. -/
structure IdtLayout where
  idtTable : Nat
  idtStubTable : Nat
  idtMetadata : Nat
  table_lt : idtTable < 2 ^ 64
  stubs_apart : Apart idtStubTable (8 * IDT_DESCRIPTORS) idtTable sizeofIdtTable
  metadata_apart : Apart idtMetadata 10 idtTable sizeofIdtTable

/-- The descriptor that `set_idt_entry` stores. -/
def idtEntry (isrAddr : UInt64) (flags ist : UInt8) : IdtDescriptor64 where
  offsetLow := (isrAddr &&& 0xFFFF).toUInt16
  selector := KERNEL_CS
  ist := ist &&& 0x7
  typeAttr := flags
  offsetMid := ((isrAddr >>> 16) &&& 0xFFFF).toUInt16
  offsetHigh := ((isrAddr >>> 32) &&& 0xFFFFFFFF).toUInt32
  reserved := 0

def setIdtEntry (l : IdtLayout) (index : Nat) (isrAddr : UInt64) (flags ist : UInt8) (m : Nat → UInt8) :
    Nat → UInt8 :=
  blitNum (l.idtTable + 16 * index) 16 (idtEntry isrAddr flags ist).value m

/-- `idt_stub_table[i]`. -/
def idtStub (l : IdtLayout) (m : Nat → UInt8) (i : Nat) : UInt64 :=
  UInt64.ofNat (littleEndian m (l.idtStubTable + 8 * i) 8)

/-- The register that `lidt` loads. -/
structure Idtr where
  limit : Nat
  base : Nat
  deriving DecidableEq, Repr

/-- `idt_load`, for the address of the `struct idt_metadata`. -/
def idtLoad (idtMetadata : Nat) (m : Nat → UInt8) : Idtr where
  limit := littleEndian m idtMetadata 2
  base := littleEndian m (idtMetadata + 2) 8

/-- The loop of `idt_init`. -/
def idtFill (l : IdtLayout) (m : Nat → UInt8) : Nat → UInt8 :=
  forUp 0 IDT_DESCRIPTORS (fun i m => setIdtEntry l i (idtStub l m i) IDT_FLAG_INTERRUPT_GATE 0 m) m

/-- The register loaded by `idt_init` and its memory then. -/
def idtInit (l : IdtLayout) (m : Nat → UInt8) : Idtr × (Nat → UInt8) :=
  let m := idtFill l m
  let idtMetadata : IdtMetadata := ⟨UInt16.ofNat (sizeofIdtTable - 1), UInt64.ofNat l.idtTable⟩
  let m := blitNum l.idtMetadata 10 idtMetadata.value m
  (idtLoad l.idtMetadata m, m)

/-! ## Gates as the processor reads them -/

/-- What a gate of the 64-bit table says, with the bits that have to be zero. -/
structure Gate where
  offset : Nat
  selector : Nat
  ist : Nat
  afterIst : Nat
  type : Nat
  afterType : Nat
  dpl : Nat
  present : Nat
  reserved : Nat
  deriving DecidableEq, Repr

def Gate.decode (q : Nat) : Gate where
  offset := q % 2 ^ 16 + 2 ^ 16 * (q / 2 ^ 48 % 2 ^ 16) + 2 ^ 32 * (q / 2 ^ 64 % 2 ^ 32)
  selector := q / 2 ^ 16 % 2 ^ 16
  ist := q / 2 ^ 32 % 2 ^ 3
  afterIst := q / 2 ^ 35 % 2 ^ 5
  type := q / 2 ^ 40 % 2 ^ 4
  afterType := q / 2 ^ 44 % 2
  dpl := q / 2 ^ 45 % 2 ^ 2
  present := q / 2 ^ 47 % 2
  reserved := q / 2 ^ 96 % 2 ^ 32

/-- A present gate of ring 0 that masks interrupts, without a stack of its own, to code of the kernel. -/
def Gate.interrupt (offset : Nat) : Gate where
  offset
  selector := 0x08
  ist := 0
  afterIst := 0
  type := 0xE
  afterType := 0
  dpl := 0
  present := 1
  reserved := 0

/-- An address in the table that the register describes. -/
def Idtr.Covers (r : Idtr) (k : Nat) : Prop := r.base ≤ k ∧ k ≤ r.base + r.limit

/-- A gate of the table as a number. -/
def idtSlot (l : IdtLayout) (m : Nat → UInt8) (i : Nat) : Nat := littleEndian m (l.idtTable + 16 * i) 16

/-! ## One gate -/

theorem IdtDescriptor64.value_lt (d : IdtDescriptor64) : d.value < 256 ^ 16 := by
  have h1 := d.offsetLow.toNat_lt
  have h2 := d.selector.toNat_lt
  have h3 := d.ist.toNat_lt
  have h4 := d.typeAttr.toNat_lt
  have h5 := d.offsetMid.toNat_lt
  have h6 := d.offsetHigh.toNat_lt
  have h7 := d.reserved.toNat_lt
  unfold value
  omega

/-- The number of a gate by the parts of its address. -/
theorem idtEntry_value (isrAddr : UInt64) : (idtEntry isrAddr IDT_FLAG_INTERRUPT_GATE 0).value =
    isrAddr.toNat % 2 ^ 16 + 2 ^ 16 * 0x08 + 2 ^ 40 * 0x8E + 2 ^ 48 * (isrAddr.toNat / 2 ^ 16 % 2 ^ 16) +
      2 ^ 64 * (isrAddr.toNat / 2 ^ 32) := by
  unfold IdtDescriptor64.value idtEntry
  simp only
  rw [Field.uint16_low64, Field.uint16_field64 isrAddr (k := 16) (by decide), Field.uint32_high64]
  rfl

/-- A gate is read back from the pieces that its address is stored in. -/
theorem Gate.decode_pieces {low mid high : Nat} (hlow : low < 2 ^ 16) (hmid : mid < 2 ^ 16) (hhigh : high < 2 ^ 32) :
    decode (low + 2 ^ 16 * 0x08 + 2 ^ 40 * 0x8E + 2 ^ 48 * mid + 2 ^ 64 * high) =
      interrupt (low + 2 ^ 16 * mid + 2 ^ 32 * high) := by
  unfold decode interrupt
  congr 1 <;> omega

/-- The gate leads to the address that it was made for. -/
theorem idtEntry_decode (isrAddr : UInt64) :
    Gate.decode (idtEntry isrAddr IDT_FLAG_INTERRUPT_GATE 0).value = Gate.interrupt isrAddr.toNat := by
  have haddr := isrAddr.toNat_lt
  rw [idtEntry_value, Gate.decode_pieces (by omega) (by omega) (by omega)]
  congr 1
  omega

variable {l : IdtLayout} {m m' : Nat → UInt8}

/-- `set_idt_entry` writes its gate and no other byte. -/
theorem setIdtEntry_spec (index : Nat) (isrAddr : UInt64) (flags ist : UInt8) (m : Nat → UInt8) :
    idtSlot l (setIdtEntry l index isrAddr flags ist m) index = (idtEntry isrAddr flags ist).value ∧
      Frame [(l.idtTable + 16 * index, 16)] m (setIdtEntry l index isrAddr flags ist m) := by
  refine ⟨?_, Frame.blitNum (List.mem_singleton_self _) (Nat.le_refl _) (Nat.le_refl _) _ m⟩
  exact (littleEndian_blitNum ..).trans (Nat.mod_eq_of_lt (IdtDescriptor64.value_lt _))

/-! ## The table -/

/-- What is written to the table leaves the stub table as it is. -/
theorem idtStub_frame (h : Frame [(l.idtTable, sizeofIdtTable)] m m') {i : Nat} (hi : i < IDT_DESCRIPTORS) :
    idtStub l m' i = idtStub l m i := by
  have hapart : Apart l.idtTable sizeofIdtTable (l.idtStubTable + 8 * i) 8 := by
    have hwhole := l.stubs_apart
    simp only [Apart, IDT_DESCRIPTORS, sizeofIdtTable] at hwhole hi ⊢
    omega
  unfold idtStub
  rw [littleEndian_congr (h.apart hapart)]

/-- The gates before `n` lead to their stubs, and the rest of the memory is as before. -/
structure Filled (l : IdtLayout) (m m' : Nat → UInt8) (n : Nat) : Prop where
  gates : ∀ i < n, Gate.decode (idtSlot l m' i) = Gate.interrupt (idtStub l m i).toNat
  frame : Frame [(l.idtTable, sizeofIdtTable)] m m'

/-- One round of the loop fills one more gate. -/
theorem Filled.next {n : Nat} (h : Filled l m m' n) (hn : n < IDT_DESCRIPTORS) :
    Filled l m (setIdtEntry l n (idtStub l m' n) IDT_FLAG_INTERRUPT_GATE 0 m') (n + 1) := by
  obtain ⟨hset, hframe⟩ := setIdtEntry_spec (l := l) n (idtStub l m' n) IDT_FLAG_INTERRUPT_GATE 0 m'
  refine ⟨fun i hi => ?_, h.frame.trans (hframe.widen fun r hr => ?_)⟩
  · by_cases hin : i = n
    · subst hin
      rw [hset, idtEntry_decode, idtStub_frame h.frame hn]
    · have hkept : idtSlot l (setIdtEntry l n (idtStub l m' n) IDT_FLAG_INTERRUPT_GATE 0 m') i = idtSlot l m' i := by
        refine littleEndian_congr (hframe.apart ?_)
        unfold Apart
        omega
      rw [hkept]
      exact h.gates i (by omega)
  · obtain rfl := List.mem_singleton.1 hr
    refine ⟨_, List.mem_singleton_self _, Nat.le_add_right _ _, ?_⟩
    simp only [IDT_DESCRIPTORS, sizeofIdtTable] at hn ⊢
    omega

theorem filled_idtFill (l : IdtLayout) (m : Nat → UInt8) : Filled l m (idtFill l m) IDT_DESCRIPTORS :=
  forUp_inv (fun n m' => Filled l m m' n) (Nat.zero_le _) (fun _ _ _ hn h => h.next hn)
    ⟨fun i hi => absurd hi (Nat.not_lt_zero i), Frame.refl _ m⟩

/-! ## The register -/

section Metadata

variable (a : Nat) (d : IdtMetadata) (m : Nat → UInt8)

theorem IdtMetadata.limit_stored : littleEndian (blitNum a 10 d.value m) a 2 = d.limit.toNat := by
  have hlimit := d.limit.toNat_lt
  have hslice := littleEndian_slice (blitNum a 10 d.value m) a (show 0 + 2 ≤ 10 by omega)
  rw [littleEndian_blitNum, Nat.add_zero] at hslice
  rw [← hslice]
  unfold value
  omega

theorem IdtMetadata.base_stored : littleEndian (blitNum a 10 d.value m) (a + 2) 8 = d.base.toNat := by
  have hlimit := d.limit.toNat_lt
  have hbase := d.base.toNat_lt
  have hslice := littleEndian_slice (blitNum a 10 d.value m) a (show 2 + 8 ≤ 10 by omega)
  rw [littleEndian_blitNum] at hslice
  rw [← hslice]
  unfold value
  omega

theorem idtLoad_blitNum : idtLoad a (blitNum a 10 d.value m) = ⟨d.limit.toNat, d.base.toNat⟩ := by
  unfold idtLoad
  rw [d.limit_stored, d.base_stored]

end Metadata

/-- The register describes the bytes of the table and no other. -/
theorem idtInit_covers (l : IdtLayout) (m : Nat → UInt8) (k : Nat) :
    (idtInit l m).1.Covers k ↔ l.idtTable ≤ k ∧ k < l.idtTable + sizeofIdtTable := by
  have hload := idtLoad_blitNum l.idtMetadata ⟨UInt16.ofNat (sizeofIdtTable - 1), UInt64.ofNat l.idtTable⟩ (idtFill l m)
  rw [UInt64.toNat_ofNat_of_lt' l.table_lt] at hload
  have hreg : (idtInit l m).1 = ⟨4095, l.idtTable⟩ := hload
  rw [hreg]
  unfold Idtr.Covers
  simp only [sizeofIdtTable]
  omega

/-- A write apart from the table leaves its gates as they are. -/
theorem idtSlot_blitNum {a n : Nat} (h : Apart a n l.idtTable sizeofIdtTable) (x : Nat) (m : Nat → UInt8) {i : Nat}
    (hi : i < IDT_DESCRIPTORS) : idtSlot l (blitNum a n x m) i = idtSlot l m i := by
  simp only [Apart, sizeofIdtTable, IDT_DESCRIPTORS] at h hi
  unfold idtSlot blitNum
  exact littleEndian_blit_outside (by omega) _ m

/-- Whatever the stub table holds and the table held before, `idt_init` leaves in each of the 256 entries a
present interrupt gate of ring 0 to its stub in the kernel's code segment, with IST 0 and the reserved bits zero,
and loads the register with these entries and no other byte. -/
theorem idt_init_gates (l : IdtLayout) (m : Nat → UInt8) :
    (∀ i : Fin IDT_DESCRIPTORS, Gate.decode (idtSlot l (idtInit l m).2 i) = Gate.interrupt (idtStub l m i).toNat) ∧
      ∀ k, (idtInit l m).1.Covers k ↔
        ∃ i : Fin IDT_DESCRIPTORS, l.idtTable + 16 * i ≤ k ∧ k < l.idtTable + 16 * (i + 1) := by
  constructor
  · intro i
    rw [← (filled_idtFill l m).gates i i.isLt]
    exact congrArg Gate.decode (idtSlot_blitNum l.metadata_apart _ _ i.isLt)
  · intro k
    rw [idtInit_covers]
    constructor
    · rintro ⟨hlo, hhi⟩
      have hentry : (k - l.idtTable) / 16 < IDT_DESCRIPTORS := by
        simp only [sizeofIdtTable, IDT_DESCRIPTORS] at hhi ⊢
        omega
      exact ⟨⟨_, hentry⟩, by simp only; omega, by simp only; omega⟩
    · rintro ⟨⟨i, hi⟩, hlo, hhi⟩
      simp only [sizeofIdtTable, IDT_DESCRIPTORS] at hi hlo hhi ⊢
      omega

/-- The tables where a kernel loaded at `0x90000` may have them. -/
def sampleIdtLayout : IdtLayout where
  idtTable := 0x99000
  idtStubTable := 0x90800
  idtMetadata := 0x7FFC0
  table_lt := by decide
  stubs_apart := by decide
  metadata_apart := by decide

/-- The stub of the double fault, at an address with both halves in use. -/
theorem idt_init_gates_double_fault : Gate.decode (idtSlot sampleIdtLayout
    (idtInit sampleIdtLayout (blitNum (0x90800 + 8 * 8) 8 0x1122334455667788 fun _ => 0)).2 8) =
      Gate.interrupt 0x1122334455667788 := by
  have hgate := (idt_init_gates sampleIdtLayout (blitNum (0x90800 + 8 * 8) 8 0x1122334455667788 fun _ => 0)).1 8
  have hstub : littleEndian (blitNum (0x90800 + 8 * 8) 8 0x1122334455667788 fun _ => 0) (0x90800 + 8 * 8) 8 =
      0x1122334455667788 := littleEndian_blitNum ..
  refine hgate.trans ?_
  unfold idtStub
  exact congrArg (fun n => Gate.interrupt (UInt64.ofNat n).toNat) hstub

end SnakeOS.Arch
