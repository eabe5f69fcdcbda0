/-
arch/x86/gdt.c: the table of segment descriptors that `gdt_init` builds for `gdt_load`. The user data
descriptor is written over the user code descriptor, and the slot meant for it is never written.
-/
import SnakeOS.Kernel.Util
import SnakeOS.Lib.Field

namespace SnakeOS.Arch

open C Kernel Mem

/-! ## Descriptors -/

abbrev DESC_P : UInt8 := 0x80
abbrev DESC_DPL3 : UInt8 := 0x60
abbrev DESC_S : UInt8 := 0x10
abbrev DESC_EXEC : UInt8 := 0x08
abbrev DESC_RW : UInt8 := 0x02
abbrev DESC_GRAN_4K : UInt8 := 0x80
abbrev DESC_LONG_64 : UInt8 := 0x20
abbrev GDT_FLAGS_CODE64 : UInt8 := DESC_LONG_64 ||| DESC_GRAN_4K
abbrev GDT_FLAGS_DATA : UInt8 := DESC_GRAN_4K
abbrev GDT_KERNEL_CODE : UInt8 := DESC_P ||| DESC_S ||| DESC_EXEC ||| DESC_RW
abbrev GDT_KERNEL_DATA : UInt8 := DESC_P ||| DESC_S ||| DESC_RW
abbrev GDT_USER_CODE : UInt8 := DESC_P ||| DESC_S ||| DESC_EXEC ||| DESC_RW ||| DESC_DPL3
abbrev GDT_USER_DATA : UInt8 := DESC_P ||| DESC_S ||| DESC_RW ||| DESC_DPL3
abbrev TSS_AVAIL_64 : UInt8 := 0x09
abbrev TSS_DESC_ACCESS : UInt8 := DESC_P ||| TSS_AVAIL_64
abbrev GDT_ENTRY_COUNT : Nat := 7

structure GdtSegDesc where
  limitLow : UInt16
  baseLow : UInt16
  baseMid : UInt8
  accessBytes : UInt8
  flagsAndLimitHigh : UInt8
  baseHigh : UInt8
  deriving DecidableEq, Repr

/-- The number in the eight bytes of the packed structure. -/
def GdtSegDesc.value (d : GdtSegDesc) : Nat :=
  d.limitLow.toNat + 2 ^ 16 * d.baseLow.toNat + 2 ^ 32 * d.baseMid.toNat + 2 ^ 40 * d.accessBytes.toNat +
    2 ^ 48 * d.flagsAndLimitHigh.toNat + 2 ^ 56 * d.baseHigh.toNat

structure GdtSysDesc where
  limitLow : UInt16
  baseLow : UInt16
  baseMid : UInt8
  access : UInt8
  gran : UInt8
  baseHigh : UInt8
  baseUpper : UInt32
  reserved : UInt32
  deriving DecidableEq, Repr

/-- The number in the sixteen bytes of the packed structure. -/
def GdtSysDesc.value (d : GdtSysDesc) : Nat :=
  d.limitLow.toNat + 2 ^ 16 * d.baseLow.toNat + 2 ^ 32 * d.baseMid.toNat + 2 ^ 40 * d.access.toNat +
    2 ^ 48 * d.gran.toNat + 2 ^ 56 * d.baseHigh.toNat + 2 ^ 64 * d.baseUpper.toNat + 2 ^ 96 * d.reserved.toNat

def gdtGenerateSysDesc (base : UInt64) (limit : UInt32) : GdtSysDesc where
  limitLow := (limit &&& 0xFFFF).toUInt16
  baseLow := (base &&& 0xFFFF).toUInt16
  baseMid := ((base >>> 16) &&& 0xFF).toUInt8
  access := TSS_DESC_ACCESS
  gran := ((limit >>> 16) &&& 0x0F).toUInt8
  baseHigh := ((base >>> 24) &&& 0xFF).toUInt8
  baseUpper := ((base >>> 32) &&& 0xFFFFFFFF).toUInt32
  reserved := 0

def gdtGenerateSegDesc (base limit : UInt32) (access flags : UInt8) : Except Fault GdtSegDesc :=
  if limit > 0xFFFFF then .error (.halt (Byte.text "Invalid gdt entry \n"))
  else .ok {
    limitLow := (limit &&& 0xFFFF).toUInt16
    baseLow := (base &&& 0xFFFF).toUInt16
    baseMid := ((base >>> 16) &&& 0xFF).toUInt8
    accessBytes := access
    flagsAndLimitHigh := (flags &&& (0xF0 : UInt8)) ||| ((limit >>> 16) &&& 0x0F).toUInt8
    baseHigh := ((base >>> 24) &&& 0xFF).toUInt8 }

/-! ## The table -/

/-- `sizeof(struct tss_64)`. -/
abbrev sizeofTss : Nat := 104

/-- Where the static objects and the locals of `gdt_init` are; the table shares no byte with those
that are written. -/
structure GdtLayout where
  gdtTable : Nat
  tss : Nat
  emergencyStack : Nat
  kernelStack : Nat
  s : Nat
  sys : Nat
  gdtMeta : Nat
  tss_lt : tss < 2 ^ 64
  tss_apart : Apart tss sizeofTss gdtTable (8 * GDT_ENTRY_COUNT)
  s_apart : Apart s 8 gdtTable (8 * GDT_ENTRY_COUNT)
  sys_apart : Apart sys 16 gdtTable (8 * GDT_ENTRY_COUNT)
  gdtMeta_apart : Apart gdtMeta 10 gdtTable (8 * GDT_ENTRY_COUNT)

def gdtSetSeg (l : GdtLayout) (idx : Nat) (d : Nat) (m : Nat → UInt8) : Nat → UInt8 :=
  (memcopy (l.gdtTable + 8 * idx) d 8 m).2

def gdtSetSys (l : GdtLayout) (idx : Nat) (d : Nat) (m : Nat → UInt8) : Nat → UInt8 :=
  (memcopy (l.gdtTable + 8 * idx) d 16 m).2

/-- An assignment to `s` and `gdt_set_seg(idx, &s)`. -/
def gdtAssignSeg (l : GdtLayout) (idx : Nat) (d : GdtSegDesc) (m : Nat → UInt8) : Nat → UInt8 :=
  gdtSetSeg l idx l.s (blitNum l.s 8 d.value m)

/-- The memory of `gdt_init` at the call of `gdt_load`. -/
def gdtInit (l : GdtLayout) (m : Nat → UInt8) : Except Fault (Nat → UInt8) := do
  -- init TSS
  let m := (memset l.tss 0 sizeofTss m).2
  let m := blitNum (l.tss + 4) 8 (l.kernelStack + 16384) m
  let m := blitNum (l.tss + 36) 8 (l.emergencyStack + 4096) m
  let m := blitNum (l.tss + 102) 2 sizeofTss m
  -- GDT entries
  let s ← gdtGenerateSegDesc 0 0 0 0
  let m := gdtAssignSeg l 0 s m
  let s ← gdtGenerateSegDesc 0 0xFFFFF GDT_KERNEL_CODE GDT_FLAGS_CODE64
  let m := gdtAssignSeg l 1 s m
  let s ← gdtGenerateSegDesc 0 0xFFFFF GDT_KERNEL_DATA GDT_FLAGS_DATA
  let m := gdtAssignSeg l 2 s m
  let s ← gdtGenerateSegDesc 0 0xFFFFF GDT_USER_CODE GDT_FLAGS_CODE64
  let m := gdtAssignSeg l 3 s m
  let s ← gdtGenerateSegDesc 0 0xFFFFF GDT_USER_DATA GDT_FLAGS_DATA
  let m := gdtAssignSeg l 3 s m
  -- the descriptor of the TSS is two slots
  let sys := gdtGenerateSysDesc (UInt64.ofNat l.tss) (UInt32.ofNat (sizeofTss - 1))
  let m := blitNum l.sys 16 sys.value m
  let m := (memcopy (l.gdtTable + 8 * 5) l.sys 16 m).2
  return blitNum l.gdtMeta 10 (8 * GDT_ENTRY_COUNT - 1 + 2 ^ 16 * l.gdtTable) m

/-! ## Descriptors as the processor reads them -/

/-- What a segment descriptor says: its base, its limit, the access byte and the four flags. -/
structure Descriptor where
  base : Nat
  limit : Nat
  access : Nat
  flags : Nat
  deriving DecidableEq, Repr

namespace Descriptor

def decode (q : Nat) : Descriptor where
  base := q / 2 ^ 16 % 2 ^ 24 + 2 ^ 24 * (q / 2 ^ 56 % 2 ^ 8)
  limit := q % 2 ^ 16 + 2 ^ 16 * (q / 2 ^ 48 % 2 ^ 4)
  access := q / 2 ^ 40 % 2 ^ 8
  flags := q / 2 ^ 52 % 2 ^ 4

def present (d : Descriptor) : Bool := d.access.testBit 7
def dpl (d : Descriptor) : Nat := d.access / 2 ^ 5 % 4
def codeOrData (d : Descriptor) : Bool := d.access.testBit 4
def executable (d : Descriptor) : Bool := d.access.testBit 3
def writable (d : Descriptor) : Bool := d.access.testBit 1
def long (d : Descriptor) : Bool := d.flags.testBit 1

/-- A present segment of the whole address space. -/
structure IsFlat (d : Descriptor) (dpl : Nat) : Prop where
  present : d.present
  codeOrData : d.codeOrData
  dpl : d.dpl = dpl
  base : d.base = 0
  limit : d.limit = 0xFFFFF

structure IsCode64 (d : Descriptor) (dpl : Nat) : Prop extends IsFlat d dpl where
  executable : d.executable
  long : d.long

structure IsData (d : Descriptor) (dpl : Nat) : Prop extends IsFlat d dpl where
  not_executable : d.executable = false
  writable : d.writable

/-- The two slots of an available 64-bit TSS. -/
structure IsTss (lo hi : Nat) (base limit : Nat) : Prop where
  access : (decode lo).access = 0x89
  base : (decode lo).base + 2 ^ 32 * (hi % 2 ^ 32) = base
  limit : (decode lo).limit = limit
  reserved : hi / 2 ^ 32 = 0

end Descriptor

/-- A slot of the table as a number. -/
def gdtSlot (l : GdtLayout) (m : Nat → UInt8) (idx : Nat) : Nat := littleEndian m (l.gdtTable + 8 * idx) 8

/-- Where a slot of the table is. -/
def slotAt (l : GdtLayout) (idx : Nat) : Nat := l.gdtTable + 8 * idx

/-- The table holds the six descriptors. -/
structure TableRight (l : GdtLayout) (m : Nat → UInt8) : Prop where
  null : gdtSlot l m 0 = 0
  kernelCode : (Descriptor.decode (gdtSlot l m 1)).IsCode64 0
  kernelData : (Descriptor.decode (gdtSlot l m 2)).IsData 0
  userCode : (Descriptor.decode (gdtSlot l m 3)).IsCode64 3
  userData : (Descriptor.decode (gdtSlot l m 4)).IsData 3
  tss : Descriptor.IsTss (gdtSlot l m 5) (gdtSlot l m 6) l.tss (sizeofTss - 1)

/-! ## Writes to the table -/

theorem GdtSegDesc.value_lt (d : GdtSegDesc) : d.value < 256 ^ 8 := by
  have h1 := d.limitLow.toNat_lt
  have h2 := d.baseLow.toNat_lt
  have h3 := d.baseMid.toNat_lt
  have h4 := d.accessBytes.toNat_lt
  have h5 := d.flagsAndLimitHigh.toNat_lt
  have h6 := d.baseHigh.toNat_lt
  unfold value
  omega

theorem GdtSysDesc.value_lt (d : GdtSysDesc) : d.value < 256 ^ 16 := by
  have h1 := d.limitLow.toNat_lt
  have h2 := d.baseLow.toNat_lt
  have h3 := d.baseMid.toNat_lt
  have h4 := d.access.toNat_lt
  have h5 := d.gran.toNat_lt
  have h6 := d.baseHigh.toNat_lt
  have h7 := d.baseUpper.toNat_lt
  have h8 := d.reserved.toNat_lt
  unfold value
  omega

variable {l : GdtLayout}

theorem gdtSetSeg_spec {idx d : Nat} (h : Apart d 8 (slotAt l idx) 8) (m : Nat → UInt8) :
    gdtSlot l (gdtSetSeg l idx d m) idx = littleEndian m d 8 ∧ Frame [(slotAt l idx, 8)] m (gdtSetSeg l idx d m) := by
  obtain ⟨hcopied, hframe⟩ := memcopy_spec h m
  exact ⟨littleEndian_congr hcopied, hframe⟩

theorem gdtSetSys_spec {idx d : Nat} (h : Apart d 16 (slotAt l idx) 16) (m : Nat → UInt8) :
    gdtSlot l (gdtSetSys l idx d m) idx = littleEndian m d 16 % 2 ^ 64 ∧
      gdtSlot l (gdtSetSys l idx d m) (idx + 1) = littleEndian m d 16 / 2 ^ 64 ∧
      Frame [(slotAt l idx, 16)] m (gdtSetSys l idx d m) := by
  obtain ⟨hcopied, hframe⟩ := memcopy_spec h m
  have hwhole : littleEndian (gdtSetSys l idx d m) (slotAt l idx) 16 = littleEndian m d 16 := littleEndian_congr hcopied
  have hlow := littleEndian_slice (gdtSetSys l idx d m) (slotAt l idx) (show 0 + 8 ≤ 16 by omega)
  have hhigh := littleEndian_slice (gdtSetSys l idx d m) (slotAt l idx) (show 8 + 8 ≤ 16 by omega)
  have hlt := littleEndian_lt m d 16
  rw [hwhole] at hlow hhigh
  refine ⟨?_, ?_, hframe⟩
  · rw [Nat.pow_zero, Nat.div_one] at hlow
    exact hlow.symm
  · rw [Nat.mod_eq_of_lt (by omega)] at hhigh
    exact hhigh.symm

/-- A write apart from the table leaves its slots as they are. -/
theorem slot_blit {a n : Nat} (h : Apart a n l.gdtTable (8 * GDT_ENTRY_COUNT)) (f m : Nat → UInt8) {j : Nat}
    (hj : j < GDT_ENTRY_COUNT) : gdtSlot l (blit a n f m) j = gdtSlot l m j := by
  simp only [GDT_ENTRY_COUNT] at hj h
  refine littleEndian_blit_outside ?_ f m
  rcases h with h | h
  · exact Or.inr (by omega)
  · exact Or.inl (by omega)

/-- `gdt_set_seg` writes its slot and no other. -/
theorem slot_gdtAssignSeg {idx j : Nat} (hidx : idx < GDT_ENTRY_COUNT) (hj : j < GDT_ENTRY_COUNT) (d : GdtSegDesc)
    (m : Nat → UInt8) : gdtSlot l (gdtAssignSeg l idx d m) j = if j = idx then d.value else gdtSlot l m j := by
  have hapart : Apart l.s 8 (slotAt l idx) 8 := by
    have hs := l.s_apart
    simp only [Apart, GDT_ENTRY_COUNT, slotAt] at hidx hs ⊢
    omega
  obtain ⟨hslot, hframe⟩ := gdtSetSeg_spec hapart (blitNum l.s 8 d.value m)
  split
  · rename_i heq
    subst heq
    exact hslot.trans ((littleEndian_blitNum ..).trans (Nat.mod_eq_of_lt d.value_lt))
  · have hne : gdtSlot l (blitNum l.s 8 d.value m) j = gdtSlot l m j := slot_blit l.s_apart _ m hj
    rw [← hne]
    refine littleEndian_congr (hframe.apart ?_)
    unfold Apart slotAt
    omega

/-- The copy of `sys` writes the slots 5 and 6 and no other. -/
theorem slot_copySys {j : Nat} (hj : j < GDT_ENTRY_COUNT) (d : GdtSysDesc) (m : Nat → UInt8) :
    gdtSlot l (memcopy (l.gdtTable + 8 * 5) l.sys 16 (blitNum l.sys 16 d.value m)).2 j =
      if j = 5 then d.value % 2 ^ 64 else if j = 6 then d.value / 2 ^ 64 else gdtSlot l m j := by
  have hapart : Apart l.sys 16 (slotAt l 5) 16 := by
    have hsys := l.sys_apart
    simp only [Apart, GDT_ENTRY_COUNT, slotAt] at hsys ⊢
    omega
  have hvalue : littleEndian (blitNum l.sys 16 d.value m) l.sys 16 = d.value :=
    (littleEndian_blitNum ..).trans (Nat.mod_eq_of_lt d.value_lt)
  obtain ⟨hlow, hhigh, hframe⟩ := gdtSetSys_spec hapart (blitNum l.sys 16 d.value m)
  rw [hvalue] at hlow hhigh
  split
  · rename_i heq
    subst heq
    exact hlow
  · split
    · rename_i heq
      subst heq
      exact hhigh
    · have hne : gdtSlot l (blitNum l.sys 16 d.value m) j = gdtSlot l m j := slot_blit l.sys_apart _ m hj
      rw [← hne]
      simp only [GDT_ENTRY_COUNT] at hj
      refine littleEndian_congr (hframe.apart ?_)
      unfold Apart slotAt
      omega

/-- The writes of `gdt_init` before and after the descriptors leave the table as it is. -/
theorem slot_initTss (m : Nat → UInt8) {j : Nat} (hj : j < GDT_ENTRY_COUNT) :
    gdtSlot l (blitNum (l.tss + 102) 2 sizeofTss (blitNum (l.tss + 36) 8 (l.emergencyStack + 4096)
      (blitNum (l.tss + 4) 8 (l.kernelStack + 16384) (memset l.tss 0 sizeofTss m).2))) j = gdtSlot l m j := by
  have htss := l.tss_apart
  have hin : ∀ {a n}, l.tss ≤ a → a + n ≤ l.tss + sizeofTss → Apart a n l.gdtTable (8 * GDT_ENTRY_COUNT) := by
    intro a n h1 h2
    unfold Apart at htss ⊢
    omega
  have hset : (memset l.tss 0 sizeofTss m).2 = blit l.tss sizeofTss (fun _ => 0) m := memsetLoop_eq ..
  unfold blitNum
  rw [hset, slot_blit (hin (by omega) (by simp only [sizeofTss]; omega)) _ _ hj,
    slot_blit (hin (by omega) (by simp only [sizeofTss]; omega)) _ _ hj,
    slot_blit (hin (by omega) (by simp only [sizeofTss]; omega)) _ _ hj, slot_blit htss _ _ hj]

/-! ## The slots at `gdt_load` -/

/-- The descriptors of `gdt_init`, by the access byte and the flags. -/
def flatDesc (access flags : UInt8) : GdtSegDesc := ⟨0xFFFF, 0, 0, access, (flags &&& 0xF0) ||| 0x0F, 0⟩

/-- The descriptor of the TSS. -/
def tssDesc (l : GdtLayout) : GdtSysDesc := gdtGenerateSysDesc (UInt64.ofNat l.tss) (UInt32.ofNat (sizeofTss - 1))

theorem gdtGenerateSegDesc_flat (access flags : UInt8) :
    gdtGenerateSegDesc 0 0xFFFFF access flags = .ok (flatDesc access flags) := rfl

theorem gdtGenerateSegDesc_null : gdtGenerateSegDesc 0 0 0 0 = .ok ⟨0, 0, 0, 0, 0, 0⟩ := rfl

/-- What a slot holds in the end, given what it held before. -/
def slotLoaded (l : GdtLayout) (j old : Nat) : Nat :=
  if j = 5 then (tssDesc l).value % 2 ^ 64
  else if j = 6 then (tssDesc l).value / 2 ^ 64
  else if j = 3 then (flatDesc GDT_USER_DATA GDT_FLAGS_DATA).value
  else if j = 2 then (flatDesc GDT_KERNEL_DATA GDT_FLAGS_DATA).value
  else if j = 1 then (flatDesc GDT_KERNEL_CODE GDT_FLAGS_CODE64).value
  else if j = 0 then 0
  else old

/-- The slots at the call of `gdt_load`. -/
theorem gdtInit_slots (l : GdtLayout) (m : Nat → UInt8) : ∃ m', gdtInit l m = .ok m' ∧
    ∀ j < GDT_ENTRY_COUNT, gdtSlot l m' j = slotLoaded l j (gdtSlot l m j) := by
  unfold gdtInit
  simp only [gdtGenerateSegDesc_null, gdtGenerateSegDesc_flat, ok_bind, pure_eq_ok]
  refine ⟨_, rfl, fun j hj => ?_⟩
  have hmeta : ∀ (x : Nat) (m : Nat → UInt8), gdtSlot l (blitNum l.gdtMeta 10 x m) j = gdtSlot l m j :=
    fun x m => slot_blit l.gdtMeta_apart _ m hj
  rw [hmeta, slot_copySys hj, slot_gdtAssignSeg (by decide) hj, slot_gdtAssignSeg (by decide) hj,
    slot_gdtAssignSeg (by decide) hj, slot_gdtAssignSeg (by decide) hj, slot_gdtAssignSeg (by decide) hj,
    slot_initTss _ hj]
  unfold slotLoaded tssDesc
  -- the second write to slot 3 is the one that stays
  by_cases h3 : j = 3
  · simp only [h3, if_true]
  · simp only [h3, if_false]
    rfl

/-! ## The right slots -/

/-- A descriptor is read back from the pieces that its base and its limit are stored in. -/
theorem Descriptor.decode_pieces {n0 n1 b0 b1 b2 access flags : Nat} (hn0 : n0 < 2 ^ 16) (hn1 : n1 < 2 ^ 4)
    (hb0 : b0 < 2 ^ 16) (hb1 : b1 < 2 ^ 8) (hb2 : b2 < 2 ^ 8) (ha : access < 2 ^ 8) (hf : flags < 2 ^ 4) :
    decode (n0 + 2 ^ 16 * b0 + 2 ^ 32 * b1 + 2 ^ 40 * access + 2 ^ 48 * (n1 + 2 ^ 4 * flags) + 2 ^ 56 * b2) =
      ⟨b0 + 2 ^ 16 * b1 + 2 ^ 24 * b2, n0 + 2 ^ 16 * n1, access, flags⟩ := by
  unfold decode
  congr 1 <;> omega

/-- The number of a system descriptor by the parts of its base and its limit. -/
theorem gdtGenerateSysDesc_value (base : UInt64) (limit : UInt32) :
    (gdtGenerateSysDesc base limit).value = limit.toNat % 2 ^ 16 + 2 ^ 16 * (base.toNat % 2 ^ 16) +
      2 ^ 32 * (base.toNat / 2 ^ 16 % 2 ^ 8) + 2 ^ 40 * 0x89 + 2 ^ 48 * (limit.toNat / 2 ^ 16 % 2 ^ 4) +
      2 ^ 56 * (base.toNat / 2 ^ 24 % 2 ^ 8) + 2 ^ 64 * (base.toNat / 2 ^ 32) := by
  unfold gdtGenerateSysDesc GdtSysDesc.value
  rw [Field.uint16_low32, Field.uint16_low64, Field.nibble_field32 limit (by decide),
    Field.uint8_field64 base (k := 16) (by decide), Field.uint8_field64 base (k := 24) (by decide), Field.uint32_high64]
  rfl

/-- The two slots of a system descriptor are those of an available TSS with its base and limit. -/
theorem gdtGenerateSysDesc_isTss (base : UInt64) {limit : UInt32} (h : limit.toNat ≤ 0xFFFFF) :
    Descriptor.IsTss ((gdtGenerateSysDesc base limit).value % 2 ^ 64) ((gdtGenerateSysDesc base limit).value / 2 ^ 64)
      base.toNat limit.toNat := by
  have hbase := base.toNat_lt
  rw [gdtGenerateSysDesc_value]
  have hpieces := @Descriptor.decode_pieces (limit.toNat % 2 ^ 16) (limit.toNat / 2 ^ 16 % 2 ^ 4) (base.toNat % 2 ^ 16)
    (base.toNat / 2 ^ 16 % 2 ^ 8) (base.toNat / 2 ^ 24 % 2 ^ 8) 0x89 0 (by omega) (by omega) (by omega) (by omega)
    (by omega) (by omega) (by omega)
  set lo := limit.toNat % 2 ^ 16 + 2 ^ 16 * (base.toNat % 2 ^ 16) + 2 ^ 32 * (base.toNat / 2 ^ 16 % 2 ^ 8) +
    2 ^ 40 * 0x89 + 2 ^ 48 * (limit.toNat / 2 ^ 16 % 2 ^ 4) + 2 ^ 56 * (base.toNat / 2 ^ 24 % 2 ^ 8) with hlo
  have hlt : lo < 2 ^ 64 := by omega
  rw [Nat.add_mul_mod_self_left, Nat.mod_eq_of_lt hlt, Nat.add_mul_div_left _ _ (by norm_num), Nat.div_eq_of_lt hlt,
    Nat.zero_add]
  rw [Nat.mul_zero, Nat.add_zero, ← hlo] at hpieces
  constructor
  · rw [hpieces]
  · rw [hpieces]
    show base.toNat % 2 ^ 16 + 2 ^ 16 * (base.toNat / 2 ^ 16 % 2 ^ 8) + 2 ^ 24 * (base.toNat / 2 ^ 24 % 2 ^ 8) +
      2 ^ 32 * (base.toNat / 2 ^ 32 % 2 ^ 32) = base.toNat
    omega
  · rw [hpieces]
    show limit.toNat % 2 ^ 16 + 2 ^ 16 * (limit.toNat / 2 ^ 16 % 2 ^ 4) = limit.toNat
    omega
  · omega

theorem isCode64_kernelCode :
    (Descriptor.decode (flatDesc GDT_KERNEL_CODE GDT_FLAGS_CODE64).value).IsCode64 0 := by
  constructor
  · constructor <;> decide
  · decide
  · decide

theorem isData_kernelData : (Descriptor.decode (flatDesc GDT_KERNEL_DATA GDT_FLAGS_DATA).value).IsData 0 := by
  constructor
  · constructor <;> decide
  · decide
  · decide

/-- The slots that are not the user's are right. -/
theorem gdtInit_kernel_slots (l : GdtLayout) (m : Nat → UInt8) : ∃ m', gdtInit l m = .ok m' ∧ gdtSlot l m' 0 = 0 ∧
    (Descriptor.decode (gdtSlot l m' 1)).IsCode64 0 ∧ (Descriptor.decode (gdtSlot l m' 2)).IsData 0 ∧
    Descriptor.IsTss (gdtSlot l m' 5) (gdtSlot l m' 6) l.tss (sizeofTss - 1) := by
  obtain ⟨m', hrun, hslots⟩ := gdtInit_slots l m
  have htss := @gdtGenerateSysDesc_isTss (UInt64.ofNat l.tss) (UInt32.ofNat (sizeofTss - 1)) (by decide)
  rw [UInt64.toNat_ofNat_of_lt' l.tss_lt] at htss
  have h5 : gdtSlot l m' 5 = (tssDesc l).value % 2 ^ 64 := (hslots 5 (by decide)).trans (if_pos rfl)
  have h6 : gdtSlot l m' 6 = (tssDesc l).value / 2 ^ 64 :=
    (hslots 6 (by decide)).trans ((if_neg (by decide)).trans (if_pos rfl))
  refine ⟨m', hrun, ?_, ?_, ?_, ?_⟩
  · rw [hslots 0 (by decide)]
    rfl
  · rw [hslots 1 (by decide)]
    exact isCode64_kernelCode
  · rw [hslots 2 (by decide)]
    exact isData_kernelData
  · rw [h5, h6]
    exact htss

/-! ## The user code segment -/

/-- `gdt_init` reaches `gdt_load` with the six descriptors in the table. -/
def GdtLoaded (l : GdtLayout) (m : Nat → UInt8) : Prop := ∃ m', gdtInit l m = .ok m' ∧ TableRight l m'

/-- The user data segment is not one of code. -/
theorem not_isCode64_userData :
    ¬(Descriptor.decode (flatDesc GDT_USER_DATA GDT_FLAGS_DATA).value).IsCode64 3 := by
  intro h
  exact absurd h.executable (by decide)

/-- Wherever the TSS is and whatever the table held before, `gdt_init` does not leave the six
descriptors in the table: the slot of the user code segment holds the user data segment. -/
theorem gdt_init_not_loaded (l : GdtLayout) (m : Nat → UInt8) : ¬GdtLoaded l m := by
  rintro ⟨m', hrun, hright⟩
  obtain ⟨m'', hrun', hslots⟩ := gdtInit_slots l m
  obtain rfl := Except.ok.inj (hrun.symm.trans hrun')
  have hcode := hright.userCode
  rw [hslots 3 (by decide)] at hcode
  exact not_isCode64_userData hcode

/-- The objects where a kernel loaded at `0x90000` may have them. -/
def sampleLayout : GdtLayout where
  gdtTable := 0x98000
  tss := 0x98040
  emergencyStack := 0x99000
  kernelStack := 0x9A000
  s := 0x7FFA0
  sys := 0x7FFB0
  gdtMeta := 0x7FFC0
  tss_lt := by decide
  tss_apart := by decide
  s_apart := by decide
  sys_apart := by decide
  gdtMeta_apart := by decide

/-- On a table of zeroes slot 4 stays null as well. -/
theorem gdt_init_user_slots : ¬GdtLoaded sampleLayout (fun _ => 0) ∧
    ∃ m', gdtInit sampleLayout (fun _ => 0) = .ok m' ∧ gdtSlot sampleLayout m' 4 = 0 := by
  obtain ⟨m', hrun, hslots⟩ := gdtInit_slots sampleLayout fun _ => 0
  refine ⟨fun ⟨m'', hrun', hright⟩ => ?_, m', hrun, ?_⟩
  · obtain rfl := Except.ok.inj (hrun.symm.trans hrun')
    have hcode := hright.userCode
    rw [hslots 3 (by decide)] at hcode
    exact not_isCode64_userData hcode
  · rw [hslots 4 (by decide)]
    decide

end SnakeOS.Arch
