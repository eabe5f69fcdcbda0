/-
arch/x86/gdt.c: descriptors of any base and limit, from the fields that they are packed in to the slots of
`gdt_table`, where the processor reads the same base and limit back.
-/
import SnakeOS.Arch.Gdt

namespace SnakeOS.Arch

open C Kernel Mem

/-! ## Segment descriptors -/

/-- The number of a segment descriptor by the parts of its base, its limit and its flags. -/
theorem gdtGenerateSegDesc_value (base : UInt32) {limit : UInt32} (access flags : UInt8) (h : limit.toNat ≤ 0xFFFFF) :
    ∃ desc, gdtGenerateSegDesc base limit access flags = .ok desc ∧
      desc.value = limit.toNat % 2 ^ 16 + 2 ^ 16 * (base.toNat % 2 ^ 16) + 2 ^ 32 * (base.toNat / 2 ^ 16 % 2 ^ 8) +
        2 ^ 40 * access.toNat + 2 ^ 48 * (limit.toNat / 2 ^ 16 % 2 ^ 4 + 2 ^ 4 * (flags.toNat / 2 ^ 4)) +
        2 ^ 56 * (base.toNat / 2 ^ 24 % 2 ^ 8) := by
  have hlimit : ¬limit > 0xFFFFF := UInt32.not_lt.2 (UInt32.le_iff_toNat_le.2 h)
  have hnibble := Field.nibble_field32 limit (k := 16) (by decide)
  refine ⟨_, if_neg hlimit, ?_⟩
  unfold GdtSegDesc.value
  simp only
  rw [Field.uint16_low32, Field.uint16_low32, Field.uint8_field32 base (k := 16) (by decide),
    Field.uint8_field32 base (k := 24) (by decide), Field.nibbles (by rw [hnibble]; omega), hnibble]
  rfl

/-- The processor reads the base, the limit, the access byte and the flags back. -/
theorem gdtGenerateSegDesc_decode (base : UInt32) {limit : UInt32} (access flags : UInt8) (h : limit.toNat ≤ 0xFFFFF) :
    ∃ desc, gdtGenerateSegDesc base limit access flags = .ok desc ∧
      Descriptor.decode desc.value = ⟨base.toNat, limit.toNat, access.toNat, flags.toNat / 2 ^ 4⟩ := by
  obtain ⟨desc, hdesc, hvalue⟩ := gdtGenerateSegDesc_value base access flags h
  have hbase := base.toNat_lt
  have haccess := access.toNat_lt
  have hflags := flags.toNat_lt
  refine ⟨desc, hdesc, ?_⟩
  rw [hvalue, Descriptor.decode_pieces (by omega) (by omega) (by omega) (by omega) (by omega) haccess (by omega)]
  congr 1
  · omega
  · omega

/-! ## The law -/

/-- The fields of a descriptor are read back from the slot that it is set in, for every base, limit, access byte
and flags; so are those of a TSS from the two slots of its descriptor. Nothing else is written. -/
theorem descriptors_decode (l : GdtLayout) :
    (∀ (base limit : UInt32) (access flags : UInt8) (idx d : Nat) (m : Nat → UInt8), limit.toNat ≤ 0xFFFFF →
      Apart d 8 (slotAt l idx) 8 → ∃ desc, gdtGenerateSegDesc base limit access flags = .ok desc ∧
        (littleEndian m d 8 = desc.value →
          Descriptor.decode (gdtSlot l (gdtSetSeg l idx d m) idx) =
              ⟨base.toNat, limit.toNat, access.toNat, flags.toNat / 2 ^ 4⟩ ∧
            Frame [(slotAt l idx, 8)] m (gdtSetSeg l idx d m))) ∧
    (∀ (base : UInt64) (limit : UInt32) (idx d : Nat) (m : Nat → UInt8), limit.toNat ≤ 0xFFFFF →
      Apart d 16 (slotAt l idx) 16 → littleEndian m d 16 = (gdtGenerateSysDesc base limit).value →
        Descriptor.IsTss (gdtSlot l (gdtSetSys l idx d m) idx) (gdtSlot l (gdtSetSys l idx d m) (idx + 1))
            base.toNat limit.toNat ∧
          Frame [(slotAt l idx, 16)] m (gdtSetSys l idx d m)) := by
  constructor
  · intro base limit access flags idx d m hlimit hapart
    obtain ⟨desc, hdesc, hdecode⟩ := gdtGenerateSegDesc_decode base access flags hlimit
    obtain ⟨hslot, hframe⟩ := gdtSetSeg_spec hapart m
    refine ⟨desc, hdesc, fun hd => ⟨?_, hframe⟩⟩
    rw [hslot, hd, hdecode]
  · intro base limit idx d m hlimit hapart hd
    obtain ⟨hlow, hhigh, hframe⟩ := gdtSetSys_spec hapart m
    refine ⟨?_, hframe⟩
    rw [hlow, hhigh, hd]
    exact gdtGenerateSysDesc_isTss base hlimit

/-- A code segment in slot 3 and a TSS above 4 GiB in the slots 5 and 6, from the locals of `gdt_init`. -/
theorem descriptors_decode_sample :
    (∃ m, Descriptor.decode (gdtSlot sampleLayout (gdtSetSeg sampleLayout 3 0x7FFA0 m) 3) =
      ⟨0x12345678, 0xABCDE, 0x9A, 0xA⟩) ∧
    ∃ m, Descriptor.IsTss (gdtSlot sampleLayout (gdtSetSys sampleLayout 5 0x7FFB0 m) 5)
      (gdtSlot sampleLayout (gdtSetSys sampleLayout 5 0x7FFB0 m) 6) 0x123456789A 103 := by
  constructor
  · let desc : GdtSegDesc := ⟨0xBCDE, 0x5678, 0x34, 0x9A, 0xAA, 0x12⟩
    have hm : littleEndian (blitNum 0x7FFA0 8 desc.value fun _ => 0) 0x7FFA0 8 = desc.value := by
      rw [littleEndian_blitNum]
      exact Nat.mod_eq_of_lt desc.value_lt
    have hfields : gdtGenerateSegDesc 0x12345678 0xABCDE 0x9A 0xA0 = .ok desc := rfl
    obtain ⟨desc', hdesc, hset⟩ := (descriptors_decode sampleLayout).1 0x12345678 0xABCDE 0x9A 0xA0 3 0x7FFA0
      (blitNum 0x7FFA0 8 desc.value fun _ => 0) (by decide) (by decide)
    obtain rfl := Except.ok.inj (hdesc.symm.trans hfields)
    exact ⟨_, (hset hm).1⟩
  · let desc := gdtGenerateSysDesc 0x123456789A 103
    have hm : littleEndian (blitNum 0x7FFB0 16 desc.value fun _ => 0) 0x7FFB0 16 = desc.value := by
      rw [littleEndian_blitNum]
      exact Nat.mod_eq_of_lt desc.value_lt
    exact ⟨_, ((descriptors_decode sampleLayout).2 0x123456789A 103 5 0x7FFB0 _ (by decide) (by decide) hm).1⟩

end SnakeOS.Arch
