/-
boot/x86/stage1/utils_long_mode.asm in stage1: `print_64_bits` stores the position, which stage1 declares with four
bytes, with eight. What the four bytes behind it become; in stage1 they are the start of `start_long_mode`.
-/
import SnakeOS.Boot.Long

namespace SnakeOS.Boot

open Mem

/-- The upper half of the next position, in the four bytes behind the variable. -/
def carryByte (pos i : Nat) : UInt8 := if i = 0 ∧ 2 ^ 32 ≤ pos + 160 then 1 else 0

theorem carryByte_eq {pos i : Nat} (hpos : pos < 2 ^ 32) (hi : i < 4) :
    UInt8.ofNat ((pos + 160) / 256 ^ (4 + i)) = carryByte pos i := by
  unfold carryByte
  split
  · rename_i h
    obtain ⟨rfl, hcarry⟩ := h
    rw [show (pos + 160) / 256 ^ (4 + 0) = 1 by omega]
    rfl
  · rename_i h
    have hzero : (pos + 160) / 256 ^ (4 + i) = 0 := by
      refine Nat.div_eq_of_lt ?_
      by_cases h0 : i = 0
      · subst h0
        omega
      · calc pos + 160 < 256 ^ 5 := by omega
          _ ≤ 256 ^ (4 + i) := Nat.pow_le_pow_right (by omega) (by omega)
    rw [hzero]
    rfl

section

variable {l : Stage1} {pos n : Nat} {s : LongCpu}

/-- A call writes the slots of the stack, the cells and eight bytes, of which the last four are known. -/
theorem PrintCall.behind (h : PrintCall (l.printStringPossition.setWidth 64) pos n s) :
    ∃ s', (∀ fuel, print64Bits (l.printStringPossition.setWidth 64) fuel s = if fuel < n + 1 then none else some s') ∧
      Frame [(l.printStringPossition.toNat, 8), (s.rsp.toNat - 24, 24), (pos, 2 * n)] s.mem s'.mem ∧
      ∀ i < 4, s'.mem (l.printStringPossition.toNat + 4 + i) = carryByte pos i := by
  have hpos := littleEndian_lt s.mem (l.printStringPossition.setWidth 64).toNat 4
  rw [h.possition] at hpos
  obtain ⟨s', m, hrun, -, hframe, hmem⟩ := h.run
  rw [BitVec.toNat_setWidth_of_le (by decide)] at hmem
  refine ⟨s', hrun, ?_, fun i hi => ?_⟩
  · rw [hmem]
    exact (hframe.subset (List.subset_cons_self _ _)).trans
      (Frame.blitNum List.mem_cons_self (Nat.le_refl _) (Nat.le_refl _) _ m)
  · rw [hmem, Nat.add_assoc, ← carryByte_eq hpos hi]
    exact blit_inside (show 4 + i < 8 by omega) _ m

/-- The opcode of `mov [PRINT_STRING_POSSITION], eax`, with which `start_long_mode` begins. -/
def movOpcode : List UInt8 := [0x89, 0x04, 0x25]

/-- Every call overwrites the opcode that follows the variable. -/
theorem start_long_mode_overwritten (h : PrintCall (l.printStringPossition.setWidth 64) pos n s)
    (hcode : ∀ i < 3, s.mem (l.printStringPossition.toNat + 4 + i) = movOpcode.getD i 0) :
    ∃ s', (∀ fuel, print64Bits (l.printStringPossition.setWidth 64) fuel s = if fuel < n + 1 then none else some s') ∧
      ∀ i < 3, s'.mem (l.printStringPossition.toNat + 4 + i) ≠ s.mem (l.printStringPossition.toNat + 4 + i) := by
  obtain ⟨s', hrun, -, hbehind⟩ := h.behind
  refine ⟨s', hrun, fun i hi => ?_⟩
  have hopcode : ∀ i < 3, movOpcode.getD i 0 ≠ 0 ∧ movOpcode.getD i 0 ≠ 1 := by decide
  obtain ⟨hzero, hone⟩ := hopcode i hi
  rw [hbehind i (by omega), hcode i hi]
  unfold carryByte
  split
  · exact hone.symm
  · exact hzero.symm

/-- A call writes nothing but the four bytes of the variable, the slots of the stack and the cells exactly when each
byte behind the variable that is neither in a slot nor in a cell is what the call stores there. -/
theorem print64Bits_frame_iff (h : PrintCall (l.printStringPossition.setWidth 64) pos n s) :
    ∃ s', (∀ fuel, print64Bits (l.printStringPossition.setWidth 64) fuel s = if fuel < n + 1 then none else some s') ∧
      (Frame [(l.printStringPossition.toNat, 4), (s.rsp.toNat - 24, 24), (pos, 2 * n)] s.mem s'.mem ↔
        ∀ i < 4, Outside [(s.rsp.toNat - 24, 24), (pos, 2 * n)] (l.printStringPossition.toNat + 4 + i) →
          s.mem (l.printStringPossition.toNat + 4 + i) = carryByte pos i) := by
  obtain ⟨s', hrun, hframe, hbehind⟩ := h.behind
  refine ⟨s', hrun, fun hkept i hi hout => ?_, fun hheld k hk => ?_⟩
  · rw [← hbehind i hi]
    exact (hkept _ (List.forall_mem_cons.2 ⟨by simp only; omega, hout⟩)).symm
  · obtain ⟨hvar, hout⟩ := List.forall_mem_cons.1 hk
    simp only at hvar
    by_cases hin : l.printStringPossition.toNat + 4 ≤ k ∧ k < l.printStringPossition.toNat + 8
    · obtain ⟨i, rfl⟩ := Nat.exists_eq_add_of_le hin.1
      rw [hbehind i (by omega), hheld i (by omega) hout]
    · exact hframe k (List.forall_mem_cons.2 ⟨by simp only; omega, hout⟩)

end

/-! ## The call of `start_long_mode` -/

/-- The position after six messages. -/
def possitionBytes : List UInt8 := [0xC0, 0x83, 0x0B, 0x00]

/-- `code` follows the variable. -/
def longModeMemory (code : List UInt8) (k : Nat) : UInt8 :=
  if k < 0x80100 then 0
  else if k < 0x80200 then (possitionBytes ++ code).getD (k - 0x80100) 0
  else Message.long_mode_enabled.text.getD (k - 0x80200) 0

/-- The processor as the call enters `print_64_bits`. -/
def longModeCall (code : List UInt8) : LongCpu where
  rax := 0xB0000
  rdi := 0x80200
  rsi := 0
  rsp := 0x7FFF8
  mem := longModeMemory code

/-- From the variable on. -/
theorem longModeMemory_code (code : List UInt8) {i : Nat} (hi : i < 0x100) :
    longModeMemory code (0x80100 + i) = (possitionBytes ++ code).getD i 0 := by
  unfold longModeMemory
  rw [if_neg (by omega), if_pos (by omega), Nat.add_sub_cancel_left]

theorem printCall_longModeCall (code : List UInt8) :
    PrintCall (smallLayout.printStringPossition.setWidth 64) 0xB83C0 18 (longModeCall code) where
  text := by
    have htext : (∀ i < 18, Message.long_mode_enabled.text.getD i 0 ≠ 0) ∧
        Message.long_mode_enabled.text.getD 18 0 = 0 := by decide +kernel
    have hread : ∀ i, (longModeCall code).mem ((longModeCall code).rdi.toNat + i) =
        Message.long_mode_enabled.text.getD i 0 := by
      intro i
      show longModeMemory code (0x80200 + i) = _
      unfold longModeMemory
      rw [if_neg (by omega), if_neg (by omega), Nat.add_sub_cancel_left]
    exact ⟨fun i hi => (hread i).trans_ne (htext.1 i hi), (hread 18).trans htext.2⟩
  text_end := show (0x80200 : BitVec 64).toNat + 18 < 2 ^ 64 by decide
  possition := by
    have hread : ∀ i < 4, longModeMemory code (0x80100 + i) = possitionBytes.getD (0 + i) 0 := by
      intro i hi
      rw [Nat.zero_add, longModeMemory_code code (by omega)]
      exact List.getD_append _ _ _ _ hi
    have hbytes : littleEndian (fun i => possitionBytes.getD i 0) 0 4 = 0xB83C0 := by decide
    rw [← hbytes]
    exact littleEndian_congr hread
  slots := show 24 ≤ (0x7FFF8 : BitVec 64).toNat by decide
  slots_text := show Apart (0x7FFF8 - 24) 24 0x80200 19 by decide
  slots_possition := show Apart (0x7FFF8 - 24) 24 0x80100 4 by decide
  slots_cells := show Apart (0x7FFF8 - 24) 24 0xB83C0 36 by decide
  cells_text := show Apart 0xB83C0 36 0x80200 19 by decide

/-- Where zeros follow the variable, the call writes nothing else. -/
theorem print64Bits_frame_iff_zeros :
    PrintCall (smallLayout.printStringPossition.setWidth 64) 0xB83C0 18 (longModeCall []) ∧
      ∃ s', (∀ fuel, print64Bits (smallLayout.printStringPossition.setWidth 64) fuel (longModeCall []) =
        if fuel < 19 then none else some s') ∧
        Frame [(0x80100, 4), (0x7FFE0, 24), (0xB83C0, 36)] (longModeCall []).mem s'.mem := by
  obtain ⟨s', hrun, hiff⟩ := print64Bits_frame_iff (printCall_longModeCall [])
  refine ⟨printCall_longModeCall [], s', hrun, hiff.2 fun i hi _ => ?_⟩
  have hzeros : ∀ i < 4, (possitionBytes ++ []).getD (4 + i) 0 = carryByte 0xB83C0 i := by decide
  have hread := longModeMemory_code [] (i := 4 + i) (by omega)
  rw [← Nat.add_assoc] at hread
  exact hread.trans (hzeros i hi)

/-- The code that `start_long_mode` begins with is overwritten by its own call. -/
theorem print64Bits_overwrites_code :
    PrintCall (smallLayout.printStringPossition.setWidth 64) 0xB83C0 18 (longModeCall movOpcode) ∧
      Apart 0x80100 4 0x80200 19 ∧ Apart 0x80100 4 0xB83C0 36 ∧
      ∃ s', (∀ fuel, print64Bits (smallLayout.printStringPossition.setWidth 64) fuel (longModeCall movOpcode) =
        if fuel < 19 then none else some s') ∧
        (longModeCall movOpcode).mem 0x80104 = 0x89 ∧ s'.mem 0x80104 = 0 ∧
        ¬Frame [(0x80100, 4), (0x7FFE0, 24), (0xB83C0, 36)] (longModeCall movOpcode).mem s'.mem := by
  have hcall := printCall_longModeCall movOpcode
  obtain ⟨s', hrun, -, hbehind⟩ := hcall.behind
  have hcode : (longModeCall movOpcode).mem 0x80104 = 0x89 := longModeMemory_code movOpcode (show 4 < 0x100 by decide)
  have hlost : s'.mem 0x80104 = 0 := (hbehind 0 (by decide)).trans (by decide)
  refine ⟨hcall, by decide, by decide, s', hrun, hcode, hlost, fun hframe => ?_⟩
  have hkept := hframe 0x80104 (by unfold Outside; decide)
  rw [hcode, hlost] at hkept
  exact absurd hkept (by decide)

end SnakeOS.Boot
