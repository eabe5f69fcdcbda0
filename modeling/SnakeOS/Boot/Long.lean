/-
Long mode: `print_64_bits`, which stage1 and the kernel share, `start_long_mode` of stage1 and the
kernel up to `kmain`. Addresses are as in protected mode, and the upper halves of the registers start as zero.
-/
import SnakeOS.Boot.Protected

namespace SnakeOS.Boot

open Mem

/-! ## `print_64_bits` -/

structure LongCpu where
  rax : BitVec 64
  rdi : BitVec 64
  rsi : BitVec 64
  rsp : BitVec 64
  mem : Nat → UInt8

namespace LongCpu

def store64 (a x : BitVec 64) (s : LongCpu) : LongCpu := { s with mem := blitNum a.toNat 8 x.toNat s.mem }

/-- A doubleword, in a register whose upper half becomes zero. -/
def load32 (a : BitVec 64) (s : LongCpu) : BitVec 64 := BitVec.ofNat 64 (littleEndian s.mem a.toNat 4)

def push (x : BitVec 64) (s : LongCpu) : LongCpu := store64 (s.rsp - 8) x { s with rsp := s.rsp - 8 }

def pop (s : LongCpu) : BitVec 64 × LongCpu :=
  (BitVec.ofNat 64 (littleEndian s.mem s.rsp.toNat 8), { s with rsp := s.rsp + 8 })

def printing (s : LongCpu) : Printing 64 := ⟨s.rdi, s.rsi, s.rax, s.mem⟩

/-- `s` with what the loop leaves. -/
def looped (s : LongCpu) (p : Printing 64) : LongCpu :=
  { s with rdi := p.str, rsi := p.video, rax := p.acc, mem := p.mem }

/-- Up to the loop. -/
def printOpen (printStringPossition : BitVec 64) (s : LongCpu) : LongCpu :=
  let s := s.push s.rsi
  let s := s.push s.rax
  let s := { s with rax := 0 }
  let s := { s with rsi := 0 }
  let s := { s with rsi := s.load32 printStringPossition }
  s.push s.rsi

/-- `.done`. -/
def printClose (printStringPossition : BitVec 64) (s : LongCpu) : LongCpu :=
  let (rsi, s) := s.pop
  let s := { s with rsi }
  let s := { s with rsi := s.rsi + 160 }
  let s := s.store64 printStringPossition s.rsi
  let s := { s with rdi := 0 }
  let (rax, s) := s.pop
  let s := { s with rax }
  let (rsi, s) := s.pop
  { s with rsi }

end LongCpu

def print64Bits (printStringPossition : BitVec 64) (fuel : Nat) (s : LongCpu) : Option LongCpu :=
  let s := s.printOpen printStringPossition
  (printLoop fuel s.printing).map fun p => (s.looped p).printClose printStringPossition

/-- The call with a string in RDI. -/
def printString (printStringPossition str ret : BitVec 64) (fuel : Nat) (s : LongCpu) : Option LongCpu := do
  let s := { s with rdi := str }
  let s ← print64Bits printStringPossition fuel (s.push ret)
  return { s with rsp := s.rsp + 8 }

/-! ## `start_long_mode` and `kernel_entry` -/

/-- The far jump to long mode. -/
def Cpu.enterLongMode (s : Cpu) : LongCpu :=
  ⟨s.regs.eax.setWidth 64, s.regs.edi.setWidth 64, s.regs.esi.setWidth 64, s.esp.setWidth 64, s.mem⟩

/-- Up to the jump to the kernel; the segment registers are not modelled. -/
def startLongMode (l : Stage1) (fuel : Nat) (s : LongCpu) : Option LongCpu := do
  let s := { s with mem := blitNum l.printStringPossition.toNat 4 (s.rax.setWidth 32).toNat s.mem }
  let s := { s with rax := (s.rax >>> 16) <<< 16 }
  let s ← printString (l.printStringPossition.setWidth 64) ((l.message .long_mode_enabled).setWidth 64)
    (l.ret.setWidth 64) fuel s
  return { s with rax := s.load32 (l.printStringPossition.setWidth 64) }

def MSG_KERNEL : List UInt8 := Byte.text "SUCCESSFUL: Kernel entry loaded. Loading the kernel..."

/-- Where the image of the kernel has the data of `kernel_entry`, what its call pushes, and the end of
the image, which is below the extended BIOS data area. -/
structure Kernel where
  printStringPossition : BitVec 64
  msgKernel : BitVec 64
  ret : BitVec 64
  imageEnd : Nat
  possition_range : 0x90000 ≤ printStringPossition.toNat ∧ printStringPossition.toNat + 8 ≤ imageEnd
  msg_range : 0x90000 ≤ msgKernel.toNat ∧ msgKernel.toNat + MSG_KERNEL.length + 1 ≤ imageEnd
  image_range : imageEnd ≤ 0x9FC00
  apart : Apart msgKernel.toNat (MSG_KERNEL.length + 1) printStringPossition.toNat 8

/-- Up to the jump to `kmain`. -/
def kernelEntry (k : Kernel) (fuel : Nat) (s : LongCpu) : Option LongCpu :=
  let s := s.store64 k.printStringPossition s.rax
  let s := { s with rax := 0 }
  printString k.printStringPossition k.msgKernel k.ret fuel s

/-- `add [rax], al`, the instruction of two zero bytes. -/
def LongCpu.addAl (s : LongCpu) : LongCpu :=
  { s with mem := blitNum s.rax.toNat 1 ((s.mem s.rax.toNat).toNat + (s.rax.setWidth 8).toNat) s.mem }

/-- The jump is to the start of the image, which is not `kernel_entry` but the eight zero bytes of
`PRINT_STRING_POSSITION` before it. -/
def kernelStart (k : Kernel) (fuel : Nat) (s : LongCpu) : Option LongCpu := kernelEntry k fuel (LongCpu.addAl^[4] s)

/-! ## What is printed -/

/-- What is written for a string of `n` characters at `pos`: the stack in use, its cells and the
variable. -/
def printedBy (stack : Nat × Nat) (pos n : Nat) (printStringPossition : BitVec 64) : List (Nat × Nat) :=
  [stack, (pos, 2 * n), (printStringPossition.toNat, 8)]

/-- A string of `n` characters is printed at `pos`, and the position moves to the next line. -/
structure LongPrinted (printStringPossition : BitVec 64) (stack : Nat × Nat) (pos n : Nat) (s s' : LongCpu) :
    Prop where
  rsp : s'.rsp = s.rsp
  possition : littleEndian s'.mem printStringPossition.toNat 8 = pos + 160
  frame : Frame (printedBy stack pos n printStringPossition) s.mem s'.mem

section Printing

variable {printStringPossition : BitVec 64} {stack : Nat × Nat} {pos n : Nat} {s : LongCpu}

theorem LongCpu.push_frame (r : Nat × Nat) (x : BitVec 64) (hlo : r.1 + 8 ≤ s.rsp.toNat)
    (hhi : s.rsp.toNat ≤ r.1 + r.2) : Frame [r] s.mem (s.push x).mem ∧ (s.push x).rsp.toNat + 8 = s.rsp.toNat := by
  have hnext : (s.rsp - 8).toNat + 8 = s.rsp.toNat := by bv_omega
  exact ⟨Frame.blitNum (List.mem_singleton_self _) (by omega) (by omega) _ _, hnext⟩

theorem Room.push64 (h : Room stack s.rsp.toNat (n + 8)) (x : BitVec 64) :
    Frame [stack] s.mem (s.push x).mem ∧ Room stack (s.push x).rsp.toNat n := by
  have hlo := h.lo
  have hhi := h.hi
  obtain ⟨hframe, hrsp⟩ := LongCpu.push_frame stack x (show stack.1 + 8 ≤ s.rsp.toNat by omega) hhi
  exact ⟨hframe, by omega, by omega, h.below⟩

/-- `print_64_bits` is called for a string of `n` characters that it prints at `pos`: its three slots of the stack are
apart from the string, the variable and the cells, and the cells are apart from the string. -/
structure PrintCall (printStringPossition : BitVec 64) (pos n : Nat) (s : LongCpu) : Prop where
  text : StringAt s.mem s.rdi.toNat n
  text_end : s.rdi.toNat + n < 2 ^ 64
  possition : littleEndian s.mem printStringPossition.toNat 4 = pos
  slots : 24 ≤ s.rsp.toNat
  slots_text : Apart (s.rsp.toNat - 24) 24 s.rdi.toNat (n + 1)
  slots_possition : Apart (s.rsp.toNat - 24) 24 printStringPossition.toNat 4
  slots_cells : Apart (s.rsp.toNat - 24) 24 pos (2 * n)
  cells_text : Apart pos (2 * n) s.rdi.toNat (n + 1)

/-- Up to the loop only the slots are written; RSI is the position, which is also on the stack. -/
theorem PrintCall.opened (h : PrintCall printStringPossition pos n s) :
    Frame [(s.rsp.toNat - 24, 24)] s.mem (s.printOpen printStringPossition).mem ∧
      (s.printOpen printStringPossition).rsp.toNat + 24 = s.rsp.toNat ∧
      (s.printOpen printStringPossition).rsi.toNat = pos ∧
      littleEndian (s.printOpen printStringPossition).mem (s.printOpen printStringPossition).rsp.toNat 8 = pos := by
  have hslots := h.slots
  have hlt := littleEndian_lt s.mem printStringPossition.toNat 4
  have hpos := h.possition
  obtain ⟨hframe₁, hrsp₁⟩ := LongCpu.push_frame (s := s) (s.rsp.toNat - 24, 24) s.rsi
    (by simp only; omega) (by simp only; omega)
  obtain ⟨hframe₂, hrsp₂⟩ := LongCpu.push_frame (s := s.push s.rsi) (s.rsp.toNat - 24, 24) s.rax
    (by simp only; omega) (by simp only; omega)
  obtain ⟨hframe₃, hrsp₃⟩ := LongCpu.push_frame (s := (s.push s.rsi).push s.rax) (s.rsp.toNat - 24, 24)
    (s.printOpen printStringPossition).rsi (by simp only; omega) (by simp only; omega)
  have hframe := hframe₁.trans hframe₂
  have hread : (LongCpu.load32 printStringPossition ((s.push s.rsi).push s.rax)).toNat = pos := by
    unfold LongCpu.load32
    rw [littleEndian_congr (hframe.apart h.slots_possition), hpos, BitVec.toNat_ofNat,
      Nat.mod_eq_of_lt (by omega)]
  have hmem : (s.printOpen printStringPossition).mem = blitNum (s.printOpen printStringPossition).rsp.toNat 8
      (s.printOpen printStringPossition).rsi.toNat ((s.push s.rsi).push s.rax).mem := rfl
  have hrsp : (s.printOpen printStringPossition).rsp.toNat + 8 = ((s.push s.rsi).push s.rax).rsp.toNat := hrsp₃
  refine ⟨hframe.trans hframe₃, by omega, hread, ?_⟩
  rw [hmem, littleEndian_blitNum, show (s.printOpen printStringPossition).rsi.toNat = pos from hread]
  exact Nat.mod_eq_of_lt (by omega)

/-- The call writes the slots and the cells, and last the next position with eight bytes. -/
theorem PrintCall.run (h : PrintCall printStringPossition pos n s) :
    ∃ s' m, (∀ fuel, print64Bits printStringPossition fuel s = if fuel < n + 1 then none else some s') ∧
      s'.rsp = s.rsp ∧ Frame [(s.rsp.toNat - 24, 24), (pos, 2 * n)] s.mem m ∧
      s'.mem = blitNum printStringPossition.toNat 8 (pos + 160) m := by
  have hpos := littleEndian_lt s.mem printStringPossition.toNat 4
  rw [h.possition] at hpos
  have hend := h.text_end
  have hcells := h.cells_text
  have hstack := h.slots_cells
  obtain ⟨hframe, hrsp, hrsi, hsaved⟩ := h.opened
  let opened := s.printOpen printStringPossition
  have hrsp : opened.rsp.toNat + 24 = s.rsp.toNat := hrsp
  have hvideo : opened.printing.video.toNat = pos := hrsi
  have hstr : opened.printing.str = s.rdi := rfl
  have htext : StringAt opened.mem s.rdi.toNat n :=
    h.text.congr fun i hi => hframe.apart h.slots_text i (Nat.lt_succ_of_le hi)
  obtain ⟨p, hrun, hprint⟩ := printLoop_spec (by decide) n opened.printing (hstr ▸ hend)
    (by rw [hvideo]; unfold Apart at hcells; omega) (by rw [hvideo, hstr]; exact hcells) htext
  rw [hvideo] at hprint
  have hpopped : littleEndian p.mem opened.rsp.toNat 8 = pos := by
    have hslot : Apart pos (2 * n) opened.rsp.toNat 8 := by
      unfold Apart at *
      omega
    exact (littleEndian_congr (hprint.apart hslot)).trans hsaved
  have hnext : (BitVec.ofNat 64 (littleEndian p.mem opened.rsp.toNat 8) + 160).toNat = pos + 160 := by
    rw [hpopped]
    bv_omega
  refine ⟨(opened.looped p).printClose printStringPossition, p.mem, fun fuel => ?_, ?_, ?_, ?_⟩
  · unfold print64Bits
    simp only
    rw [hrun fuel]
    split
    · rfl
    · rfl
  · show opened.rsp + 8 + 8 + 8 = s.rsp
    bv_omega
  · exact (hframe.subset (by simp)).trans (hprint.subset (by simp))
  · rw [← hnext]
    rfl

/-- A string is in the image and apart from the variable, and of a length that has room on the screen. -/
structure Printable (printStringPossition str : BitVec 64) (n : Nat) (m : Nat → UInt8) : Prop where
  length : n ≤ 96
  str_range : InImage str.toNat (n + 1)
  possition_range : InImage printStringPossition.toNat 8
  text : StringAt m str.toNat n

/-- What is written to the stack keeps the string. -/
theorem Printable.keep {str : BitVec 64} {sp k : Nat} {m m' : Nat → UInt8} (h : Printable printStringPossition str n m)
    (hroom : Room stack sp k) (hframe : Frame [stack] m m') : Printable printStringPossition str n m' :=
  ⟨h.length, h.str_range, h.possition_range,
    h.text.congr fun _ _ => hroom.keeps hframe _ (Nat.le_add_right_of_le h.str_range.1)⟩

theorem print64Bits_spec {str : BitVec 64} (h : Printable printStringPossition str n s.mem)
    (hroom : Room stack s.rsp.toNat 24) (hscreen : OnScreen pos) (hrdi : s.rdi = str)
    (hpos : littleEndian s.mem printStringPossition.toNat 4 = pos) :
    ∃ s', (∀ fuel, print64Bits printStringPossition fuel s = if fuel < n + 1 then none else some s') ∧
      LongPrinted printStringPossition stack pos n s s' := by
  subst hrdi
  obtain ⟨hlen, hstr, hin, htext⟩ := h
  obtain ⟨hlo, hhi, hbelow⟩ := hroom
  unfold InImage at hstr hin
  unfold OnScreen at hscreen
  have hcall : PrintCall printStringPossition pos n s :=
    ⟨htext, by omega, hpos, by omega, by unfold Apart; omega, by unfold Apart; omega, by unfold Apart; omega,
      by unfold Apart; omega⟩
  obtain ⟨s', m, hrun, hrsp, hframe, hmem⟩ := hcall.run
  refine ⟨s', hrun, hrsp, ?_, ?_⟩
  · rw [hmem, littleEndian_blitNum]
    exact Nat.mod_eq_of_lt (by omega)
  · have hmem' : (printStringPossition.toNat, 8) ∈ printedBy stack pos n printStringPossition := by simp [printedBy]
    rw [hmem]
    refine (hframe.widen fun r hr => ?_).trans (Frame.blitNum hmem' (Nat.le_refl _) (Nat.le_refl _) _ _)
    simp only [List.mem_cons, List.not_mem_nil, or_false] at hr
    rcases hr with rfl | rfl
    · exact ⟨stack, by simp [printedBy], by simp only; omega, by simp only; omega⟩
    · exact ⟨(pos, 2 * n), by simp [printedBy], Nat.le_refl _, Nat.le_refl _⟩

theorem printString_spec {str : BitVec 64} (ret : BitVec 64) (h : Printable printStringPossition str n s.mem)
    (hroom : Room stack s.rsp.toNat 32) (hscreen : OnScreen pos)
    (hpos : littleEndian s.mem printStringPossition.toNat 4 = pos) :
    ∃ s', (∀ fuel, printString printStringPossition str ret fuel s = if fuel < n + 1 then none else some s') ∧
      LongPrinted printStringPossition stack pos n s s' := by
  let called : LongCpu := { s with rdi := str }
  obtain ⟨hframe, hroom'⟩ := Room.push64 (s := called) hroom ret
  have hkept := littleEndian_congr fun i (_ : i < 4) =>
    hroom.keeps hframe (printStringPossition.toNat + i) (Nat.le_add_right_of_le h.possition_range.1)
  obtain ⟨s', hrun, hprinted⟩ := print64Bits_spec (h.keep hroom hframe) hroom' hscreen rfl (hkept.trans hpos)
  refine ⟨{ s' with rsp := s'.rsp + 8 }, fun fuel => ?_, ?_, hprinted.possition, ?_⟩
  · unfold printString
    show (print64Bits printStringPossition fuel (called.push ret) >>= _) = _
    rw [hrun fuel]
    split
    · rfl
    · rfl
  · show s'.rsp + 8 = s.rsp
    rw [hprinted.rsp]
    show s.rsp - 8 + 8 = s.rsp
    bv_omega
  · exact (hframe.subset (by simp [printedBy])).trans hprinted.frame

end Printing

/-- The stack of stage1 as the kernel finds it. -/
theorem room_stackRoom {s : LongCpu} (h : s.rsp = 0x80000) : Room stackRoom s.rsp.toNat 32 := by
  rw [h]
  exact ⟨by decide, by decide, by decide⟩

theorem printedBy_covered {possition : BitVec 64} {pos n : Nat} {rs : List (Nat × Nat)} (hscreen : OnScreen pos)
    (hn : n ≤ 96) (hrs : ∀ r ∈ [stackRoom, (possition.toNat, 8), (0xB8000, 0x8000)], r ∈ rs) :
    Covered (printedBy stackRoom pos n possition) rs := by
  unfold OnScreen at hscreen
  unfold printedBy
  rintro r hr
  simp only [List.mem_cons, List.not_mem_nil, or_false] at hr
  rcases hr with rfl | rfl | rfl
  · exact ⟨stackRoom, hrs _ (by simp), Nat.le_refl _, Nat.le_refl _⟩
  · exact ⟨(0xB8000, 0x8000), hrs _ (by simp), by simp only; omega, by simp only; omega⟩
  · exact ⟨(possition.toNat, 8), hrs _ (by simp), Nat.le_refl _, Nat.le_refl _⟩

/-! ## From long mode to `kmain` -/

theorem Stage1.Loaded.printable {l : Stage1} {pos : Nat} {m : Nat → UInt8} (h : l.Loaded pos m) :
    Printable (l.printStringPossition.setWidth 64) ((l.message .long_mode_enabled).setWidth 64)
      Message.long_mode_enabled.length m := by
  have hmsg := l.message_range .long_mode_enabled
  have hposs := l.possition_range
  have hstr := h.stringAt .long_mode_enabled
  have hwide : ∀ x : BitVec 32, (x.setWidth 64).toNat = x.toNat := fun x =>
    BitVec.toNat_setWidth_of_le (by decide)
  refine ⟨Message.length_le _, ?_, ?_, ?_⟩
  · unfold InImage
    rw [hwide]
    omega
  · unfold InImage
    rw [hwide]
    omega
  · rw [hwide]
    exact hstr

/-- `start_long_mode` gets to the kernel with the position after seven messages in RAX. -/
theorem startLongMode_spec {l : Stage1} {m₀ : Nat → UInt8} {s : Cpu} (h : At l 6 0x80000 m₀ s)
    (heax : s.regs.eax.toNat = 0xB8000 + 160 * 6) :
    ∃ s', (∀ fuel, 512 ≤ fuel → startLongMode l fuel s.enterLongMode = some s') ∧ s'.rsp = 0x80000 ∧
      s'.rax.toNat = 0xB8000 + 160 * 7 ∧ Frame l.writes m₀ s'.mem := by
  have hposs := l.possition_range
  have hlen := Message.long_mode_enabled.length_le
  have hwide : (l.printStringPossition.setWidth 64).toNat = l.printStringPossition.toNat :=
    BitVec.toNat_setWidth_of_le (by decide)
  let s₀ := s.enterLongMode
  let stored : LongCpu := { s₀ with
    mem := blitNum l.printStringPossition.toNat 4 (s₀.rax.setWidth 32).toNat s₀.mem
    rax := (s₀.rax >>> 16) <<< 16 }
  have heax' : (s₀.rax.setWidth 32).toNat = 0xB8000 + 160 * 6 := by
    show ((s.regs.eax.setWidth 64).setWidth 32).toNat = _
    rw [BitVec.toNat_setWidth, BitVec.toNat_setWidth, heax]
  have hframe : Frame l.writes s.mem stored.mem :=
    Frame.blitNum (r := (l.printStringPossition.toNat, 8)) (by simp [Stage1.writes]) (Nat.le_refl _)
      (by simp only; omega) _ _
  have hstored : littleEndian stored.mem l.printStringPossition.toNat 4 = 0xB8000 + 160 * 6 := by
    refine (littleEndian_blitNum ..).trans ?_
    rw [heax']
    rfl
  have hloaded := h.loaded.written hframe hstored
  have hrsp : stored.rsp = 0x80000 := by
    show s.esp.setWidth 64 = _
    rw [h.esp]
    rfl
  obtain ⟨s', hrun, hprinted⟩ := printString_spec (s := stored) (l.ret.setWidth 64)
    hloaded.printable (room_stackRoom hrsp) (onScreen_line (n := 6) (by omega)) (by rw [hwide]; exact hstored)
  have hnext : littleEndian s'.mem l.printStringPossition.toNat 4 = 0xB8000 + 160 * 7 := by
    have hwhole := hprinted.possition
    rw [hwide] at hwhole
    exact littleEndian_low hwhole (by omega) (by decide)
  refine ⟨{ s' with rax := s'.load32 (l.printStringPossition.setWidth 64) }, fun fuel hfuel => ?_,
    hprinted.rsp.trans hrsp, ?_, ?_⟩
  · unfold startLongMode
    show (printString _ _ _ fuel stored >>= _) = _
    rw [hrun fuel, if_neg (by omega)]
    rfl
  · show (BitVec.ofNat 64 (littleEndian s'.mem (l.printStringPossition.setWidth 64).toNat 4)).toNat = _
    rw [hwide, hnext]
    rfl
  · refine h.frame.trans (hframe.trans (hprinted.frame.widen ?_))
    refine printedBy_covered (onScreen_line (n := 6) (by omega)) hlen fun r hr => ?_
    rw [hwide] at hr
    simp only [List.mem_cons, List.not_mem_nil, or_false] at hr
    rcases hr with rfl | rfl | rfl
    · simp [Stage1.writes]
    · simp [Stage1.writes]
    · simp [Stage1.writes]

/-- The message of `kernel_entry` is in memory. -/
def Kernel.Loaded (k : Kernel) (m : Nat → UInt8) : Prop :=
  ∀ i ≤ MSG_KERNEL.length, m (k.msgKernel.toNat + i) = MSG_KERNEL.getD i 0

/-- What `kernel_entry` writes: the stack, the print position and the screen. -/
def Kernel.writes (k : Kernel) : List (Nat × Nat) :=
  [stackRoom, (k.printStringPossition.toNat, 8), (0xB8000, 0x8000)]

theorem MSG_KERNEL_ok : MSG_KERNEL.length = 54 ∧ ∀ c ∈ MSG_KERNEL, c ≠ 0 :=
  ⟨by decide, Byte.ne_zero_of_all (by decide)⟩

theorem Kernel.Loaded.stringAt {k : Kernel} {m : Nat → UInt8} (h : k.Loaded m) :
    StringAt m k.msgKernel.toNat MSG_KERNEL.length := by
  refine ⟨fun i hi => ?_, ?_⟩
  · rw [h i (Nat.le_of_lt hi), List.getD_eq_getElem _ _ hi]
    exact MSG_KERNEL_ok.2 _ (List.getElem_mem hi)
  · rw [h _ (Nat.le_refl _)]
    exact List.getD_eq_default _ _ (Nat.le_refl _)

/-- `kernel_entry` gets to `kmain`. -/
theorem kernelEntry_spec {k : Kernel} {pos : Nat} {s : LongCpu} (h : k.Loaded s.mem) (hrsp : s.rsp = 0x80000)
    (hrax : s.rax.toNat = pos) (hscreen : OnScreen pos) :
    ∃ s', (∀ fuel, 512 ≤ fuel → kernelEntry k fuel s = some s') ∧ Frame k.writes s.mem s'.mem := by
  have hposs := k.possition_range
  have hmsg := k.msg_range
  have himage := k.image_range
  have hapart := k.apart
  have hlen := MSG_KERNEL_ok.1
  unfold Apart at hapart
  let stored : LongCpu := { s.store64 k.printStringPossition s.rax with rax := 0 }
  have hframe : Frame k.writes s.mem stored.mem :=
    Frame.blitNum (r := (k.printStringPossition.toNat, 8)) (by simp [Kernel.writes]) (Nat.le_refl _)
      (Nat.le_refl _) _ _
  have hstored : littleEndian stored.mem k.printStringPossition.toNat 4 = pos := by
    have hwhole : littleEndian stored.mem k.printStringPossition.toNat 8 = pos := by
      refine (littleEndian_blitNum ..).trans ?_
      rw [hrax]
      unfold OnScreen at hscreen
      exact Nat.mod_eq_of_lt (by omega)
    unfold OnScreen at hscreen
    exact littleEndian_low hwhole (by omega) (by omega)
  have hprintable : Printable k.printStringPossition k.msgKernel MSG_KERNEL.length stored.mem := by
    have hloaded : k.Loaded stored.mem := fun i hi => (blitNum_outside (by omega) _ _).trans (h i hi)
    exact ⟨by omega, by unfold InImage; omega, by unfold InImage; omega, hloaded.stringAt⟩
  obtain ⟨s', hrun, hprinted⟩ := printString_spec k.ret hprintable (room_stackRoom (s := stored) hrsp) hscreen hstored
  refine ⟨s', fun fuel hfuel => (hrun fuel).trans (if_neg (by omega)),
    hframe.trans (hprinted.frame.widen (printedBy_covered hscreen (by omega) fun r hr => hr))⟩

theorem LongCpu.addAl_frame (s : LongCpu) : Frame [(s.rax.toNat, 1)] s.mem s.addAl.mem :=
  Frame.blitNum (List.mem_singleton_self _) (Nat.le_refl _) (Nat.le_refl _) _ _

/-- What runs before `kernel_entry` writes to the screen, where its message is printed next. -/
theorem addAl_iterate {pos : Nat} {s : LongCpu} (hrax : s.rax.toNat = pos) (n : Nat) :
    (LongCpu.addAl^[n] s).rsp = s.rsp ∧ (LongCpu.addAl^[n] s).rax.toNat = pos ∧
      Frame [(pos, 1)] s.mem (LongCpu.addAl^[n] s).mem := by
  induction n with
  | zero => exact ⟨rfl, hrax, Frame.refl _ _⟩
  | succ n ih =>
    obtain ⟨hrsp, hrax', hframe⟩ := ih
    have hcell := (LongCpu.addAl^[n] s).addAl_frame
    rw [hrax'] at hcell
    rw [Function.iterate_succ_apply']
    exact ⟨hrsp, hrax', hframe.trans hcell⟩

/-- The jump gets to `kmain`. -/
theorem kernelStart_spec {k : Kernel} {pos : Nat} {s : LongCpu} (h : k.Loaded s.mem) (hrsp : s.rsp = 0x80000)
    (hrax : s.rax.toNat = pos) (hscreen : OnScreen pos) :
    ∃ s', (∀ fuel, 512 ≤ fuel → kernelStart k fuel s = some s') ∧ Frame k.writes s.mem s'.mem := by
  have hmsg := k.msg_range
  have himage := k.image_range
  obtain ⟨hrsp', hrax', hframe⟩ := addAl_iterate hrax 4
  unfold OnScreen at hscreen
  have hloaded : k.Loaded (LongCpu.addAl^[4] s).mem := by
    intro i hi
    refine (hframe _ fun r hr => ?_).trans (h i hi)
    obtain rfl := List.mem_singleton.1 hr
    simp only
    omega
  obtain ⟨s', hrun, hframe'⟩ := kernelEntry_spec hloaded (hrsp'.trans hrsp) hrax' hscreen
  refine ⟨s', hrun, (hframe.widen fun r hr => ?_).trans hframe'⟩
  obtain rfl := List.mem_singleton.1 hr
  exact ⟨(0xB8000, 0x8000), by simp [Kernel.writes], hscreen.1, by simp only; omega⟩

end SnakeOS.Boot
