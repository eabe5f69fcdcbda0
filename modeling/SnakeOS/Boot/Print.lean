/-
Printing in protected and in long mode: the loop that `print_32_bits` and `print_64_bits` of
boot/x86/stage1 share, and `print_32_bits`. Segments are flat.
-/
import Mathlib.Data.List.GetD
import SnakeOS.Boot.E820
import SnakeOS.Lib.Byte

namespace SnakeOS.Boot

open Mem

/-! ## The loop -/

abbrev RED_ON_BLACK : BitVec 8 := 0x0C
abbrev BYTES_PER_CHAR : Nat := 2

variable {w : Nat}

def setAl (x : BitVec 8) (r : BitVec w) : BitVec w := (r >>> 8) <<< 8 ||| x.setWidth w

def setAh (x : BitVec 8) (r : BitVec w) : BitVec w := (r &&& ~~~BitVec.ofNat w 0xFF00) ||| x.setWidth w <<< 8

/-- What the loop works on, at the width of the registers: the pointer to the string in ESI or RDI, the
position in EDX or RSI, the accumulator, and memory. -/
structure Printing (w : Nat) where
  str : BitVec w
  video : BitVec w
  acc : BitVec w
  mem : Nat → UInt8

/-- `mov al, [esi]`. -/
def readChar (s : Printing w) : Printing w := { s with acc := setAl (s.mem s.str.toNat).toBitVec s.acc }

/-- From `mov ah, RED_ON_BLACK` to the jump back. -/
def printChar (s : Printing w) : Printing w :=
  let s := { s with acc := setAh RED_ON_BLACK s.acc }
  let s := { s with mem := blitNum s.video.toNat 2 (s.acc.setWidth 16).toNat s.mem }
  { s with str := s.str + BitVec.ofNat w 1, video := s.video + BitVec.ofNat w BYTES_PER_CHAR }

/-- `none` when the loop runs longer than the fuel. -/
def printLoop : Nat → Printing w → Option (Printing w)
  | 0, _ => none
  | fuel + 1, s =>
    let s := readChar s
    if s.acc.setWidth 8 = 0 then some s else printLoop fuel (printChar s)

theorem setWidth_setAl (hw : 8 ≤ w) (x : BitVec 8) (r : BitVec w) : (setAl x r).setWidth 8 = x := by
  unfold setAl
  ext i hi
  simp [hi, show i < w by omega]

theorem toNat_add_ofNat {x : BitVec w} {k : Nat} (h : x.toNat + k < 2 ^ w) :
    (x + BitVec.ofNat w k).toNat = x.toNat + k := by
  rw [BitVec.toNat_add, BitVec.toNat_ofNat, Nat.mod_eq_of_lt (show k < 2 ^ w by omega), Nat.mod_eq_of_lt h]

/-- A string of `n` characters is at `a`. -/
structure StringAt (m : Nat → UInt8) (a n : Nat) : Prop where
  chars : ∀ i < n, m (a + i) ≠ 0
  nul : m (a + n) = 0

theorem StringAt.congr {m m' : Nat → UInt8} {a n : Nat} (h : StringAt m a n)
    (hkept : ∀ i ≤ n, m' (a + i) = m (a + i)) : StringAt m' a n :=
  ⟨fun i hi => (hkept i (Nat.le_of_lt hi)).trans_ne (h.chars i hi), (hkept n (Nat.le_refl _)).trans h.nul⟩

/-- The loop prints the string in the cells from the position on, and writes nothing else. -/
theorem printLoop_spec (hw : 8 ≤ w) : ∀ (n : Nat) (s : Printing w), s.str.toNat + n < 2 ^ w →
    s.video.toNat + 2 * n < 2 ^ w → Apart s.video.toNat (2 * n) s.str.toNat (n + 1) → StringAt s.mem s.str.toNat n →
    ∃ s', (∀ fuel, printLoop fuel s = if fuel < n + 1 then none else some s') ∧
      Frame [(s.video.toNat, 2 * n)] s.mem s'.mem
  | 0, s, _, _, _, hstr => by
    have hlast : (readChar s).acc.setWidth 8 = 0 := by
      unfold readChar
      rw [setWidth_setAl hw, show s.mem s.str.toNat = 0 from hstr.nul]
      rfl
    refine ⟨readChar s, fun fuel => ?_, Frame.refl _ _⟩
    cases fuel with
    | zero => rfl
    | succ fuel =>
      unfold printLoop
      rw [if_neg (show ¬fuel + 1 < 0 + 1 by omega)]
      exact if_pos hlast
  | n + 1, s, hptr, hvideo, hapart, hstr => by
    have hfirst : ¬(readChar s).acc.setWidth 8 = 0 := by
      unfold readChar
      rw [setWidth_setAl hw]
      intro h0
      exact hstr.chars 0 (by omega) (UInt8.toBitVec_inj.1 h0)
    have hptr' : (printChar (readChar s)).str.toNat = s.str.toNat + 1 := by
      show (s.str + BitVec.ofNat w 1).toNat = _
      exact toNat_add_ofNat (by omega)
    have hvideo' : (printChar (readChar s)).video.toNat = s.video.toNat + 2 := by
      show (s.video + BitVec.ofNat w 2).toNat = _
      exact toNat_add_ofNat (by omega)
    have hframe : Frame [(s.video.toNat, 2 * (n + 1))] s.mem (printChar (readChar s)).mem :=
      Frame.blitNum (List.mem_singleton_self _) (Nat.le_refl _) (by simp only; omega) _ _
    have hkeep : ∀ i < n + 1, (printChar (readChar s)).mem (s.str.toNat + 1 + i) = s.mem (s.str.toNat + (i + 1)) := by
      intro i hi
      rw [Nat.add_assoc, Nat.add_comm 1 i]
      exact hframe.apart hapart (i + 1) (by omega)
    obtain ⟨s', hrun, hrest⟩ := printLoop_spec hw n (printChar (readChar s)) (by omega) (by omega)
      (by unfold Apart at *; omega)
      ⟨fun i hi => by rw [hptr', hkeep i (by omega)]; exact hstr.chars (i + 1) (by omega),
        by rw [hptr', hkeep n (by omega)]; exact hstr.nul⟩
    refine ⟨s', fun fuel => ?_, hframe.trans fun k hk => hrest k fun r hr => ?_⟩
    · cases fuel with
      | zero => exact (if_pos (by omega)).symm
      | succ fuel =>
        unfold printLoop
        simp only [Nat.add_lt_add_iff_right]
        rw [if_neg hfirst]
        exact hrun fuel
    · obtain rfl := List.mem_singleton.1 hr
      have hk := hk _ (List.mem_singleton_self _)
      simp only at hk ⊢
      omega

/-! ## The stack, the images and the screen -/

/-- A stack below stage1 has `n` bytes left below `sp`. -/
structure Room (stack : Nat × Nat) (sp n : Nat) : Prop where
  lo : stack.1 + n ≤ sp
  hi : sp ≤ stack.1 + stack.2
  below : stack.1 + stack.2 ≤ 0x80000

/-- Addresses of the images of stage1 and of the kernel. -/
def InImage (a n : Nat) : Prop := 0x80000 ≤ a ∧ a + n ≤ 0xA0000

/-- From the position on there is room for the longest message. -/
def OnScreen (pos : Nat) : Prop := 0xB8000 ≤ pos ∧ pos + 192 ≤ 0xC0000

/-- What is written to the stack keeps the images. -/
theorem Room.keeps {stack : Nat × Nat} {sp n : Nat} (h : Room stack sp n) {m m' : Nat → UInt8}
    (hframe : Frame [stack] m m') : ∀ k, 0x80000 ≤ k → m' k = m k := fun k hk => hframe k fun r hr => by
  have hbelow := h.below
  obtain rfl := List.mem_singleton.1 hr
  omega

/-- The loop, with the position saved on the stack: it prints the string, and the position stays saved. -/
theorem printLoop_saved (hw : 8 ≤ w) (hwide : 0xC0000 < 2 ^ w) {s : Printing w} {n pos top len : Nat} (hn : n ≤ 96)
    (hin : InImage s.str.toNat (n + 1)) (hstr : StringAt s.mem s.str.toNat n) (hvideo : s.video.toNat = pos)
    (hscreen : OnScreen pos) (htop : top + len ≤ 0x80000) (hsaved : littleEndian s.mem top len = pos) :
    ∃ p, (∀ fuel, printLoop fuel s = if fuel < n + 1 then none else some p) ∧ Frame [(pos, 2 * n)] s.mem p.mem ∧
      littleEndian p.mem top len = pos := by
  unfold InImage at hin
  unfold OnScreen at hscreen
  obtain ⟨p, hrun, hprint⟩ := printLoop_spec hw n s (by omega) (by omega) (by unfold Apart; omega) hstr
  rw [hvideo] at hprint
  have hstack : Apart pos (2 * n) top len := by
    unfold Apart
    omega
  exact ⟨p, hrun, hprint, (littleEndian_congr (hprint.apart hstack)).trans hsaved⟩

/-! ## The data of stage1 -/

inductive Message
  | MSG_PROT_MODE
  | MSG_CPUID_SUPP
  | MSG_CPUID_NOT_SUPP
  | MSG_EXT_FUNC_SUPP
  | MSG_EXT_FUNC_NOT_SUPP
  | MSG_LONG_SUPP
  | MSG_LONG_NOT_SUPP
  | MSG_PAGING_SET_UP
  | MSG_PAGING_ENABLED
  | long_mode_enabled
  deriving DecidableEq, Repr

def Message.text : Message → List UInt8
  | MSG_PROT_MODE => Byte.text "MODE ENTERED: Protected"
  | MSG_CPUID_SUPP => Byte.text "SUCCESSFUL: CPUID supported. Checking extended functions support..."
  | MSG_CPUID_NOT_SUPP => Byte.text "ERROR: CPUID not supported. Can't check long mode support. System halted."
  | MSG_EXT_FUNC_SUPP => Byte.text "SUCCESSFUL: CPUID supports extended functions. Checking long mode support..."
  | MSG_EXT_FUNC_NOT_SUPP =>
    Byte.text "ERROR: Extended functions not supported by CPUID. Can't check long mode support. System halted."
  | MSG_LONG_SUPP => Byte.text "SUCCESSFUL: Long mode supported. Setting up paging..."
  | MSG_LONG_NOT_SUPP => Byte.text "ERROR: Long mode not supported. System halted."
  | MSG_PAGING_SET_UP => Byte.text "SUCCESSFUL: Paging set up. Enabling paging ..."
  | MSG_PAGING_ENABLED => Byte.text "SUCCESSFUL: Paging enabled. Jumping into long mode..."
  | long_mode_enabled => Byte.text "MODE ENTERED: Long"

def Message.length (msg : Message) : Nat := msg.text.length

/-- The texts are short, and end where they seem to. -/
theorem Message.text_ok (msg : Message) : msg.text.length ≤ 96 ∧ ∀ c ∈ msg.text, c ≠ 0 := by
  have hcheck : (msg.text.length ≤ 96 ∧ msg.text.all (· ≠ 0) = true) := by cases msg <;> decide +kernel
  exact ⟨hcheck.1, Byte.ne_zero_of_all hcheck.2⟩

theorem Message.length_le (msg : Message) : msg.length ≤ 96 := msg.text_ok.1

theorem Message.chars (msg : Message) {i : Nat} (hi : i < msg.length) : msg.text.getD i 0 ≠ 0 := by
  rw [List.getD_eq_getElem _ _ hi]
  exact msg.text_ok.2 _ (List.getElem_mem hi)

theorem Message.nul (msg : Message) : msg.text.getD msg.length 0 = 0 := List.getD_eq_default _ _ (Nat.le_refl _)

/-- Where stage1 has its messages and `PRINT_STRING_POSSITION`, and what its calls push. The image ends
before the count of the memory map, and the variable is followed by code. -/
structure Stage1 where
  message : Message → BitVec 32
  printStringPossition : BitVec 32
  ret : BitVec 32
  message_range : ∀ msg, 0x80000 ≤ (message msg).toNat ∧ (message msg).toNat + msg.length + 1 ≤ 0x85FFD
  possition_range : 0x80000 ≤ printStringPossition.toNat ∧ printStringPossition.toNat + 8 ≤ 0x85FFD
  apart : ∀ msg, Apart (message msg).toNat (msg.length + 1) printStringPossition.toNat 8

/-! ## `print_32_bits` -/

structure Cpu where
  regs : Regs
  esp : BitVec 32
  eflags : BitVec 32
  cr0 : BitVec 32
  cr3 : BitVec 32
  cr4 : BitVec 32
  efer : BitVec 64
  mem : Nat → UInt8

namespace Cpu

def store32 (a x : BitVec 32) (s : Cpu) : Cpu := { s with mem := blitNum a.toNat 4 x.toNat s.mem }

def load32 (a : BitVec 32) (s : Cpu) : BitVec 32 := BitVec.ofNat 32 (littleEndian s.mem a.toNat 4)

def push (x : BitVec 32) (s : Cpu) : Cpu := store32 (s.esp - 4) x { s with esp := s.esp - 4 }

def pop (s : Cpu) : BitVec 32 × Cpu := (s.load32 s.esp, { s with esp := s.esp + 4 })

end Cpu

/-- Up to the loop. -/
def printOpen (l : Stage1) (s : Cpu) : Cpu :=
  let s := s.push s.regs.eax
  let s := s.push s.regs.edx
  let s := { s with regs := { s.regs with eax := 0 } }
  let s := { s with regs := { s.regs with edx := 0 } }
  let s := { s with regs := { s.regs with edx := s.load32 l.printStringPossition } }
  s.push s.regs.edx

/-- `.print_string_pm_done`. -/
def printClose (l : Stage1) (s : Cpu) : Cpu :=
  let (edx, s) := s.pop
  let s := { s with regs := { s.regs with edx := edx + 160 } }
  let s := s.store32 l.printStringPossition s.regs.edx
  let s := { s with regs := { s.regs with edx := 0, esi := 0, eax := 0 } }
  let (edx, s) := s.pop
  let s := { s with regs := { s.regs with edx } }
  let (eax, s) := s.pop
  { s with regs := { s.regs with eax } }

def Cpu.printing (s : Cpu) : Printing 32 := ⟨s.regs.esi, s.regs.edx, s.regs.eax, s.mem⟩

/-- `s` with what the loop leaves. -/
def Cpu.looped (s : Cpu) (p : Printing 32) : Cpu :=
  { s with regs := { s.regs with esi := p.str, edx := p.video, eax := p.acc }, mem := p.mem }

def print32Bits (l : Stage1) (fuel : Nat) (s : Cpu) : Option Cpu :=
  let s := printOpen l s
  (printLoop fuel s.printing).map fun p => printClose l (s.looped p)

/-- The call with a message in ESI. -/
def printMessage (l : Stage1) (msg : Message) (fuel : Nat) (s : Cpu) : Option Cpu := do
  let s := { s with regs := { s.regs with esi := l.message msg } }
  let s ← print32Bits l fuel (s.push l.ret)
  return { s with esp := s.esp + 4 }

/-! ## What is printed -/

/-- The stack in use, the cells of the message at `pos` and the variable. -/
def Stage1.printed (l : Stage1) (stack : Nat × Nat) (pos : Nat) (msg : Message) : List (Nat × Nat) :=
  [stack, (pos, 2 * msg.length), (l.printStringPossition.toNat, 4)]

/-- A message is printed at `pos`, and the position moves to the next line. -/
structure Printed (l : Stage1) (stack : Nat × Nat) (pos : Nat) (msg : Message) (s s' : Cpu) : Prop where
  esp : s'.esp = s.esp
  cr3 : s'.cr3 = s.cr3
  possition : littleEndian s'.mem l.printStringPossition.toNat 4 = pos + 160
  frame : Frame (l.printed stack pos msg) s.mem s'.mem

theorem Stage1.message_inImage (l : Stage1) (msg : Message) : InImage (l.message msg).toNat (msg.length + 1) := by
  have hmsg := l.message_range msg
  unfold InImage
  omega

section Printing

variable {l : Stage1} {stack : Nat × Nat} {pos n : Nat} {s : Cpu}

theorem Room.push (h : Room stack s.esp.toNat (n + 4)) (x : BitVec 32) :
    Frame [stack] s.mem (s.push x).mem ∧ Room stack (s.push x).esp.toNat n := by
  have hlo := h.lo
  have hhi := h.hi
  have hnext : (s.esp - 4).toNat + 4 = s.esp.toNat := by bv_omega
  refine ⟨Frame.blitNum (List.mem_singleton_self _) (by omega) (by omega) _ _, ⟨?_, ?_, h.below⟩⟩
  · show _ ≤ (s.esp - 4).toNat
    omega
  · show (s.esp - 4).toNat ≤ _
    omega

/-- Up to the loop only the stack is written; EDX is the position, which is also on the stack. -/
theorem printOpen_spec (hroom : Room stack s.esp.toNat 12)
    (hpos : littleEndian s.mem l.printStringPossition.toNat 4 = pos) :
    Frame [stack] s.mem (printOpen l s).mem ∧ (printOpen l s).esp.toNat + 12 = s.esp.toNat ∧
      (printOpen l s).regs.edx.toNat = pos ∧ littleEndian (printOpen l s).mem (printOpen l s).esp.toNat 4 = pos := by
  have hposs := l.possition_range
  have hlo := hroom.lo
  have hlt := littleEndian_lt s.mem l.printStringPossition.toNat 4
  obtain ⟨hframe₁, hroom₁⟩ := hroom.push s.regs.eax
  obtain ⟨hframe₂, hroom₂⟩ := hroom₁.push s.regs.edx
  obtain ⟨hframe₃, -⟩ := hroom₂.push (printOpen l s).regs.edx
  have hframe := hframe₁.trans hframe₂
  have hread : (Cpu.load32 l.printStringPossition ((s.push s.regs.eax).push s.regs.edx)).toNat = pos := by
    have hkept := littleEndian_congr fun i (_ : i < 4) =>
      hroom.keeps hframe (l.printStringPossition.toNat + i) (by omega)
    unfold Cpu.load32
    rw [hkept, hpos, BitVec.toNat_ofNat, Nat.mod_eq_of_lt (by omega)]
  have hesp : (printOpen l s).esp.toNat + 12 = s.esp.toNat := by
    show (s.esp - 4 - 4 - 4).toNat + 12 = _
    bv_omega
  have hmem : (printOpen l s).mem = blitNum (printOpen l s).esp.toNat 4 (printOpen l s).regs.edx.toNat
      ((s.push s.regs.eax).push s.regs.edx).mem := rfl
  refine ⟨hframe.trans hframe₃, hesp, hread, ?_⟩
  rw [hmem, littleEndian_blitNum, show (printOpen l s).regs.edx.toNat = pos from hread]
  exact Nat.mod_eq_of_lt (by omega)

theorem print32Bits_spec {msg : Message} (hroom : Room stack s.esp.toNat 12) (hscreen : OnScreen pos)
    (hesi : s.regs.esi = l.message msg) (hstr : StringAt s.mem (l.message msg).toNat msg.length)
    (hpos : littleEndian s.mem l.printStringPossition.toNat 4 = pos) :
    ∃ s', (∀ fuel, print32Bits l fuel s = if fuel < msg.length + 1 then none else some s') ∧
      Printed l stack pos msg s s' := by
  have hmsg := (l.message_range msg).1
  have hhi := hroom.hi
  have hbelow := hroom.below
  obtain ⟨hframe, hopen, hedx, hsaved⟩ := printOpen_spec hroom hpos
  have hesi' : (printOpen l s).printing.str = l.message msg := hesi
  have hstr' : StringAt (printOpen l s).mem (l.message msg).toNat msg.length :=
    hstr.congr fun i _ => hroom.keeps hframe _ (by omega)
  obtain ⟨p, hrun, hprint, hpopped⟩ := printLoop_saved (by decide) (by decide) msg.length_le
    (s := (printOpen l s).printing) (hesi' ▸ l.message_inImage msg) (hesi' ▸ hstr') hedx hscreen (by omega) hsaved
  have hnext : (BitVec.ofNat 32 (littleEndian p.mem (printOpen l s).esp.toNat 4) + 160).toNat = pos + 160 := by
    unfold OnScreen at hscreen
    rw [hpopped]
    bv_omega
  have hmem : (printClose l ((printOpen l s).looped p)).mem =
      blitNum l.printStringPossition.toNat 4 (pos + 160) p.mem := by
    rw [← hnext]
    rfl
  refine ⟨printClose l ((printOpen l s).looped p), fun fuel => ?_, ?_, rfl, ?_, ?_⟩
  · unfold print32Bits
    simp only [hrun fuel]
    split
    · rfl
    · rfl
  · show (printOpen l s).esp + 4 + 4 + 4 = s.esp
    bv_omega
  · unfold OnScreen at hscreen
    rw [hmem, littleEndian_blitNum]
    exact Nat.mod_eq_of_lt (by omega)
  · have hin : (l.printStringPossition.toNat, 4) ∈ l.printed stack pos msg := by simp [Stage1.printed]
    rw [hmem]
    refine ((hframe.subset ?_).trans (hprint.subset ?_)).trans (Frame.blitNum hin (Nat.le_refl _) (Nat.le_refl _) _ _)
    · simp [Stage1.printed]
    · simp [Stage1.printed]

theorem printMessage_spec (msg : Message) (hroom : Room stack s.esp.toNat 16) (hscreen : OnScreen pos)
    (hstr : StringAt s.mem (l.message msg).toNat msg.length)
    (hpos : littleEndian s.mem l.printStringPossition.toNat 4 = pos) :
    ∃ s', (∀ fuel, printMessage l msg fuel s = if fuel < msg.length + 1 then none else some s') ∧
      Printed l stack pos msg s s' := by
  have hmsg := (l.message_range msg).1
  have hposs := l.possition_range.1
  let called : Cpu := { s with regs := { s.regs with esi := l.message msg } }
  obtain ⟨hframe, hroom'⟩ := Room.push (s := called) hroom l.ret
  have hkept := hroom.keeps hframe
  obtain ⟨s', hrun, hprinted⟩ := print32Bits_spec hroom' hscreen rfl (hstr.congr fun i _ => hkept _ (by omega))
    ((littleEndian_congr fun i _ => hkept _ (by omega)).trans hpos)
  refine ⟨{ s' with esp := s'.esp + 4 }, fun fuel => ?_, ?_, hprinted.cr3, hprinted.possition, ?_⟩
  · unfold printMessage
    show (print32Bits l fuel (called.push l.ret) >>= _) = _
    rw [hrun fuel]
    split
    · rfl
    · rfl
  · show s'.esp + 4 = s.esp
    rw [hprinted.esp]
    show s.esp - 4 + 4 = s.esp
    bv_omega
  · exact (hframe.subset (by simp [Stage1.printed])).trans hprinted.frame

end Printing

/-! ## The data of stage1 in memory -/

/-- The messages are in memory, and the next one is printed at `pos`. -/
structure Stage1.Loaded (l : Stage1) (pos : Nat) (m : Nat → UInt8) : Prop where
  text : ∀ msg i, i ≤ msg.length → m ((l.message msg).toNat + i) = msg.text.getD i 0
  possition : littleEndian m l.printStringPossition.toNat 4 = pos

theorem Stage1.Loaded.stringAt {l : Stage1} {pos : Nat} {m : Nat → UInt8} (h : l.Loaded pos m) (msg : Message) :
    StringAt m (l.message msg).toNat msg.length :=
  ⟨fun i hi => by rw [h.text msg i (Nat.le_of_lt hi)]; exact msg.chars hi,
    by rw [h.text msg _ (Nat.le_refl _)]; exact msg.nul⟩

/-- What is written outside the image of stage1 keeps its data. -/
theorem Stage1.Loaded.frame {l : Stage1} {pos : Nat} {m m' : Nat → UInt8} (h : l.Loaded pos m)
    {rs : List (Nat × Nat)} (hframe : Frame rs m m') (hrs : ∀ r ∈ rs, Apart r.1 r.2 0x80000 0x5FFD) :
    l.Loaded pos m' := by
  have hkeep : ∀ k, 0x80000 ≤ k → k < 0x85FFD → m' k = m k := by
    intro k h1 h2
    refine hframe k fun r hr => ?_
    have := hrs r hr
    unfold Apart at this
    omega
  have hposs := l.possition_range
  refine ⟨fun msg i hi => ?_, ?_⟩
  · have hrange := l.message_range msg
    rw [hkeep _ (by omega) (by omega), h.text msg i hi]
  · exact (littleEndian_congr fun i hi => hkeep _ (by omega) (by omega)).trans h.possition

/-- The stack that stage1 uses in protected and in long mode. -/
abbrev stackRoom : Nat × Nat := (0x7FF00, 0x100)

/-- What stage1 writes from protected mode on: the tables, its stack, the print position (which long mode
stores in eight bytes) and the screen. -/
def Stage1.writes (l : Stage1) : List (Nat × Nat) :=
  [(0x1000, 0x4000), stackRoom, (l.printStringPossition.toNat, 8), (0xB8000, 0x8000)]

theorem Stage1.printed_covered (l : Stage1) {pos : Nat} (hscreen : OnScreen pos) (msg : Message) :
    Covered (l.printed stackRoom pos msg) l.writes := by
  have hlen := msg.length_le
  unfold OnScreen at hscreen
  unfold Stage1.printed
  rintro r hr
  simp only [List.mem_cons, List.not_mem_nil, or_false] at hr
  rcases hr with rfl | rfl | rfl
  · exact ⟨stackRoom, by simp [Stage1.writes], Nat.le_refl _, Nat.le_refl _⟩
  · exact ⟨(0xB8000, 0x8000), by simp [Stage1.writes], by simp only; omega, by simp only; omega⟩
  · exact ⟨(l.printStringPossition.toNat, 8), by simp [Stage1.writes], Nat.le_refl _, by simp only; omega⟩

/-- The messages are kept by what stage1 writes. -/
theorem Stage1.Loaded.written {l : Stage1} {pos pos' : Nat} {m m' : Nat → UInt8} (h : l.Loaded pos m)
    (hframe : Frame l.writes m m') (hpos : littleEndian m' l.printStringPossition.toNat 4 = pos') :
    l.Loaded pos' m' := by
  refine ⟨fun msg i hi => ?_, hpos⟩
  have hmsg := l.message_range msg
  have hapart := l.apart msg
  unfold Apart at hapart
  refine (hframe _ ?_).trans (h.text msg i hi)
  unfold Stage1.writes
  rintro r hr
  simp only [List.mem_cons, List.not_mem_nil, or_false] at hr
  rcases hr with rfl | rfl | rfl | rfl
  · simp only
    omega
  · simp only
    omega
  · simp only
    omega
  · simp only
    omega

end SnakeOS.Boot
