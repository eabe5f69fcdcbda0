/-
Protected mode: `start_protected_mode` of boot/x86/stage1/stage1.asm checks the processor, sets up
paging and enables it. With paging, the tables keep every address the code uses as it is.
-/
import SnakeOS.Boot.Paging

namespace SnakeOS.Boot

open Mem

/-! ## The processor -/

structure CpuidReply where
  eax : BitVec 32
  ebx : BitVec 32
  ecx : BitVec 32
  edx : BitVec 32

/-- The flags that `popfd` changes, and what `cpuid` replies for EAX. -/
structure Processor where
  flags : BitVec 32
  cpuid : BitVec 32 → CpuidReply

namespace Cpu

def popfd (p : Processor) (s : Cpu) : Cpu :=
  let (x, s) := s.pop
  { s with eflags := (x &&& p.flags) ||| (s.eflags &&& ~~~p.flags) }

def cpuid (p : Processor) (s : Cpu) : Cpu :=
  let ⟨eax, ebx, ecx, edx⟩ := p.cpuid s.regs.eax
  { s with regs := { s.regs with eax, ebx, ecx, edx } }

end Cpu

/-! ## The checks -/

abbrev EFLAGS_ID : BitVec 32 := 1 <<< 21
abbrev CPUID_EXTENSIONS : BitVec 32 := 0x80000000
abbrev CPUID_EXT_FEATURES : BitVec 32 := 0x80000001
abbrev CPUID_EDX_EXT_FEAT_LM : BitVec 32 := 1 <<< 29

/-- The end of a check, with whether it returns: after the other message the processor is halted. -/
def report (l : Stage1) (found : Bool) (supported notSupported : Message) (fuel : Nat) (s : Cpu) :
    Option (Cpu × Bool) := do
  if found then
    let s ← printMessage l supported fuel s
    return ({ s with esp := s.esp + 4 }, true)
  else
    let s ← printMessage l notSupported fuel s
    return (s, false)

/-- `check_CPUID` up to the jump: EAX has the flags that could be changed. -/
def flipId (p : Processor) (s : Cpu) : Cpu :=
  let s := s.push s.eflags
  let (eax, s) := s.pop
  let s := { s with regs := { s.regs with eax } }
  let s := { s with regs := { s.regs with ecx := s.regs.eax } }
  let s := { s with regs := { s.regs with eax := s.regs.eax ^^^ EFLAGS_ID } }
  let s := s.push s.regs.eax
  let s := s.popfd p
  let s := s.push s.eflags
  let (eax, s) := s.pop
  let s := { s with regs := { s.regs with eax } }
  let s := s.push s.regs.ecx
  let s := s.popfd p
  { s with regs := { s.regs with eax := s.regs.eax ^^^ s.regs.ecx } }

def checkCPUID (l : Stage1) (p : Processor) (fuel : Nat) (s : Cpu) : Option (Cpu × Bool) :=
  let s := flipId p s
  report l (s.regs.eax ≠ 0) .MSG_CPUID_SUPP .MSG_CPUID_NOT_SUPP fuel s

def checkExtendedFunctions (l : Stage1) (p : Processor) (fuel : Nat) (s : Cpu) : Option (Cpu × Bool) :=
  let s := { s with regs := { s.regs with eax := CPUID_EXTENSIONS } }
  let s := s.cpuid p
  report l (CPUID_EXT_FEATURES ≤ s.regs.eax) .MSG_EXT_FUNC_SUPP .MSG_EXT_FUNC_NOT_SUPP fuel s

def checkLongModeSupport (l : Stage1) (p : Processor) (fuel : Nat) (s : Cpu) : Option (Cpu × Bool) :=
  let s := { s with regs := { s.regs with eax := CPUID_EXT_FEATURES } }
  let s := s.cpuid p
  report l (s.regs.edx &&& CPUID_EDX_EXT_FEAT_LM ≠ 0) .MSG_LONG_SUPP .MSG_LONG_NOT_SUPP fuel s

/-! ## `start_protected_mode` -/

/-- `enable_paging` up to its message. -/
def setPaging (s : Cpu) : Cpu :=
  let s := { s with regs := { s.regs with eax := page_table_l4_address } }
  let s := { s with cr3 := s.regs.eax }
  let s := { s with regs := { s.regs with eax := s.cr4 } }
  let s := { s with regs := { s.regs with eax := s.regs.eax ||| 1 <<< 5 } }
  let s := { s with cr4 := s.regs.eax }
  let s := { s with regs := { s.regs with ecx := 0xC0000080 } }
  let s := { s with regs := { s.regs with eax := s.efer.extractLsb' 0 32, edx := s.efer.extractLsb' 32 32 } }
  let s := { s with regs := { s.regs with eax := s.regs.eax ||| 1 <<< 8 } }
  let s := { s with efer := s.regs.edx ++ s.regs.eax }
  let s := { s with regs := { s.regs with eax := s.cr0 } }
  let s := { s with regs := { s.regs with eax := s.regs.eax ||| 1 <<< 31 } }
  { s with cr0 := s.regs.eax }

def enablePaging (l : Stage1) (fuel : Nat) (s : Cpu) : Option Cpu := do
  let s ← printMessage l .MSG_PAGING_ENABLED fuel (setPaging s)
  return { s with esp := s.esp + 4 }

abbrev DATA_SEG : BitVec 16 := 16

/-- Up to the first message; the segment registers are not modelled. -/
def resetStack (s : Cpu) : Cpu :=
  let s := { s with regs := { s.regs with eax := setLow s.regs.eax DATA_SEG } }
  let s := { s with regs := { s.regs with ebp := 0x80000 } }
  { s with esp := s.regs.ebp }

/-- With whether the jump to long mode is reached. -/
def startProtectedMode (l : Stage1) (p : Processor) (fuel : Nat) (s : Cpu) : Option (Cpu × Bool) := do
  let s ← printMessage l .MSG_PROT_MODE fuel (resetStack s)
  let s := { s with regs := { s.regs with esi := 0 } }
  let (s, returns) ← checkCPUID l p fuel (s.push l.ret)
  if !returns then return (s, false) else
  let (s, returns) ← checkExtendedFunctions l p fuel (s.push l.ret)
  if !returns then return (s, false) else
  let (s, returns) ← checkLongModeSupport l p fuel (s.push l.ret)
  if !returns then return (s, false) else
  let s ← setUpPaging l fuel (s.push l.ret)
  let s ← enablePaging l fuel (s.push l.ret)
  let s := { s with regs := { s.regs with eax := s.load32 l.printStringPossition } }
  return ({ s with regs := { s.regs with ecx := 0 } }, true)

/-! ## The stack -/

/-- A word is left above the stack. -/
def Cpu.leave (x : BitVec 32) (s : Cpu) : Cpu := { s with mem := (s.push x).mem }

theorem Cpu.pop_push (x : BitVec 32) (s : Cpu) : (s.push x).pop = (x, s.leave x) := by
  have hread : littleEndian (s.push x).mem (s.push x).esp.toNat 4 = x.toNat :=
    (littleEndian_blitNum ..).trans (Nat.mod_eq_of_lt x.isLt)
  have hesp : (s.push x).esp + 4 = s.esp := by
    show s.esp - 4 + 4 = s.esp
    bv_omega
  unfold Cpu.pop Cpu.load32
  rw [hread, hesp, BitVec.ofNat_toNat, BitVec.setWidth_eq]
  rfl

/-- Stage1 with `n` messages on the screen and the stack down to `esp`, over the memory `m₀`. -/
structure At (l : Stage1) (n : Nat) (esp : BitVec 32) (m₀ : Nat → UInt8) (s : Cpu) : Prop where
  loaded : l.Loaded (0xB8000 + 160 * n) s.mem
  esp : s.esp = esp
  frame : Frame l.writes m₀ s.mem

section At

variable {l : Stage1} {n : Nat} {esp : BitVec 32} {m₀ : Nat → UInt8} {s s' : Cpu}

theorem At.congr (h : At l n esp m₀ s) (hesp : s'.esp = s.esp) (hmem : s'.mem = s.mem) : At l n esp m₀ s' := by
  refine ⟨?_, hesp.trans h.esp, ?_⟩
  · rw [hmem]
    exact h.loaded
  · rw [hmem]
    exact h.frame

theorem At.push (h : At l n esp m₀ s) (hroom : Room stackRoom esp.toNat 4) (x : BitVec 32) :
    At l n (esp - 4) m₀ (s.push x) := by
  have hposs := l.possition_range.1
  obtain rfl := h.esp
  obtain ⟨hframe, -⟩ := Room.push (n := 0) hroom x
  have hposition : littleEndian (s.push x).mem l.printStringPossition.toNat 4 = 0xB8000 + 160 * n :=
    (littleEndian_congr fun i _ => hroom.keeps hframe _ (by omega)).trans h.loaded.possition
  have hframe' : Frame l.writes s.mem (s.push x).mem := hframe.subset (by simp [Stage1.writes])
  exact ⟨h.loaded.written hframe' hposition, rfl, h.frame.trans hframe'⟩

theorem At.leave (h : At l n esp m₀ s) (hroom : Room stackRoom esp.toNat 4) (x : BitVec 32) :
    At l n esp m₀ (s.leave x) :=
  have hpush := h.push hroom x
  ⟨hpush.loaded, h.esp, hpush.frame⟩

theorem onScreen_line {n : Nat} (hn : n ≤ 8) : OnScreen (0xB8000 + 160 * n) := by
  unfold OnScreen
  omega

theorem At.print (h : At l n esp m₀ s) (hn : n ≤ 8) (hroom : Room stackRoom esp.toNat 16) (msg : Message) :
    ∃ s', (∀ fuel, 512 ≤ fuel → printMessage l msg fuel s = some s') ∧ At l (n + 1) esp m₀ s' := by
  have hlen := msg.length_le
  obtain rfl := h.esp
  obtain ⟨s', hrun, hprinted⟩ :=
    printMessage_spec msg hroom (onScreen_line hn) (h.loaded.stringAt msg) h.loaded.possition
  have hframe := hprinted.frame.widen (l.printed_covered (onScreen_line hn) msg)
  exact ⟨s', fun fuel hfuel => (hrun fuel).trans (if_neg (by omega)), h.loaded.written hframe hprinted.possition,
    hprinted.esp, h.frame.trans hframe⟩

/-- The stack at the start, and in a routine. -/
theorem room_start : Room stackRoom (0x80000 : BitVec 32).toNat 16 := ⟨by decide, by decide, by decide⟩

theorem room_called : Room stackRoom (0x7FFFC : BitVec 32).toNat 16 := ⟨by decide, by decide, by decide⟩

theorem Room.less {stack : Nat × Nat} {sp n k : Nat} (h : Room stack sp n) (hk : k ≤ n) : Room stack sp k :=
  have hlo := h.lo
  ⟨by omega, h.hi, h.below⟩

theorem At.ret (h : At l n 0x7FFFC m₀ s) : At l n 0x80000 m₀ { s with esp := s.esp + 4 } :=
  ⟨h.loaded, congrArg (· + 4) h.esp, h.frame⟩

theorem At.call (h : At l n 0x80000 m₀ s) : At l n 0x7FFFC m₀ (s.push l.ret) :=
  h.push (room_start.less (by decide)) l.ret

theorem At.report (h : At l n 0x7FFFC m₀ s) (hn : n ≤ 8) {found : Bool} (hfound : found = true)
    (supported notSupported : Message) :
    ∃ s', (∀ fuel, 512 ≤ fuel → report l found supported notSupported fuel s = some (s', true)) ∧
      At l (n + 1) 0x80000 m₀ s' := by
  obtain ⟨s', hrun, hat⟩ := h.print hn room_called supported
  refine ⟨_, fun fuel hfuel => ?_, hat.ret⟩
  unfold Boot.report
  rw [if_pos hfound, hrun fuel hfuel]
  rfl

end At

/-! ## A processor with long mode -/

structure LongModeProcessor extends Processor where
  idFlag : EFLAGS_ID &&& flags ≠ 0
  extended : CPUID_EXT_FEATURES ≤ (cpuid CPUID_EXTENSIONS).eax
  longMode : (cpuid CPUID_EXT_FEATURES).edx &&& CPUID_EDX_EXT_FEAT_LM ≠ 0

/-- The flags after `popfd`, compared to what they were. -/
theorem xor_masked (e x mask : BitVec 32) : (((e ^^^ x) &&& mask) ||| (e &&& ~~~mask)) ^^^ e = x &&& mask := by
  ext i hi
  simp only [BitVec.getElem_xor, BitVec.getElem_or, BitVec.getElem_and, BitVec.getElem_not]
  cases e[i] <;> cases x[i] <;> cases mask[i] <;> rfl

theorem flipId_spec (p : Processor) (s : Cpu) : ∃ x y, (flipId p s).regs.eax = EFLAGS_ID &&& p.flags ∧
    (flipId p s).esp = s.esp ∧
    (flipId p s).mem = ((((s.leave s.eflags).leave (s.eflags ^^^ EFLAGS_ID)).leave x).leave y).mem := by
  let changed := ((s.eflags ^^^ EFLAGS_ID) &&& p.flags) ||| (s.eflags &&& ~~~p.flags)
  refine ⟨changed, s.eflags, ?_, ?_, ?_⟩
  · rw [← xor_masked s.eflags]
    unfold flipId Cpu.popfd
    simp only [Cpu.pop_push]
    rfl
  · unfold flipId Cpu.popfd
    simp only [Cpu.pop_push]
    rfl
  · unfold flipId Cpu.popfd
    simp only [Cpu.pop_push]
    rfl

section Checks

variable {l : Stage1} {n : Nat} {m₀ : Nat → UInt8} {s : Cpu} (p : LongModeProcessor)

theorem At.checkCPUID (h : At l n 0x7FFFC m₀ s) (hn : n ≤ 8) :
    ∃ s', (∀ fuel, 512 ≤ fuel → checkCPUID l p.toProcessor fuel s = some (s', true)) ∧ At l (n + 1) 0x80000 m₀ s' := by
  obtain ⟨x, y, heax, hesp, hmem⟩ := flipId_spec p.toProcessor s
  have hleave : ∀ {s : Cpu} (x : BitVec 32), At l n 0x7FFFC m₀ s → At l n 0x7FFFC m₀ (s.leave x) :=
    fun x h => h.leave (room_called.less (by decide)) x
  have hpushed := hleave y (hleave x (hleave (s.eflags ^^^ EFLAGS_ID) (hleave s.eflags h)))
  have hat : At l n 0x7FFFC m₀ (flipId p.toProcessor s) := hpushed.congr hesp hmem
  exact hat.report hn (decide_eq_true (heax ▸ p.idFlag)) ..

theorem At.checkExtendedFunctions (h : At l n 0x7FFFC m₀ s) (hn : n ≤ 8) :
    ∃ s', (∀ fuel, 512 ≤ fuel → checkExtendedFunctions l p.toProcessor fuel s = some (s', true)) ∧
      At l (n + 1) 0x80000 m₀ s' := by
  have hat : At l n 0x7FFFC m₀ (Cpu.cpuid p.toProcessor { s with regs := { s.regs with eax := CPUID_EXTENSIONS } }) :=
    h.congr rfl rfl
  exact hat.report hn (decide_eq_true p.extended) ..

theorem At.checkLongModeSupport (h : At l n 0x7FFFC m₀ s) (hn : n ≤ 8) :
    ∃ s', (∀ fuel, 512 ≤ fuel → checkLongModeSupport l p.toProcessor fuel s = some (s', true)) ∧
      At l (n + 1) 0x80000 m₀ s' := by
  have hat : At l n 0x7FFFC m₀ (Cpu.cpuid p.toProcessor { s with regs := { s.regs with eax := CPUID_EXT_FEATURES } }) :=
    h.congr rfl rfl
  exact hat.report hn (decide_eq_true p.longMode) ..

end Checks

/-! ## The way to long mode -/

section LongMode

variable {l : Stage1} {n : Nat} {m₀ : Nat → UInt8} {s : Cpu}

theorem At.setUpPaging (h : At l n 0x7FFFC m₀ s) (hn : n ≤ 8) :
    ∃ s', (∀ fuel, 512 ≤ fuel → setUpPaging l fuel s = some s') ∧ At l (n + 1) 0x80000 m₀ s' := by
  have hesp := h.esp
  obtain ⟨s', hrun, hset⟩ :=
    setUpPaging_spec (by decide) (hesp ▸ room_called) (onScreen_line hn) (h.loaded.stringAt _) h.loaded.possition
  have hframe := hset.frame.widen (l.pagingWrites_covered (onScreen_line hn))
  exact ⟨s', fun fuel hfuel => (hrun fuel).trans (if_neg (by omega)), h.loaded.written hframe hset.possition,
    hset.esp.trans (congrArg (· + 4) hesp), h.frame.trans hframe⟩

theorem At.enablePaging (h : At l n 0x7FFFC m₀ s) (hn : n ≤ 8) :
    ∃ s', (∀ fuel, 512 ≤ fuel → enablePaging l fuel s = some s') ∧ At l (n + 1) 0x80000 m₀ s' := by
  have hat : At l n 0x7FFFC m₀ (setPaging s) := h.congr rfl rfl
  obtain ⟨s', hrun, hat'⟩ := hat.print hn room_called .MSG_PAGING_ENABLED
  refine ⟨_, fun fuel hfuel => ?_, hat'.ret⟩
  unfold Boot.enablePaging
  rw [hrun fuel hfuel]
  rfl

/-- On a processor with long mode, `start_protected_mode` gets there with six messages printed. -/
theorem startProtectedMode_spec (p : LongModeProcessor) (h : l.Loaded 0xB8000 s.mem) :
    ∃ s', (∀ fuel, 512 ≤ fuel → startProtectedMode l p.toProcessor fuel s = some (s', true)) ∧
      At l 6 0x80000 s.mem s' ∧ s'.regs.eax.toNat = 0xB8000 + 160 * 6 := by
  have hstart : At l 0 0x80000 s.mem (resetStack s) := ⟨h, rfl, Frame.refl _ _⟩
  obtain ⟨s₁, hrun₁, hat₁⟩ := hstart.print (by omega) room_start .MSG_PROT_MODE
  have hcalled : At l 1 0x80000 s.mem { s₁ with regs := { s₁.regs with esi := 0 } } := hat₁.congr rfl rfl
  obtain ⟨s₂, hrun₂, hat₂⟩ := hcalled.call.checkCPUID p (by omega)
  obtain ⟨s₃, hrun₃, hat₃⟩ := hat₂.call.checkExtendedFunctions p (by omega)
  obtain ⟨s₄, hrun₄, hat₄⟩ := hat₃.call.checkLongModeSupport p (by omega)
  obtain ⟨s₅, hrun₅, hat₅⟩ := hat₄.call.setUpPaging (by omega)
  obtain ⟨s₆, hrun₆, hat₆⟩ := hat₅.call.enablePaging (by omega)
  refine ⟨{ s₆ with regs := { s₆.regs with eax := s₆.load32 l.printStringPossition, ecx := 0 } }, fun fuel hfuel => ?_,
    hat₆.congr rfl rfl, ?_⟩
  · unfold startProtectedMode
    simp only [hrun₁ fuel hfuel, hrun₂ fuel hfuel, hrun₃ fuel hfuel, hrun₄ fuel hfuel, hrun₅ fuel hfuel,
      hrun₆ fuel hfuel, Option.bind_eq_bind, Option.bind_some, Bool.not_true, Bool.false_eq_true, if_false]
    rfl
  · show (BitVec.ofNat 32 (littleEndian s₆.mem l.printStringPossition.toNat 4)).toNat = _
    rw [hat₆.loaded.possition]
    decide

end LongMode

end SnakeOS.Boot
