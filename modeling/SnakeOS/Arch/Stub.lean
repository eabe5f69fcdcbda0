/-
The interrupt stubs of arch/x86/idt.asm, from the interrupt to the return with `iretq`. The stub
saves RDI and RAX; the C function it calls may change the other registers that the calling
convention does not preserve, and everything is pushed below the interrupted RSP, where the
compiler may keep data.
-/
import SnakeOS.Lib.Word

namespace SnakeOS.Arch

open Word

/-! ## The processor -/

inductive Reg
  | rax | rbx | rcx | rdx | rsi | rdi | rbp | rsp | r8 | r9 | r10 | r11 | r12 | r13 | r14 | r15
  deriving DecidableEq, Repr

@[ext] structure Cpu where
  regs : Reg → BitVec 64
  rip : BitVec 64
  cs : BitVec 16
  ss : BitVec 16
  rflags : BitVec 64
  mem : Memory

namespace Cpu

def set (r : Reg) (v : BitVec 64) (s : Cpu) : Cpu :=
  { s with regs := fun r' => if r' = r then v else s.regs r' }

def push (v : BitVec 64) (s : Cpu) : Cpu :=
  let sp := s.regs .rsp - 8
  { s.set .rsp sp with mem := store sp v s.mem }

def pop (r : Reg) (s : Cpu) : Cpu :=
  let sp := s.regs .rsp
  (s.set .rsp (sp + 8)).set r (load s.mem sp)

/-- An interrupt through a gate of `idt_init`: no stack switch, RSP is aligned to 16 bytes, the
frame is pushed and TF, IF, NT, RF and VM are cleared. -/
def interrupt (s : Cpu) : Cpu :=
  let sp := s.regs .rsp
  let s' := s.set .rsp (sp &&& ~~~15)
  let s' := s'.push (s.ss.setWidth 64)
  let s' := s'.push sp
  let s' := s'.push s.rflags
  let s' := s'.push (s.cs.setWidth 64)
  let s' := s'.push s.rip
  { s' with cs := 0x08, rflags := s.rflags &&& ~~~0x34300 }

def iretq (s : Cpu) : Cpu :=
  let sp := s.regs .rsp
  { s.set .rsp (load s.mem (sp + 24)) with
    rip := load s.mem sp
    cs := (load s.mem (sp + 8)).setWidth 16
    rflags := load s.mem (sp + 16)
    ss := (load s.mem (sp + 32)).setWidth 16 }

end Cpu

/-! ## Calls -/

/-- The registers that a called function preserves. -/
def preserved : List Reg := [.rbx, .rbp, .r12, .r13, .r14, .r15, .rsp]

/-- The registers that it may change and the stub does not save. -/
def unsaved : List Reg := [.rcx, .rdx, .rsi, .r8, .r9, .r10, .r11]

/-- A function as its caller sees it, from its first instruction to its return instruction: it
preserves registers, and the 64 bytes that the stub has on the stack with the return address. -/
structure AbiFunction where
  run : Cpu → Cpu
  regs : ∀ s, ∀ r ∈ preserved, (run s).regs r = s.regs r
  stack : ∀ s, ∀ k < 64, (run s).mem (s.regs .rsp + BitVec.ofNat 64 k) = s.mem (s.regs .rsp + BitVec.ofNat 64 k)

/-- `call f`, with the return address `ret`. -/
def Cpu.call (f : AbiFunction) (ret : BitVec 64) (s : Cpu) : Cpu :=
  let s := f.run (s.push ret)
  s.set .rsp (s.regs .rsp + 8)

abbrev PIC_IDT_BASE : BitVec 64 := 0x20

/-- `stub_vec`. -/
def stub (irqHandle exceptionHandle : AbiFunction) (ret vec : BitVec 64) (s : Cpu) : Cpu :=
  let s := s.set .rsi (s.regs .rsp)
  -- preserve caller-saved regs we touch
  let s := s.push (s.regs .rdi)
  let s := s.push (s.regs .rax)
  let s := s.set .rdi vec
  let s :=
    if (s.regs .rdi).slt PIC_IDT_BASE then s.call exceptionHandle ret
    else (s.set .rdi (s.regs .rdi - PIC_IDT_BASE)).call irqHandle ret
  let s := s.pop .rax
  let s := s.pop .rdi
  s.iretq

/-- What the interrupted code finds when it goes on, after the interrupt of a line. -/
def interrupted (irqHandle exceptionHandle : AbiFunction) (ret : BitVec 64) (irq : Fin 16) (s : Cpu) : Cpu :=
  stub irqHandle exceptionHandle ret (PIC_IDT_BASE + BitVec.ofNat 64 irq) s.interrupt

/-- The interrupted code finds its registers and the 128 bytes below its RSP as they were. -/
structure Transparent (s s' : Cpu) : Prop where
  regs : ∀ r, s'.regs r = s.regs r
  redZone : ∀ d, 1 ≤ d → d ≤ 128 → s'.mem (s.regs .rsp - BitVec.ofNat 64 d) = s.mem (s.regs .rsp - BitVec.ofNat 64 d)

/-! ## The state in which `irq_handle` is entered -/

/-- The aligned RSP. -/
def Cpu.top (s : Cpu) : BitVec 64 := s.regs .rsp &&& ~~~15

/-- What is pushed below the aligned RSP. -/
def Cpu.pushed (ret : BitVec 64) (s : Cpu) : List (BitVec 64) :=
  [s.ss.setWidth 64, s.regs .rsp, s.rflags, s.cs.setWidth 64, s.rip, s.regs .rdi, s.regs .rax, ret]

def irqEntry (ret : BitVec 64) (irq : Fin 16) (s : Cpu) : Cpu :=
  { regs := fun r => if r = .rsp then slot s.top 7 else if r = .rdi then BitVec.ofNat 64 irq
      else if r = .rsi then slot s.top 4 else s.regs r
    rip := s.rip
    cs := 0x08
    ss := s.ss
    rflags := s.rflags &&& ~~~0x34300
    mem := pushAll (s.pushed ret) s.top s.mem }

/-- The state after the stub, from that in which `irq_handle` returns. -/
def leave (s : Cpu) : Cpu := (((s.set .rsp (s.regs .rsp + 8)).pop .rax).pop .rdi).iretq

theorem irq_vector (irq : Fin 16) :
    (PIC_IDT_BASE + BitVec.ofNat 64 irq).slt PIC_IDT_BASE = false ∧
      PIC_IDT_BASE + BitVec.ofNat 64 irq - PIC_IDT_BASE = BitVec.ofNat 64 irq := by
  revert irq
  decide

/-- From the interrupt to the first instruction of `irq_handle`. -/
theorem push_ret_eq (ret : BitVec 64) (irq : Fin 16) (s : Cpu) (rdi : BitVec 64) :
    (((((s.interrupt.set .rsi (s.interrupt.regs .rsp)).push (s.regs .rdi)).push (s.regs .rax)).set .rdi rdi).set .rdi
      (BitVec.ofNat 64 irq)).push ret = irqEntry ret irq s := by
  have h4 : s.top - 8 - 8 - 8 - 8 - 8 = slot s.top 4 := by unfold slot; bv_omega
  have h7 : slot s.top 4 - 8 - 8 - 8 = slot s.top 7 := by unfold slot; bv_omega
  have hframe : s.interrupt.regs .rsp = slot s.top 4 := h4
  apply Cpu.ext
  · funext r
    cases r with
    | rsp => exact (congrArg (· - 8 - 8 - 8) hframe).trans h7
    | rsi => exact hframe
    | _ => rfl
  all_goals rfl

/-- The vectors of the hardware interrupts take the IRQ path. -/
theorem interrupted_eq (irqHandle exceptionHandle : AbiFunction) (ret : BitVec 64) (irq : Fin 16) (s : Cpu) :
    interrupted irqHandle exceptionHandle ret irq s = leave (irqHandle.run (irqEntry ret irq s)) := by
  obtain ⟨hpath, hirq⟩ := irq_vector irq
  let saved := ((s.interrupt.set .rsi (s.interrupt.regs .rsp)).push (s.regs .rdi)).push (s.regs .rax)
  let vec := PIC_IDT_BASE + BitVec.ofNat 64 irq
  have hcall : (if vec.slt PIC_IDT_BASE then (saved.set .rdi vec).call exceptionHandle ret
      else ((saved.set .rdi vec).set .rdi (vec - PIC_IDT_BASE)).call irqHandle ret) =
      ((saved.set .rdi vec).set .rdi (BitVec.ofNat 64 irq)).call irqHandle ret := by
    rw [hpath, hirq]
    rfl
  refine (congrArg (fun s => ((s.pop .rax).pop .rdi).iretq) hcall).trans ?_
  unfold Cpu.call leave
  rw [push_ret_eq]

/-! ## The state after the interrupt -/

theorem Cpu.pushed_length (ret : BitVec 64) (s : Cpu) : (s.pushed ret).length = 8 := rfl

/-- What was pushed is there when `irq_handle` returns. -/
theorem load_saved (f : AbiFunction) (ret : BitVec 64) (irq : Fin 16) (s : Cpu) {i : Nat}
    (hi : i < (s.pushed ret).length) : load (f.run (irqEntry ret irq s)).mem (slot s.top i) = (s.pushed ret)[i] := by
  have hlen := s.pushed_length ret
  refine (load_eq_iff ..).2 fun k hk => ?_
  have haddr : slot s.top i + BitVec.ofNat 64 k = slot s.top 7 + BitVec.ofNat 64 (8 * (7 - i) + k) := by
    unfold slot
    bv_omega
  have hkept := f.stack (irqEntry ret irq s) (8 * (7 - i) + k) (by omega)
  have hsp : (irqEntry ret irq s).regs .rsp = slot s.top 7 := rfl
  rw [hsp, ← haddr] at hkept
  rw [hkept]
  exact pushAll_inside s.mem (by omega) hi hk

/-- RAX and RDI come back from the stack and RSP from the interrupt frame; the other registers are
as `irq_handle` leaves them. -/
theorem leave_regs (f : AbiFunction) (ret : BitVec 64) (irq : Fin 16) (s : Cpu) (r : Reg) :
    (leave (f.run (irqEntry ret irq s))).regs r =
      if r ∈ unsaved then (f.run (irqEntry ret irq s)).regs r else s.regs r := by
  have hsaved := @load_saved f ret irq s
  have hsp : (f.run (irqEntry ret irq s)).regs .rsp = slot s.top 7 := f.regs _ _ (by decide)
  have h6 : slot s.top 7 + 8 = slot s.top 6 := by unfold slot; bv_omega
  have h5 : slot s.top 6 + 8 = slot s.top 5 := by unfold slot; bv_omega
  have h1 : slot s.top 5 + 8 + 24 = slot s.top 1 := by unfold slot; bv_omega
  generalize hX : f.run (irqEntry ret irq s) = X at *
  cases r with
  | rsp =>
    refine Eq.trans (congrArg (load X.mem) ?_) (hsaved (i := 1) (show 1 < 8 by decide))
    show X.regs .rsp + 8 + 8 + 8 + 24 = _
    rw [hsp, h6, h5, h1]
  | rax =>
    refine Eq.trans (congrArg (load X.mem) ?_) (hsaved (i := 6) (show 6 < 8 by decide))
    show X.regs .rsp + 8 = _
    rw [hsp, h6]
  | rdi =>
    refine Eq.trans (congrArg (load X.mem) ?_) (hsaved (i := 5) (show 5 < 8 by decide))
    show X.regs .rsp + 8 + 8 = _
    rw [hsp, h6, h5]
  | rbx | rbp | r12 | r13 | r14 | r15 =>
    rw [← hX]
    exact f.regs _ _ (by decide)
  | _ => rfl

/-! ## When nothing is noticed -/

/-- How far RSP is from its alignment. -/
def Cpu.gap (s : Cpu) : Nat := (s.regs .rsp &&& 15).toNat

theorem Cpu.gap_lt (s : Cpu) : s.gap < 16 := by
  have hle : (s.regs .rsp).toNat &&& 15 ≤ 15 := Nat.and_le_right
  exact Nat.lt_succ_of_le ((congrArg (· ≤ 15) (BitVec.toNat_and ..)).mpr hle)

theorem Cpu.sub_gap (s : Cpu) (d : Nat) :
    s.regs .rsp - BitVec.ofNat 64 (s.gap + d) = s.top - BitVec.ofNat 64 d := by
  have hgap : BitVec.ofNat 64 s.gap = s.regs .rsp &&& 15 := BitVec.ofNat_toNat ..
  have hsplit : s.top + BitVec.ofNat 64 s.gap = s.regs .rsp := by
    rw [hgap]
    exact Word.and_not_add_and (s.regs .rsp) 15
  rw [← hsplit, BitVec.ofNat_add]
  bv_omega

/-- `irq_handle` puts the registers that the stub does not save back to what the interrupted code
had in them; the 64 bytes below the aligned RSP hold already what is pushed there; and `irq_handle`
leaves the other bytes of the red zone as they are. -/
structure Unnoticed (irqHandle : AbiFunction) (ret : BitVec 64) (irq : Fin 16) (s : Cpu) : Prop where
  regs : ∀ r ∈ unsaved, (irqHandle.run (irqEntry ret irq s)).regs r = s.regs r
  pushed : ∀ i, (hi : i < (s.pushed ret).length) → load s.mem (slot s.top i) = (s.pushed ret)[i]
  redZone : ∀ d, 1 ≤ d → d ≤ 128 → d ≤ s.gap ∨ s.gap + 64 < d →
    (irqHandle.run (irqEntry ret irq s)).mem (s.regs .rsp - BitVec.ofNat 64 d) = s.mem (s.regs .rsp - BitVec.ofNat 64 d)

/-- The bytes pushed over the red zone. -/
theorem pushed_redZone (f : AbiFunction) (ret : BitVec 64) (irq : Fin 16) (s : Cpu) {d : Nat} (h1 : 1 ≤ d)
    (h2 : d ≤ 64) : (f.run (irqEntry ret irq s)).mem (s.regs .rsp - BitVec.ofNat 64 (s.gap + d)) =
      pushAll (s.pushed ret) s.top s.mem (s.top - BitVec.ofNat 64 d) := by
  have hkept := f.stack (irqEntry ret irq s) (64 - d) (by omega)
  have hsp : (irqEntry ret irq s).regs .rsp = slot s.top 7 := rfl
  have haddr : slot s.top 7 + BitVec.ofNat 64 (64 - d) = s.top - BitVec.ofNat 64 d := by
    unfold slot
    bv_omega
  rw [hsp, haddr] at hkept
  rw [s.sub_gap]
  exact hkept

/-- The pushed words are not seen in the red zone exactly when they were there. -/
theorem pushed_redZone_iff (f : AbiFunction) (ret : BitVec 64) (irq : Fin 16) (s : Cpu) :
    (∀ d, 1 ≤ d → d ≤ 64 → (f.run (irqEntry ret irq s)).mem (s.regs .rsp - BitVec.ofNat 64 (s.gap + d)) =
      s.mem (s.regs .rsp - BitVec.ofNat 64 (s.gap + d))) ↔
      ∀ i, (hi : i < (s.pushed ret).length) → load s.mem (slot s.top i) = (s.pushed ret)[i] := by
  have hlen := s.pushed_length ret
  rw [← pushAll_unchanged_iff (by omega) s.top s.mem, hlen]
  refine forall_congr' fun d => forall_congr' fun h1 => forall_congr' fun h2 => ?_
  rw [pushed_redZone f ret irq s h1 h2, s.sub_gap]

/-- For every function that may be called and every interrupted state, an interrupt is transparent
exactly when nothing of it can be noticed. -/
theorem transparent_iff (irqHandle exceptionHandle : AbiFunction) (ret : BitVec 64) (irq : Fin 16) (s : Cpu) :
    Transparent s (interrupted irqHandle exceptionHandle ret irq s) ↔ Unnoticed irqHandle ret irq s := by
  rw [interrupted_eq]
  have hgap := s.gap_lt
  have hpushed := pushed_redZone_iff irqHandle ret irq s
  constructor
  · rintro ⟨hregs, hred⟩
    refine ⟨fun r hr => ?_, ?_, ?_⟩
    · have hr' := hregs r
      rwa [leave_regs, if_pos hr] at hr'
    · exact hpushed.1 fun d h1 h2 => hred (s.gap + d) (by omega) (by omega)
    · intro d h1 h2 _
      exact hred d h1 h2
  · rintro ⟨hregs, hload, hred⟩
    refine ⟨fun r => ?_, fun d h1 h2 => ?_⟩
    · rw [leave_regs]
      split
      · exact hregs r ‹_›
      · rfl
    · by_cases hd : s.gap < d ∧ d ≤ s.gap + 64
      · have hover := hpushed.2 hload (d - s.gap) (by omega) (by omega)
        rwa [Nat.add_sub_cancel' hd.1.le] at hover
      · exact hred d h1 h2 (by omega)

/-- A function that returns at once. -/
def AbiFunction.idle : AbiFunction := ⟨id, fun _ _ _ => rfl, fun _ _ _ => rfl⟩

/-- Interrupted between two functions of the kernel, with nothing in the other registers. -/
def idleCpu : Cpu := ⟨fun r => if r = .rsp then 0x80000 else 0, 0x90000, 0x08, 0x10, 0x202, fun _ => 0⟩

/-- Even when `irq_handle` does nothing, RSI is left with the address of the interrupt frame. -/
theorem not_transparent : ¬Transparent idleCpu (interrupted .idle .idle 0x90100 0 idleCpu) := by
  rintro ⟨hregs, -⟩
  have hrsi := hregs .rsi
  rw [interrupted_eq, leave_regs, if_pos (by decide)] at hrsi
  exact absurd hrsi (by decide)

/-- In every state there is a function of the calling convention after which the interrupt is
noticed. -/
theorem exists_not_transparent (exceptionHandle : AbiFunction) (ret : BitVec 64) (irq : Fin 16) (s : Cpu) :
    ∃ irqHandle, ¬Transparent s (interrupted irqHandle exceptionHandle ret irq s) := by
  let irqHandle : AbiFunction :=
    { run := Cpu.set .rcx (s.regs .rcx + 1)
      regs := by
        intro t r hr
        exact if_neg (by rintro rfl; exact absurd hr (by decide))
      stack := fun _ _ _ => rfl }
  refine ⟨irqHandle, ?_⟩
  rintro ⟨hregs, -⟩
  have hrcx := hregs .rcx
  rw [interrupted_eq, leave_regs, if_pos (by decide)] at hrcx
  have hclobbered : s.regs .rcx + 1 = s.regs .rcx := hrcx
  bv_omega

end SnakeOS.Arch
