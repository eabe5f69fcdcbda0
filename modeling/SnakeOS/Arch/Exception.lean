/-
The exceptions of the processor through the stubs of arch/x86/idt.asm: the `struct interrupt_frame` that
`exception_handle` is given. For some vectors the processor pushes an error code after the frame, and all
stubs take RSP for the address of the frame.
-/
import SnakeOS.Arch.Stub
import SnakeOS.Kernel.Exception

namespace SnakeOS.Arch

open C Word Kernel Term

/-! ## The exception -/

/-- The vectors with an error code. -/
def HasErrorCode (vec : Fin 32) : Prop := vec ∈ ([8, 10, 11, 12, 13, 14, 17, 21, 29, 30] : List (Fin 32))

instance (vec : Fin 32) : Decidable (HasErrorCode vec) := inferInstanceAs (Decidable (_ ∈ _))

/-- The processor pushes the frame and, for some vectors, the error code. -/
def Cpu.exception (vec : Fin 32) (errorCode : BitVec 64) (s : Cpu) : Cpu :=
  if HasErrorCode vec then s.interrupt.push errorCode else s.interrupt

/-- The state in which `stub_vec` enters `exception_handle`, from that at its first instruction. -/
def exceptionEntry (ret vec : BitVec 64) (s : Cpu) : Cpu :=
  let s := s.set .rsi (s.regs .rsp)
  let s := s.push (s.regs .rdi)
  let s := s.push (s.regs .rax)
  let s := s.set .rdi vec
  s.push ret

/-- `int vector`. -/
def Cpu.vectorArg (s : Cpu) : Int := ((s.regs .rdi).setWidth 32).toInt

/-- The struct at an address. -/
def frameAt (m : Memory) (a : BitVec 64) : InterruptFrame where
  rip := load m a
  cs := load m (a + 8)
  rflags := load m (a + 16)
  errorCode := load m (a + 24)

/-- `*frame`. -/
def Cpu.frameArg (s : Cpu) : InterruptFrame := frameAt s.mem (s.regs .rsi)

/-- The arguments of `exception_handle` describe the context `s`, and what it prints is the report with the
RIP of `s`. -/
structure Describes (entry s : Cpu) : Prop where
  rip : entry.frameArg.rip = s.rip
  cs : entry.frameArg.cs = s.cs.setWidth 64
  rflags : entry.frameArg.rflags = s.rflags
  printed : exceptionReport entry.vectorArg (uintOf entry.frameArg.rip) = exceptionReport entry.vectorArg s.rip.toNat

/-- What the context must be like: where an error code is pushed, it and all the fields above it are the same;
where the RIP is printed, it has 32 bits. -/
structure Describable (vec : Fin 32) (errorCode : BitVec 64) (s : Cpu) : Prop where
  same : HasErrorCode vec → errorCode = s.rip ∧ s.rip = s.cs.setWidth 64 ∧ s.cs.setWidth 64 = s.rflags
  short : vec = 0 ∨ vec = 13 → s.rip.toNat < 2 ^ 32

/-! ## The state in which `exception_handle` is entered -/

theorem exception_vector (vec : Fin 32) : (BitVec.ofNat 64 vec).slt PIC_IDT_BASE = true ∧
    ((BitVec.ofNat 64 vec).setWidth 32).toInt = vec ∧
    (((BitVec.ofNat 64 vec).setWidth 32).toInt = 0 ∨ ((BitVec.ofNat 64 vec).setWidth 32).toInt = 13 ↔
      vec = 0 ∨ vec = 13) := by
  revert vec
  decide

/-- The vectors of the exceptions take the exception path. -/
theorem stub_exception (irqHandle exceptionHandle : AbiFunction) (ret : BitVec 64) (vec : Fin 32) (s : Cpu) :
    stub irqHandle exceptionHandle ret (BitVec.ofNat 64 vec) s =
      leave (exceptionHandle.run (exceptionEntry ret (BitVec.ofNat 64 vec) s)) := by
  obtain ⟨hpath, -, -⟩ := exception_vector vec
  let saved := ((s.set .rsi (s.regs .rsp)).push (s.regs .rdi)).push (s.regs .rax)
  let vec64 := BitVec.ofNat 64 vec
  have hcall : (if vec64.slt PIC_IDT_BASE then (saved.set .rdi vec64).call exceptionHandle ret
      else ((saved.set .rdi vec64).set .rdi (vec64 - PIC_IDT_BASE)).call irqHandle ret) =
      (saved.set .rdi vec64).call exceptionHandle ret := if_pos hpath
  exact congrArg (fun s => ((s.pop .rax).pop .rdi).iretq) hcall

/-- What the processor pushes below the aligned RSP. -/
def Cpu.framed (vec : Fin 32) (errorCode : BitVec 64) (s : Cpu) : List (BitVec 64) :=
  [s.ss.setWidth 64, s.regs .rsp, s.rflags, s.cs.setWidth 64, s.rip] ++ if HasErrorCode vec then [errorCode] else []

/-- RSI is the address of what the processor pushed last. -/
theorem exceptionEntry_rsi (ret : BitVec 64) (vec : Fin 32) (errorCode : BitVec 64) (s : Cpu) :
    (exceptionEntry ret (BitVec.ofNat 64 vec) (s.exception vec errorCode)).regs .rsi =
      slot s.top ((s.framed vec errorCode).length - 1) := by
  unfold Cpu.exception Cpu.framed
  split
  · show s.top - 8 - 8 - 8 - 8 - 8 - 8 = slot s.top 5
    unfold slot
    bv_omega
  · show s.top - 8 - 8 - 8 - 8 - 8 = slot s.top 4
    unfold slot
    bv_omega

theorem exceptionEntry_mem (ret : BitVec 64) (vec : Fin 32) (errorCode : BitVec 64) (s : Cpu) :
    (exceptionEntry ret (BitVec.ofNat 64 vec) (s.exception vec errorCode)).mem =
      pushAll (s.framed vec errorCode ++ [s.regs .rdi, s.regs .rax, ret]) s.top s.mem := by
  unfold Cpu.exception Cpu.framed
  split
  · rfl
  · rfl

/-- The struct at the slot of a word that was pushed is that word and the three pushed before it. -/
theorem frameAt_pushAll (vs : List (BitVec 64)) (hlen : vs.length < 2 ^ 60) (sp : BitVec 64) (m : Memory) {i : Nat}
    (hi : i + 3 < vs.length) : frameAt (pushAll vs sp m) (slot sp (i + 3)) =
      ⟨vs[i + 3], vs[i + 2], vs[i + 1], vs[i]⟩ := by
  have h2 : slot sp (i + 3) + 8 = slot sp (i + 2) := by unfold slot; bv_omega
  have h1 : slot sp (i + 3) + 16 = slot sp (i + 1) := by unfold slot; bv_omega
  have h0 : slot sp (i + 3) + 24 = slot sp i := by unfold slot; bv_omega
  unfold frameAt
  rw [h2, h1, h0, load_pushAll hlen, load_pushAll hlen, load_pushAll hlen, load_pushAll hlen]

/-- With an error code every field is read one word too low. -/
theorem exceptionEntry_frame (ret : BitVec 64) (vec : Fin 32) (errorCode : BitVec 64) (s : Cpu) :
    (exceptionEntry ret (BitVec.ofNat 64 vec) (s.exception vec errorCode)).frameArg =
      if HasErrorCode vec then ⟨errorCode, s.rip, s.cs.setWidth 64, s.rflags⟩
      else ⟨s.rip, s.cs.setWidth 64, s.rflags, s.regs .rsp⟩ := by
  unfold Cpu.frameArg
  rw [exceptionEntry_rsi, exceptionEntry_mem]
  unfold Cpu.framed
  by_cases hcode : HasErrorCode vec
  · rw [if_pos hcode, if_pos hcode]
    exact frameAt_pushAll [s.ss.setWidth 64, s.regs .rsp, s.rflags, s.cs.setWidth 64, s.rip, errorCode, s.regs .rdi,
      s.regs .rax, ret] (show 9 < 2 ^ 60 by decide) s.top s.mem (show 2 + 3 < 9 by decide)
  · rw [if_neg hcode, if_neg hcode]
    exact frameAt_pushAll [s.ss.setWidth 64, s.regs .rsp, s.rflags, s.cs.setWidth 64, s.rip, s.regs .rdi, s.regs .rax,
      ret] (show 8 < 2 ^ 60 by decide) s.top s.mem (show 1 + 3 < 8 by decide)

/-! ## When the frame describes the context -/

theorem exceptionEntry_vector (ret : BitVec 64) (vec : Fin 32) (s : Cpu) :
    (exceptionEntry ret (BitVec.ofNat 64 vec) s).vectorArg = vec := by
  obtain ⟨-, hvector, -⟩ := exception_vector vec
  exact hvector

theorem uintOf_eq_iff (v : BitVec 64) : uintOf v = v.toNat ↔ v.toNat < 2 ^ 32 := by
  unfold uintOf
  omega

/-- The report is right when the RIP of the frame is and it has 32 bits. -/
theorem report_iff (vec : Fin 32) (v : BitVec 64) : exceptionReport vec (uintOf v) = exceptionReport vec v.toNat ↔
    (vec = 0 ∨ vec = 13 → v.toNat < 2 ^ 32) := by
  obtain ⟨-, hvector, hhandler⟩ := exception_vector vec
  rw [hvector] at hhandler
  rw [exceptionReport_inj, hhandler, uintOf_eq_iff]

theorem describes_iff {entry s : Cpu} {vec : Fin 32} {errorCode : BitVec 64} (hvector : entry.vectorArg = vec)
    (hframe : entry.frameArg = if HasErrorCode vec then ⟨errorCode, s.rip, s.cs.setWidth 64, s.rflags⟩
      else ⟨s.rip, s.cs.setWidth 64, s.rflags, s.regs .rsp⟩) : Describes entry s ↔ Describable vec errorCode s := by
  have hreport := report_iff vec s.rip
  constructor
  · rintro ⟨hrip, hcs, hrflags, hprinted⟩
    rw [hvector, hrip] at hprinted
    refine ⟨fun hcode => ?_, hreport.1 hprinted⟩
    rw [hframe, if_pos hcode] at hrip hcs hrflags
    exact ⟨hrip, hcs, hrflags⟩
  · rintro ⟨hsame, hshort⟩
    have hfields : entry.frameArg.rip = s.rip ∧ entry.frameArg.cs = s.cs.setWidth 64 ∧
        entry.frameArg.rflags = s.rflags := by
      rw [hframe]
      by_cases hcode : HasErrorCode vec
      · rw [if_pos hcode]
        exact hsame hcode
      · rw [if_neg hcode]
        exact ⟨rfl, rfl, rfl⟩
    obtain ⟨hrip, hcs, hrflags⟩ := hfields
    refine ⟨hrip, hcs, hrflags, ?_⟩
    rw [hvector, hrip]
    exact hreport.2 hshort

/-- For every vector of an exception, error code and interrupted context: the stub enters `exception_handle`
in a state whose frame describes the context, and the context's RIP is printed, exactly when either no error
code is pushed or it makes no difference, and the RIP is not cut where it is printed. -/
theorem frame_describes_iff (ret : BitVec 64) (vec : Fin 32) (errorCode : BitVec 64) (s : Cpu) : ∃ entry : Cpu,
    (∀ irqHandle exceptionHandle : AbiFunction,
      stub irqHandle exceptionHandle ret (BitVec.ofNat 64 vec) (s.exception vec errorCode) =
        leave (exceptionHandle.run entry)) ∧
    (∀ con, exceptionHandle entry.vectorArg entry.frameArg con =
      .ok (putcs (exceptionReport entry.vectorArg (uintOf entry.frameArg.rip)) con)) ∧
    (Describes entry s ↔ Describable vec errorCode s) := by
  refine ⟨exceptionEntry ret (BitVec.ofNat 64 vec) (s.exception vec errorCode), ?_, ?_, ?_⟩
  · exact fun irqHandle exceptionHandle => stub_exception irqHandle exceptionHandle ret vec _
  · exact fun con => exceptionHandle_spec _ _ con
  · exact describes_iff (exceptionEntry_vector ret vec _) (exceptionEntry_frame ret vec errorCode s)

/-- A general protection fault between two functions of the kernel: RIP is read from the error code. -/
theorem frame_not_describes :
    ¬Describes (exceptionEntry 0x90100 (BitVec.ofNat 64 13) (idleCpu.exception 13 0)) idleCpu := by
  intro h
  have hrip := h.rip
  have hframe : (exceptionEntry 0x90100 (BitVec.ofNat 64 13) (idleCpu.exception 13 0)).frameArg = _ :=
    exceptionEntry_frame 0x90100 13 0 idleCpu
  rw [hframe, if_pos (by decide)] at hrip
  have hzero : (0 : BitVec 64) = 0x90000 := hrip
  exact absurd hzero (by decide)

end SnakeOS.Arch
