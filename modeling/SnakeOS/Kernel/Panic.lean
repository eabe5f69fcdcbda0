/-
kernel/panic.c: the message of `panic` is the format of a `kprint` without arguments. It is printed as it is exactly
when no directive in it takes an argument and it does not end in a `%` of its own.
-/
import SnakeOS.Kernel.Format

namespace SnakeOS.Kernel

open C Term

/-! ## `panic` -/

/-- The console when `panic` halts; it does not return. -/
def panic (msg : List UInt8) (con : Console) : Except Fault Console := do
  let con ← kprint (Byte.text "KERNEL PANIC: ") [] con
  let con ← kprint msg [] con
  kprint (Byte.text "\n") [] con

/-- The text that the message is to be printed in. -/
def panicText (msg : List UInt8) : List UInt8 := Byte.text "KERNEL PANIC: " ++ msg ++ Byte.text "\n"

/-! ## Messages without directives -/

/-- No part of the message takes an argument, and none is a `%` at its end. -/
def NoDirective (msg : List UInt8) : Prop := ∀ item ∈ items msg, item.takes = none ∧ item ≠ .percent

instance (msg : List UInt8) : Decidable (NoDirective msg) := inferInstanceAs (Decidable (∀ item ∈ items msg, _))

theorem noDirective_lit {c : UInt8} (hc : c ≠ 0x25) (msg : List UInt8) :
    NoDirective (c :: msg) ↔ NoDirective msg := by
  unfold NoDirective
  rw [items_lit hc, List.forall_mem_cons]
  exact and_iff_right ⟨rfl, by simp⟩

theorem noDirective_percent (d : UInt8) (msg : List UInt8) :
    NoDirective (0x25 :: d :: msg) ↔ directiveKind d = none ∧ NoDirective msg := by
  unfold NoDirective
  rw [items_percent, List.forall_mem_cons]
  exact and_congr_left fun _ => and_iff_left (by simp)

/-- A directive that takes an argument finds none. -/
theorem kprintDirective_missing {d : UInt8} (h : directiveKind d ≠ none) (con : Console) :
    kprintDirective d [] con = .error .vararg := by
  unfold directiveKind at h
  unfold kprintDirective
  split_ifs at h ⊢
  · rfl
  · rfl
  · rfl
  · rfl
  · exact absurd rfl h

/-- Without a directive in it, a format is printed as it is. -/
theorem kprint_noDirective {msg : List UInt8} (h : NoDirective msg) (con : Console) :
    kprint msg [] con = .ok (putcs msg con) := by
  induction msg using items.induct generalizing con with
  | case1 => rfl
  | case2 c =>
    by_cases hc : c = 0x25
    · subst hc
      exact absurd rfl (h .percent (List.mem_singleton_self _)).2
    · exact if_neg hc
  | case3 d msg ih =>
    obtain ⟨hd, hmsg⟩ := (noDirective_percent d msg).1 h
    rw [kprint, if_pos rfl, kprintDirective_plain hd]
    exact ih hmsg _
  | case4 c d msg hc ih =>
    rw [kprint, if_neg hc]
    exact ih ((noDirective_lit hc _).1 h) _

/-- A directive without its argument, and a `%` at the end, make the scan read what is not there. -/
theorem kprint_directive {msg : List UInt8} (h : ¬NoDirective msg) (con : Console) :
    kprint msg [] con = .error .vararg ∨ kprint msg [] con = .error .overread := by
  induction msg using items.induct generalizing con with
  | case1 => exact absurd (fun item hitem => absurd hitem List.not_mem_nil) h
  | case2 c =>
    by_cases hc : c = 0x25
    · exact .inr (if_pos hc)
    · exact absurd ((noDirective_lit hc []).2 fun item hitem => absurd hitem List.not_mem_nil) h
  | case3 d msg ih =>
    rw [noDirective_percent] at h
    rw [kprint, if_pos rfl]
    by_cases hd : directiveKind d = none
    · rw [kprintDirective_plain hd]
      exact ih (fun hmsg => h ⟨hd, hmsg⟩) _
    · rw [kprintDirective_missing hd]
      exact .inl rfl
  | case4 c d msg hc ih =>
    rw [noDirective_lit hc] at h
    rw [kprint, if_neg hc]
    exact ih h _

/-! ## What is printed -/

theorem panic_eq (msg : List UInt8) (con : Console) :
    panic msg con = (kprint msg [] (putcs (Byte.text "KERNEL PANIC: ") con)).map (putcs (Byte.text "\n")) := by
  have hstart : kprint (Byte.text "KERNEL PANIC: ") [] con = .ok (putcs (Byte.text "KERNEL PANIC: ") con) :=
    kprint_noDirective (by decide) con
  unfold panic
  rw [hstart, ok_bind]
  cases kprint msg [] (putcs (Byte.text "KERNEL PANIC: ") con) with
  | error e => rfl
  | ok con' => exact kprint_noDirective (by decide) con'

/-- `panic` prints its text without reading an argument exactly when there is no directive in the message. -/
theorem panic_prints_iff (msg : List UInt8) (con : Console) :
    panic msg con = .ok (putcs (panicText msg) con) ↔ NoDirective msg := by
  rw [panic_eq]
  by_cases h : NoDirective msg
  · rw [kprint_noDirective h]
    refine iff_of_true ?_ h
    unfold panicText
    rw [putcs_append, putcs_append]
    rfl
  · refine iff_of_false ?_ h
    rcases kprint_directive h (putcs (Byte.text "KERNEL PANIC: ") con) with herr | herr
    · rw [herr]
      exact fun hok => nomatch hok
    · rw [herr]
      exact fun hok => nomatch hok

/-- A message with a directive in it makes `kprint` read an argument that `panic` does not pass. -/
theorem panic_reads_argument : panic (Byte.text "Value: %d") bootConsole = .error .vararg ∧
    ¬panic (Byte.text "Value: %d") bootConsole = .ok (putcs (panicText (Byte.text "Value: %d")) bootConsole) := by
  have hscan : ∀ con, kprint (Byte.text "Value: %d") [] con = .error .vararg := fun _ => rfl
  have herr : panic (Byte.text "Value: %d") bootConsole = .error .vararg := by
    rw [panic_eq, hscan]
    rfl
  refine ⟨herr, fun hok => ?_⟩
  cases herr.symm.trans hok

end SnakeOS.Kernel
