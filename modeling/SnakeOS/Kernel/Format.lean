/-
kernel/kprint.c: the scanner of `kprint` by the index of its format, what a format prints, and that
it prints that exactly when it does not end in a `%` of its own.
-/
import Mathlib.Algebra.Group.Nat.Even
import Mathlib.Data.List.TakeWhile
import SnakeOS.Kernel.Itoa
import SnakeOS.Lib.Hex

namespace SnakeOS.Kernel

open C Term

/-! ## The scanner -/

/-- `fmt[i]`, for a format given as the bytes before its NUL. -/
def fmtAt (fmt : List UInt8) (i : Nat) : Except Fault UInt8 :=
  if h : i < fmt.length then .ok fmt[i] else if i = fmt.length then .ok 0 else .error .overread

theorem fmtAt_le {fmt : List UInt8} {i : Nat} {c : UInt8} (h : fmtAt fmt i = .ok c) : i ≤ fmt.length := by
  unfold fmtAt at h
  split at h
  · omega
  · split at h
    · omega
    · cases h

/-- The loop of `kprint` from the index `i` on: the arguments left and the console. -/
def kprintLoop (fmt : List UInt8) (i : Nat) (args : List Arg) (con : Console) :
    Except Fault (List Arg × Console) :=
  match h : fmtAt fmt i with
  | .error e => .error e
  | .ok c =>
    if c = 0 then .ok (args, con)
    else if c = 0x25 then do
      let d ← fmtAt fmt (i + 1)
      let (args, con) ← kprintDirective d args con
      kprintLoop fmt (i + 2) args con
    else kprintLoop fmt (i + 1) args (consolePutc c con)
termination_by fmt.length + 1 - i
decreasing_by
  all_goals
    have := fmtAt_le h
    omega

/-! ## What a format prints -/

/-- The parts of a format: a byte of its own, a `%` with the byte after it, and the `%` at its end. -/
inductive Item
  | lit (c : UInt8)
  | directive (d : UInt8)
  | percent
  deriving DecidableEq, Repr

def items : List UInt8 → List Item
  | [] => []
  | [c] => [if c = 0x25 then .percent else .lit c]
  | c :: d :: fmt => if c = 0x25 then .directive d :: items fmt else .lit c :: items (d :: fmt)

/-- The argument that a part takes. -/
def Item.takes : Item → Option ArgKind
  | .directive d => directiveKind d
  | _ => none

/-- The text of a directive for the argument it takes, if it takes one. -/
def directiveText (d : UInt8) : Option Arg → List UInt8
  | some (.int value) => if d = 0x64 then itoaDec value else [(BitVec.ofInt 8 value).toNat.toUInt8]
  | some (.uint value) => itoaHex value
  | some (.str s) => (s.getD []).takeWhile (· ≠ 0)
  | none => [0x25, d]

def Item.text : Item → Option Arg → List UInt8
  | .lit c, _ => [c]
  | .directive d, arg => directiveText d arg
  | .percent, _ => [0x25]

/-- The texts of the parts one after the other, each with the next argument if it takes one. -/
def expand : List Item → List Arg → List UInt8
  | [], _ => []
  | item :: items, args =>
    if item.takes.isSome then item.text args.head? ++ expand items args.tail
    else item.text none ++ expand items args

/-- The arguments that a format takes. -/
def taken (fmt : List UInt8) : List ArgKind := (items fmt).filterMap Item.takes

/-- The arguments start with one of the right type for each directive. -/
def Supplies (fmt : List UInt8) (args : List Arg) : Prop := taken fmt <+: args.map Arg.kind

instance (fmt : List UInt8) (args : List Arg) : Decidable (Supplies fmt args) :=
  inferInstanceAs (Decidable (_ <+: _))

/-- The number of `%` at the end of a format. -/
def trailing (fmt : List UInt8) : Nat := (fmt.reverse.takeWhile (· = 0x25)).length

@[simp] theorem items_percent (d : UInt8) (fmt : List UInt8) :
    items (0x25 :: d :: fmt) = .directive d :: items fmt := by simp [items]

theorem items_lit {c : UInt8} (hc : c ≠ 0x25) (fmt : List UInt8) : items (c :: fmt) = .lit c :: items fmt := by
  cases fmt <;> simp [items, hc]

theorem taken_lit {c : UInt8} (hc : c ≠ 0x25) (fmt : List UInt8) : taken (c :: fmt) = taken fmt := by
  unfold taken
  rw [items_lit hc]
  rfl

theorem taken_percent (d : UInt8) (fmt : List UInt8) :
    taken (0x25 :: d :: fmt) = (directiveKind d).toList ++ taken fmt := by
  unfold taken
  rw [items_percent, List.filterMap_cons]
  cases h : directiveKind d <;> simp [Item.takes, h]

/-! ## One directive -/

/-- A digit of `itoa_hex`. -/
def hexDigit (d : Nat) : UInt8 := (Byte.text "0123456789ABCDEF").getD d 0

theorem itoaHexLoop_eq (value : Nat) (temp : List UInt8) :
    itoaHexLoop value temp = temp ++ (Nat.digits 16 value).map hexDigit := by
  induction value, temp using itoaHexLoop.induct with
  | case1 value temp hpos ih =>
    rw [itoaHexLoop, if_pos hpos, ih, Nat.digits_def' (by norm_num) hpos, List.map_cons, List.append_assoc]
    rfl
  | case2 value temp hpos =>
    rw [itoaHexLoop, if_neg hpos, Nat.eq_zero_of_not_pos hpos, Nat.digits_zero, List.map_nil, List.append_nil]

theorem hexDigit_eq : ∀ d < 16, hexDigit d = Hex.digit d := by decide

theorem itoaHex_eq {value : Nat} (h : value ≠ 0) : itoaHex value = [0x30, 0x78] ++ Hex.numeral value := by
  have hdigits : (Nat.digits 16 value).map hexDigit = (Nat.digits 16 value).map Hex.digit :=
    List.map_congr_left fun d hd => hexDigit_eq d (Nat.digits_lt_base (by norm_num) hd)
  unfold itoaHex
  rw [if_neg h, itoaHexLoop_eq, List.nil_append, hdigits]
  rfl

theorem itoaHex_ne_nul (value : Nat) : ∀ c ∈ itoaHex value, c ≠ 0 := by
  by_cases h : value = 0
  · subst h
    exact Byte.ne_zero_of_all (by decide)
  · intro c hc
    rw [itoaHex_eq h] at hc
    rcases List.mem_append.1 hc with hc | hc
    · exact Byte.ne_zero_of_all (s := [0x30, 0x78]) (by decide) c hc
    · exact Hex.numeral_ne_nul value c hc

theorem value_itoaHex (value : Nat) : Hex.value (itoaHex value) = value := by
  by_cases h : value = 0
  · subst h
    decide
  · rw [itoaHex_eq h, Hex.value_numeral]

/-- Two values with the same text are the same: the digits can be read back. -/
theorem itoaHex_injective : Function.Injective itoaHex := Function.LeftInverse.injective value_itoaHex

theorem consoleWrite_eq {str : List UInt8} (h : ∀ c ∈ str, c ≠ 0) (con : Console) :
    consoleWrite (some str) con = putcs str con := by
  show consoleWriteLoop str con = _
  rw [consoleWriteLoop_eq, List.takeWhile_eq_self_iff.2 (by simpa using h)]

theorem consoleWrite_getD (str : Option (List UInt8)) (con : Console) :
    consoleWrite str con = putcs ((str.getD []).takeWhile (· ≠ 0)) con := by
  cases str with
  | none => rfl
  | some str => exact consoleWriteLoop_eq str con

/-- A directive that takes no argument prints the `%` and the byte. -/
theorem kprintDirective_plain {d : UInt8} (h : directiveKind d = none) (args : List Arg) (con : Console) :
    kprintDirective d args con = .ok (args, putcs (directiveText d none) con) := by
  unfold directiveKind at h
  split_ifs at h
  unfold kprintDirective
  split_ifs
  rfl

/-- A directive that takes an argument prints that one. -/
theorem kprintDirective_takes {d : UInt8} {arg : Arg} (h : directiveKind d = some arg.kind)
    (args : List Arg) (con : Console) :
    kprintDirective d (arg :: args) con = .ok (args, putcs (directiveText d (some arg)) con) := by
  unfold directiveKind at h
  unfold kprintDirective
  split_ifs at h ⊢ with hd hx hs hc
  · obtain ⟨value, rfl⟩ := Arg.eq_int (Option.some.inj h).symm
    simp only [directiveText, if_pos hd, consoleWrite_eq (itoaDec_ne_nul value)]
  · obtain ⟨value, rfl⟩ := Arg.eq_uint (Option.some.inj h).symm
    simp only [directiveText, consoleWrite_eq (itoaHex_ne_nul value)]
  · obtain ⟨s, rfl⟩ := Arg.eq_str (Option.some.inj h).symm
    simp only [directiveText, consoleWrite_getD]
  · obtain ⟨value, rfl⟩ := Arg.eq_int (Option.some.inj h).symm
    simp only [directiveText, if_neg hd]
    rfl

/-! ## The scan -/

theorem fmtAt_append {pre : List UInt8} {c : UInt8} {suf : List UInt8} :
    fmtAt (pre ++ c :: suf) pre.length = .ok c := by
  unfold fmtAt
  rw [dif_pos (by simp)]
  simp

theorem fmtAt_append_succ (pre : List UInt8) (c d : UInt8) (suf : List UInt8) :
    fmtAt (pre ++ c :: d :: suf) (pre.length + 1) = .ok d := by
  have := @fmtAt_append (pre ++ [c]) d suf
  rwa [List.append_assoc, List.length_append] at this

theorem fmtAt_length (fmt : List UInt8) : fmtAt fmt fmt.length = .ok 0 := by
  unfold fmtAt
  rw [dif_neg (lt_irrefl _), if_pos rfl]

theorem kprintLoop_end (fmt : List UInt8) (args : List Arg) (con : Console) :
    kprintLoop fmt fmt.length args con = .ok (args, con) := by
  rw [kprintLoop]
  split
  · rename_i e h
    rw [fmtAt_length] at h
    cases h
  · rename_i c h
    rw [fmtAt_length] at h
    cases h
    rfl

theorem kprintLoop_past (fmt : List UInt8) (args : List Arg) (con : Console) :
    kprintLoop fmt (fmt.length + 1) args con = .error .overread := by
  have hpast : fmtAt fmt (fmt.length + 1) = .error .overread := by
    unfold fmtAt
    rw [dif_neg (by omega), if_neg (by omega)]
  rw [kprintLoop]
  split
  · rename_i e h
    rw [hpast] at h
    cases h
    rfl
  · rename_i c h
    rw [hpast] at h
    cases h

theorem kprintLoop_lit {c : UInt8} (h0 : c ≠ 0) (hc : c ≠ 0x25) (pre suf : List UInt8) (args : List Arg)
    (con : Console) :
    kprintLoop (pre ++ c :: suf) pre.length args con =
      kprintLoop (pre ++ c :: suf) (pre.length + 1) args (consolePutc c con) := by
  rw [kprintLoop]
  split
  · rename_i e h
    rw [fmtAt_append] at h
    cases h
  · rename_i c' h
    rw [fmtAt_append] at h
    cases h
    rw [if_neg h0, if_neg hc]

theorem kprintLoop_percent (pre suf : List UInt8) (args : List Arg) (con : Console) :
    kprintLoop (pre ++ 0x25 :: suf) pre.length args con = (do
      let d ← fmtAt (pre ++ 0x25 :: suf) (pre.length + 1)
      let (args, con) ← kprintDirective d args con
      kprintLoop (pre ++ 0x25 :: suf) (pre.length + 2) args con) := by
  rw [kprintLoop]
  split
  · rename_i e h
    rw [fmtAt_append] at h
    cases h
  · rename_i c' h
    rw [fmtAt_append] at h
    cases h
    rw [if_neg (by decide), if_pos rfl]

/-- After a directive the scan goes on behind it, with the arguments left. -/
theorem kprintLoop_directive {d : UInt8} {args : List Arg}
    (h : ∀ kind, directiveKind d = some kind → ∃ arg rest, args = arg :: rest ∧ arg.kind = kind)
    (pre suf : List UInt8) (con : Console) :
    kprintLoop (pre ++ 0x25 :: d :: suf) pre.length args con =
      kprintLoop (pre ++ 0x25 :: d :: suf) (pre.length + 2)
        (if (directiveKind d).isSome then args.tail else args)
        (putcs (directiveText d (if (directiveKind d).isSome then args.head? else none)) con) := by
  rw [kprintLoop_percent, fmtAt_append_succ, ok_bind]
  cases hd : directiveKind d with
  | none =>
    rw [kprintDirective_plain hd]
    rfl
  | some kind =>
    obtain ⟨arg, rest, rfl, rfl⟩ := h kind hd
    rw [kprintDirective_takes hd]
    rfl

/-- The `%` at the end of a format makes the scan go on past the NUL. -/
theorem kprintLoop_lone (pre : List UInt8) (args : List Arg) (con : Console) :
    kprintLoop (pre ++ [0x25]) pre.length args con = .error .overread := by
  have hat : fmtAt (pre ++ [0x25]) (pre.length + 1) = .ok 0 := by
    have := fmtAt_length (pre ++ [0x25])
    rwa [List.length_append] at this
  have hpast := kprintLoop_past (pre ++ [0x25]) args (putcs (directiveText 0 none) con)
  rw [List.length_append, List.length_singleton] at hpast
  rw [kprintLoop_percent, hat, ok_bind, kprintDirective_plain rfl]
  exact hpast

theorem putcs_cons (c : UInt8) (cs : List UInt8) (con : Console) :
    putcs (c :: cs) con = putcs cs (consolePutc c con) := rfl

/-- The scan of what is left of a format. -/
theorem kprintLoop_items (suf : List UInt8) :
    ∀ (pre : List UInt8) (args : List Arg) (con : Console), (∀ c ∈ suf, c ≠ 0) → Supplies suf args →
      kprintLoop (pre ++ suf) pre.length args con =
        if .percent ∈ items suf then .error .overread
        else .ok (args.drop (taken suf).length, putcs (expand (items suf) args) con) := by
  induction suf using items.induct with
  | case1 =>
    intro pre args con _ _
    rw [List.append_nil, kprintLoop_end]
    rfl
  | case2 c =>
    intro pre args con hnul _
    by_cases hc : c = 0x25
    · subst hc
      exact kprintLoop_lone pre args con
    · have hend := kprintLoop_end (pre ++ [c]) args (consolePutc c con)
      rw [List.length_append, List.length_singleton] at hend
      rw [kprintLoop_lit (hnul c (by simp)) hc, hend, taken_lit hc, items_lit hc]
      rfl
  | case3 d fmt ih =>
    intro pre args con hnul hargs
    have ih := ih (pre ++ [0x25, d])
    simp only [List.append_assoc, List.cons_append, List.nil_append, List.length_append,
      List.length_cons, List.length_nil] at ih
    have hnul' : ∀ c ∈ fmt, c ≠ 0 := fun c h => hnul c (by simp [h])
    unfold Supplies at hargs
    rw [taken_percent] at hargs ⊢
    simp only [items_percent, List.mem_cons, reduceCtorEq, false_or]
    cases hd : directiveKind d with
    | none =>
      rw [hd] at hargs
      rw [kprintLoop_directive (by simp [hd])]
      refine (ih _ _ hnul' (by simpa [hd, Supplies] using hargs)).trans ?_
      simp [expand, Item.takes, Item.text, hd, putcs_append]
    | some kind =>
      rw [hd] at hargs
      cases args with
      | nil => exact absurd hargs (by simp)
      | cons arg args =>
        obtain ⟨harg, hargs⟩ := List.cons_prefix_cons.1 hargs
        rw [kprintLoop_directive (by simp [hd, harg])]
        refine (ih _ _ hnul' (by simpa [hd, Supplies] using hargs)).trans ?_
        simp [expand, Item.takes, Item.text, hd, putcs_append]
  | case4 c d fmt hc ih =>
    intro pre args con hnul hargs
    have ih := ih (pre ++ [c])
    simp only [List.append_assoc, List.cons_append, List.nil_append, List.length_append,
      List.length_cons, List.length_nil] at ih
    unfold Supplies at hargs
    rw [taken_lit hc] at hargs ⊢
    rw [kprintLoop_lit (hnul c (by simp)) hc, items_lit hc]
    refine (ih args _ (fun c' h => hnul c' (by simp [h])) hargs).trans ?_
    simp [expand, Item.takes, Item.text, putcs_cons]

/-! ## The end of a format -/

theorem trailing_append (pre suf : List UInt8) :
    trailing (pre ++ suf) = if trailing suf = suf.length then trailing pre + suf.length else trailing suf := by
  unfold trailing
  rw [List.reverse_append, List.takeWhile_append]
  simp only [List.length_reverse]
  split
  · rw [List.length_append, List.length_reverse, Nat.add_comm]
  · rfl

theorem trailing_le (fmt : List UInt8) : trailing fmt ≤ fmt.length := by
  rw [← fmt.length_reverse]
  exact (List.takeWhile_prefix _).length_le

/-- A format ends in a `%` of its own exactly when the number of `%` at its end is odd. -/
theorem percent_mem_items_iff (fmt : List UInt8) : .percent ∈ items fmt ↔ ¬Even (trailing fmt) := by
  induction fmt using items.induct with
  | case1 => decide
  | case2 c =>
    by_cases hc : c = 0x25
    · subst hc
      decide
    · rw [items_lit hc]
      simp [items, trailing, hc]
  | case3 d fmt ih =>
    have hle := trailing_le fmt
    have hfmt := trailing_append [0x25, d] fmt
    have hmem : .percent ∈ items (0x25 :: d :: fmt) ↔ .percent ∈ items fmt := by simp
    have htwo : Even (trailing [0x25, d]) := by
      by_cases hd : d = 0x25
      · subst hd
        decide
      · simp [trailing, hd]
    rw [hmem, ih, not_iff_not]
    show _ ↔ Even (trailing ([0x25, d] ++ fmt))
    rw [hfmt]
    split
    · rename_i hall
      rw [hall, Nat.even_add]
      simp only [htwo, true_iff]
    · rfl
  | case4 c d fmt hc ih =>
    have hmem : .percent ∈ items (c :: d :: fmt) ↔ .percent ∈ items (d :: fmt) := by simp [items_lit hc]
    have hone : trailing [c] = 0 := by simp [trailing, hc]
    have hsplit := trailing_append [c] (d :: fmt)
    rw [hmem, ih, not_iff_not]
    show _ ↔ Even (trailing ([c] ++ d :: fmt))
    rw [hsplit, hone]
    split
    · rename_i hall
      rw [hall, Nat.zero_add]
    · rfl

/-! ## The law -/

/-- The scanner and `kprint` do the same. -/
theorem kprintLoop_kprint (suf : List UInt8) (args : List Arg) (con : Console) :
    ∀ pre : List UInt8, (∀ c ∈ suf, c ≠ 0) →
      kprint suf args con = (kprintLoop (pre ++ suf) pre.length args con).map Prod.snd := by
  induction suf, args, con using kprint.induct with
  | case1 args con =>
    intro pre _
    rw [List.append_nil, kprintLoop_end]
    rfl
  | case2 args con =>
    intro pre _
    rw [kprintLoop_lone]
    rfl
  | case3 c args con hc =>
    intro pre hnul
    have hend := kprintLoop_end (pre ++ [c]) args (consolePutc c con)
    rw [List.length_append, List.length_singleton] at hend
    rw [kprintLoop_lit (hnul c (by simp)) hc, hend, kprint, if_neg hc]
    rfl
  | case4 d fmt args con ih =>
    intro pre hnul
    rw [kprintLoop_percent, fmtAt_append_succ, ok_bind, kprint, if_pos rfl]
    cases kprintDirective d args con with
    | error e => rfl
    | ok r =>
      have ih := ih r.1 r.2 (pre ++ [0x25, d]) (fun c h => hnul c (by simp [h]))
      rw [List.append_assoc, List.length_append] at ih
      exact ih
  | case5 c d fmt args con hc ih =>
    intro pre hnul
    have ih := ih (pre ++ [c]) (fun c' h => hnul c' (by simp [h]))
    rw [List.append_assoc, List.length_append] at ih
    rw [kprintLoop_lit (hnul c (by simp)) hc, kprint, if_neg hc]
    exact ih

theorem kprint_items {fmt : List UInt8} (hfmt : ∀ c ∈ fmt, c ≠ 0) {args : List Arg} (hargs : Supplies fmt args)
    (h : .percent ∉ items fmt) (con : Console) : kprint fmt args con = .ok (putcs (expand (items fmt) args) con) := by
  have hrun := kprintLoop_items fmt [] args con hfmt hargs
  rw [if_neg h] at hrun
  rw [kprintLoop_kprint fmt args con [] hfmt, hrun]
  rfl

/-- `kprint` prints the expansion of its format, consuming the arguments of its directives, exactly
when the number of `%` at the end of the format is even. -/
theorem kprint_expands_iff {fmt : List UInt8} (hfmt : ∀ c ∈ fmt, c ≠ 0) {args : List Arg}
    (hargs : Supplies fmt args) (con : Console) :
    kprintLoop fmt 0 args con = .ok (args.drop (taken fmt).length, putcs (expand (items fmt) args) con) ↔
      Even (trailing fmt) := by
  have hrun := kprintLoop_items fmt [] args con hfmt hargs
  rw [List.nil_append, List.length_nil] at hrun
  rw [hrun]
  have hiff := percent_mem_items_iff fmt
  split
  · rename_i hmem
    exact iff_of_false (by simp) (hiff.1 hmem)
  · rename_i hmem
    exact iff_of_true rfl (not_not.1 fun h => hmem (hiff.2 h))

/-- The console that `console_init` leaves. -/
def bootConsole : Console := (consoleInit Console.boot Timer.boot).1

theorem kprint_expands_iff_exception :
    ((∀ c ∈ Byte.text "Exception: %d%%", c ≠ 0) ∧ Supplies (Byte.text "Exception: %d%%") [.int 13]) ∧
      (kprintLoop (Byte.text "Exception: %d%%") 0 [.int 13] bootConsole =
          .ok (List.drop (taken (Byte.text "Exception: %d%%")).length [.int 13],
            putcs (expand (items (Byte.text "Exception: %d%%")) [.int 13]) bootConsole) ↔
        Even (trailing (Byte.text "Exception: %d%%"))) :=
  ⟨⟨Byte.ne_zero_of_all (by decide), by decide⟩,
    kprint_expands_iff (Byte.ne_zero_of_all (by decide)) (by decide) bootConsole⟩

theorem kprint_lone_percent :
    Supplies (Byte.text "100%") [] ∧ kprintLoop (Byte.text "100%") 0 [] bootConsole = .error .overread ∧
      ¬kprintLoop (Byte.text "100%") 0 [] bootConsole =
        .ok ([], putcs (expand (items (Byte.text "100%")) []) bootConsole) := by
  have hrun := kprintLoop_items (Byte.text "100%") [] [] bootConsole (Byte.ne_zero_of_all (by decide)) (by decide)
  rw [if_pos (by decide)] at hrun
  refine ⟨by decide, hrun, fun h => ?_⟩
  cases hrun.symm.trans h

end SnakeOS.Kernel
