/-
kernel/kprint.c: formatted printing on the console. A format is the bytes before its NUL.
-/
import SnakeOS.Lib.Byte
import SnakeOS.Term.Console

namespace SnakeOS.Kernel

open C Term

/-! ## Numbers -/

/-- The loop of `itoa_dec` that stores the digits, the lowest first. -/
def itoaDecLoop (value : Int) (temp : List UInt8) : List UInt8 :=
  if 0 < value then itoaDecLoop (value / 10) (temp ++ [(value % 10 + 0x30).toNat.toUInt8]) else temp
termination_by value.toNat

/-- The text that `itoa_dec` leaves in its buffer, for a value of type `int`. -/
def itoaDec (value : Int) : List UInt8 :=
  if value = 0 then [0x30]
  else
    let neg := value < 0
    let value := if value < 0 then toInt32 (-value) else value
    let temp := itoaDecLoop value []
    let temp := if neg then temp ++ [0x2D] else temp
    temp.reverse

/-- The loop of `itoa_hex` that stores the digits, the lowest first. -/
def itoaHexLoop (value : Nat) (temp : List UInt8) : List UInt8 :=
  if 0 < value then itoaHexLoop (value / 16) (temp ++ [(Byte.text "0123456789ABCDEF").getD (value % 16) 0]) else temp
termination_by value

/-- The text that `itoa_hex` leaves in its buffer. -/
def itoaHex (value : Nat) : List UInt8 :=
  if value = 0 then [0x30] else [0x30, 0x78] ++ (itoaHexLoop value []).reverse

/-! ## Printing -/

/-- A variadic argument: an `int`, an `unsigned int` or a `char *`. -/
inductive Arg
  | int (value : Int)
  | uint (value : Nat)
  | str (s : Option (List UInt8))

/-- What follows a `%`: the arguments left and the console. -/
def kprintDirective (d : UInt8) (args : List Arg) (con : Console) : Except Fault (List Arg × Console) :=
  if d = 0x64 then match args with
    | .int value :: args => .ok (args, consoleWrite (some (itoaDec value)) con)
    | _ => .error .vararg
  else if d = 0x78 then match args with
    | .uint value :: args => .ok (args, consoleWrite (some (itoaHex value)) con)
    | _ => .error .vararg
  else if d = 0x73 then match args with
    | .str s :: args => .ok (args, consoleWrite s con)
    | _ => .error .vararg
  else if d = 0x63 then match args with
    | .int value :: args => .ok (args, consolePutc (BitVec.ofInt 8 value).toNat.toUInt8 con)
    | _ => .error .vararg
  else .ok (args, consolePutc d (consolePutc 0x25 con))

def kprint : List UInt8 → List Arg → Console → Except Fault Console
  | [], _, con => .ok con
  | [c], _, con =>
    -- after a `%` at the end the loop goes on past the NUL
    if c = 0x25 then .error .overread else .ok (consolePutc c con)
  | c :: d :: fmt, args, con =>
    if c = 0x25 then do
      let (args, con) ← kprintDirective d args con
      kprint fmt args con
    else kprint (d :: fmt) args (consolePutc c con)

/-! ## Formats that fit their arguments -/

inductive ArgKind
  | int
  | uint
  | str
  deriving DecidableEq, Repr

def Arg.kind : Arg → ArgKind
  | .int _ => .int
  | .uint _ => .uint
  | .str _ => .str

theorem Arg.eq_int {arg : Arg} (h : arg.kind = .int) : ∃ value, arg = .int value := by
  cases arg with
  | int value => exact ⟨value, rfl⟩
  | uint value => cases h
  | str s => cases h

theorem Arg.eq_uint {arg : Arg} (h : arg.kind = .uint) : ∃ value, arg = .uint value := by
  cases arg with
  | int value => cases h
  | uint value => exact ⟨value, rfl⟩
  | str s => cases h

theorem Arg.eq_str {arg : Arg} (h : arg.kind = .str) : ∃ s, arg = .str s := by
  cases arg with
  | int value => cases h
  | uint value => cases h
  | str s => exact ⟨s, rfl⟩

/-- The argument that a directive takes. -/
def directiveKind (d : UInt8) : Option ArgKind :=
  if d = 0x64 then some .int else if d = 0x78 then some .uint else if d = 0x73 then some .str
  else if d = 0x63 then some .int else none

/-- The format does not end in a lone `%`, and there is an argument of the right type for each of
its directives. -/
def fits : List UInt8 → List ArgKind → Bool
  | [], _ => true
  | [c], _ => c ≠ 0x25
  | c :: d :: fmt, kinds =>
    if c = 0x25 then
      match directiveKind d with
      | none => fits fmt kinds
      | some kind => kinds.head? = some kind && fits fmt kinds.tail
    else fits (d :: fmt) kinds

/-- A directive without an argument, or with one of its type, succeeds and takes that argument. -/
theorem kprintDirective_ok {d : UInt8} (args : List Arg)
    (h : ∀ kind, directiveKind d = some kind → (args.map Arg.kind).head? = some kind) (con : Console) :
    ∃ con', kprintDirective d args con = .ok (if (directiveKind d).isSome then args.tail else args, con') := by
  have hint : ∀ {kind}, directiveKind d = some kind → ∃ arg rest, args = arg :: rest ∧ arg.kind = kind := by
    intro kind hkind
    cases args with
    | nil => cases h kind hkind
    | cons arg rest => exact ⟨arg, rest, rfl, by simpa using h kind hkind⟩
  unfold kprintDirective
  unfold directiveKind at hint ⊢
  split
  · rename_i hd
    obtain ⟨arg, rest, rfl, harg⟩ := hint (if_pos hd)
    obtain ⟨value, rfl⟩ := Arg.eq_int harg
    exact ⟨_, rfl⟩
  · split
    · rename_i hd hx
      obtain ⟨arg, rest, rfl, harg⟩ := hint (by rw [if_neg hd, if_pos hx])
      obtain ⟨value, rfl⟩ := Arg.eq_uint harg
      exact ⟨_, rfl⟩
    · split
      · rename_i hd hx hs
        obtain ⟨arg, rest, rfl, harg⟩ := hint (by rw [if_neg hd, if_neg hx, if_pos hs])
        obtain ⟨s, rfl⟩ := Arg.eq_str harg
        exact ⟨_, rfl⟩
      · split
        · rename_i hd hx hs hc
          obtain ⟨arg, rest, rfl, harg⟩ := hint (by rw [if_neg hd, if_neg hx, if_neg hs, if_pos hc])
          obtain ⟨value, rfl⟩ := Arg.eq_int harg
          exact ⟨_, rfl⟩
        · exact ⟨_, rfl⟩

/-- A format that fits its arguments is printed. -/
theorem kprint_ok (args : List Arg) {fmt : List UInt8} (h : fits fmt (args.map Arg.kind)) (con : Console) :
    ∃ con', kprint fmt args con = .ok con' := by
  induction fmt, args, con using kprint.induct with
  | case1 args con => exact ⟨con, rfl⟩
  | case2 args con => exact absurd h (by simp [fits])
  | case3 c args con hc => exact ⟨_, if_neg hc⟩
  | case4 d fmt args con ih =>
    simp only [fits, if_true] at h
    simp only [kprint, if_true]
    cases hd : directiveKind d with
    | none =>
      obtain ⟨con', hdir⟩ := kprintDirective_ok (d := d) args (by simp [hd]) con
      rw [hd] at h
      rw [hdir, hd]
      exact ih args con' h
    | some kind =>
      simp only [hd, Bool.and_eq_true, decide_eq_true_eq] at h
      obtain ⟨con', hdir⟩ := kprintDirective_ok (d := d) args (by simpa [hd] using h.1) con
      rw [hdir, hd]
      exact ih args.tail con' (by rw [List.map_tail]; exact h.2)
  | case5 c d fmt args con hc ih =>
    simp only [fits, hc, if_false] at h
    simp only [kprint, hc, if_false]
    exact ih h

end SnakeOS.Kernel
