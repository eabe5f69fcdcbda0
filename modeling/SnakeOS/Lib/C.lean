/-
C as the sources are compiled for x86-64: the faults the language does not catch, reported
instead of executed; checked `size_t` subtraction and array access; conversions to `int`.
-/
import Mathlib.Algebra.Group.Int.Defs
import Mathlib.Algebra.Group.Nat.Defs
import Mathlib.Tactic.Common

namespace C

/-! ## Faults -/

/-- What stops a run: an array index out of bounds, a `size_t` subtraction below zero, a read past
the end of a string, a variadic argument that is missing or of another type, a use of `NULL` as an
address, or the program halting the machine with a message. -/
inductive Fault
  | index (i : Nat)
  | wrap (a b : Nat)
  | overread
  | vararg
  | null
  | halt (msg : List UInt8)
  deriving DecidableEq, Repr

@[simp] theorem ok_bind {ε α β : Type} (a : α) (f : α → Except ε β) : (Except.ok a >>= f) = f a := rfl

@[simp] theorem pure_eq_ok {ε α : Type} (a : α) : (pure a : Except ε α) = .ok a := rfl

/-- A computation that ends well is made of two that do. -/
theorem bind_eq_ok {ε α β : Type} {x : Except ε α} {f : α → Except ε β} {b : β} (h : (x >>= f) = .ok b) :
    ∃ a, x = .ok a ∧ f a = .ok b := by
  cases x with
  | error e => cases h
  | ok a => exact ⟨a, rfl, h⟩

def sizeSub (a b : Nat) : Except Fault Nat := if b ≤ a then .ok (a - b) else .error (.wrap a b)

theorem sizeSub_ok {a b : Nat} (h : b ≤ a) : sizeSub a b = .ok (a - b) := if_pos h

section Array

variable {α : Type} {n : Nat}

def load (v : Vector α n) (i : Nat) : Except Fault α :=
  if h : i < n then .ok v[i] else .error (.index i)

def store (v : Vector α n) (i : Nat) (x : α) : Except Fault (Vector α n) :=
  if h : i < n then .ok (v.set i x) else .error (.index i)

theorem load_ok {v : Vector α n} {i : Nat} (h : i < n) : load v i = .ok v[i] := dif_pos h

theorem store_ok {v : Vector α n} {i : Nat} {x : α} (h : i < n) : store v i x = .ok (v.set i x) := dif_pos h

/-- The element stored is the one loaded. -/
theorem load_store {v v' : Vector α n} {i : Nat} {x : α} (h : store v i x = .ok v') : load v' i = .ok x := by
  unfold store at h
  split at h
  · rename_i hi
    obtain rfl := Except.ok.inj h
    rw [load_ok hi, Vector.getElem_set_self]
  · cases h

/-- A store leaves the other elements as they are. -/
theorem load_store_ne {v v' : Vector α n} {i j : Nat} {x : α} (h : store v i x = .ok v') (hij : i ≠ j) :
    load v' j = load v j := by
  unfold store at h
  split at h
  · obtain rfl := Except.ok.inj h
    unfold load
    split
    · rw [Vector.getElem_set_ne _ _ hij]
    · rfl
  · cases h

end Array

/-! ## Strings -/

/-- The string that starts a piece of memory: the bytes before its first NUL. -/
def cstr : List UInt8 → Option (List UInt8)
  | [] => none
  | c :: cs => if c = 0 then some [] else (cstr cs).map (c :: ·)

theorem cstr_append_nul {s : List UInt8} (h : ∀ c ∈ s, c ≠ 0) (cs : List UInt8) :
    cstr (s ++ 0 :: cs) = some s := by
  induction s with
  | nil => rfl
  | cons c s ih =>
    simp only [List.cons_append, cstr, if_neg (h c (by simp)), ih fun d hd => h d (by simp [hd]),
      Option.map_some]

/-- A `char *` to a string that ends: the bytes from there on. -/
structure CString where
  bytes : List UInt8
  terminated : (cstr bytes).isSome

/-- The string itself. -/
def CString.text (s : CString) : List UInt8 := (cstr s.bytes).get s.terminated

theorem CString.cstr_bytes (s : CString) : cstr s.bytes = some s.text := (Option.some_get s.terminated).symm

/-- The address of an object, which a program uses only if it is not `NULL`. -/
def deref {α : Type} : Option α → Except Fault α
  | none => .error .null
  | some a => .ok a

/-! ## Integers -/

/-- Conversion of an integer of any type to `int`: the value modulo `2 ^ 32`, as a signed one. -/
def toInt32 (x : Int) : Int := Int.bmod x (2 ^ 32)

theorem toInt32_of_range {x : Int} (h1 : -2 ^ 31 ≤ x) (h2 : x < 2 ^ 31) : toInt32 x = x := by
  unfold toInt32; rw [Int.bmod_eq_of_le] <;> omega

/-- `n * (-1)` for a `size_t` `n`: the product of `n` and `2 ^ 64 - 1`. -/
def sizeNeg (n : Nat) : Nat := n * (2 ^ 64 - 1) % 2 ^ 64

/-- A small negated `size_t` converts to the negative `int`. -/
theorem toInt32_sizeNeg {n : Nat} (h : n < 2 ^ 31) : toInt32 (sizeNeg n) = -(n : Int) := by
  have hn : (sizeNeg n : Int) = -(n : Int) + 2 ^ 32 * (if n = 0 then 0 else 2 ^ 32) := by
    unfold sizeNeg
    split
    · subst_vars; rfl
    · have : n * (2 ^ 64 - 1) = (2 ^ 64 - n) + 2 ^ 64 * (n - 1) := by omega
      rw [this, Nat.add_mul_mod_self_left, Nat.mod_eq_of_lt (by omega)]
      omega
  unfold toInt32
  rw [hn, show (2 : Int) ^ 32 = ((2 ^ 32 : Nat) : Int) from rfl, Int.add_mul_bmod_self_left]
  exact toInt32_of_range (by omega) (by omega)

end C
