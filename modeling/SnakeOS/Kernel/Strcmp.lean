/-
lib/util.c: the sign of `strcmp` is the order of two strings as a dictionary has it, byte by byte as unsigned
numbers and with a prefix before what it is a prefix of.
-/
import Mathlib.Data.List.Lex
import Mathlib.Data.Nat.Basic
import SnakeOS.Kernel.Util

namespace SnakeOS.Kernel

open C

/-- The bytes of a string as numbers, which lists of numbers are ordered by. -/
def unsigned (s : List UInt8) : List Nat := s.map UInt8.toNat

theorem unsigned_injective : Function.Injective unsigned := List.map_injective_iff.2 fun _ _ h => UInt8.toNat_inj.1 h

theorem unsigned_cons_lt {c d : UInt8} {s t : List UInt8} :
    unsigned (c :: s) < unsigned (d :: t) ↔ c.toNat < d.toNat ∨ c = d ∧ unsigned s < unsigned t := by
  unfold unsigned
  rw [List.map_cons, List.map_cons, List.cons_lt_cons_iff, UInt8.toNat_inj]

/-! ## The comparison -/

theorem strcmp_swap {as bs : List UInt8} {ret : Int} (h : strcmp as bs = .ok ret) : strcmp bs as = .ok (-ret) := by
  induction as, bs using strcmp.induct with
  | case1 a as b bs heq ih =>
    obtain ⟨ha, rfl⟩ := heq
    rw [strcmp, if_pos ⟨ha, rfl⟩] at h ⊢
    exact ih h
  | case2 a as b bs hne =>
    rw [strcmp, if_neg hne] at h
    have hne' : ¬(b ≠ 0 ∧ b = a) := by
      rintro ⟨hb, rfl⟩
      exact hne ⟨hb, rfl⟩
    obtain rfl := Except.ok.inj h
    rw [strcmp, if_neg hne', Int.neg_sub]
  | case3 as bs hnil =>
    rw [strcmp] at h
    · cases h
    · exact hnil

/-- A negative result is for strings in their order. -/
theorem strcmp_neg {as bs s t : List UInt8} {ret : Int} (ha : cstr as = some s) (hb : cstr bs = some t)
    (h : strcmp as bs = .ok ret) (hret : ret < 0) : unsigned s < unsigned t := by
  induction as, bs using strcmp.induct generalizing s t with
  | case1 a as b bs heq ih =>
    obtain ⟨ha0, rfl⟩ := heq
    rw [strcmp, if_pos ⟨ha0, rfl⟩] at h
    rw [cstr, if_neg ha0] at ha hb
    obtain ⟨s, hs, rfl⟩ := Option.map_eq_some_iff.1 ha
    obtain ⟨t, ht, rfl⟩ := Option.map_eq_some_iff.1 hb
    exact unsigned_cons_lt.2 (.inr ⟨rfl, ih hs ht h⟩)
  | case2 a as b bs hne =>
    rw [strcmp, if_neg hne] at h
    obtain rfl := Except.ok.inj h
    have hlt : a.toNat < b.toNat := by omega
    have hb0 : b ≠ 0 := by
      rintro rfl
      exact absurd hlt (Nat.not_lt_zero _)
    rw [cstr, if_neg hb0] at hb
    obtain ⟨t, -, rfl⟩ := Option.map_eq_some_iff.1 hb
    rw [cstr] at ha
    split at ha
    · obtain rfl := Option.some.inj ha
      exact List.nil_lt_cons _ _
    · obtain ⟨s, -, rfl⟩ := Option.map_eq_some_iff.1 ha
      exact unsigned_cons_lt.2 (.inl hlt)
  | case3 as bs hnil =>
    rw [strcmp] at h
    · cases h
    · exact hnil

/-- The sign of the result is the order of the strings. -/
theorem strcmp_sign {as bs s t : List UInt8} (ha : cstr as = some s) (hb : cstr bs = some t) :
    ∃ ret, strcmp as bs = .ok ret ∧ (ret = 0 ↔ s = t) ∧ (ret < 0 ↔ unsigned s < unsigned t) ∧
      (0 < ret ↔ unsigned t < unsigned s) := by
  obtain ⟨ret, hret, heq⟩ := strcmp_spec ha hb
  have hneg := strcmp_neg ha hb hret
  have hpos : 0 < ret → unsigned t < unsigned s := fun h => strcmp_neg hb ha (strcmp_swap hret) (by omega)
  refine ⟨ret, hret, heq, ⟨hneg, fun hlt => ?_⟩, ⟨hpos, fun hlt => ?_⟩⟩
  · rcases lt_trichotomy ret 0 with h | h | h
    · exact h
    · exact absurd hlt (heq.1 h ▸ lt_irrefl _)
    · exact absurd hlt (lt_asymm (hpos h))
  · rcases lt_trichotomy ret 0 with h | h | h
    · exact absurd hlt (lt_asymm (hneg h))
    · exact absurd hlt (heq.1 h ▸ lt_irrefl _)
    · exact h

/-- A string with its NUL starts with the first byte of its memory, and goes on as that does. -/
theorem cstr_cut {a : UInt8} {as s : List UInt8} (h : cstr (a :: as) = some s) :
    ∃ rest, s ++ [0] = a :: rest ∧ (a ≠ 0 → ∃ s', cstr as = some s' ∧ rest = s' ++ [0]) := by
  rw [cstr] at h
  split at h
  · rename_i ha
    obtain rfl := Option.some.inj h
    exact ⟨[], by rw [ha]; rfl, fun hne => absurd ha hne⟩
  · obtain ⟨s', hs', rfl⟩ := Option.map_eq_some_iff.1 h
    exact ⟨s' ++ [0], rfl, fun _ => ⟨s', hs', rfl⟩⟩

/-- Nothing behind the strings is read: cut off there, they give the same result. -/
theorem strcmp_cut {as bs s t : List UInt8} (ha : cstr as = some s) (hb : cstr bs = some t) :
    strcmp (s ++ [0]) (t ++ [0]) = strcmp as bs := by
  induction as generalizing bs s t with
  | nil => cases ha
  | cons a as ih =>
    cases bs with
    | nil => cases hb
    | cons b bs =>
      obtain ⟨rest, hs, hrest⟩ := cstr_cut ha
      obtain ⟨rest', ht, hrest'⟩ := cstr_cut hb
      rw [hs, ht, strcmp, strcmp]
      split
      · rename_i h
        obtain ⟨ha0, rfl⟩ := h
        obtain ⟨s', hs', rfl⟩ := hrest ha0
        obtain ⟨t', ht', rfl⟩ := hrest' ha0
        exact ih hs' ht'
      · rfl

/-! ## The order -/

/-- `strcmp` finds the first string not behind the second. -/
def StrcmpLe (a b : CString) : Prop := ∃ ret, strcmp a.bytes b.bytes = .ok ret ∧ ret ≤ 0

theorem strcmpLe_iff (a b : CString) : StrcmpLe a b ↔ unsigned a.text ≤ unsigned b.text := by
  obtain ⟨ret, hret, -, -, hpos⟩ := strcmp_sign a.cstr_bytes b.cstr_bytes
  rw [← not_lt, ← hpos, not_lt]
  constructor
  · rintro ⟨ret', hret', hle⟩
    obtain rfl := Except.ok.inj (hret.symm.trans hret')
    exact hle
  · exact fun hle => ⟨ret, hret, hle⟩

/-- For all strings `strcmp` ends without reading behind a NUL, its result is zero for equal strings only, and its
sign is their order; so it orders the strings totally. -/
theorem strcmp_orders :
    (∀ a b : CString, ∃ ret, strcmp a.bytes b.bytes = .ok ret ∧ strcmp (a.text ++ [0]) (b.text ++ [0]) = .ok ret ∧
      (ret = 0 ↔ a.text = b.text) ∧ (ret < 0 ↔ unsigned a.text < unsigned b.text) ∧
      (0 < ret ↔ unsigned b.text < unsigned a.text)) ∧
    (∀ a, StrcmpLe a a) ∧ (∀ a b, StrcmpLe a b → StrcmpLe b a → a.text = b.text) ∧
    (∀ a b c, StrcmpLe a b → StrcmpLe b c → StrcmpLe a c) ∧ ∀ a b, StrcmpLe a b ∨ StrcmpLe b a := by
  simp only [strcmpLe_iff]
  refine ⟨fun a b => ?_, fun a => le_rfl, fun a b hab hba => unsigned_injective (le_antisymm hab hba),
    fun a b c => le_trans, fun a b => le_total _ _⟩
  obtain ⟨ret, hret, hsign⟩ := strcmp_sign a.cstr_bytes b.cstr_bytes
  exact ⟨ret, hret, (strcmp_cut a.cstr_bytes b.cstr_bytes).trans hret, hsign⟩

/-- A string, one that it is a prefix of, and one with a byte above 127 in its place. -/
theorem strcmp_orders_prefix : StrcmpLe ⟨[0x6B, 0], rfl⟩ ⟨[0x6B, 0xFF, 0], rfl⟩ :=
  strcmp_orders.2.2.2.1 _ ⟨[0x6B, 0x7F, 0], rfl⟩ _ ⟨-127, rfl, by decide⟩ ⟨-128, rfl, by decide⟩

end SnakeOS.Kernel
