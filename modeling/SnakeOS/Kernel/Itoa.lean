/-
kernel/kprint.c: `itoa_dec` over its buffers. It leaves the text of `itoaDec` there, a canonical
numeral of every value but the lowest `int`.
-/
import SnakeOS.Kernel.Kprint
import SnakeOS.Lib.Decimal
import SnakeOS.Lib.Reverse

namespace SnakeOS.Kernel

open C Term

/-! ## The buffers -/

/-- The loop of `itoa_dec` that stores the digits in `temp`, with their number. -/
def itoaDecDigits (value : Int) (temp : Vector UInt8 64) (i : Nat) : Except Fault (Vector UInt8 64 × Nat) :=
  if 0 < value then do
    let temp ← store temp i (value % 10 + 0x30).toNat.toUInt8
    itoaDecDigits (value / 10) temp (i + 1)
  else return (temp, i)
termination_by value.toNat

/-- `if (neg) temp[i++] = '-'`. -/
def itoaSign (neg : Bool) (temp : Vector UInt8 64) (i : Nat) : Except Fault (Vector UInt8 64 × Nat) :=
  if neg then do
    let temp ← store temp i 0x2D
    return (temp, i + 1)
  else return (temp, i)

/-- The loop that copies the first `i` bytes of `temp` to `buffer` in reverse, from `j` on. -/
def itoaReverse (temp : Vector UInt8 64) : Nat → Nat → Vector UInt8 64 → Except Fault (Vector UInt8 64 × Nat)
  | 0, j, buffer => return (buffer, j)
  | i + 1, j, buffer => do
    let buffer ← store buffer j (← load temp i)
    itoaReverse temp i (j + 1) buffer

/-- The buffer after `itoa_dec`; `temp` is the uninitialised array. -/
def itoaDecInto (value : Int) (temp buffer : Vector UInt8 64) : Except Fault (Vector UInt8 64) :=
  if value = 0 then do
    let buffer ← store buffer 0 0x30
    store buffer 1 0
  else do
    let neg := value < 0
    let value := if value < 0 then toInt32 (-value) else value
    let (temp, i) ← itoaDecDigits value temp 0
    let (temp, i) ← itoaSign neg temp i
    let (buffer, j) ← itoaReverse temp i 0 buffer
    store buffer j 0

/-! ## The digits -/

theorem itoaDecLoop_eq (value : Int) (temp : List UInt8) :
    itoaDecLoop value temp = temp ++ (Nat.digits 10 value.toNat).map Decimal.digit := by
  induction value, temp using itoaDecLoop.induct with
  | case1 value temp h ih =>
    obtain ⟨n, rfl⟩ := Int.eq_ofNat_of_zero_le h.le
    have hn : 0 < n := by exact_mod_cast h
    have hd : ((n : Int) % 10 + 0x30).toNat.toUInt8 = Decimal.digit (n % 10) := by
      unfold Decimal.digit
      congr 1
      omega
    rw [itoaDecLoop, if_pos h, ih, hd, show ((n : Int) / 10).toNat = n / 10 by omega, Int.toNat_natCast,
      Nat.digits_def' (by norm_num) hn, List.map_cons, List.append_assoc]
    rfl
  | case2 value temp h =>
    rw [itoaDecLoop, if_neg h, Int.toNat_of_nonpos (not_lt.1 h)]
    simp

/-- The bytes of `temp` in use are those of the list. -/
theorem itoaDecDigits_spec (value : Int) (l : List UInt8) :
    ∀ temp : Vector UInt8 64, temp.toList.take l.length = l → (itoaDecLoop value l).length ≤ 64 →
      ∃ temp', itoaDecDigits value temp l.length = .ok (temp', (itoaDecLoop value l).length) ∧
        temp'.toList.take (itoaDecLoop value l).length = itoaDecLoop value l := by
  induction value, l using itoaDecLoop.induct with
  | case1 value l h ih =>
    intro temp htemp hlen
    rw [itoaDecLoop, if_pos h] at hlen ⊢
    have hl : l.length < 64 := by
      rw [itoaDecLoop_eq] at hlen
      simp only [List.length_append, List.length_singleton] at hlen
      omega
    obtain ⟨temp', hrun, htemp'⟩ := ih (temp.set l.length (value % 10 + 0x30).toNat.toUInt8)
      (by rw [List.length_append, List.length_singleton, take_set_succ temp hl, htemp]) hlen
    refine ⟨temp', ?_, htemp'⟩
    rw [itoaDecDigits, if_pos h, store_ok hl]
    simpa using hrun
  | case2 value l h =>
    intro temp htemp _
    rw [itoaDecLoop, if_neg h, itoaDecDigits, if_neg h]
    exact ⟨temp, rfl, htemp⟩

theorem itoaSign_spec (neg : Bool) {temp : Vector UInt8 64} {l : List UInt8}
    (htemp : temp.toList.take l.length = l) (hl : l.length < 64) :
    ∃ temp' i, itoaSign neg temp l.length = .ok (temp', i) ∧ i ≤ l.length + 1 ∧
      temp'.toList.take i = l ++ (if neg then [0x2D] else []) := by
  cases neg with
  | false => exact ⟨temp, l.length, rfl, by omega, by simpa using htemp⟩
  | true =>
    refine ⟨temp.set l.length 0x2D, l.length + 1, ?_, le_rfl, ?_⟩
    · simp only [itoaSign, if_true, store_ok hl]
      rfl
    · rw [take_set_succ temp hl, htemp]
      rfl

theorem itoaReverse_eq (temp : Vector UInt8 64) : ∀ (i j : Nat) (buffer : Vector UInt8 64),
    itoaReverse temp i j buffer = reverseInto temp i j buffer
  | 0, _, _ => rfl
  | i + 1, j, buffer => by simp only [itoaReverse, reverseInto, itoaReverse_eq temp i]

theorem itoaReverse_spec (temp : Vector UInt8 64) (i j : Nat) (buffer : Vector UInt8 64) (hij : i + j ≤ 64) :
    ∃ buffer', itoaReverse temp i j buffer = .ok (buffer', j + i) ∧
      buffer'.toList.take (j + i) = buffer.toList.take j ++ (temp.toList.take i).reverse := by
  rw [itoaReverse_eq]
  exact reverseInto_spec temp i j buffer (by omega) hij

/-! ## The text -/

/-- What `itoa_dec` takes the digits of: the value, or its negation as an `int`. -/
def itoaDecAbs (value : Int) : Int := if value < 0 then toInt32 (-value) else value

theorem itoaDecAbs_eq {value : Int} (h1 : -2 ^ 31 < value) (h2 : value < 2 ^ 31) :
    itoaDecAbs value = value.natAbs := by
  unfold itoaDecAbs
  split
  · rw [toInt32_of_range (by omega) (by omega)]
    omega
  · omega

/-- The lowest `int` is its own negation. -/
theorem itoaDecAbs_min : itoaDecAbs (-2 ^ 31) = -2 ^ 31 := by decide

theorem itoaDec_eq {value : Int} (h : value ≠ 0) :
    itoaDec value = (if value < 0 then [0x2D] else []) ++ Decimal.numeral (itoaDecAbs value).toNat := by
  unfold itoaDec itoaDecAbs Decimal.numeral
  rw [if_neg h]
  simp only [itoaDecLoop_eq, List.nil_append]
  split <;> simp

theorem itoaDecAbs_lt {value : Int} (h1 : -2 ^ 31 ≤ value) (h2 : value < 2 ^ 31) :
    (itoaDecAbs value).toNat < 10 ^ 10 := by
  rcases eq_or_lt_of_le h1 with rfl | h1
  · rw [itoaDecAbs_min]
    norm_num
  · rw [itoaDecAbs_eq h1 h2]
    omega

theorem itoaDec_ne_nul (value : Int) : ∀ c ∈ itoaDec value, c ≠ 0 := by
  intro c hc
  by_cases h : value = 0
  · subst h
    obtain rfl : c = 0x30 := by simpa [itoaDec] using hc
    decide
  · rw [itoaDec_eq h, List.mem_append] at hc
    rcases hc with hc | hc
    · split at hc
      · obtain rfl : c = 0x2D := by simpa using hc
        decide
      · simp at hc
    · exact (Decimal.isDigit_numeral _ c hc).ne_nul

/-- `itoa_dec` leaves the text of `itoaDec` in its buffer, and a NUL after it. -/
theorem itoaDecInto_spec {value : Int} (h1 : -2 ^ 31 ≤ value) (h2 : value < 2 ^ 31)
    (temp buffer : Vector UInt8 64) :
    ∃ buf, itoaDecInto value temp buffer = .ok buf ∧ cstr buf.toList = some (itoaDec value) := by
  by_cases h : value = 0
  · subst h
    refine ⟨(buffer.set 0 0x30).set 1 0, rfl, cstr_set_nul (by omega) ?_ (itoaDec_ne_nul 0)⟩
    exact take_set_succ buffer (i := 0) (by omega) 0x30
  · -- the digits
    set l := itoaDecLoop (itoaDecAbs value) [] with hl
    have hlen : l.length ≤ 10 := by
      have := Decimal.numeral_length_le (itoaDecAbs_lt h1 h2)
      rwa [Decimal.numeral, List.length_reverse, ← List.nil_append ((Nat.digits _ _).map _),
        ← itoaDecLoop_eq] at this
    obtain ⟨temp₁, hdigits, htemp₁⟩ := itoaDecDigits_spec (itoaDecAbs value) [] temp rfl
      (by rw [← hl]; omega)
    rw [← hl, List.length_nil] at hdigits
    rw [← hl] at htemp₁
    -- the sign
    obtain ⟨temp₂, i, hsign, hi, htemp₂⟩ := itoaSign_spec (decide (value < 0)) htemp₁ (by omega)
    have hdec : (temp₂.toList.take i).reverse = itoaDec value := by
      unfold itoaDec
      rw [if_neg h, htemp₂, hl]
      simp only [itoaDecAbs, decide_eq_true_eq]
      split <;> simp
    -- the reversal and the NUL
    obtain ⟨buf, hrev, hbuf⟩ := itoaReverse_spec temp₂ i 0 buffer (by omega)
    rw [Nat.zero_add] at hrev hbuf
    refine ⟨buf.set i 0, ?_, ?_⟩
    · unfold itoaDecInto
      rw [if_neg h]
      show itoaDecDigits (itoaDecAbs value) temp 0 >>= _ = _
      rw [hdigits]
      show itoaSign (decide (value < 0)) temp₁ l.length >>= _ = _
      rw [hsign]
      show itoaReverse temp₂ i 0 buffer >>= _ = _
      rw [hrev]
      exact store_ok (by omega)
    · rw [List.take_zero, List.nil_append, hdec] at hbuf
      exact cstr_set_nul (by omega) hbuf (itoaDec_ne_nul value)

/-- Only the string at the start of a buffer is written to the console. -/
theorem consoleWrite_cstr {mem str : List UInt8} (h : cstr mem = some str) (con : Console) :
    consoleWrite (some mem) con = consoleWrite (some str) con := by
  induction mem generalizing str con with
  | nil => cases h
  | cons c mem ih =>
    simp only [cstr] at h
    simp only [consoleWrite, consoleWriteLoop]
    split at h
    · rename_i hc
      obtain rfl : str = [] := by simpa using h.symm
      simp [hc, consoleWriteLoop]
    · rename_i hc
      obtain ⟨str', hstr', rfl⟩ : ∃ str', cstr mem = some str' ∧ c :: str' = str := by simpa using h
      rw [if_neg hc, consoleWriteLoop, if_neg hc]
      exact ih hstr' _

/-- What `kprint` writes from the buffer for `%d`. -/
theorem consoleWrite_itoaDecInto {value : Int} (h1 : -2 ^ 31 ≤ value) (h2 : value < 2 ^ 31)
    (temp buffer : Vector UInt8 64) (con : Console) :
    ∃ buf, itoaDecInto value temp buffer = .ok buf ∧
      consoleWrite (some buf.toList) con = consoleWrite (some (itoaDec value)) con := by
  obtain ⟨buf, hrun, hbuf⟩ := itoaDecInto_spec h1 h2 temp buffer
  exact ⟨buf, hrun, consoleWrite_cstr hbuf con⟩

/-! ## The numeral -/

/-- `itoa_dec` fills the buffer with a canonical numeral of the value. -/
def Prints (value : Int) (temp buffer : Vector UInt8 64) : Prop :=
  ∃ buf t, itoaDecInto value temp buffer = .ok buf ∧ cstr buf.toList = some t ∧
    Decimal.Canonical t ∧ Decimal.value t = value

theorem prints_iff {value : Int} (h1 : -2 ^ 31 ≤ value) (h2 : value < 2 ^ 31)
    (temp buffer : Vector UInt8 64) :
    Prints value temp buffer ↔ Decimal.Canonical (itoaDec value) ∧ Decimal.value (itoaDec value) = value := by
  obtain ⟨buf, hrun, hbuf⟩ := itoaDecInto_spec h1 h2 temp buffer
  constructor
  · rintro ⟨buf', t, hrun', hbuf', hcan, hval⟩
    obtain rfl : buf = buf' := by simpa [hrun] using hrun'
    obtain rfl : itoaDec value = t := by simpa [hbuf] using hbuf'
    exact ⟨hcan, hval⟩
  · rintro ⟨hcan, hval⟩
    exact ⟨buf, _, hrun, hbuf, hcan, hval⟩

/-- The text of every `int` but the lowest is a canonical numeral of it. -/
theorem itoaDec_canonical {value : Int} (h1 : -2 ^ 31 < value) (h2 : value < 2 ^ 31) :
    Decimal.Canonical (itoaDec value) ∧ Decimal.value (itoaDec value) = value := by
  by_cases h : value = 0
  · subst h
    exact ⟨Or.inl rfl, by decide⟩
  · rw [itoaDec_eq h, itoaDecAbs_eq h1 h2, Int.toNat_natCast]
    have hplain := Decimal.plain_numeral (n := value.natAbs) (by omega)
    by_cases hneg : value < 0
    · rw [if_pos hneg]
      refine ⟨Or.inr (Or.inr ⟨_, rfl, hplain⟩), ?_⟩
      rw [List.singleton_append, Decimal.value_minus, Decimal.natVal_numeral]
      omega
    · rw [if_neg hneg, List.nil_append]
      refine ⟨Or.inr (Or.inl hplain), ?_⟩
      rw [Decimal.value_of_digits hplain.digits, Decimal.natVal_numeral]
      omega

/-- The text of the lowest `int` is the minus sign alone. -/
theorem itoaDec_min : itoaDec (-2 ^ 31) = [0x2D] := by
  rw [itoaDec_eq (by norm_num), itoaDecAbs_min, if_pos (by norm_num)]
  decide

theorem not_canonical_minus : ¬Decimal.Canonical [0x2D] := by
  rintro (h | h | ⟨ds, h, hds⟩)
  · exact absurd h (by decide)
  · exact absurd (h.digits 0x2D (by simp)) (by decide)
  · obtain rfl : ds = [] := by simpa using h.symm
    exact hds.ne_nil rfl

/-- `itoa_dec` prints a value exactly when it is not the lowest `int`. -/
theorem itoa_dec_prints_iff {value : Int} (h1 : -2 ^ 31 ≤ value) (h2 : value < 2 ^ 31)
    (temp buffer : Vector UInt8 64) : Prints value temp buffer ↔ value ≠ -2 ^ 31 := by
  rw [prints_iff h1 h2]
  constructor
  · rintro ⟨hcan, -⟩ rfl
    rw [itoaDec_min] at hcan
    exact not_canonical_minus hcan
  · intro h
    exact itoaDec_canonical (lt_of_le_of_ne h1 (Ne.symm h)) h2

theorem itoa_dec_prints_minus_seven :
    ((-2 ^ 31 : Int) ≤ -7 ∧ (-7 : Int) < 2 ^ 31) ∧
      (Prints (-7) (Vector.replicate 64 0) (Vector.replicate 64 0) ↔ (-7 : Int) ≠ -2 ^ 31) :=
  ⟨by decide, itoa_dec_prints_iff (by decide) (by decide) _ _⟩

theorem itoa_dec_lowest : ¬Prints (-2 ^ 31) (Vector.replicate 64 0) (Vector.replicate 64 0) := by
  rw [prints_iff le_rfl (by norm_num), itoaDec_min]
  exact fun h => not_canonical_minus h.1

end SnakeOS.Kernel
