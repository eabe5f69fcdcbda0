/-
kernel/kprint.c: `itoa_hex` over its buffers. It leaves a canonical hexadecimal numeral of every `unsigned int`
there, so that two values never print alike.
-/
import SnakeOS.Kernel.Format

namespace SnakeOS.Kernel

open C Term

/-! ## The buffers -/

/-- The loop of `itoa_hex` that stores the digits in `temp`, with their number. -/
def itoaHexDigits (value : Nat) (temp : Vector UInt8 32) (i : Nat) : Except Fault (Vector UInt8 32 × Nat) :=
  if 0 < value then do
    let temp ← store temp i ((Byte.text "0123456789ABCDEF").getD (value % 16) 0)
    itoaHexDigits (value / 16) temp (i + 1)
  else return (temp, i)
termination_by value

/-- The buffer after `itoa_hex`; `temp` is the uninitialised array. -/
def itoaHexInto (value : Nat) (temp : Vector UInt8 32) (buffer : Vector UInt8 64) :
    Except Fault (Vector UInt8 64) :=
  if value = 0 then do
    let buffer ← store buffer 0 0x30
    store buffer 1 0
  else do
    let (temp, i) ← itoaHexDigits value temp 0
    let buffer ← store buffer 0 0x30
    let buffer ← store buffer 1 0x78
    let (buffer, j) ← reverseInto temp i 2 buffer
    store buffer j 0

/-! ## The text -/

/-- The bytes of `temp` in use are those of the list. -/
theorem itoaHexDigits_spec (value : Nat) (l : List UInt8) :
    ∀ temp : Vector UInt8 32, temp.toList.take l.length = l → (itoaHexLoop value l).length ≤ 32 →
      ∃ temp', itoaHexDigits value temp l.length = .ok (temp', (itoaHexLoop value l).length) ∧
        temp'.toList.take (itoaHexLoop value l).length = itoaHexLoop value l := by
  induction value, l using itoaHexLoop.induct with
  | case1 value l h ih =>
    intro temp htemp hlen
    rw [itoaHexLoop, if_pos h] at hlen ⊢
    have hl : l.length < 32 := by
      rw [itoaHexLoop_eq] at hlen
      simp only [List.length_append, List.length_singleton] at hlen
      omega
    obtain ⟨temp', hrun, htemp'⟩ := ih (temp.set l.length ((Byte.text "0123456789ABCDEF").getD (value % 16) 0))
      (by rw [List.length_append, List.length_singleton, take_set_succ temp hl, htemp]) hlen
    refine ⟨temp', ?_, htemp'⟩
    rw [itoaHexDigits, if_pos h, store_ok hl]
    simpa using hrun
  | case2 value l h =>
    intro temp htemp _
    rw [itoaHexLoop, if_neg h, itoaHexDigits, if_neg h]
    exact ⟨temp, rfl, htemp⟩

/-- `itoa_hex` leaves the text of `itoaHex` in its buffer, and a NUL after it. -/
theorem itoaHexInto_spec {value : Nat} (hlt : value < 16 ^ 8) (temp : Vector UInt8 32) (buffer : Vector UInt8 64) :
    ∃ buf, itoaHexInto value temp buffer = .ok buf ∧ cstr buf.toList = some (itoaHex value) := by
  by_cases h : value = 0
  · subst h
    refine ⟨(buffer.set 0 0x30).set 1 0, rfl, cstr_set_nul (by omega) ?_ (itoaHex_ne_nul 0)⟩
    exact take_set_succ buffer (i := 0) (by omega) 0x30
  · -- the digits
    set l := itoaHexLoop value [] with hl
    have htext : itoaHex value = [0x30, 0x78] ++ l.reverse := by
      unfold itoaHex
      rw [if_neg h]
    have hlen : l.length ≤ 8 := by
      have hnumeral := Hex.numeral_length_le hlt
      have hrev : l.reverse = Hex.numeral value := by
        rw [itoaHex_eq h] at htext
        exact (List.append_cancel_left htext).symm
      rwa [← hrev, List.length_reverse] at hnumeral
    obtain ⟨temp', hdigits, htemp'⟩ := itoaHexDigits_spec value [] temp rfl (by rw [← hl]; omega)
    rw [← hl, List.length_nil] at hdigits
    rw [← hl] at htemp'
    -- the prefix
    let prefixed := (buffer.set 0 0x30).set 1 0x78
    have hmark : prefixed.toList.take 2 = [0x30, 0x78] :=
      (take_set_succ _ (i := 1) (by omega) _).trans (congrArg (· ++ [0x78]) (take_set_succ buffer (i := 0) (by omega) _))
    -- the reversal and the NUL
    obtain ⟨buf, hrev, hbuf⟩ := reverseInto_spec temp' l.length 2 prefixed (by omega) (by omega)
    rw [hmark, htemp', ← htext] at hbuf
    refine ⟨buf.set (2 + l.length) 0, ?_, cstr_set_nul (by omega) hbuf (itoaHex_ne_nul value)⟩
    unfold itoaHexInto
    rw [if_neg h, hdigits]
    show reverseInto temp' l.length 2 prefixed >>= _ = _
    rw [hrev]
    exact store_ok (by omega)

/-! ## The numeral -/

/-- `itoa_hex` leaves the string `t` in a buffer. -/
def HexPrinted (value : UInt32) (t : List UInt8) : Prop :=
  ∃ temp buffer buf, itoaHexInto value.toNat temp buffer = .ok buf ∧ cstr buf.toList = some t

theorem HexPrinted.eq {value : UInt32} {t : List UInt8} (h : HexPrinted value t) : t = itoaHex value.toNat := by
  obtain ⟨temp, buffer, buf, hrun, hbuf⟩ := h
  obtain ⟨buf', hrun', hbuf'⟩ := itoaHexInto_spec value.toNat_lt temp buffer
  obtain rfl := Except.ok.inj (hrun.symm.trans hrun')
  exact Option.some.inj (hbuf.symm.trans hbuf')

/-- Whatever is in the buffers before: `itoa_hex` stays within them and leaves a string, `0` for zero and otherwise
`0x` and upper-case digits without a leading zero, which reads the value; so two values never leave the same one. -/
theorem itoa_hex_reads_back :
    (∀ (value : UInt32) (temp : Vector UInt8 32) (buffer : Vector UInt8 64), ∃ buf t,
      itoaHexInto value.toNat temp buffer = .ok buf ∧ cstr buf.toList = some t ∧ (value = 0 → t = [0x30]) ∧
        (value ≠ 0 → ∃ ds, t = [0x30, 0x78] ++ ds ∧ Hex.Plain ds) ∧ Hex.value t = value.toNat) ∧
      ∀ (value value' : UInt32) (t : List UInt8), HexPrinted value t → HexPrinted value' t → value = value' := by
  constructor
  · intro value temp buffer
    obtain ⟨buf, hrun, hbuf⟩ := itoaHexInto_spec value.toNat_lt temp buffer
    refine ⟨buf, _, hrun, hbuf, ?_, fun h => ?_, value_itoaHex value.toNat⟩
    · rintro rfl
      rfl
    · have hpos : value.toNat ≠ 0 := fun h0 => h (UInt32.toNat_inj.1 h0)
      exact ⟨_, itoaHex_eq hpos, Hex.plain_numeral hpos⟩
  · intro value value' t h h'
    exact UInt32.toNat_inj.1 (itoaHex_injective (h.eq.symm.trans h'.eq))

/-- The text of 255 in buffers of zeroes. -/
theorem itoa_hex_reads_back_ff : ∃ buf t, itoaHexInto 255 (Vector.replicate 32 0) (Vector.replicate 64 0) = .ok buf ∧
    cstr buf.toList = some t ∧ Hex.value t = 255 ∧ ∀ value, HexPrinted value t → value = 255 := by
  obtain ⟨buf, t, hrun, hbuf, -, -, hvalue⟩ :=
    itoa_hex_reads_back.1 255 (Vector.replicate 32 0) (Vector.replicate 64 0)
  exact ⟨buf, t, hrun, hbuf, hvalue, fun value h => itoa_hex_reads_back.2 value 255 t h ⟨_, _, buf, hrun, hbuf⟩⟩

end SnakeOS.Kernel
