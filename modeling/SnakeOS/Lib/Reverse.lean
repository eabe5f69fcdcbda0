/-
The loop that copies the start of one array into another in reverse, as C writes it after it has stored the digits
of a number lowest first.
-/
import SnakeOS.Lib.C

namespace C

variable {α : Type} {k n : Nat}

theorem take_set_succ (v : Vector α n) {i : Nat} (h : i < n) (x : α) :
    (v.set i x).toList.take (i + 1) = v.toList.take i ++ [x] := by
  rw [Vector.toList_set, List.take_succ_eq_append_getElem (by simpa using h), List.take_set_of_le (Nat.le_refl _)]
  simp

/-- A buffer that starts with a text and a NUL holds the text as a string. -/
theorem cstr_set_nul {buf : Vector UInt8 n} {t : List UInt8} {i : Nat} (hi : i < n)
    (htake : buf.toList.take i = t) (ht : ∀ c ∈ t, c ≠ 0) : cstr (buf.set i 0).toList = some t := by
  rw [← List.take_append_drop (i + 1) (Vector.toList _), take_set_succ buf hi, htake, List.append_assoc]
  exact cstr_append_nul ht _

/-- `while (i > 0) buffer[j++] = temp[--i]`; the second number of the result is `j` after it. -/
def reverseInto (temp : Vector α k) : Nat → Nat → Vector α n → Except Fault (Vector α n × Nat)
  | 0, j, buffer => return (buffer, j)
  | i + 1, j, buffer => do
    let buffer ← store buffer j (← load temp i)
    reverseInto temp i (j + 1) buffer

/-- The elements before `j` stay, and the first `i` of the other array follow in reverse. -/
theorem reverseInto_spec (temp : Vector α k) :
    ∀ (i j : Nat) (buffer : Vector α n), i ≤ k → i + j ≤ n →
      ∃ buffer', reverseInto temp i j buffer = .ok (buffer', j + i) ∧
        buffer'.toList.take (j + i) = buffer.toList.take j ++ (temp.toList.take i).reverse := by
  intro i
  induction i with
  | zero => exact fun j buffer _ _ => ⟨buffer, rfl, by simp⟩
  | succ i ih =>
    intro j buffer hik hij
    have hi : i < k := by omega
    have hj : j < n := by omega
    obtain ⟨buffer', hrun, hbuf⟩ := ih (j + 1) (buffer.set j temp[i]) (by omega) (by omega)
    rw [show j + 1 + i = j + (i + 1) by omega] at hrun hbuf
    refine ⟨buffer', ?_, ?_⟩
    · simp only [reverseInto, load_ok hi, store_ok hj, ok_bind, hrun]
    · rw [hbuf, take_set_succ buffer hj, List.take_succ_eq_append_getElem (by simpa using hi)]
      simp

end C
