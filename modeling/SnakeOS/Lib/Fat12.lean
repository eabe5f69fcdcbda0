/-
The FAT12 file allocation table: entries of twelve bits, packed one after another from the lowest
bit of the table on, and the cluster chains of files.
-/
import Mathlib.Algebra.Group.Nat.Even
import Mathlib.Data.List.Chain
import SnakeOS.Lib.Mem

namespace Fat12

open Mem

/-! ## Entries -/

/-- Entry `n` of the table in the `len` bytes from `a` on. -/
def entry (m : Nat → UInt8) (a len n : Nat) : Nat := littleEndian m a len / 4096 ^ n % 4096

theorem entry_lt (m : Nat → UInt8) (a len n : Nat) : entry m a len n < 4096 := Nat.mod_lt _ (by decide)

theorem entry_congr {m m' : Nat → UInt8} {a a' len : Nat} (h : ∀ i < len, m (a + i) = m' (a' + i)) (n : Nat) :
    entry m a len n = entry m' a' len n := by
  unfold entry
  rw [littleEndian_congr h]

/-- An entry with an even number is in the low bits of the two bytes where it starts. -/
theorem entry_even (m : Nat → UInt8) (a : Nat) {len n : Nat} (heven : n % 2 = 0) (h : n * 3 / 2 + 2 ≤ len) :
    entry m a len n = littleEndian m (a + n * 3 / 2) 2 % 4096 := by
  have hpow : 4096 ^ n = 256 ^ (n * 3 / 2) := by
    rw [show n * 3 / 2 = 3 * (n / 2) by omega, Nat.pow_mul]
    conv_lhs => rw [show n = 2 * (n / 2) by omega, Nat.pow_mul]
  unfold entry
  rw [hpow, ← littleEndian_slice m a h, Nat.mod_mod_of_dvd _ (by decide)]

/-- An entry with an odd number is in the high bits. -/
theorem entry_odd (m : Nat → UInt8) (a : Nat) {len n : Nat} (hodd : n % 2 = 1) (h : n * 3 / 2 + 2 ≤ len) :
    entry m a len n = littleEndian m (a + n * 3 / 2) 2 / 16 := by
  have hpow : 4096 ^ n = 256 ^ (n * 3 / 2) * 16 := by
    rw [show n * 3 / 2 = 3 * (n / 2) + 1 by omega, Nat.pow_succ, Nat.pow_mul]
    conv_lhs => rw [show n = 2 * (n / 2) + 1 by omega, Nat.pow_succ, Nat.pow_mul]
    ring
  have hslice := littleEndian_slice m a h
  unfold entry
  rw [hpow, ← Nat.div_div_eq_div_mul]
  omega

/-- Byte `i` of a table of entries: three bytes hold two of them, and the first one's low bits come first. -/
def pack (e : Nat → BitVec 12) (i : Nat) : UInt8 :=
  let first := (e (2 * (i / 3))).toNat
  let second := (e (2 * (i / 3) + 1)).toNat
  if i % 3 = 0 then UInt8.ofNat first
  else if i % 3 = 1 then UInt8.ofNat (first / 256 + 16 * (second % 16))
  else UInt8.ofNat (second / 16)

theorem pack_zero (e : Nat → BitVec 12) (k : Nat) : (pack e (3 * k)).toNat = (e (2 * k)).toNat % 256 := by
  unfold pack
  rw [if_pos (by omega), show 3 * k / 3 = k by omega]
  exact UInt8.toNat_ofNat'

theorem pack_one (e : Nat → BitVec 12) (k : Nat) :
    (pack e (3 * k + 1)).toNat = (e (2 * k)).toNat / 256 + 16 * ((e (2 * k + 1)).toNat % 16) := by
  have hlt := (e (2 * k)).isLt
  unfold pack
  rw [if_neg (by omega), if_pos (by omega), show (3 * k + 1) / 3 = k by omega]
  exact UInt8.toNat_ofNat'.trans (Nat.mod_eq_of_lt (by omega))

theorem pack_two (e : Nat → BitVec 12) (k : Nat) : (pack e (3 * k + 1 + 1)).toNat = (e (2 * k + 1)).toNat / 16 := by
  have hlt := (e (2 * k + 1)).isLt
  unfold pack
  rw [if_neg (by omega), if_neg (by omega), show (3 * k + 1 + 1) / 3 = k by omega]
  exact UInt8.toNat_ofNat'.trans (Nat.mod_eq_of_lt (by omega))

/-- The entries of a packed table are the ones packed. -/
theorem entry_pack {m : Nat → UInt8} {a len n : Nat} {e : Nat → BitVec 12} (htable : ∀ i < len, m (a + i) = pack e i)
    (h : n * 3 / 2 + 2 ≤ len) : entry m a len n = (e n).toNat := by
  have hpair : littleEndian m (a + n * 3 / 2) 2 =
      (pack e (n * 3 / 2)).toNat + 256 * (pack e (n * 3 / 2 + 1)).toNat := by
    simp only [littleEndian, Nat.mul_zero, Nat.add_zero]
    rw [htable (n * 3 / 2) (by omega), Nat.add_assoc, htable (n * 3 / 2 + 1) (by omega)]
  have hlt := (e n).isLt
  rcases Nat.even_or_odd' n with ⟨k, rfl | rfl⟩
  · rw [entry_even m a (by omega) h, hpair, show 2 * k * 3 / 2 = 3 * k by omega, pack_zero, pack_one]
    omega
  · have hlt' := (e (2 * k)).isLt
    rw [entry_odd m a (by omega) h, hpair, show (2 * k + 1) * 3 / 2 = 3 * k + 1 by omega, pack_one, pack_two]
    omega

/-! ## Chains -/

/-- The clusters of a file of a volume with clusters `2` to `top`, in order: each entry is the number
of the next cluster, that of the last cluster marks the end, and no cluster comes twice. -/
structure IsFile (m : Nat → UInt8) (a len top : Nat) (chain : List Nat) : Prop where
  nonempty : chain ≠ []
  range : ∀ c ∈ chain, 2 ≤ c ∧ c ≤ top
  links : chain.IsChain fun c d => entry m a len c = d
  ends : ∀ c ∈ chain.getLast?, 0xFF8 ≤ entry m a len c
  nodup : chain.Nodup

variable {m : Nat → UInt8} {a len top c d : Nat} {cs : List Nat}

theorem IsFile.entry_last (h : IsFile m a len top [c]) : 0xFF8 ≤ entry m a len c := h.ends c rfl

theorem IsFile.entry_next (h : IsFile m a len top (c :: d :: cs)) : entry m a len c = d :=
  (List.isChain_cons_cons.1 h.links).1

theorem IsFile.tail (h : IsFile m a len top (c :: d :: cs)) : IsFile m a len top (d :: cs) := by
  refine ⟨by simp, fun c hc => h.range c (List.mem_cons_of_mem _ hc), ?_, h.ends, h.nodup.of_cons⟩
  exact (List.isChain_cons_cons.1 h.links).2

theorem IsFile.congr {m' : Nat → UInt8} {a' : Nat} {chain : List Nat} (h : IsFile m a len top chain)
    (hm : ∀ i < len, m' (a' + i) = m (a + i)) : IsFile m' a' len top chain := by
  have hentry := entry_congr hm
  refine ⟨h.nonempty, h.range, ?_, fun c hc => ?_, h.nodup⟩
  · simp only [hentry]
    exact h.links
  · rw [hentry]
    exact h.ends c hc

end Fat12
