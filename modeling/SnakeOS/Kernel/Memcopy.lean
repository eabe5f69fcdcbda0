/-
lib/util.c: `memcopy` on 64-bit pointers and a 64-bit count. Where no range goes over the end of the address space it
does what it does on numbers, so it copies whenever the destination does not start inside the source.
-/
import SnakeOS.Kernel.Util

namespace SnakeOS.Kernel

open Mem

/-! ## Words -/

/-- `while (n--) *d++ = *s++`, on words that wrap around. -/
def memcopyLoop64 (d s n : BitVec 64) (m : BitVec 64 → UInt8) : BitVec 64 → UInt8 :=
  if n = 0 then m else memcopyLoop64 (d + 1) (s + 1) (n - 1) (Function.update m d (m s))
termination_by n.toNat
decreasing_by bv_omega

/-- The value returned and the memory after `memcopy`. -/
def memcopy64 (dst src n : BitVec 64) (m : BitVec 64 → UInt8) : BitVec 64 × (BitVec 64 → UInt8) :=
  (dst, memcopyLoop64 dst src n m)

/-- The same bytes, at addresses that are words and that are numbers. -/
def SameBytes (m : BitVec 64 → UInt8) (m' : Nat → UInt8) : Prop := ∀ k < 2 ^ 64, m' k = m (BitVec.ofNat 64 k)

theorem SameBytes.update {m : BitVec 64 → UInt8} {m' : Nat → UInt8} (h : SameBytes m m') {d s : Nat}
    (hd : d < 2 ^ 64) (hs : s < 2 ^ 64) :
    SameBytes (Function.update m (BitVec.ofNat 64 d) (m (BitVec.ofNat 64 s))) (Function.update m' d (m' s)) := by
  intro k hk
  rw [Function.update_apply, Function.update_apply, h s hs, h k hk]
  refine if_congr ?_ rfl rfl
  constructor
  · rintro rfl
    rfl
  · intro heq
    have hnat := congrArg BitVec.toNat heq
    rwa [BitVec.toNat_ofNat, BitVec.toNat_ofNat, Nat.mod_eq_of_lt hk, Nat.mod_eq_of_lt hd] at hnat

/-- Within the address space the loop on words does what the loop on numbers does. -/
theorem memcopyLoop64_sameBytes : ∀ (n d s : Nat) {m : BitVec 64 → UInt8} {m' : Nat → UInt8}, n < 2 ^ 64 →
    d + n ≤ 2 ^ 64 → s + n ≤ 2 ^ 64 → SameBytes m m' →
      SameBytes (memcopyLoop64 (BitVec.ofNat 64 d) (BitVec.ofNat 64 s) (BitVec.ofNat 64 n) m) (memcopyLoop d s n m')
  | 0, d, s, m, m', _, _, _, h => by
    rw [memcopyLoop64, if_pos (show BitVec.ofNat 64 0 = 0 from rfl)]
    exact h
  | n + 1, d, s, m, m', hn, hd, hs, h => by
    have hne : ¬BitVec.ofNat 64 (n + 1) = 0 := by bv_omega
    have hless : BitVec.ofNat 64 (n + 1) - 1 = BitVec.ofNat 64 n := by bv_omega
    have hnext : ∀ a : Nat, BitVec.ofNat 64 a + 1 = BitVec.ofNat 64 (a + 1) := fun a => by bv_omega
    rw [memcopyLoop64, if_neg hne, hless, hnext, hnext]
    exact memcopyLoop64_sameBytes n (d + 1) (s + 1) (by omega) (by omega) (by omega)
      (h.update (by omega) (by omega))

/-! ## The law -/

/-- For ranges within the address space, the destination not starting inside the source behind its first byte:
`memcopy` copies the bytes that were there before, changes no other byte and returns the destination. -/
theorem memcopy_copies (m : BitVec 64 → UInt8) {dst src n : BitVec 64} (hdst : dst.toNat + n.toNat ≤ 2 ^ 64)
    (hsrc : src.toNat + n.toNat ≤ 2 ^ 64) (h : dst ≤ src ∨ src.toNat + n.toNat ≤ dst.toNat) :
    (memcopy64 dst src n m).1 = dst ∧
      (∀ i < n.toNat, (memcopy64 dst src n m).2 (dst + BitVec.ofNat 64 i) = m (src + BitVec.ofNat 64 i)) ∧
      ∀ a : BitVec 64, a.toNat < dst.toNat ∨ dst.toNat + n.toNat ≤ a.toNat → (memcopy64 dst src n m).2 a = m a := by
  have hbytes : SameBytes m fun k => m (BitVec.ofNat 64 k) := fun _ _ => rfl
  have hsame := memcopyLoop64_sameBytes n.toNat dst.toNat src.toNat n.isLt hdst hsrc hbytes
  rw [BitVec.ofNat_toNat, BitVec.ofNat_toNat, BitVec.ofNat_toNat, BitVec.setWidth_eq, BitVec.setWidth_eq,
    BitVec.setWidth_eq, memcopyLoop_eq n.toNat _ (h.imp_left BitVec.le_def.mp)] at hsame
  refine ⟨rfl, fun i hi => ?_, fun a ha => ?_⟩
  · have hcopied := hsame (dst.toNat + i) (by omega)
    rw [blit_inside hi] at hcopied
    rw [show dst + BitVec.ofNat 64 i = BitVec.ofNat 64 (dst.toNat + i) by bv_omega,
      show src + BitVec.ofNat 64 i = BitVec.ofNat 64 (src.toNat + i) by bv_omega]
    exact hcopied.symm
  · have hkept := hsame a.toNat a.isLt
    rw [blit_outside ha, BitVec.ofNat_toNat, BitVec.setWidth_eq] at hkept
    exact hkept.symm

/-- Four bytes moved two addresses down, over their own first half. -/
theorem memcopy_copies_overlap :
    ((10 : BitVec 64).toNat + (4 : BitVec 64).toNat ≤ 2 ^ 64 ∧ (12 : BitVec 64).toNat + (4 : BitVec 64).toNat ≤ 2 ^ 64 ∧
        (10 : BitVec 64) ≤ 12) ∧
      ∀ i < 4, (memcopy64 10 12 4 fun a => UInt8.ofNat a.toNat).2 (10 + BitVec.ofNat 64 i) = UInt8.ofNat (12 + i) := by
  refine ⟨by decide, fun i hi => ?_⟩
  have hcopied := (@memcopy_copies (fun a => UInt8.ofNat a.toNat) 10 12 4 (by decide) (by decide)
    (.inl (by decide))).2.1 i hi
  rw [hcopied]
  refine congrArg UInt8.ofNat ?_
  bv_omega

end SnakeOS.Kernel
