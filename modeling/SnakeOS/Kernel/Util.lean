/-
lib/util.c: copying and setting memory, and comparing strings.
-/
import SnakeOS.Lib.C
import SnakeOS.Lib.Mem

namespace SnakeOS.Kernel

open C Mem

/-! ## Memory -/

/-- `while (n--) *d++ = *s++`. -/
def memcopyLoop : Nat → Nat → Nat → (Nat → UInt8) → Nat → UInt8
  | _, _, 0, m => m
  | d, s, n + 1, m => memcopyLoop (d + 1) (s + 1) n (Function.update m d (m s))

/-- The value returned and the memory after `memcopy`. -/
def memcopy (dst src n : Nat) (m : Nat → UInt8) : Nat × (Nat → UInt8) := (dst, memcopyLoop dst src n m)

/-- `while (n--) *d++ = val`. -/
def memsetLoop (val : UInt8) : Nat → Nat → (Nat → UInt8) → Nat → UInt8
  | _, 0, m => m
  | d, n + 1, m => memsetLoop val (d + 1) n (Function.update m d val)

/-- The value returned and the memory after `memset`. -/
def memset (dst : Nat) (value : UInt8) (n : Nat) (m : Nat → UInt8) : Nat × (Nat → UInt8) :=
  (dst, memsetLoop value dst n m)

/-- Going upwards is right when the source does not start below the destination inside it. -/
theorem memcopyLoop_eq : ∀ (n : Nat) {d s : Nat} (m : Nat → UInt8), d ≤ s ∨ s + n ≤ d →
    memcopyLoop d s n m = blit d n (fun i => m (s + i)) m
  | 0, d, s, m, _ => by
    funext k
    exact (if_neg (by omega)).symm
  | n + 1, d, s, m, h => by
    rw [memcopyLoop, memcopyLoop_eq n _ (by omega)]
    funext k
    by_cases hd : k = d
    · subst hd
      rw [blit_outside (by omega), Function.update_self, blit_first (by omega), Nat.add_zero]
    · by_cases hk : d < k ∧ k < d + (n + 1)
      · obtain ⟨i, rfl⟩ : ∃ i, k = d + 1 + i := ⟨k - (d + 1), by omega⟩
        rw [blit_inside (by omega), Function.update_of_ne (by omega), show d + 1 + i = d + (i + 1) by omega,
          blit_inside (by omega), show s + 1 + i = s + (i + 1) by omega]
      · rw [blit_outside (by omega), Function.update_of_ne hd, blit_outside (by omega)]

theorem memcopy_eq {d s n : Nat} (m : Nat → UInt8) (h : d ≤ s ∨ s + n ≤ d) :
    (memcopy d s n m).2 = blit d n (fun i => m (s + i)) m :=
  memcopyLoop_eq n m h

/-- To where its source is not `memcopy` copies every byte, and changes nothing else. -/
theorem memcopy_spec {dst src n : Nat} (h : Apart src n dst n) (m : Nat → UInt8) :
    (∀ i < n, (memcopy dst src n m).2 (dst + i) = m (src + i)) ∧ Frame [(dst, n)] m (memcopy dst src n m).2 := by
  rw [memcopy_eq m (show dst ≤ src ∨ src + n ≤ dst by unfold Apart at h; omega)]
  exact ⟨fun i hi => blit_inside hi _ m, Frame.blit (List.mem_singleton_self _) (Nat.le_refl _) (Nat.le_refl _) _ m⟩

theorem memsetLoop_eq (val : UInt8) : ∀ (n : Nat) (d : Nat) (m : Nat → UInt8),
    memsetLoop val d n m = blit d n (fun _ => val) m
  | 0, d, m => by
    funext k
    exact (if_neg (by omega)).symm
  | n + 1, d, m => by
    rw [memsetLoop, memsetLoop_eq val n]
    funext k
    by_cases hd : k = d
    · subst hd
      rw [blit_outside (by omega), Function.update_self, blit_first (by omega)]
    · unfold blit
      rw [Function.update_of_ne hd]
      exact if_congr (by omega) rfl rfl

/-! ## Strings -/

/-- `strcmp` on the bytes from its two arguments on. -/
def strcmp : List UInt8 → List UInt8 → Except Fault Int
  | a :: as, b :: bs => if a ≠ 0 ∧ a = b then strcmp as bs else .ok (a.toNat - b.toNat)
  | _, _ => .error .overread

/-- `strcmp` returns 0 on equal strings and on no others, and reads neither beyond its end. -/
theorem strcmp_spec {as bs s t : List UInt8} (ha : cstr as = some s) (hb : cstr bs = some t) :
    ∃ ret, strcmp as bs = .ok ret ∧ (ret = 0 ↔ s = t) := by
  induction as generalizing bs s t with
  | nil => cases ha
  | cons a as ih =>
    cases bs with
    | nil => cases hb
    | cons b bs =>
      have hsub : ∀ {a b : UInt8}, a ≠ b → (a.toNat : Int) - b.toNat ≠ 0 := by
        intro a b hab h
        exact hab (UInt8.toNat_inj.1 (by omega))
      simp only [cstr] at ha hb
      simp only [strcmp]
      by_cases ha0 : a = 0
      · subst ha0
        obtain rfl : s = [] := by simpa using ha.symm
        rw [if_neg (by simp)]
        refine ⟨_, rfl, ?_⟩
        by_cases hb0 : b = 0
        · subst hb0
          obtain rfl : t = [] := by simpa using hb.symm
          simp
        · rw [if_neg hb0] at hb
          obtain ⟨t', -, rfl⟩ := Option.map_eq_some_iff.1 hb
          exact iff_of_false (hsub (Ne.symm hb0)) (by simp)
      · rw [if_neg ha0] at ha
        obtain ⟨s', hs', rfl⟩ := Option.map_eq_some_iff.1 ha
        by_cases hab : a = b
        · subst hab
          rw [if_neg ha0] at hb
          obtain ⟨t', ht', rfl⟩ := Option.map_eq_some_iff.1 hb
          obtain ⟨ret, hret, hiff⟩ := ih hs' ht'
          rw [if_pos ⟨ha0, rfl⟩]
          exact ⟨ret, hret, by simpa using hiff⟩
        · rw [if_neg fun h => hab h.2]
          refine ⟨_, rfl, iff_of_false (hsub hab) ?_⟩
          intro heq
          split at hb
          · obtain rfl : t = [] := by simpa using hb.symm
            cases heq
          · obtain ⟨t', -, rfl⟩ := Option.map_eq_some_iff.1 hb
            exact hab (List.cons.inj heq).1

end SnakeOS.Kernel
