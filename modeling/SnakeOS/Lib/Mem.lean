/-
Memory as a function of the address: blocks of cells written at an address, blocks written one
after another, and numbers read lowest byte first.
-/
import Mathlib.Tactic.Common
import Mathlib.Tactic.Positivity
import Mathlib.Tactic.Ring

namespace Mem

variable {α : Type}

/-! ## Blocks -/

/-- The memory after the `n` cells `f` are written from `a` on. -/
def blit (a n : Nat) (f : Nat → α) (m : Nat → α) : Nat → α :=
  fun k => if a ≤ k ∧ k < a + n then f (k - a) else m k

theorem blit_inside {a n i : Nat} (h : i < n) (f m : Nat → α) : blit a n f m (a + i) = f i := by
  unfold blit
  rw [if_pos (by omega), Nat.add_sub_cancel_left]

theorem blit_first {a n : Nat} (h : 0 < n) (f m : Nat → α) : blit a n f m a = f 0 := blit_inside h f m

theorem blit_outside {a n k : Nat} (h : k < a ∨ a + n ≤ k) (f m : Nat → α) : blit a n f m k = m k :=
  if_neg (by omega)

/-- Two ranges of addresses have none in common. -/
def Apart (a n b k : Nat) : Prop := a + n ≤ b ∨ b + k ≤ a

instance (a n b k : Nat) : Decidable (Apart a n b k) := inferInstanceAs (Decidable (_ ∨ _))

/-- The memory after blocks of `n` cells are written one after another from `a` on. -/
def blits (n : Nat) : Nat → List (Nat → α) → (Nat → α) → Nat → α
  | _, [], m => m
  | a, f :: fs, m => blits n (a + n) fs (blit a n f m)

theorem blits_outside (n : Nat) : ∀ {a k : Nat} (fs : List (Nat → α)) (m : Nat → α),
    k < a ∨ a + n * fs.length ≤ k → blits n a fs m k = m k
  | _, _, [], _, _ => rfl
  | a, k, f :: fs, m, h => by
    simp only [List.length_cons, Nat.mul_add, Nat.mul_one] at h
    unfold blits
    rw [blits_outside n fs _ (by omega), blit_outside (by omega)]

/-- Each block is read back where it was written. -/
theorem blits_inside {n j : Nat} (hj : j < n) : ∀ {a i : Nat} (fs : List (Nat → α)) (m : Nat → α) (hi : i < fs.length),
    blits n a fs m (a + n * i + j) = fs[i] j
  | a, 0, f :: fs, m, _ => by
    unfold blits
    rw [blits_outside n fs _ (by omega)]
    exact blit_inside hj f m
  | a, i + 1, f :: fs, m, hi => by
    unfold blits
    rw [show a + n * (i + 1) + j = a + n + n * i + j by rw [Nat.mul_add]; omega]
    exact blits_inside hj fs _ (Nat.lt_of_succ_lt_succ hi)

/-! ## Numbers -/

/-- The number in `n` bytes from `a` on, the lowest first. -/
def littleEndian (m : Nat → UInt8) : Nat → Nat → Nat
  | _, 0 => 0
  | a, n + 1 => (m a).toNat + 256 * littleEndian m (a + 1) n

theorem littleEndian_congr {m m' : Nat → UInt8} : ∀ {a a' n : Nat}, (∀ i < n, m (a + i) = m' (a' + i)) →
    littleEndian m a n = littleEndian m' a' n
  | _, _, 0, _ => rfl
  | a, a', n + 1, h => by
    have htail : ∀ i < n, m (a + 1 + i) = m' (a' + 1 + i) := by
      intro i hi
      rw [show a + 1 + i = a + (i + 1) by omega, show a' + 1 + i = a' + (i + 1) by omega]
      exact h (i + 1) (by omega)
    unfold littleEndian
    rw [littleEndian_congr htail, show m a = m' a' from h 0 (by omega)]

theorem littleEndian_succ (m : Nat → UInt8) (a n : Nat) :
    littleEndian m a (n + 1) = (m a).toNat + 256 * littleEndian m (a + 1) n := rfl

theorem littleEndian_lt (m : Nat → UInt8) : ∀ a n, littleEndian m a n < 256 ^ n
  | _, 0 => Nat.one_pos
  | a, n + 1 => by
    have hbyte := (m a).toNat_lt
    have htail := littleEndian_lt m (a + 1) n
    unfold littleEndian
    rw [Nat.pow_succ]
    omega

theorem littleEndian_add (m : Nat → UInt8) : ∀ a i n,
    littleEndian m a (i + n) = littleEndian m a i + 256 ^ i * littleEndian m (a + i) n
  | a, 0, n => by simp [littleEndian]
  | a, i + 1, n => by
    have htail := littleEndian_add m (a + 1) i n
    rw [Nat.add_right_comm i 1 n, littleEndian_succ, littleEndian_succ, htail, Nat.pow_succ,
      Nat.add_right_comm a 1 i, Nat.add_assoc a i 1]
    ring

/-- The number in `n` bytes of a longer one. -/
theorem littleEndian_slice (m : Nat → UInt8) (a : Nat) {i n len : Nat} (h : i + n ≤ len) :
    littleEndian m a len / 256 ^ i % 256 ^ n = littleEndian m (a + i) n := by
  obtain ⟨rest, rfl⟩ := Nat.exists_eq_add_of_le h
  have hlow := littleEndian_lt m a i
  have hmid := littleEndian_lt m (a + i) n
  rw [Nat.add_assoc, littleEndian_add, Nat.add_mul_div_left _ _ (by positivity), Nat.div_eq_of_lt hlow, Nat.zero_add,
    littleEndian_add, Nat.add_mul_mod_self_left, Nat.mod_eq_of_lt hmid]

/-- A number that fits in fewer bytes is in the first of them. -/
theorem littleEndian_low {m : Nat → UInt8} {a i len x : Nat} (h : littleEndian m a len = x) (hi : i ≤ len)
    (hx : x < 256 ^ i) : littleEndian m a i = x := by
  have hlow := littleEndian_slice m a (show 0 + i ≤ len by omega)
  rw [Nat.pow_zero, Nat.div_one, h, Nat.mod_eq_of_lt hx, Nat.add_zero] at hlow
  exact hlow.symm

/-- The memory after a 16-bit word is written at `a`. -/
def blitWord (a : Nat) (x : BitVec 16) (m : Nat → UInt8) : Nat → UInt8 :=
  blit a 2 (fun i => UInt8.ofNat (x.toNat / 256 ^ i)) m

theorem littleEndian_blitWord (a : Nat) (x : BitVec 16) (m : Nat → UInt8) :
    littleEndian (blitWord a x m) a 2 = x.toNat := by
  have h0 : blitWord a x m a = UInt8.ofNat (x.toNat / 256 ^ 0) := blit_first (by omega) _ m
  have h1 : blitWord a x m (a + 1) = UInt8.ofNat (x.toNat / 256 ^ 1) := blit_inside (by omega) _ m
  have hx := x.isLt
  unfold littleEndian littleEndian littleEndian
  rw [h0, h1, UInt8.toNat_ofNat', UInt8.toNat_ofNat']
  omega

/-- The memory after the low `n` bytes of a number are written at `a`. -/
def blitNum (a n x : Nat) (m : Nat → UInt8) : Nat → UInt8 := blit a n (fun i => UInt8.ofNat (x / 256 ^ i)) m

theorem blitNum_outside {a n k : Nat} (h : k < a ∨ a + n ≤ k) (x : Nat) (m : Nat → UInt8) :
    blitNum a n x m k = m k := blit_outside h _ m

/-- The number of the bytes of a number. -/
theorem littleEndian_bytes (f : Nat → UInt8) (x : Nat) : ∀ a n, (∀ i < n, f (a + i) = UInt8.ofNat (x / 256 ^ i)) →
    littleEndian f a n = x % 256 ^ n
  | _, 0, _ => by simp [littleEndian, Nat.mod_one]
  | a, n + 1, h => by
    have htail := littleEndian_bytes f (x / 256) (a + 1) n (fun i hi => by
      rw [Nat.add_assoc, Nat.add_comm 1, h (i + 1) (by omega), Nat.div_div_eq_div_mul, Nat.pow_succ, Nat.mul_comm 256])
    rw [littleEndian_succ, htail, show f a = UInt8.ofNat (x / 256 ^ 0) from h 0 (by omega), UInt8.toNat_ofNat',
      Nat.pow_zero, Nat.div_one, Nat.pow_succ 256 n, Nat.mul_comm (256 ^ n), Nat.mod_mul]

theorem littleEndian_blitNum (a n x : Nat) (m : Nat → UInt8) : littleEndian (blitNum a n x m) a n = x % 256 ^ n :=
  littleEndian_bytes _ x a n fun _ hi => blit_inside hi _ m

/-- A block written elsewhere leaves a number as it is. -/
theorem littleEndian_blit_outside {a n a' n' : Nat} (h : a' + n' ≤ a ∨ a + n ≤ a') (f m : Nat → UInt8) :
    littleEndian (blit a n f m) a' n' = littleEndian m a' n' :=
  littleEndian_congr fun i hi => blit_outside (by omega) f m

/-- The low bytes of a number whose high bytes are zero. -/
theorem littleEndian_blitNum_low {a n k : Nat} {m : Nat → UInt8} (h : littleEndian m (a + n) k = 0) (x : Nat) :
    littleEndian (blitNum a n x m) a (n + k) = x % 256 ^ n := by
  have hhigh : littleEndian (blitNum a n x m) (a + n) k = 0 := by
    rw [← h]
    exact littleEndian_blit_outside (.inr (Nat.le_refl _)) _ m
  rw [littleEndian_add, littleEndian_blitNum, hhigh, Nat.mul_zero, Nat.add_zero]

theorem littleEndian_zero {m : Nat → UInt8} {a n : Nat} (h : ∀ i < n, m (a + i) = 0) : littleEndian m a n = 0 := by
  have hbytes := littleEndian_bytes m 0 a n (fun i hi => by rw [h i hi, Nat.zero_div]; rfl)
  rw [hbytes, Nat.zero_mod]

/-! ## Frames -/

/-- An address in none of some ranges. -/
def Outside (rs : List (Nat × Nat)) (k : Nat) : Prop := ∀ r ∈ rs, k < r.1 ∨ r.1 + r.2 ≤ k

/-- Nothing is written outside the ranges `rs`, each an address and a length. -/
def Frame (rs : List (Nat × Nat)) (m m' : Nat → α) : Prop := ∀ k, Outside rs k → m' k = m k

theorem Outside.subset {rs rs' : List (Nat × Nat)} {k : Nat} (h : Outside rs' k) (hsub : rs ⊆ rs') : Outside rs k :=
  fun r hr => h r (hsub hr)

theorem Frame.refl (rs : List (Nat × Nat)) (m : Nat → α) : Frame rs m m := fun _ _ => rfl

theorem Frame.trans {rs : List (Nat × Nat)} {m m' m'' : Nat → α} (h : Frame rs m m') (h' : Frame rs m' m'') :
    Frame rs m m'' := fun k hk => (h' k hk).trans (h k hk)

theorem Frame.subset {rs rs' : List (Nat × Nat)} {m m' : Nat → α} (h : Frame rs m m') (hsub : rs ⊆ rs') :
    Frame rs' m m' := fun k hk => h k (hk.subset hsub)

/-- Ranges that lie in others. -/
def Covered (rs rs' : List (Nat × Nat)) : Prop := ∀ r ∈ rs, ∃ r' ∈ rs', r'.1 ≤ r.1 ∧ r.1 + r.2 ≤ r'.1 + r'.2

theorem Frame.widen {rs rs' : List (Nat × Nat)} {m m' : Nat → α} (h : Frame rs m m') (hcover : Covered rs rs') :
    Frame rs' m m' := by
  refine fun k hk => h k fun r hr => ?_
  obtain ⟨r', hr', hlo, hhi⟩ := hcover r hr
  have hk := hk r' hr'
  omega

/-- A block is written within a range. -/
theorem Frame.blit {rs : List (Nat × Nat)} {r : Nat × Nat} (hr : r ∈ rs) {a n : Nat} (ha : r.1 ≤ a)
    (hn : a + n ≤ r.1 + r.2) (f m : Nat → α) : Frame rs m (Mem.blit a n f m) := by
  intro k hk
  have hk := hk r hr
  exact blit_outside (by omega) f m

theorem Frame.blitNum {rs : List (Nat × Nat)} {r : Nat × Nat} (hr : r ∈ rs) {a n : Nat} (ha : r.1 ≤ a)
    (hn : a + n ≤ r.1 + r.2) (x : Nat) (m : Nat → UInt8) : Frame rs m (Mem.blitNum a n x m) :=
  Frame.blit hr ha hn _ m

/-- What is apart from the one range is as before. -/
theorem Frame.apart {a n b k : Nat} {m m' : Nat → α} (h : Frame [(a, n)] m m') (hapart : Apart a n b k) :
    ∀ i < k, m' (b + i) = m (b + i) := fun i hi => h _ fun r hr => by
  obtain rfl := List.mem_singleton.1 hr
  unfold Apart at hapart
  simp only
  omega

/-- What is read apart from the ranges is as before. -/
theorem Frame.littleEndian {rs : List (Nat × Nat)} {m m' : Nat → UInt8} (h : Frame rs m m') {a n : Nat}
    (ha : ∀ i < n, Outside rs (a + i)) : Mem.littleEndian m' a n = Mem.littleEndian m a n :=
  littleEndian_congr fun i hi => h _ (ha i hi)

end Mem
