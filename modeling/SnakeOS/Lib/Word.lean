/-
64-bit words in a memory of bytes with 64-bit addresses, lowest byte first, and stacks of them that
grow downwards. Addresses wrap around.
-/
import Mathlib.Tactic.Common
import Mathlib.Tactic.IntervalCases

namespace Word

/-! ## Bytes of a word -/

def byte (v : BitVec 64) (k : Nat) : BitVec 8 := v.extractLsb' (8 * k) 8

theorem ext_byte {v w : BitVec 64} (h : ∀ k < 8, byte v k = byte w k) : v = w := by
  apply BitVec.eq_of_getLsbD_eq
  intro i hi
  have hbit : ∀ u : BitVec 64, u.getLsbD i = (byte u (i / 8)).getLsbD (i % 8) := by
    intro u
    unfold byte
    rw [BitVec.getLsbD_extractLsb', decide_eq_true (Nat.mod_lt i (by omega)), Bool.true_and, Nat.div_add_mod]
  rw [hbit v, hbit w, h (i / 8) (by omega)]

/-- The bits outside a mask and those inside make up the word. -/
theorem and_not_add_and (v mask : BitVec 64) : (v &&& ~~~mask) + (v &&& mask) = v := by
  have hdisjoint : v &&& ~~~mask &&& (v &&& mask) = 0 := by
    ext i hi
    cases hm : mask[i] <;> simp [hm]
  rw [BitVec.add_eq_or_of_and_eq_zero _ _ hdisjoint]
  ext i hi
  cases hm : mask[i] <;> simp [hm]

/-! ## Loads and stores -/

abbrev Memory : Type := BitVec 64 → BitVec 8

def load (m : Memory) (a : BitVec 64) : BitVec 64 :=
  m (a + 7) ++ m (a + 6) ++ m (a + 5) ++ m (a + 4) ++ m (a + 3) ++ m (a + 2) ++ m (a + 1) ++ m a

def store (a v : BitVec 64) (m : Memory) : Memory :=
  fun x => if (x - a).toNat < 8 then byte v (x - a).toNat else m x

theorem byte_load (m : Memory) (a : BitVec 64) {k : Nat} (hk : k < 8) :
    byte (load m a) k = m (a + BitVec.ofNat 64 k) := by
  unfold byte load
  interval_cases k
  · rw [BitVec.extractLsb'_append_eq_right]
    simp
  all_goals
    repeat rw [BitVec.extractLsb'_append_eq_of_le (by omega)]
    first | rw [BitVec.extractLsb'_append_eq_right]; rfl | simp

/-- A word is loaded exactly when its bytes are there. -/
theorem load_eq_iff (m : Memory) (a v : BitVec 64) : load m a = v ↔ ∀ k < 8, m (a + BitVec.ofNat 64 k) = byte v k := by
  constructor
  · rintro rfl k hk
    exact (byte_load m a hk).symm
  · intro h
    apply ext_byte
    intro k hk
    rw [byte_load m a hk, h k hk]

theorem store_inside (a v : BitVec 64) (m : Memory) {k : Nat} (hk : k < 8) :
    store a v m (a + BitVec.ofNat 64 k) = byte v k := by
  have hoff : (a + BitVec.ofNat 64 k - a).toNat = k := by bv_omega
  unfold store
  rw [hoff, if_pos hk]

theorem store_outside {a x : BitVec 64} (h : 8 ≤ (x - a).toNat) (v : BitVec 64) (m : Memory) : store a v m x = m x :=
  if_neg (by omega)

/-! ## Stacks -/

/-- The memory after words are pushed one after another on the stack at `sp`. -/
def pushAll : List (BitVec 64) → BitVec 64 → Memory → Memory
  | [], _, m => m
  | v :: vs, sp, m => pushAll vs (sp - 8) (store (sp - 8) v m)

/-- The address of the word pushed with `i` words before it. -/
def slot (sp : BitVec 64) (i : Nat) : BitVec 64 := sp - BitVec.ofNat 64 (8 * (i + 1))

theorem slot_succ (sp : BitVec 64) (i : Nat) : slot sp (i + 1) = slot (sp - 8) i := by
  unfold slot
  bv_omega

/-- Pushing words changes only the memory below `sp`, eight bytes for each. -/
theorem pushAll_outside : ∀ {vs : List (BitVec 64)} {sp x : BitVec 64} (m : Memory), vs.length < 2 ^ 60 →
    (sp - x).toNat = 0 ∨ 8 * vs.length < (sp - x).toNat → pushAll vs sp m x = m x
  | [], _, _, _, _, _ => rfl
  | v :: vs, sp, x, m, hlen, h => by
    simp only [List.length_cons] at hlen h
    unfold pushAll
    rw [pushAll_outside _ (by omega) (by bv_omega), store_outside (by bv_omega)]

theorem pushAll_inside : ∀ {vs : List (BitVec 64)} {sp : BitVec 64} (m : Memory) {i k : Nat}, vs.length < 2 ^ 60 →
    (hi : i < vs.length) → k < 8 → pushAll vs sp m (slot sp i + BitVec.ofNat 64 k) = byte vs[i] k
  | v :: vs, sp, m, 0, k, hlen, _, hk => by
    have hslot : slot sp 0 = sp - 8 := rfl
    simp only [List.length_cons] at hlen
    unfold pushAll
    rw [hslot, pushAll_outside _ (by omega) (by bv_omega), store_inside _ _ _ hk]
    rfl
  | v :: vs, sp, m, i + 1, k, hlen, hi, hk => by
    simp only [List.length_cons] at hlen hi
    unfold pushAll
    rw [slot_succ]
    exact pushAll_inside _ (by omega) (by omega) hk

/-- The words pushed are loaded from their slots. -/
theorem load_pushAll {vs : List (BitVec 64)} (hlen : vs.length < 2 ^ 60) (sp : BitVec 64) (m : Memory) {i : Nat}
    (hi : i < vs.length) : load (pushAll vs sp m) (slot sp i) = vs[i] :=
  (load_eq_iff ..).2 fun _ hk => pushAll_inside m hlen hi hk

/-- Pushing words leaves the bytes it writes as they were exactly when the words were there. -/
theorem pushAll_unchanged_iff {vs : List (BitVec 64)} (hlen : vs.length < 2 ^ 60) (sp : BitVec 64) (m : Memory) :
    (∀ d, 1 ≤ d → d ≤ 8 * vs.length → pushAll vs sp m (sp - BitVec.ofNat 64 d) = m (sp - BitVec.ofNat 64 d)) ↔
      ∀ i, (hi : i < vs.length) → load m (slot sp i) = vs[i] := by
  constructor
  · intro h i hi
    refine (load_eq_iff ..).2 fun k hk => ?_
    have hd : slot sp i + BitVec.ofNat 64 k = sp - BitVec.ofNat 64 (8 * (i + 1) - k) := by
      unfold slot
      bv_omega
    rw [hd, ← h _ (by omega) (by omega), ← hd]
    exact pushAll_inside m hlen hi hk
  · intro h d h1 h2
    obtain ⟨i, k, hk, rfl⟩ : ∃ i k, k < 8 ∧ d = 8 * (i + 1) - k := ⟨(d - 1) / 8, 7 - (d - 1) % 8, by omega, by omega⟩
    have hi : i < vs.length := by omega
    have hd : sp - BitVec.ofNat 64 (8 * (i + 1) - k) = slot sp i + BitVec.ofNat 64 k := by
      unfold slot
      bv_omega
    rw [hd, pushAll_inside m hlen hi hk]
    exact ((load_eq_iff ..).1 (h i hi) k hk).symm

end Word
