/-
The modifier state and the physical keys. One boolean stands for both shift keys, so it is right
exactly as long as neither is released while the other is held.
-/
import SnakeOS.Lib.Byte
import SnakeOS.Term.Keyboard

namespace SnakeOS.Term

/-! ## The physical keys -/

/-- The last code seen for a key, its make code or its break code, was the make code. -/
def held (make : UInt8) (scancodes : List UInt8) : Bool :=
  (scancodes.filter fun c => c = make ∨ c = make ||| 0x80).getLast? = some make

/-- The number of Caps Lock make codes seen is odd. -/
def capsOdd (scancodes : List UInt8) : Bool := scancodes.count CAPS_LOCK % 2 = 1

/-- The modifier state matches the physical keys. -/
structure ModifiersMatch (kbd : KeyboardState) (scancodes : List UInt8) : Prop where
  shift : kbd.shift = (held LEFT_SHIFT scancodes || held RIGHT_SHIFT scancodes)
  caps : kbd.caps = capsOdd scancodes

/-- The code releases one shift key while the other is held. -/
def ReleasesOneShift (scancodes : List UInt8) (c : UInt8) : Prop :=
  (c = LEFT_SHIFT ||| 0x80 ∧ held RIGHT_SHIFT scancodes) ∨ (c = RIGHT_SHIFT ||| 0x80 ∧ held LEFT_SHIFT scancodes)

theorem held_snoc {make : UInt8} (hm : make ||| 0x80 ≠ make) (pre : List UInt8) (c : UInt8) :
    held make (pre ++ [c]) = if c = make then true else if c = make ||| 0x80 then false else held make pre := by
  unfold held
  rw [List.filter_append]
  by_cases h1 : c = make
  · simp [h1]
  · by_cases h2 : c = make ||| 0x80
    · simp [h2, hm]
    · simp [h1, h2]

theorem capsOdd_snoc (pre : List UInt8) (c : UInt8) :
    capsOdd (pre ++ [c]) = if c = CAPS_LOCK then !capsOdd pre else capsOdd pre := by
  unfold capsOdd
  rw [List.count_append]
  by_cases h : c = CAPS_LOCK
  · subst h
    rw [if_pos rfl, List.count_singleton_self, ← decide_not, decide_eq_decide]
    omega
  · rw [if_neg h, List.count_singleton, if_neg (by simpa using h), Nat.add_zero]

/-! ## One scancode -/

theorem keyScancode_leftShift : ∀ c, keyScancode c = LEFT_SHIFT ↔ c = LEFT_SHIFT ∨ c = LEFT_SHIFT ||| 0x80 :=
  Byte.forall_of_lt (by decide +kernel)

theorem keyScancode_rightShift : ∀ c, keyScancode c = RIGHT_SHIFT ↔ c = RIGHT_SHIFT ∨ c = RIGHT_SHIFT ||| 0x80 :=
  Byte.forall_of_lt (by decide +kernel)

theorem keyScancode_capsLock : ∀ c, keyScancode c = CAPS_LOCK ↔ c = CAPS_LOCK ∨ c = CAPS_LOCK ||| 0x80 :=
  Byte.forall_of_lt (by decide +kernel)

theorem trackModifiers_shift (c : UInt8) (kbd : KeyboardState) : (trackModifiers c kbd).shift =
    if c = LEFT_SHIFT ∨ c = RIGHT_SHIFT then true
    else if c = LEFT_SHIFT ||| 0x80 ∨ c = RIGHT_SHIFT ||| 0x80 then false else kbd.shift := by
  unfold trackModifiers
  simp only [keyScancode_leftShift, keyScancode_rightShift, keyScancode_capsLock]
  split
  · rename_i hkey
    rcases hkey with (rfl | rfl) | (rfl | rfl) <;> rfl
  · rename_i hkey
    have hmake : ¬(c = LEFT_SHIFT ∨ c = RIGHT_SHIFT) := by tauto
    have hbreak : ¬(c = LEFT_SHIFT ||| 0x80 ∨ c = RIGHT_SHIFT ||| 0x80) := by tauto
    simp only [hmake, hbreak, if_false]
    split
    · split
      · rfl
      · rfl
    · rfl

theorem trackModifiers_caps (c : UInt8) (kbd : KeyboardState) : (trackModifiers c kbd).caps =
    if c = CAPS_LOCK then !kbd.caps else kbd.caps := by
  unfold trackModifiers
  simp only [keyScancode_leftShift, keyScancode_rightShift, keyScancode_capsLock]
  split
  · rename_i hkey
    rcases hkey with (rfl | rfl) | (rfl | rfl) <;> rfl
  · split
    · rename_i hkey
      rcases hkey with rfl | rfl <;> rfl
    · rename_i hkey
      rw [if_neg (fun h => hkey (.inl h))]

/-- One more scancode keeps the modifiers right exactly when it releases no shift key while the
other is held. -/
theorem modifiersMatch_step {kbd : KeyboardState} {pre : List UInt8} (h : ModifiersMatch kbd pre) (c : UInt8) :
    ModifiersMatch (trackModifiers c kbd) (pre ++ [c]) ↔ ¬ReleasesOneShift pre c := by
  have hcaps : (trackModifiers c kbd).caps = capsOdd (pre ++ [c]) := by
    rw [trackModifiers_caps, capsOdd_snoc, h.caps]
  have hshift : ModifiersMatch (trackModifiers c kbd) (pre ++ [c]) ↔
      (trackModifiers c kbd).shift = (held LEFT_SHIFT (pre ++ [c]) || held RIGHT_SHIFT (pre ++ [c])) :=
    ⟨fun h' => h'.shift, fun h' => ⟨h', hcaps⟩⟩
  rw [hshift, trackModifiers_shift, held_snoc (by decide), held_snoc (by decide), h.shift]
  unfold ReleasesOneShift
  simp only [show LEFT_SHIFT ||| 0x80 = 0xAA by decide, show RIGHT_SHIFT ||| 0x80 = 0xB6 by decide, LEFT_SHIFT,
    RIGHT_SHIFT]
  by_cases h1 : c = 0x2A
  · subst h1; simp
  by_cases h2 : c = 0x36
  · subst h2; simp
  by_cases h3 : c = 0xAA
  · subst h3; simp
  by_cases h4 : c = 0xB6
  · subst h4; simp
  simp [h1, h2, h3, h4]

/-! ## Runs -/

/-- The modifiers match the keys after the scancodes. -/
def MatchAfter (s : Keyboard) (scancodes : List UInt8) : Prop :=
  ∃ s', keyboardRun scancodes s = .ok s' ∧ ModifiersMatch s'.kbd scancodes

theorem matchAfter_iff (con : Console) (rflags : UInt64) (scancodes : List UInt8) :
    MatchAfter (Keyboard.boot con rflags) scancodes ↔ ModifiersMatch (typed scancodes).kbd scancodes := by
  obtain ⟨s', hrun, ht⟩ := keyboardRun_types (boot_types con rflags) scancodes
  constructor
  · rintro ⟨s'', hrun', hmatch⟩
    obtain rfl := Except.ok.inj (hrun.symm.trans hrun')
    exact ⟨ht.shift.symm.trans hmatch.shift, ht.caps.symm.trans hmatch.caps⟩
  · exact fun hmatch => ⟨s', hrun, ht.shift.trans hmatch.shift, ht.caps.trans hmatch.caps⟩

/-- The modifier state matches the physical keys all along a run exactly when no scancode of it
releases one shift key while the other is held. -/
theorem modifiers_match_iff (con : Console) (rflags : UInt64) (scancodes : List UInt8) :
    (∀ pre, pre <+: scancodes → ∃ s, keyboardRun pre (Keyboard.boot con rflags) = .ok s ∧ ModifiersMatch s.kbd pre) ↔
      ∀ pre c, pre ++ [c] <+: scancodes → ¬ReleasesOneShift pre c := by
  refine Run.forall_prefix_iff (I := MatchAfter (Keyboard.boot con rflags)) ?_ ?_
  · exact (matchAfter_iff con rflags []).2 ⟨rfl, rfl⟩
  · intro pre c _ hpre
    rw [matchAfter_iff, typed_snoc]
    exact modifiersMatch_step ((matchAfter_iff con rflags pre).1 hpre) c

/-- Both shift keys are pressed and the right one is released: the left one is still held, but
`kbd.shift` is false. -/
theorem modifiers_mismatch : ¬∃ s, keyboardRun [0x2A, 0x36, 0xB6] (Keyboard.boot Console.boot 0x202) = .ok s ∧
    ModifiersMatch s.kbd [0x2A, 0x36, 0xB6] := by
  intro hmatch
  have hshift := ((matchAfter_iff Console.boot 0x202 _).1 hmatch).shift
  exact absurd hshift (by decide)

end SnakeOS.Term
