/-
What typing should give against what the driver gives. The reference is a UK keyboard: where its
characters are, and what shift and Caps Lock make of them. The driver's shifted digit row is a
string indexed by digit in which the pound sign takes two bytes, so the keys after it are off by one.
-/
import SnakeOS.Lib.Byte
import SnakeOS.Term.Keyboard

namespace SnakeOS.Term

open LineEdit Byte

/-! ## The UK keyboard -/

/-- The characters on the keys, by the make code of the first key of a row. -/
def rows : List (Nat × List UInt8) :=
  [(0x02, text "1234567890-="), (0x10, text "qwertyuiop[]"), (0x1E, text "asdfghjkl;'`"),
    (0x2B, text "\\zxcvbnm,./"), (0x39, text " ")]

/-- The character on the key of a make code. -/
def keyCharacter (scancode : UInt8) : Option UInt8 :=
  rows.findSome? fun (first, row) => if first ≤ scancode.toNat then row[scancode.toNat - first]? else none

/-- The shifted digit `d`; the pound sign is `pound`. -/
def shiftedDigit (pound : UInt8) (d : Nat) : UInt8 :=
  if d = 3 then pound else (text ")!\" $%^&*(").getD d 0

/-- The shifted punctuation character. -/
def shiftedPunctuation (c : UInt8) : UInt8 :=
  (((text "-=[];'`\\,./ ").zip (text "_+\x7b\x7d:\"~|<>? ")).lookup c).getD c

/-- The character typed by the key of the character `c`. -/
def typedCharacter (pound : UInt8) (shift caps : Bool) (c : UInt8) : UInt8 :=
  if 0x30 ≤ c ∧ c ≤ 0x39 then if shift then shiftedDigit pound (c.toNat - 0x30) else c
  else if 0x61 ≤ c ∧ c ≤ 0x7A then if shift ^^ caps then c - 0x20 else c
  else if shift then shiftedPunctuation c else c

/-- The edit that a scancode stands for: break codes, modifiers and codes of no key edit nothing. -/
def refEdit (pound : UInt8) (shift caps : Bool) (scancode : UInt8) : Edit UInt8 :=
  if scancode = 0x1C then .clear
  else if scancode = 0x0E then .backspace
  else if scancode = 0x4B then .moveLeft
  else if scancode = 0x4D then .moveRight
  else match keyCharacter scancode with
    | none => .keep
    | some c => .insert (typedCharacter pound shift caps c)

/-- The modifiers as the driver tracks them and the line that should be typed. -/
def Typing.refStep (pound : UInt8) (t : Typing) (scancode : UInt8) : Typing :=
  let kbd := trackModifiers scancode t.kbd
  ⟨kbd, t.line.apply (refEdit pound kbd.shift kbd.caps scancode)⟩

def reference (pound : UInt8) (scancodes : List UInt8) : Typing := scancodes.foldl (Typing.refStep pound) Typing.boot

/-- The keys that give a wrong character under shift: those of 4 to 9, and that of 3 unless the
pound sign is the first byte of its encoding. -/
def WrongKey (pound scancode : UInt8) : Prop :=
  (0x05 ≤ scancode ∧ scancode ≤ 0x0A) ∨ (scancode = 0x04 ∧ pound ≠ 0xC2)

instance (pound scancode : UInt8) : Decidable (WrongKey pound scancode) := inferInstanceAs (Decidable (_ ∨ _))

/-! ## One key -/

theorem typedCharacter_pound {c : UInt8} (hc : c ≠ 0x33) (p q : UInt8) (shift caps : Bool) :
    typedCharacter p shift caps c = typedCharacter q shift caps c := by
  have hne : c.toNat ≠ 0x33 := fun h => hc (UInt8.toNat_inj.1 h)
  have hdigit : ¬c.toNat - 0x30 = 3 := by omega
  unfold typedCharacter shiftedDigit
  rw [if_neg hdigit, if_neg hdigit]

/-- Only the key of 3 types the pound sign. -/
theorem refEdit_pound {scancode : UInt8} (h : scancode ≠ 0x04) (p q : UInt8) (shift caps : Bool) :
    refEdit p shift caps scancode = refEdit q shift caps scancode := by
  have hkey : ∀ scancode, keyCharacter scancode = some 0x33 → scancode = 0x04 := Byte.forall_of_lt (by decide +kernel)
  unfold refEdit
  cases hc : keyCharacter scancode with
  | none => rfl
  | some c =>
    have hc3 : c ≠ 0x33 := by
      rintro rfl
      exact h (hkey scancode hc)
    simp only [typedCharacter_pound hc3 p q]

/-- The driver's tables against the UK keyboard, over all scancodes and modifiers. -/
theorem tables_agree : ∀ n < 256, ∀ shift caps : Bool, ¬(shift ∧ WrongKey 0xC2 (UInt8.ofNat n)) →
    keyEdit ⟨shift, caps, Kernel.spinlockInit⟩ (UInt8.ofNat n) = refEdit 0xC2 shift caps (UInt8.ofNat n) := by
  decide +kernel

theorem keyEdit_eq {pound scancode : UInt8} {kbd : KeyboardState} (h : ¬(kbd.shift ∧ WrongKey pound scancode)) :
    keyEdit kbd scancode = refEdit pound kbd.shift kbd.caps scancode := by
  have htable : ∀ scancode : UInt8, ¬(kbd.shift ∧ WrongKey 0xC2 scancode) →
      keyEdit kbd scancode = refEdit 0xC2 kbd.shift kbd.caps scancode := by
    refine Byte.forall_of_lt fun n hn hok => ?_
    rw [← tables_agree n hn kbd.shift kbd.caps hok]
    exact keyEdit_congr _ rfl rfl
  by_cases hp : pound = 0xC2
  · subst hp
    exact htable scancode h
  · by_cases h4 : scancode = 0x04
    · -- without shift the key of 3 types its digit
      subst h4
      have hshift : kbd.shift = false := by
        by_contra hs
        exact h ⟨by simpa using hs, .inr ⟨rfl, hp⟩⟩
      rw [htable 0x04 (by simp [hshift]), hshift]
      rfl
    · rw [refEdit_pound h4 pound 0xC2]
      refine htable scancode fun ⟨hs, hw⟩ => h ⟨hs, .inl ?_⟩
      rcases hw with hw | ⟨hw, -⟩
      · exact hw
      · exact absurd hw h4

/-- The keys of 4 to 9: what they give under shift and what is on them. -/
def wrongDigits : List (UInt8 × UInt8 × UInt8) :=
  [(0x05, 0xA3, 0x24), (0x06, 0x24, 0x25), (0x07, 0x25, 0x5E), (0x08, 0x5E, 0x26), (0x09, 0x26, 0x2A),
    (0x0A, 0x2A, 0x28)]

theorem tables_differ {key : UInt8 × UInt8 × UInt8} (h : key ∈ wrongDigits) (caps : Bool) :
    keyEdit ⟨true, caps, Kernel.spinlockInit⟩ key.1 = .insert key.2.1 ∧
      refEdit 0xC2 true caps key.1 = .insert key.2.2 ∧ key.2.1 ≠ key.2.2 ∧ key.1 ≠ 0x04 := by
  have hall : (wrongDigits.all fun key => decide (∀ caps : Bool,
      keyEdit ⟨true, caps, Kernel.spinlockInit⟩ key.1 = .insert key.2.1 ∧
        refEdit 0xC2 true caps key.1 = .insert key.2.2 ∧ key.2.1 ≠ key.2.2 ∧ key.1 ≠ 0x04)) = true := by
    decide +kernel
  exact of_decide_eq_true (List.all_eq_true.1 hall key h) caps

theorem pound_differs (pound : UInt8) (caps : Bool) :
    keyEdit ⟨true, caps, Kernel.spinlockInit⟩ 0x04 = .insert 0xC2 ∧ refEdit pound true caps 0x04 = .insert pound := by
  have hkey : keyCharacter 0x04 = some 0x33 := by decide +kernel
  refine ⟨by revert caps; decide +kernel, ?_⟩
  simp only [refEdit, hkey]
  rfl

/-- A wrong key under shift inserts a character, but not the one on it. -/
theorem keyEdit_wrong {pound scancode : UInt8} {kbd : KeyboardState} (hs : kbd.shift = true)
    (hw : WrongKey pound scancode) : ∃ a b, keyEdit kbd scancode = .insert a ∧
      refEdit pound kbd.shift kbd.caps scancode = .insert b ∧ a ≠ b := by
  have hlock : keyEdit kbd scancode = keyEdit ⟨true, kbd.caps, Kernel.spinlockInit⟩ scancode :=
    keyEdit_congr scancode hs rfl
  rw [hlock, hs]
  rcases hw with ⟨h5, h10⟩ | ⟨rfl, hp⟩
  · have hmem : ∀ c : UInt8, 0x05 ≤ c → c ≤ 0x0A → c ∈ wrongDigits.map Prod.fst := Byte.forall_of_lt (by decide +kernel)
    obtain ⟨key, hkey, rfl⟩ := List.mem_map.1 (hmem scancode h5 h10)
    obtain ⟨hcode, href, hne, h4⟩ := tables_differ hkey kbd.caps
    exact ⟨key.2.1, key.2.2, hcode, (refEdit_pound h4 pound 0xC2 true kbd.caps).trans href, hne⟩
  · obtain ⟨hcode, href⟩ := pound_differs pound kbd.caps
    exact ⟨0xC2, pound, hcode, href, Ne.symm hp⟩

/-- Two different characters give the same line only when it is full. -/
theorem insert_inj_iff (l : Line UInt8 TTY_BUF_SIZE) {a b : UInt8} (h : a ≠ b) :
    l.insert a = l.insert b ↔ l.length = TTY_BUF_SIZE := by
  constructor
  · intro heq
    by_contra hfull
    have hlt : l.length < TTY_BUF_SIZE := Nat.lt_of_le_of_ne l.length_le hfull
    have hleft := congrArg Line.left heq
    rw [Line.insert_left hlt, Line.insert_left hlt] at hleft
    exact h (List.singleton_inj.1 (List.append_cancel_left hleft))
  · intro hfull
    rw [Line.insert_of_full hfull, Line.insert_of_full hfull]

/-- A scancode edits the line as the UK keyboard does exactly when it is not that of a wrong key
under shift, or the line is full. -/
theorem apply_keyEdit_iff (pound scancode : UInt8) (kbd : KeyboardState) (l : Line UInt8 TTY_BUF_SIZE) :
    l.apply (keyEdit kbd scancode) = l.apply (refEdit pound kbd.shift kbd.caps scancode) ↔
      (kbd.shift ∧ WrongKey pound scancode → l.length = TTY_BUF_SIZE) := by
  by_cases hw : kbd.shift ∧ WrongKey pound scancode
  · obtain ⟨a, b, ha, hb, hne⟩ := keyEdit_wrong hw.1 hw.2
    rw [ha, hb]
    simp only [hw, and_self, true_imp_iff]
    exact insert_inj_iff l hne
  · rw [keyEdit_eq hw]
    exact iff_of_true rfl fun h => absurd h hw

/-! ## Runs -/

theorem reference_snoc (pound : UInt8) (pre : List UInt8) (c : UInt8) :
    reference pound (pre ++ [c]) = (reference pound pre).refStep pound c := by
  unfold reference
  rw [List.foldl_append]
  rfl

theorem reference_kbd (pound : UInt8) (scancodes : List UInt8) :
    (reference pound scancodes).kbd = (typed scancodes).kbd :=
  Run.foldl_sim (fun t t' : Typing => t.kbd = t'.kbd) (fun _ _ _ h => congrArg (trackModifiers _) h) scancodes _ _ rfl

/-- The terminal line is the one that should be typed. -/
def LineRight (s : Keyboard) (pound : UInt8) (scancodes : List UInt8) : Prop :=
  ∃ s', keyboardRun scancodes s = .ok s' ∧ Holds s'.term.tty (reference pound scancodes).line

theorem Holds.unique {t : Tty} {l l' : Line UInt8 TTY_BUF_SIZE} (h : Holds t l) (h' : Holds t l') : l = l' := by
  obtain ⟨left, right, bound⟩ := l
  obtain ⟨left', right', bound'⟩ := l'
  obtain ⟨hl, hr⟩ := List.append_inj (h.line.symm.trans h'.line) (h.cursor.symm.trans h'.cursor)
  simp only at hl hr
  subst hl hr
  rfl

theorem lineRight_iff (con : Console) (rflags : UInt64) (pound : UInt8) (scancodes : List UInt8) :
    LineRight (Keyboard.boot con rflags) pound scancodes ↔
      (typed scancodes).line = (reference pound scancodes).line := by
  obtain ⟨s', hrun, ht⟩ := keyboardRun_types (boot_types con rflags) scancodes
  constructor
  · rintro ⟨s'', hrun', hline⟩
    obtain rfl := Except.ok.inj (hrun.symm.trans hrun')
    exact ht.holds.unique hline
  · intro heq
    exact ⟨s', hrun, heq ▸ ht.holds⟩

/-- One more scancode keeps the line right exactly when it is not a wrong key under shift, or the
line is full. -/
theorem lineRight_snoc {con : Console} {rflags : UInt64} {pound : UInt8} {pre : List UInt8}
    (h : LineRight (Keyboard.boot con rflags) pound pre) (c : UInt8) :
    LineRight (Keyboard.boot con rflags) pound (pre ++ [c]) ↔
      ((typed (pre ++ [c])).kbd.shift ∧ WrongKey pound c → (reference pound pre).line.length = TTY_BUF_SIZE) := by
  have hline := (lineRight_iff con rflags pound pre).1 h
  rw [lineRight_iff, typed_snoc, reference_snoc, ← apply_keyEdit_iff pound c _ (reference pound pre).line]
  unfold Typing.step Typing.refStep
  simp only [reference_kbd, hline]

/-- From boot, whatever byte the pound sign is: the terminal line is the one that should be typed
all along a run exactly when no key of it that is wrong under shift is pressed with shift on while
the line has room. -/
theorem keyboard_types_iff (con : Console) (rflags : UInt64) (pound : UInt8) (scancodes : List UInt8) :
    (∀ pre, pre <+: scancodes → ∃ s, keyboardRun pre (Keyboard.boot con rflags) = .ok s ∧
        Holds s.term.tty (reference pound pre).line) ↔
      ∀ pre c, pre ++ [c] <+: scancodes →
        ((typed (pre ++ [c])).kbd.shift ∧ WrongKey pound c → (reference pound pre).line.length = TTY_BUF_SIZE) := by
  refine Run.forall_prefix_iff (I := LineRight (Keyboard.boot con rflags) pound) ?_ ?_
  · exact (lineRight_iff con rflags pound []).2 rfl
  · exact fun pre c _ hpre => lineRight_snoc hpre c

/-- Shift and 4: whatever byte the pound sign is, the line holds its second byte and not a dollar. -/
theorem keyboard_mistypes : ¬∃ pound, ∀ con rflags scancodes, ∃ s,
    keyboardRun scancodes (Keyboard.boot con rflags) = .ok s ∧ Holds s.term.tty (reference pound scancodes).line := by
  rintro ⟨pound, hall⟩
  have hpre : LineRight (Keyboard.boot Console.boot 0x202) pound [0x2A] := hall _ _ _
  have hrun : LineRight (Keyboard.boot Console.boot 0x202) pound ([0x2A] ++ [0x05]) := hall _ _ _
  have hfull := (lineRight_snoc hpre 0x05).1 hrun ⟨by decide, .inl (by decide)⟩
  have hline : (reference pound [0x2A]).line = (reference 0xC2 [0x2A]).line :=
    congrArg (Line.empty.apply ·) (refEdit_pound (show (0x2A : UInt8) ≠ 0x04 by decide) pound 0xC2 true false)
  rw [hline] at hfull
  exact absurd hfull (by decide +kernel)

end SnakeOS.Term
