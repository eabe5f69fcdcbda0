/-
drivers/keyboard.c: scancodes to key events, under the keyboard's spinlock, into the terminal. A
scancode byte is a key's make code, or its break code with bit 7 set.
-/
import SnakeOS.Kernel.Spinlock
import SnakeOS.Term.Editor

namespace SnakeOS.Term

open C LineEdit Kernel

/-! ## The tables -/

abbrev LEFT_SHIFT : UInt8 := 0x2A
abbrev RIGHT_SHIFT : UInt8 := 0x36
abbrev CAPS_LOCK : UInt8 := 0x3A
abbrev MOD_SHIFT : UInt8 := 1

def scancodeToKeycode (scancode : UInt8) : Keycode :=
  match scancode with
  -- control keys
  | 0x1C => .enter
  | 0x0E => .backspace
  | 0x4B => .left
  | 0x4D => .right
  | 0x48 => .up
  | 0x50 => .down
  -- letters
  | 0x1E => .a
  | 0x30 => .b
  | 0x2E => .c
  | 0x20 => .d
  | 0x12 => .e
  | 0x21 => .f
  | 0x22 => .g
  | 0x23 => .h
  | 0x17 => .i
  | 0x24 => .j
  | 0x25 => .k
  | 0x26 => .l
  | 0x32 => .m
  | 0x31 => .n
  | 0x18 => .o
  | 0x19 => .p
  | 0x10 => .q
  | 0x13 => .r
  | 0x1F => .s
  | 0x14 => .t
  | 0x16 => .u
  | 0x2F => .v
  | 0x11 => .w
  | 0x2D => .x
  | 0x15 => .y
  | 0x2C => .z
  -- digits (top row, not keypad)
  | 0x02 => .d1
  | 0x03 => .d2
  | 0x04 => .d3
  | 0x05 => .d4
  | 0x06 => .d5
  | 0x07 => .d6
  | 0x08 => .d7
  | 0x09 => .d8
  | 0x0A => .d9
  | 0x0B => .d0
  -- punctuation
  | 0x0C => .minus
  | 0x0D => .equal
  | 0x1A => .lbracket
  | 0x1B => .rbracket
  | 0x27 => .semicolon
  | 0x28 => .apostrophe
  | 0x29 => .grave
  | 0x2B => .backslash
  | 0x33 => .comma
  | 0x34 => .dot
  | 0x35 => .slash
  | 0x39 => .space
  | _ => .none

/-- The value of the enumerator. -/
def Keycode.toNat (key : Keycode) : Nat := key.ctorIdx

/-- The bytes of the literal `unshifted`. -/
def unshifted : Vector UInt8 11 := #v[0x30, 0x31, 0x32, 0x33, 0x34, 0x35, 0x36, 0x37, 0x38, 0x39, 0]

/-- The bytes of the literal `shifted`: the pound sign is two of them. -/
def shifted : Vector UInt8 12 := #v[0x29, 0x21, 0x22, 0xC2, 0xA3, 0x24, 0x25, 0x5E, 0x26, 0x2A, 0x28, 0]

example : shifted.toList = ")!\"£$%^&*(".toUTF8.data.toList ++ [0] := rfl

def keycodeToAscii (key : Keycode) (mods : UInt8) (caps : Bool) : UInt8 :=
  let shift : Bool := mods &&& MOD_SHIFT ≠ 0
  -- letters
  if key.toNat ≥ Keycode.a.toNat ∧ key.toNat ≤ Keycode.z.toNat then
    let upper := shift ^^ caps
    if upper then (0x41 + key.toNat - Keycode.a.toNat).toUInt8 else (0x61 + key.toNat - Keycode.a.toNat).toUInt8
  -- digits (UK layout)
  else if key.toNat ≥ Keycode.d0.toNat ∧ key.toNat ≤ Keycode.d9.toNat then
    if shift then shifted.getD (key.toNat - Keycode.d0.toNat) 0 else unshifted.getD (key.toNat - Keycode.d0.toNat) 0
  -- punctuation
  else match key with
    | .minus => if shift then 0x5F else 0x2D
    | .equal => if shift then 0x2B else 0x3D
    | .lbracket => if shift then 0x7B else 0x5B
    | .rbracket => if shift then 0x7D else 0x5D
    | .semicolon => if shift then 0x3A else 0x3B
    | .apostrophe => if shift then 0x22 else 0x27
    | .grave => if shift then 0x7E else 0x60
    | .backslash => if shift then 0x7C else 0x5C
    | .comma => if shift then 0x3C else 0x2C
    | .dot => if shift then 0x3E else 0x2E
    | .slash => if shift then 0x3F else 0x2F
    | .space => 0x20
    | _ => 0

/-! ## Handling a scancode -/

structure KeyboardState where
  shift : Bool
  caps : Bool
  lock : Spinlock

/-- The keyboard, the flags register and the terminal that keys go to. -/
structure Keyboard where
  kbd : KeyboardState
  rflags : UInt64
  term : Terminal

/-- `kbd` after `keyboard_init`. -/
def KeyboardState.init : KeyboardState := ⟨false, false, spinlockInit⟩

def isPress (scancode : UInt8) : Bool := scancode &&& 0x80 = 0

def keyScancode (scancode : UInt8) : UInt8 := scancode &&& 0x7F

/-- The switch over the modifier keys. -/
def trackModifiers (scancode : UInt8) (kbd : KeyboardState) : KeyboardState :=
  if keyScancode scancode = LEFT_SHIFT ∨ keyScancode scancode = RIGHT_SHIFT then
    { kbd with shift := isPress scancode }
  else if keyScancode scancode = CAPS_LOCK then
    if isPress scancode then { kbd with caps := !kbd.caps } else kbd
  else kbd

def keyboardHandleScancode (scancode : UInt8) (s : Keyboard) : Except Fault Keyboard := do
  let (lock, _) ← spinLock s.kbd.lock s.rflags
  let isKeyPressed := isPress scancode
  let kbd := trackModifiers scancode { s.kbd with lock }
  let key := scancodeToKeycode (keyScancode scancode)
  if key = .none then
    let (lock, rflags) ← spinUnlock kbd.lock
    return { s with kbd := { kbd with lock }, rflags }
  else
    let mods := if kbd.shift then MOD_SHIFT else 0
    let caps := kbd.caps
    let (lock, rflags) ← spinUnlock kbd.lock
    let action := if isKeyPressed then .press else .release
    let ev : KeyEvent := ⟨key, action, mods, if isKeyPressed then keycodeToAscii key mods caps else 0⟩
    let term ← ttyHandleKey ev s.term
    return ⟨{ kbd with lock }, rflags, term⟩

/-- The keyboard after a list of scancodes. -/
def keyboardRun (scancodes : List UInt8) (s : Keyboard) : Except Fault Keyboard :=
  scancodes.foldlM (fun s scancode => keyboardHandleScancode scancode s) s

/-! ## What a scancode does -/

/-- The edit that a scancode makes of the line, with the modifiers as they are after it. -/
def keyEdit (kbd : KeyboardState) (scancode : UInt8) : Edit UInt8 :=
  let key := scancodeToKeycode (keyScancode scancode)
  if key = .none ∨ ¬isPress scancode then .keep
  else
    let mods := if kbd.shift then MOD_SHIFT else 0
    editOf ⟨key, .press, mods, keycodeToAscii key mods kbd.caps⟩

/-- The modifiers and the editor's line behind a keyboard. -/
structure Typing where
  kbd : KeyboardState
  line : Line UInt8 TTY_BUF_SIZE

def Typing.step (t : Typing) (scancode : UInt8) : Typing :=
  let kbd := trackModifiers scancode t.kbd
  ⟨kbd, t.line.apply (keyEdit kbd scancode)⟩

structure Types (s : Keyboard) (t : Typing) : Prop where
  shift : s.kbd.shift = t.kbd.shift
  caps : s.kbd.caps = t.kbd.caps
  unlocked : s.kbd.lock.locked = 0
  holds : Holds s.term.tty t.line

theorem trackModifiers_lock (scancode : UInt8) (kbd : KeyboardState) :
    (trackModifiers scancode kbd).lock = kbd.lock := by
  unfold trackModifiers
  split
  · rfl
  · split
    · split
      · rfl
      · rfl
    · rfl

theorem trackModifiers_congr (scancode : UInt8) {k k' : KeyboardState} (h1 : k.shift = k'.shift)
    (h2 : k.caps = k'.caps) :
    (trackModifiers scancode k).shift = (trackModifiers scancode k').shift ∧
      (trackModifiers scancode k).caps = (trackModifiers scancode k').caps := by
  unfold trackModifiers
  split
  · exact ⟨rfl, h2⟩
  · split
    · split
      · exact ⟨h1, congrArg (!·) h2⟩
      · exact ⟨h1, h2⟩
    · exact ⟨h1, h2⟩

theorem keyEdit_congr (scancode : UInt8) {k k' : KeyboardState} (h1 : k.shift = k'.shift) (h2 : k.caps = k'.caps) :
    keyEdit k scancode = keyEdit k' scancode := by
  unfold keyEdit
  rw [h1, h2]

/-- A scancode is handled without a panic or a bad index, leaves the lock free and the flags
register as it was, and edits the line. -/
theorem keyboardHandleScancode_spec {s : Keyboard} {t : Typing} (h : Types s t) (scancode : UInt8) :
    ∃ s', keyboardHandleScancode scancode s = .ok s' ∧ Types s' (t.step scancode) ∧ s'.rflags = s.rflags := by
  obtain ⟨hshift, hcaps⟩ := trackModifiers_congr (k := { s.kbd with lock := ⟨1, s.rflags⟩ }) scancode h.shift h.caps
  have hlock := trackModifiers_lock scancode { s.kbd with lock := ⟨1, s.rflags⟩ }
  unfold keyboardHandleScancode
  rw [spinLock_ok h.unlocked]
  simp only [ok_bind]
  generalize trackModifiers scancode { s.kbd with lock := ⟨1, s.rflags⟩ } = kbd at *
  rw [spinUnlock_ok (show kbd.lock.locked ≠ 0 by rw [hlock]; exact Int.one_ne_zero), hlock]
  simp only [ok_bind, pure_eq_ok]
  have hline : (t.step scancode).line = t.line.apply (keyEdit kbd scancode) := by
    rw [keyEdit_congr scancode hshift hcaps]
    rfl
  by_cases hkey : scancodeToKeycode (keyScancode scancode) = .none
  · have hkeep : keyEdit kbd scancode = .keep := if_pos (.inl hkey)
    rw [if_pos hkey]
    refine ⟨_, rfl, ⟨hshift, hcaps, rfl, ?_⟩, rfl⟩
    rw [hline, hkeep]
    exact h.holds
  · rw [if_neg hkey]
    obtain ⟨tty', hrun, hholds, -⟩ := ttyHandleKey_spec h.holds s.term.con
      ⟨scancodeToKeycode (keyScancode scancode), if isPress scancode then .press else .release,
        if kbd.shift then MOD_SHIFT else 0,
        if isPress scancode then keycodeToAscii (scancodeToKeycode (keyScancode scancode))
          (if kbd.shift then MOD_SHIFT else 0) kbd.caps else 0⟩
    rw [hrun]
    refine ⟨_, rfl, ⟨hshift, hcaps, rfl, ?_⟩, rfl⟩
    rw [hline]
    unfold keyEdit
    cases hpress : isPress scancode with
    | true => simpa [hpress, hkey] using hholds
    | false => simpa [hpress, editOf] using hholds

/-- Every run of scancodes succeeds and types the line. -/
theorem keyboardRun_types {s : Keyboard} {t : Typing} (h : Types s t) (scancodes : List UInt8) :
    ∃ s', keyboardRun scancodes s = .ok s' ∧ Types s' (scancodes.foldl Typing.step t) :=
  Run.foldlM_sim Types (fun s t scancode hs => by
    obtain ⟨s', hrun, ht, -⟩ := keyboardHandleScancode_spec hs scancode
    exact ⟨s', hrun, ht⟩) scancodes s t h

/-- The keyboard at boot, over any console. -/
def Keyboard.boot (con : Console) (rflags : UInt64) : Keyboard := ⟨KeyboardState.init, rflags, ⟨ttyActive, con⟩⟩

def Typing.boot : Typing := ⟨KeyboardState.init, Line.empty⟩

/-- The modifiers and the line after a list of scancodes. -/
def typed (scancodes : List UInt8) : Typing := scancodes.foldl Typing.step Typing.boot

theorem typed_snoc (pre : List UInt8) (c : UInt8) : typed (pre ++ [c]) = (typed pre).step c := by
  unfold typed
  rw [List.foldl_append]
  rfl

theorem boot_types (con : Console) (rflags : UInt64) : Types (Keyboard.boot con rflags) Typing.boot :=
  ⟨rfl, rfl, rfl, ttyActive_holds⟩

end SnakeOS.Term
