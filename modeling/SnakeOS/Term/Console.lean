/-
drivers/console.c over drivers/vga.c and the seconds counter of kernel/timer.c: the console table,
the console that is drawn on, and what each console operation does to the cursor and the screen.

Positions are linear, `80 * row + col`. Printing a character moves the position to `nextPos`; when
that leaves the screen the screen scrolls by one row and the position moves back by 80, so that
`pos + 80 * scrolls` follows `nextPos` alone.
-/
import SnakeOS.Term.Vga
import SnakeOS.Lib.C

namespace SnakeOS.Term

open C

/-! ## The timer's view of the console -/

abbrev CLOCK_FREQUENCY : UInt64 := 100

/-- The functions registered with `timer_register_secs_hook`. -/
inductive TimerHook
  | vgaDrawClock
  deriving DecidableEq, Repr

structure Timer where
  tick : UInt64
  timerSecsHook : Option TimerHook
  deriving DecidableEq, Repr

def Timer.boot : Timer := ⟨0, none⟩

def timerRegisterSecsHook (hook : Option TimerHook) (t : Timer) : Timer := { t with timerSecsHook := hook }

def timerGetSeconds (t : Timer) : UInt64 := t.tick / CLOCK_FREQUENCY

/-! ## Consoles -/

abbrev NR_CONS : Nat := 10

/-- The `console_ops` tables of the source. -/
inductive ConsoleOps
  | consoleVgaOps
  deriving DecidableEq, Repr

structure Con where
  row : Nat
  col : Nat
  ops : Option ConsoleOps
  deriving DecidableEq, Repr

/-- A console and the screen it draws on: what a `struct console *` reaches. -/
structure VgaConsole where
  con : Con
  vga : Vga

/-- `console_vga_putc` up to the label `check_scroll`. -/
def putAdvance (c : UInt8) (s : VgaConsole) : VgaConsole :=
  if c = 0x0A then { s with con := { s.con with col := 0, row := s.con.row + 1 } }
  else
    let s := { s with vga := vgaPutChar s.con.row s.con.col c s.vga }
    let s := { s with con := { s.con with col := s.con.col + 1 } }
    if s.con.col ≥ VGA_NUM_COLS then { s with con := { s.con with col := 0, row := s.con.row + 1 } } else s

/-- `console_vga_putc` from the label `check_scroll` on. -/
def checkScroll (s : VgaConsole) : VgaConsole :=
  if s.con.row ≥ VGA_NUM_ROWS then
    { con := { s.con with row := VGA_NUM_ROWS - 1 }, vga := vgaScrollUp s.vga }
  else s

def consoleVgaPutc (c : UInt8) (s : VgaConsole) : VgaConsole := checkScroll (putAdvance c s)

/-- `active` is the test `con == active_console`. -/
def consoleVgaClearScreen (active : Bool) (s : VgaConsole) : VgaConsole :=
  let s := if active then { s with vga := vgaClearScreen s.vga } else s
  { s with con := { s.con with row := 0, col := 0 } }

def ConsoleOps.putc : ConsoleOps → UInt8 → VgaConsole → VgaConsole
  | .consoleVgaOps => consoleVgaPutc

def ConsoleOps.clear : ConsoleOps → Bool → VgaConsole → VgaConsole
  | .consoleVgaOps => consoleVgaClearScreen

/-- The static variables `consoles` and `active_console` (an index into `consoles`), and the screen. -/
structure Console where
  consoles : Vector Con NR_CONS
  activeConsole : Option (Fin NR_CONS)
  vga : Vga

namespace Console

/-- The statics before `console_init`, over a screen of zero bytes. -/
def boot : Console := ⟨Vector.replicate NR_CONS ⟨0, 0, none⟩, none, ⟨fun _ => ⟨0, 0⟩, 0⟩⟩

/-- What `active_console` reaches. -/
def view (s : Console) : Option VgaConsole := s.activeConsole.map fun i => ⟨s.consoles[i], s.vga⟩

/-- Runs `f` on what `active_console` reaches; nothing happens when it is `NULL`. -/
def withActive (f : VgaConsole → VgaConsole) (s : Console) : Console :=
  match s.activeConsole with
  | none => s
  | some i =>
    let v := f ⟨s.consoles[i], s.vga⟩
    { s with consoles := s.consoles.set i v.con, vga := v.vga }

@[simp] theorem view_withActive (f : VgaConsole → VgaConsole) (s : Console) :
    (s.withActive f).view = s.view.map f := by
  unfold view withActive
  cases h : s.activeConsole with
  | none => simp [h]
  | some i => simp

/-- Running `f` on the active console several times. -/
theorem view_iterate (f : VgaConsole → VgaConsole) (n : Nat) (s : Console) :
    ((withActive f)^[n] s).view = s.view.map f^[n] := by
  induction n with
  | zero => exact (Option.map_id' ..).symm
  | succ n ih =>
    rw [Function.iterate_succ_apply', view_withActive, ih, Option.map_map, Function.iterate_succ']

end Console

/-! ## The console operations -/

/-- `console_putc` on the active console. -/
def putcActive (c : UInt8) (s : VgaConsole) : VgaConsole :=
  match s.con.ops with
  | none => s
  | some ops => ops.putc c s

def consolePutc (c : UInt8) (s : Console) : Console := s.withActive (putcActive c)

/-- `console_putc` of each byte of a list. -/
def putcs (cs : List UInt8) (s : Console) : Console := cs.foldl (fun s c => consolePutc c s) s

def putcsActive (cs : List UInt8) (s : VgaConsole) : VgaConsole := cs.foldl (fun s c => putcActive c s) s

/-- The loop of `console_write` over the bytes before the end of the string. -/
def consoleWriteLoop : List UInt8 → Console → Console
  | [], s => s
  | c :: cs, s => if c = 0 then s else consoleWriteLoop cs (consolePutc c s)

/-- `none` is the `NULL` string. -/
def consoleWrite (str : Option (List UInt8)) (s : Console) : Console :=
  match str with
  | none => s
  | some str => consoleWriteLoop str s

theorem putcs_append (xs ys : List UInt8) (s : Console) : putcs (xs ++ ys) s = putcs ys (putcs xs s) :=
  List.foldl_append

@[simp] theorem view_putcs (cs : List UInt8) (s : Console) : (putcs cs s).view = s.view.map (putcsActive cs) := by
  induction cs generalizing s with
  | nil => exact (Option.map_id' ..).symm
  | cons c cs ih =>
    show (putcs cs (s.withActive (putcActive c))).view = _
    rw [ih, Console.view_withActive, Option.map_map]
    rfl

theorem consoleWriteLoop_eq : ∀ (str : List UInt8) (s : Console),
    consoleWriteLoop str s = putcs (str.takeWhile (· ≠ 0)) s
  | [], s => rfl
  | c :: cs, s => by
    unfold consoleWriteLoop
    by_cases hc : c = 0
    · simp [hc, putcs]
    · simp [hc, consoleWriteLoop_eq cs, putcs]

/-- `console_backspace` on the active console. -/
def backspaceActive (s : VgaConsole) : VgaConsole :=
  let draw (con : Con) : VgaConsole := ⟨con, vgaPutChar con.row con.col 0x20 s.vga⟩
  if s.con.col = 0 then
    if s.con.row = 0 then s else draw { s.con with row := s.con.row - 1, col := VGA_NUM_COLS - 1 }
  else draw { s.con with col := s.con.col - 1 }

def consoleBackspace (s : Console) : Console := s.withActive backspaceActive

/-- The clamping of `console_move_cursor`: `x` moved to `0` below it and to `n - 1` above. -/
def clamp (n : Nat) (x : Int) : Int :=
  let x := if x < 0 then 0 else x
  if x ≥ n then n - 1 else x

/-- `console_move_cursor` on the active console. -/
def moveCursorActive (dx dy : Int) (s : VgaConsole) : VgaConsole :=
  let newCol := clamp VGA_NUM_COLS (toInt32 (toInt32 s.con.col + dx))
  let newRow := clamp VGA_NUM_ROWS (toInt32 (toInt32 s.con.row + dy))
  { s with con := { s.con with col := newCol.toNat, row := newRow.toNat } }

def consoleMoveCursor (dx dy : Int) (s : Console) : Console := s.withActive (moveCursorActive dx dy)

/-- `console_clear` on the active console. -/
def clearActive (s : VgaConsole) : VgaConsole :=
  match s.con.ops with
  | none => s
  | some ops => ops.clear true s

def consoleClear (s : Console) : Console := s.withActive clearActive

/-- The overlay bypasses the console and draws on the screen. -/
def vgaDrawClock (t : Timer) (v : Vga) : Vga :=
  let seconds := timerGetSeconds t
  let h := seconds / 3600
  let m := seconds / 60 % 60
  let s := seconds % 60
  let digit (x : UInt64) : UInt8 := (0x30 + x).toUInt8
  let buf : Vector UInt8 9 :=
    #v[digit (h / 10 % 10), digit (h % 10), 0x3A, digit (m / 10), digit (m % 10), 0x3A,
      digit (s / 10), digit (s % 10), 0]
  let row := VGA_NUM_ROWS - 1
  let col := VGA_NUM_COLS - 8
  CLoop.forUp 0 8 (fun i v => vgaPutChar row (col + i) (buf.getD i 0) v) v

def consoleInit (s : Console) (t : Timer) : Console × Timer :=
  let s := { s with consoles := s.consoles.set 0 ⟨0, 0, some .consoleVgaOps⟩ }
  let s := { s with activeConsole := some 0 }
  let s := s.withActive (ConsoleOps.consoleVgaOps.clear true)
  (s, timerRegisterSecsHook (some .vgaDrawClock) t)

/-! ## Positions -/

/-- The linear position of the cursor. -/
def VgaConsole.pos (v : VgaConsole) : Nat := 80 * v.con.row + v.con.col

/-- A VGA console whose cursor is on the screen. -/
structure OnScreen (v : VgaConsole) : Prop where
  ops : v.con.ops = some .consoleVgaOps
  row : v.con.row < 25
  col : v.con.col < 80

/-- The position after printing `c` at `p`. -/
def nextPos (c : UInt8) (p : Nat) : Nat := if c = 0x0A then 80 * (p / 80 + 1) else p + 1

/-- The scrolls caused by printing `c` at `p`. -/
def scrollsAt (c : UInt8) (p : Nat) : Nat := if nextPos c p < 2000 then 0 else 1

/-- The cells of the screen after `c` is stored at the cursor, with blank rows below the screen. -/
def storeAt (c : UInt8) (v : VgaConsole) (k : Nat) : VgaChar :=
  if c ≠ 0x0A ∧ k = v.pos then cellOf c else if k < 2000 then v.vga.memory k else blank

theorem OnScreen.pos_lt {v : VgaConsole} (h : OnScreen v) : v.pos < 2000 := by
  have := h.row; have := h.col; unfold VgaConsole.pos; omega

theorem OnScreen.pos_div {v : VgaConsole} (h : OnScreen v) : v.pos / 80 = v.con.row := by
  have := h.col; unfold VgaConsole.pos; omega

theorem OnScreen.nextPos_le {v : VgaConsole} (h : OnScreen v) (c : UInt8) : nextPos c v.pos ≤ 2000 := by
  have := h.pos_lt; unfold nextPos; split <;> omega

theorem lt_nextPos (c : UInt8) (p : Nat) : p < nextPos c p := by unfold nextPos; split <;> omega

/-- Before the scroll check a character is stored and the cursor is at the next position, which
may be one row below the screen. -/
theorem putAdvance_spec {v : VgaConsole} (h : OnScreen v) (c : UInt8) :
    let w := putAdvance c v
    w.con.ops = some .consoleVgaOps ∧ w.pos = nextPos c v.pos ∧ w.con.col < 80 ∧
      w.vga.scrolls = v.vga.scrolls ∧ ∀ k < 2000, w.vga.memory k = storeAt c v k := by
  have hp := h.pos_lt
  have hd := h.pos_div
  unfold putAdvance nextPos
  simp only [VGA_NUM_COLS]
  by_cases hn : c = 0x0A
  · simp only [hn, if_true]
    refine ⟨h.ops, ?_, by simp, trivial, fun k hk => ?_⟩
    · rw [hd]; simp [VgaConsole.pos]
    · simp [storeAt, hk]
  · simp only [hn, if_false]
    have hmem : ∀ k < 2000, (vgaPutChar v.con.row v.con.col c v.vga).memory k = storeAt c v k := by
      intro k hk
      rw [vgaPutChar_memory c v.vga h.row h.col, Function.update_apply]
      simp only [storeAt, VgaConsole.pos, hn, hk, ne_eq, not_false_eq_true, true_and, if_true]
    have hcol := h.col
    split
    · refine ⟨h.ops, ?_, by simp, by simp, hmem⟩
      simp only [VgaConsole.pos]; omega
    · refine ⟨h.ops, ?_, by simp only; omega, by simp, hmem⟩
      simp only [VgaConsole.pos]; omega

theorem checkScroll_spec {w : VgaConsole} (ho : w.con.ops = some .consoleVgaOps) (hc : w.con.col < 80)
    (hp : w.pos ≤ 2000) :
    let d := if w.pos < 2000 then 0 else 1
    OnScreen (checkScroll w) ∧ (checkScroll w).pos + 80 * d = w.pos ∧
      (checkScroll w).vga.scrolls = w.vga.scrolls + d ∧ ∀ k < 2000, (checkScroll w).vga.memory k =
        if k + 80 * d < 2000 then w.vga.memory (k + 80 * d) else blank := by
  unfold checkScroll
  unfold VgaConsole.pos at hp
  simp only [VGA_NUM_ROWS]
  split
  · rename_i hr
    have hd : ¬ w.pos < 2000 := by unfold VgaConsole.pos; omega
    simp only [hd, if_false]
    refine ⟨⟨ho, by simp, hc⟩, by simp only [VgaConsole.pos]; omega, by simp, fun k hk => ?_⟩
    rw [vgaScrollUp_memory]
    by_cases h1 : k < 1920
    · rw [if_pos h1, if_pos (by omega)]
    · rw [if_neg h1, if_pos hk, if_neg (by omega)]
  · rename_i hr
    have hd : w.pos < 2000 := by unfold VgaConsole.pos; omega
    simp only [hd, if_true]
    exact ⟨⟨ho, by omega, hc⟩, by omega, rfl, fun k hk => by simp [hk]⟩

/-- Printing a character stores it at the cursor and moves the cursor to the next position; when
that is below the screen everything moves up one row. -/
theorem putcActive_spec {v : VgaConsole} (h : OnScreen v) (c : UInt8) :
    OnScreen (putcActive c v) ∧
    (putcActive c v).pos + 80 * scrollsAt c v.pos = nextPos c v.pos ∧
    (putcActive c v).vga.scrolls = v.vga.scrolls + scrollsAt c v.pos ∧
    ∀ k < 2000, (putcActive c v).vga.memory k = storeAt c v (k + 80 * scrollsAt c v.pos) := by
  obtain ⟨ho, hpos, hc, hs, hm⟩ := putAdvance_spec h c
  obtain ⟨h1, h2, h3, h4⟩ := checkScroll_spec ho hc (hpos ▸ h.nextPos_le c)
  have hput : putcActive c v = checkScroll (putAdvance c v) := by
    unfold putcActive; rw [h.ops]; rfl
  rw [hput]
  rw [hpos] at h2 h3 h4
  refine ⟨h1, h2, by rw [h3, hs]; rfl, fun k hk => ?_⟩
  rw [h4 k hk]
  show (if k + 80 * scrollsAt c v.pos < 2000 then _ else _) = _
  split
  · rename_i hlt; exact hm _ hlt
  · rename_i hge
    have := h.pos_lt
    unfold storeAt
    rw [if_neg (by omega), if_neg hge]

/-- A backspace moves the cursor back to the position before it and blanks it; at the start of the screen
nothing happens. -/
theorem backspaceActive_spec {v : VgaConsole} (h : OnScreen v) :
    OnScreen (backspaceActive v) ∧ (backspaceActive v).pos = v.pos - 1 ∧
      (backspaceActive v).vga.scrolls = v.vga.scrolls ∧
      (backspaceActive v).vga.memory =
        if v.pos = 0 then v.vga.memory else Function.update v.vga.memory (v.pos - 1) blank := by
  have hr := h.row
  have hc := h.col
  have hpos : v.pos = 80 * v.con.row + v.con.col := rfl
  unfold backspaceActive
  simp only [VGA_NUM_COLS]
  by_cases hcol : v.con.col = 0
  · rw [if_pos hcol]
    by_cases hrow : v.con.row = 0
    · rw [if_pos hrow, if_pos (by omega)]
      exact ⟨h, by omega, rfl, rfl⟩
    · rw [if_neg hrow, if_neg (by omega)]
      refine ⟨⟨h.ops, show v.con.row - 1 < 25 by omega, Nat.lt_succ_self 79⟩, ?_, vgaPutChar_scrolls .., ?_⟩
      · show 80 * (v.con.row - 1) + 79 = _
        omega
      · show (vgaPutChar (v.con.row - 1) 79 0x20 v.vga).memory = _
        rw [vgaPutChar_memory _ _ (by omega) (by omega), show 80 * (v.con.row - 1) + 79 = v.pos - 1 by omega]
        rfl
  · rw [if_neg hcol, if_neg (by omega)]
    refine ⟨⟨h.ops, hr, show v.con.col - 1 < 80 by omega⟩, ?_, vgaPutChar_scrolls .., ?_⟩
    · show 80 * v.con.row + (v.con.col - 1) = _
      omega
    · show (vgaPutChar v.con.row (v.con.col - 1) 0x20 v.vga).memory = _
      rw [vgaPutChar_memory _ _ hr (by omega), show 80 * v.con.row + (v.con.col - 1) = v.pos - 1 by omega]
      rfl

theorem clamp_toNat {n : Nat} (hn : 0 < n) (x : Int) : (clamp n x).toNat = min x.toNat (n - 1) := by
  unfold clamp; simp only; split <;> split <;> omega

theorem clamp_lt {n : Nat} (hn : 0 < n) (x : Int) : (clamp n x).toNat < n := by
  rw [clamp_toNat hn]
  omega

theorem OnScreen.withCursor {v : VgaConsole} (h : OnScreen v) {row col : Nat} (hr : row < 25) (hc : col < 80) :
    OnScreen { v with con := { v.con with col, row } } := ⟨h.ops, hr, hc⟩

theorem OnScreen.moveCursor {v : VgaConsole} (h : OnScreen v) (dx dy : Int) : OnScreen (moveCursorActive dx dy v) := by
  unfold moveCursorActive
  exact h.withCursor (clamp_lt (Nat.succ_pos 24) _) (clamp_lt (Nat.succ_pos 79) _)

/-- A cursor movement within the row stops at the row's ends. -/
theorem moveCursorActive_row {v : VgaConsole} (h : OnScreen v) {dx : Int} (h1 : -2 ^ 31 ≤ dx) (h2 : dx < 2 ^ 30) :
    moveCursorActive dx 0 v = { v with con := { v.con with col := min (v.con.col + dx).toNat 79 } } := by
  have hr := h.row
  have hc := h.col
  unfold moveCursorActive
  rw [toInt32_of_range (x := v.con.col) (by omega) (by omega), toInt32_of_range (x := v.con.row) (by omega) (by omega),
    toInt32_of_range (by omega) (by omega), toInt32_of_range (by omega) (by omega)]
  simp only [clamp_toNat (show 0 < 80 by omega), clamp_toNat (show 0 < 25 by omega)]
  rw [show min ((v.con.row : Int) + 0).toNat (25 - 1) = v.con.row by omega]

theorem moveCursorActive_left {v : VgaConsole} (h : OnScreen v) {n : Nat} (hn : n < 2 ^ 31) :
    moveCursorActive (-n) 0 v = { v with con := { v.con with col := v.con.col - n } } := by
  have hc := h.col
  rw [moveCursorActive_row h (by omega) (by omega),
    show min ((v.con.col : Int) + -n).toNat 79 = v.con.col - n by omega]

theorem moveCursorActive_right {v : VgaConsole} (h : OnScreen v) :
    moveCursorActive 1 0 v = { v with con := { v.con with col := min (v.con.col + 1) 79 } } := by
  rw [moveCursorActive_row h (by omega) (by omega), show ((v.con.col : Int) + 1).toNat = v.con.col + 1 by omega]

end SnakeOS.Term
