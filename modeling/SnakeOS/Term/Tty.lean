/-
kernel/tty.c: the active terminal line, its editing operations and their echo on the console.
`size_t` subtractions and accesses to `buf` are checked: a run that ends well has made none that
wraps or goes out of bounds.
-/
import SnakeOS.Lib.Shift
import SnakeOS.Term.Console

namespace SnakeOS.Term

open C CLoop

/-! ## Key events -/

/-- `enum keycode`, in the order of the source. -/
inductive Keycode
  | none
  | a | b | c | d | e | f | g | h | i | j | k | l | m
  | n | o | p | q | r | s | t | u | v | w | x | y | z
  | d0 | d1 | d2 | d3 | d4 | d5 | d6 | d7 | d8 | d9
  | enter | backspace | tab | esc
  | left | right | up | down | home | «end»
  | shift | ctrl | alt
  | minus | equal | lbracket | rbracket | semicolon | apostrophe | grave | backslash | comma | dot | slash | space
  deriving DecidableEq, Repr

inductive KeyAction
  | press
  | release
  deriving DecidableEq, Repr

structure KeyEvent where
  key : Keycode
  action : KeyAction
  mods : UInt8
  ascii : UInt8
  deriving DecidableEq, Repr

/-! ## The terminal line -/

abbrev TTY_BUF_SIZE : Nat := 256

structure Tty where
  buf : Vector UInt8 TTY_BUF_SIZE
  len : Nat
  cursor : Nat
  echo : Bool

/-- The initial value of `tty_active`. -/
def ttyActive : Tty := ⟨Vector.replicate TTY_BUF_SIZE 0, 0, 0, true⟩

/-- `buf[0..len)`. -/
def Tty.line (t : Tty) : List UInt8 := t.buf.toList.take t.len

/-- The terminal line and the console it is echoed on. -/
structure Terminal where
  tty : Tty
  con : Console

/-- `for (i = cursor; i < len; i++) console_putc(buf[i])`. -/
def redrawTail (t : Tty) (con : Console) : Except Fault Console :=
  forUpM t.cursor t.len (fun i con => do return consolePutc (← load t.buf i) con) con

def ttyBackspace (s : Terminal) : Except Fault Terminal :=
  if s.tty.cursor = 0 then .ok s
  else do
    -- the loop that moves the tail left over the deleted character
    let buf ← closeGap (← sizeSub s.tty.cursor 1) (← sizeSub s.tty.len 1) s.tty.buf
    let cursor ← sizeSub s.tty.cursor 1
    let len ← sizeSub s.tty.len 1
    let t : Tty := { s.tty with buf, cursor, len }
    if !t.echo then return { s with tty := t }
    else
      let con := consoleMoveCursor (-1) 0 s.con
      let con ← redrawTail t con
      let con := consolePutc 0x20 con
      let charsPrinted := (← sizeSub t.len t.cursor) + 1
      return ⟨t, consoleMoveCursor (toInt32 (sizeNeg charsPrinted)) 0 con⟩

def ttyCursorLeft (s : Terminal) : Except Fault Terminal :=
  if s.tty.cursor > 0 then do
    let t := { s.tty with cursor := ← sizeSub s.tty.cursor 1 }
    if t.echo then return ⟨t, consoleMoveCursor (-1) 0 s.con⟩ else return { s with tty := t }
  else .ok s

def ttyCursorRight (s : Terminal) : Except Fault Terminal :=
  if s.tty.cursor < s.tty.len then
    let t := { s.tty with cursor := s.tty.cursor + 1 }
    if t.echo then .ok ⟨t, consoleMoveCursor 1 0 s.con⟩ else .ok { s with tty := t }
  else .ok s

def ttyInsertChar (c : UInt8) (s : Terminal) : Except Fault Terminal :=
  if s.tty.len ≥ TTY_BUF_SIZE then .ok s
  else do
    -- the loop that moves the tail right to make room
    let buf ← openGap s.tty.len s.tty.cursor s.tty.buf
    let buf ← store buf s.tty.cursor c
    let t : Tty := { s.tty with buf, cursor := s.tty.cursor + 1, len := s.tty.len + 1 }
    if t.echo then
      let con := consolePutc c s.con
      let con ← redrawTail t con
      return ⟨t, forUp t.cursor t.len (fun _ con => consoleMoveCursor (-1) 0 con) con⟩
    else return { s with tty := t }

/-- `"\n<SnakeOS> "`. -/
def prompt : List UInt8 := ['\n', '<', 'S', 'n', 'a', 'k', 'e', 'O', 'S', '>', ' '].map Char.toUInt8

def ttyNewline (s : Terminal) : Except Fault Terminal :=
  let con := if s.tty.echo then consoleWrite (some prompt) s.con else s.con
  .ok ⟨{ s.tty with len := 0, cursor := 0 }, con⟩

def ttyHandleKey (ev : KeyEvent) (s : Terminal) : Except Fault Terminal :=
  if ev.action ≠ .press then .ok s
  -- Printable character
  else if ev.ascii ≠ 0 then ttyInsertChar ev.ascii s
  else match ev.key with
    | .backspace => ttyBackspace s
    | .left => ttyCursorLeft s
    | .right => ttyCursorRight s
    | .enter => ttyNewline s
    | _ => .ok s

/-- The terminal after a list of key events. -/
def ttyRun (evs : List KeyEvent) (s : Terminal) : Except Fault Terminal :=
  evs.foldlM (fun s ev => ttyHandleKey ev s) s

end SnakeOS.Term
