/-
The terminal line refines the line editor: after any key events `buf[0..len)` is the text left and
right of the cursor, the cursor is the length of the left part, and every edit that is echoed
draws on the console what `redraw` says.
-/
import SnakeOS.Lib.LineEdit
import SnakeOS.Lib.Run
import SnakeOS.Term.Tty

namespace SnakeOS.Term

open C CLoop LineEdit

/-! ## The editor behind the terminal line -/

/-- What a key event asks of the line. -/
def editOf (ev : KeyEvent) : Edit UInt8 :=
  if ev.action = .press then
    if ev.ascii ≠ 0 then .insert ev.ascii
    else match ev.key with
      | .backspace => .backspace
      | .left => .moveLeft
      | .right => .moveRight
      | .enter => .clear
      | _ => .keep
  else .keep

/-- The terminal line holds the editor's line. -/
structure Holds (t : Tty) (l : Line UInt8 TTY_BUF_SIZE) : Prop where
  line : t.line = l.left ++ l.right
  cursor : t.cursor = l.left.length
  len : t.len = l.left.length + l.right.length

/-- What an edit of the line `l` draws on the console. -/
def redraw (l : Line UInt8 TTY_BUF_SIZE) (con : Console) : Edit UInt8 → Console
  | .insert c =>
    if l.length < TTY_BUF_SIZE then
      (consoleMoveCursor (-1) 0)^[l.right.length] (putcs (c :: l.right) con)
    else con
  | .backspace =>
    if l.left = [] then con
    else consoleMoveCursor (-(l.right.length + 1 : Nat)) 0 (putcs (l.right ++ [0x20]) (consoleMoveCursor (-1) 0 con))
  | .moveLeft => if l.left = [] then con else consoleMoveCursor (-1) 0 con
  | .moveRight => if l.right = [] then con else consoleMoveCursor 1 0 con
  | .clear => consoleWrite (some prompt) con
  | .keep => con

/-! ## Texts element by element -/

section Text

variable {α : Type}

theorem getElem?_insert (l r : List α) (c : α) (k : Nat) :
    (l ++ [c] ++ r)[k]? = if k = l.length then some c else if l.length < k then (l ++ r)[k - 1]? else (l ++ r)[k]? := by
  rw [List.append_assoc]
  by_cases h1 : k < l.length
  · rw [if_neg (by omega), if_neg (by omega), List.getElem?_append_left h1, List.getElem?_append_left h1]
  · rw [List.getElem?_append_right (by omega)]
    by_cases h2 : k = l.length
    · subst h2; simp
    · obtain ⟨m, rfl⟩ : ∃ m, k = l.length + (m + 1) := ⟨k - l.length - 1, by omega⟩
      rw [if_neg h2, if_pos (by omega), show l.length + (m + 1) - 1 = l.length + m by omega,
        List.getElem?_append_right (Nat.le_add_right _ m)]
      simp

theorem getElem?_delete {l : List α} (r : List α) (hl : l ≠ []) (k : Nat) :
    (l.dropLast ++ r)[k]? = if l.length - 1 ≤ k then (l ++ r)[k + 1]? else (l ++ r)[k]? := by
  have hpos := List.length_pos_iff.2 hl
  by_cases h1 : l.length - 1 ≤ k
  · rw [if_pos h1, List.getElem?_append_right (by simpa using h1), List.getElem?_append_right (by omega),
      List.length_dropLast]
    congr 1; omega
  · rw [if_neg h1, List.getElem?_append_left (by simp; omega), List.getElem?_append_left (by omega),
      List.getElem?_dropLast, if_pos (by omega)]

end Text

theorem Tty.line_getElem? (t : Tty) (k : Nat) : t.line[k]? = if k < t.len then t.buf[k]? else none := by
  unfold Tty.line
  rw [List.getElem?_take]
  simp

theorem Holds.getElem? {t : Tty} {l : Line UInt8 TTY_BUF_SIZE} (h : Holds t l) {k : Nat} (hk : k < t.len) :
    t.buf[k]? = (l.left ++ l.right)[k]? := by
  rw [← h.line, t.line_getElem?, if_pos hk]

theorem Holds.len_le {t : Tty} {l : Line UInt8 TTY_BUF_SIZE} (h : Holds t l) : t.len ≤ 256 := h.len ▸ l.bound

/-- A buffer that agrees with a text on its first `len` bytes holds it. -/
theorem line_eq {t : Tty} {xs : List UInt8} (hl : xs.length = t.len) (h : ∀ k < t.len, t.buf[k]? = xs[k]?) :
    t.line = xs := by
  apply List.ext_getElem?
  intro k
  rw [t.line_getElem?]
  split
  · rename_i hk; exact h k hk
  · exact (List.getElem?_eq_none (by omega)).symm

/-! ## Redrawing the tail -/

theorem redrawTail_ok {t : Tty} {l r : List UInt8} (con : Console) (ht : t.line = l ++ r) (hc : t.cursor = l.length)
    (hl : t.len = l.length + r.length) (hn : t.len ≤ 256) : redrawTail t con = .ok (putcs r con) := by
  have hloop : ∃ con', redrawTail t con = .ok con' ∧ con' = putcs (r.take (t.len - l.length)) con := by
    refine forUpM_inv (fun i con' => con' = putcs (r.take (i - l.length)) con) (by omega) ?_ (by simp [hc, putcs])
    rintro i con' hi hil rfl
    obtain ⟨m, rfl⟩ : ∃ m, i = l.length + m := ⟨i - l.length, by omega⟩
    have hm : m < r.length := by omega
    have hbuf := t.line_getElem? (l.length + m)
    rw [ht, if_pos hil, List.getElem?_append_right (by omega), Nat.add_sub_cancel_left, List.getElem?_eq_getElem hm,
      Vector.getElem?_eq_getElem (show l.length + m < 256 by omega), Option.some.injEq] at hbuf
    refine ⟨_, by rw [load_ok (show l.length + m < 256 by omega)]; rfl, ?_⟩
    rw [← hbuf, show l.length + m + 1 - l.length = m + 1 by omega, Nat.add_sub_cancel_left,
      List.take_succ_eq_append_getElem hm, putcs_append]
    rfl
  obtain ⟨con', h, hP⟩ := hloop
  rw [h, hP, show t.len - l.length = r.length by omega, List.take_length]

/-! ## One editing operation -/

theorem ttyBackspace_spec {t : Tty} {l : Line UInt8 TTY_BUF_SIZE} (h : Holds t l) (con : Console) :
    ∃ t', ttyBackspace ⟨t, con⟩ = .ok ⟨t', if t.echo then redraw l con .backspace else con⟩ ∧
      Holds t' l.backspace ∧ t'.echo = t.echo := by
  have hlen := h.len_le
  have hc := h.cursor
  have hl := h.len
  unfold ttyBackspace redraw
  by_cases h0 : l.left = []
  · have hc0 : t.cursor = 0 := by simp [hc, h0]
    refine ⟨t, by simp [hc0, h0], ⟨?_, ?_, ?_⟩, rfl⟩ <;> simp [Line.backspace, h0, h.line, h.cursor, h.len]
  · have hpos := List.length_pos_iff.2 h0
    obtain ⟨buf, hbuf, hget⟩ := closeGap_spec (show t.cursor - 1 ≤ t.len - 1 by omega)
      (show t.len - 1 < 256 by omega) t.buf
    have hline : (⟨buf, t.len - 1, t.cursor - 1, t.echo⟩ : Tty).line = l.left.dropLast ++ l.right := by
      refine line_eq (by simp; omega) fun k hk => ?_
      simp only at hk
      rw [hget, getElem?_delete l.right h0, hc]
      by_cases hk' : l.left.length - 1 ≤ k
      · rw [if_pos (by omega), if_pos hk', h.getElem? (by omega)]
      · rw [if_neg (by omega), if_neg hk', h.getElem? (by omega)]
    refine ⟨⟨buf, t.len - 1, t.cursor - 1, t.echo⟩, ?_, ⟨hline, ?_, ?_⟩, rfl⟩
    · simp only [show ¬ t.cursor = 0 by omega, if_false, sizeSub_ok (show 1 ≤ t.cursor by omega),
        sizeSub_ok (show 1 ≤ t.len by omega), ok_bind, hbuf, sizeSub_ok (show t.cursor - 1 ≤ t.len - 1 by omega), h0]
      cases he : t.echo
      · rfl
      · have hprint : t.len - 1 - (t.cursor - 1) + 1 = l.right.length + 1 := by omega
        rw [he] at hline
        rw [redrawTail_ok _ hline (by simp [hc]) (by simp; omega) (by simp only; omega)]
        simp only [ok_bind, pure_eq_ok, hprint, toInt32_sizeNeg (show l.right.length + 1 < 2 ^ 31 by omega),
          putcs_append]
        rfl
    · simp [Line.backspace, hc]
    · simp [Line.backspace]; omega

theorem ttyCursorLeft_spec {t : Tty} {l : Line UInt8 TTY_BUF_SIZE} (h : Holds t l) (con : Console) :
    ∃ t', ttyCursorLeft ⟨t, con⟩ = .ok ⟨t', if t.echo then redraw l con .moveLeft else con⟩ ∧
      Holds t' l.moveLeft ∧ t'.echo = t.echo := by
  have hc := h.cursor
  unfold ttyCursorLeft redraw
  rcases List.eq_nil_or_concat l.left with h0 | ⟨xs, x, h0⟩
  · refine ⟨t, by simp [hc, h0], ⟨?_, ?_, ?_⟩, rfl⟩ <;> simp [Line.moveLeft, h0, h.line, hc, h.len]
  · have hpos : 1 ≤ t.cursor := by simp [hc, h0]
    refine ⟨{ t with cursor := t.cursor - 1 }, ?_, ⟨?_, ?_, ?_⟩, rfl⟩
    · simp only [show t.cursor > 0 by omega, if_true, sizeSub_ok hpos, ok_bind, pure_eq_ok]
      rw [if_neg (show ¬ l.left = [] by simp [h0])]
      cases t.echo <;> rfl
    · show t.line = _
      simp [Line.moveLeft, h0, h.line]
    · simp [Line.moveLeft, h0, hc]
    · simp [Line.moveLeft, h0, h.len]; omega

theorem ttyCursorRight_spec {t : Tty} {l : Line UInt8 TTY_BUF_SIZE} (h : Holds t l) (con : Console) :
    ∃ t', ttyCursorRight ⟨t, con⟩ = .ok ⟨t', if t.echo then redraw l con .moveRight else con⟩ ∧
      Holds t' l.moveRight ∧ t'.echo = t.echo := by
  have hc := h.cursor
  have hl := h.len
  unfold ttyCursorRight redraw
  cases h0 : l.right with
  | nil =>
    have hge : ¬ t.cursor < t.len := by simp [hc, hl, h0]
    refine ⟨t, by simp [hge], ⟨?_, ?_, ?_⟩, rfl⟩ <;> simp [Line.moveRight, h0, h.line, hc, hl]
  | cons x xs =>
    have hlt : t.cursor < t.len := by simp [hc, hl, h0]
    refine ⟨{ t with cursor := t.cursor + 1 }, ?_, ⟨?_, ?_, ?_⟩, rfl⟩
    · simp only [hlt, if_true]
      rw [if_neg (List.cons_ne_nil x xs)]
      cases t.echo <;> rfl
    · show t.line = _
      simp [Line.moveRight, h0, h.line]
    · simp [Line.moveRight, h0, hc]
    · simp [Line.moveRight, h0, hl]; omega

theorem ttyInsertChar_spec {t : Tty} {l : Line UInt8 TTY_BUF_SIZE} (h : Holds t l) (con : Console) (c : UInt8) :
    ∃ t', ttyInsertChar c ⟨t, con⟩ = .ok ⟨t', if t.echo then redraw l con (.insert c) else con⟩ ∧
      Holds t' (l.insert c) ∧ t'.echo = t.echo := by
  have hc := h.cursor
  have hl := h.len
  have hlen : l.length = t.len := by rw [hl]; rfl
  unfold ttyInsertChar redraw
  by_cases hfull : t.len ≥ 256
  · refine ⟨t, ?_, ?_, rfl⟩
    · simp only [hfull, if_true, show ¬ l.length < 256 by omega, if_false]
      cases t.echo <;> rfl
    · rw [Line.insert_of_full (Nat.le_antisymm l.length_le (show 256 ≤ l.length by omega))]; exact h
  · have hlt : l.length < 256 := by omega
    obtain ⟨gap, hgap, hget⟩ := openGap_spec (show t.cursor ≤ t.len by omega) (show t.len < 256 by omega) t.buf
    have hcur : t.cursor < 256 := by omega
    have hline : (⟨gap.set t.cursor c, t.len + 1, t.cursor + 1, t.echo⟩ : Tty).line = l.left ++ [c] ++ l.right := by
      refine line_eq (by simp; omega) fun k hk => ?_
      simp only at hk
      rw [Vector.getElem?_set, hget, getElem?_insert]
      by_cases hk' : k = l.left.length
      · rw [if_pos (by omega), if_pos hk']
      · rw [if_neg (by omega), if_neg hk']
        by_cases hk'' : l.left.length < k
        · rw [if_pos (by omega), if_pos hk'', h.getElem? (by omega)]
        · rw [if_neg (by omega), if_neg hk'', h.getElem? (by omega)]
    refine ⟨⟨gap.set t.cursor c, t.len + 1, t.cursor + 1, t.echo⟩, ?_, ⟨?_, ?_, ?_⟩, rfl⟩
    · simp only [hfull, if_false, hgap, ok_bind, store_ok hcur, hlt, if_true]
      cases he : t.echo
      · rfl
      · rw [he] at hline
        have hback : t.len + 1 - (t.cursor + 1) = l.right.length := by omega
        simp only [if_true]
        rw [redrawTail_ok _ hline (by simp [hc]) (by simp; omega) (by simp only; omega)]
        simp only [ok_bind, pure_eq_ok, forUp_const, hback]
        rfl
    · rw [hline, Line.insert_left hlt, Line.insert_right]
    · simp [Line.insert_left hlt, hc]
    · simp [Line.insert_left hlt, Line.insert_right, hl]; omega

theorem ttyNewline_spec {t : Tty} {l : Line UInt8 TTY_BUF_SIZE} (con : Console) :
    ∃ t', ttyNewline ⟨t, con⟩ = .ok ⟨t', if t.echo then redraw l con .clear else con⟩ ∧
      Holds t' Line.empty ∧ t'.echo = t.echo :=
  ⟨{ t with len := 0, cursor := 0 }, rfl, ⟨by simp [Tty.line, Line.empty], rfl, rfl⟩, rfl⟩

/-- One key event edits the line as the editor does and echoes the edit when echo is on. -/
theorem ttyHandleKey_spec {t : Tty} {l : Line UInt8 TTY_BUF_SIZE} (h : Holds t l) (con : Console) (ev : KeyEvent) :
    ∃ t', ttyHandleKey ev ⟨t, con⟩ = .ok ⟨t', if t.echo then redraw l con (editOf ev) else con⟩ ∧
      Holds t' (l.apply (editOf ev)) ∧ t'.echo = t.echo := by
  have hkeep : ∃ t', (.ok ⟨t, con⟩ : Except Fault Terminal) = .ok ⟨t', if t.echo then redraw l con .keep else con⟩ ∧
      Holds t' (l.apply .keep) ∧ t'.echo = t.echo := ⟨t, by simp [redraw], h, rfl⟩
  obtain ⟨key, action, mods, ascii⟩ := ev
  unfold ttyHandleKey editOf
  cases action with
  | release => exact hkeep
  | press =>
    simp only [ne_eq, not_true, if_false, if_true]
    by_cases ha : ascii = 0
    · simp only [ha, not_true, if_false]
      cases key with
      | backspace => exact ttyBackspace_spec h con
      | left => exact ttyCursorLeft_spec h con
      | right => exact ttyCursorRight_spec h con
      | enter => exact ttyNewline_spec con
      | _ => exact hkeep
    · simp only [ha, not_false_eq_true, if_true]
      exact ttyInsertChar_spec h con ascii

/-! ## Runs of key events -/

/-- The editor's line after a list of key events. -/
def lineAfter (evs : List KeyEvent) : Line UInt8 TTY_BUF_SIZE := Line.empty.run (evs.map editOf)

theorem ttyActive_holds : Holds ttyActive Line.empty := ⟨by simp [Tty.line, ttyActive, Line.empty], rfl, rfl⟩

/-- Every run of key events succeeds and keeps the terminal line and the editor's line together. -/
theorem ttyRun_holds {t : Tty} {l : Line UInt8 TTY_BUF_SIZE} (h : Holds t l) (con : Console) (evs : List KeyEvent) :
    ∃ s, ttyRun evs ⟨t, con⟩ = .ok s ∧ Holds s.tty (l.run (evs.map editOf)) ∧ s.tty.echo = t.echo := by
  unfold Line.run
  rw [List.foldl_map]
  refine Run.foldlM_sim (fun (s : Terminal) (l : Line UInt8 TTY_BUF_SIZE) => Holds s.tty l ∧ s.tty.echo = t.echo)
    ?_ evs ⟨t, con⟩ l ⟨h, rfl⟩
  rintro s l ev ⟨hs, he⟩
  obtain ⟨t', h1, h2, h3⟩ := ttyHandleKey_spec hs s.con ev
  exact ⟨_, h1, h2, h3.trans he⟩

/-- From the boot state, whatever keys are handled: no `size_t` subtraction wraps and no index is
out of bounds (the run succeeds), `buf[0..len)` is the text of the editor's line, the cursor is
the length of its left part, and `cursor ≤ len ≤ 256`. -/
theorem tty_refines_editor (con : Console) (evs : List KeyEvent) :
    ∃ s, ttyRun evs ⟨ttyActive, con⟩ = .ok s ∧
      s.tty.line = (lineAfter evs).left ++ (lineAfter evs).right ∧
      s.tty.cursor = (lineAfter evs).left.length ∧
      s.tty.len = (lineAfter evs).left.length + (lineAfter evs).right.length ∧
      s.tty.cursor ≤ s.tty.len ∧ s.tty.len ≤ TTY_BUF_SIZE := by
  obtain ⟨s, hs, h, -⟩ := ttyRun_holds ttyActive_holds con evs
  refine ⟨s, hs, h.line, h.cursor, h.len, ?_, h.len_le⟩
  rw [h.cursor, h.len]
  exact Nat.le_add_right _ _

end SnakeOS.Term
