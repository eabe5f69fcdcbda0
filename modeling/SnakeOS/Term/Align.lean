/-
Whether the console cursor follows the terminal's. `console_move_cursor` stops at the ends of a
row, so the two stay together exactly as long as no edit takes the cursor back over a wrap:
`StaysOnRow` says which edits do not, and `aligned_iff` that a run keeps the cursors together
exactly when each of its edits is one of these.
-/
import SnakeOS.Term.Editor
import SnakeOS.Term.Position
import SnakeOS.Term.Window

namespace SnakeOS.Term

open C LineEdit

/-! ## What an edit draws on the active console -/

/-- `redraw` on the active console. -/
def redrawActive (l : Line UInt8 TTY_BUF_SIZE) (v : VgaConsole) : Edit UInt8 → VgaConsole
  | .insert c =>
    if l.length < TTY_BUF_SIZE then (moveCursorActive (-1) 0)^[l.right.length] (putcsActive (c :: l.right) v) else v
  | .backspace =>
    if l.left = [] then v
    else moveCursorActive (-(l.right.length + 1 : Nat)) 0 (putcsActive (l.right ++ [0x20]) (moveCursorActive (-1) 0 v))
  | .moveLeft => if l.left = [] then v else moveCursorActive (-1) 0 v
  | .moveRight => if l.right = [] then v else moveCursorActive 1 0 v
  | .clear => putcsActive (prompt.takeWhile (· ≠ 0)) v
  | .keep => v

theorem view_moveCursor_iterate (dx dy : Int) (n : Nat) (s : Console) :
    ((consoleMoveCursor dx dy)^[n] s).view = s.view.map (moveCursorActive dx dy)^[n] :=
  Console.view_iterate (moveCursorActive dx dy) n s

theorem view_redraw {con : Console} {v : VgaConsole} (h : con.view = some v) (l : Line UInt8 TTY_BUF_SIZE)
    (e : Edit UInt8) : (redraw l con e).view = some (redrawActive l v e) := by
  have hmove : ∀ dx dy (s : Console), (consoleMoveCursor dx dy s).view = s.view.map (moveCursorActive dx dy) :=
    fun dx dy s => Console.view_withActive _ s
  cases e with
  | insert c =>
    simp only [redraw, redrawActive]
    split
    · rw [view_moveCursor_iterate, view_putcs, h]; rfl
    · exact h
  | backspace =>
    simp only [redraw, redrawActive]
    split
    · exact h
    · rw [hmove, view_putcs, hmove, h]; rfl
  | moveLeft =>
    simp only [redraw, redrawActive]
    split
    · exact h
    · rw [hmove, h]; rfl
  | moveRight =>
    simp only [redraw, redrawActive]
    split
    · exact h
    · rw [hmove, h]; rfl
  | clear =>
    show (consoleWriteLoop prompt con).view = _
    rw [consoleWriteLoop_eq, view_putcs, h]; rfl
  | keep => exact h

/-! ## The console cursor after an edit -/

/-- The editor's edits that keep the console cursor with the terminal's, for a prompt at `p₀` and
the line `l` before the edit: what is printed and then moved back over is on one row. -/
def StaysOnRow (p₀ : Nat) (l : Line UInt8 TTY_BUF_SIZE) : Edit UInt8 → Prop
  | .insert c => l.length < TTY_BUF_SIZE →
      (c = 0x0A → (p₀ + l.cursor) % 80 = 79) ∧ 0x0A ∉ l.right ∧
      (p₀ + l.cursor + 1) / 80 = (p₀ + l.cursor + 1 + l.right.length) / 80
  | .backspace => l.left ≠ [] →
      0x0A ∉ l.right ∧ (p₀ + l.cursor - 1) / 80 = (p₀ + l.cursor + l.right.length) / 80
  | .moveLeft => l.left ≠ [] → (p₀ + l.cursor) % 80 ≠ 0
  | .moveRight => l.right ≠ [] → (p₀ + l.cursor) % 80 ≠ 79
  | .clear => True
  | .keep => True

/-- Only positions modulo the row width matter. -/
theorem staysOnRow_add (p₀ k : Nat) (l : Line UInt8 TTY_BUF_SIZE) (e : Edit UInt8) :
    StaysOnRow (p₀ + 80 * k) l e ↔ StaysOnRow p₀ l e := by
  have hpos : l.left ≠ [] → 0 < l.cursor := List.length_pos_iff.2
  cases e with
  | insert c =>
    simp only [StaysOnRow]
    rw [show p₀ + 80 * k + l.cursor = p₀ + l.cursor + 80 * k by omega, Nat.add_mul_mod_self_left]
    simp only [show ∀ n, (p₀ + l.cursor + 80 * k + 1 + n) / 80 = (p₀ + l.cursor + 1 + n) / 80 + k by omega,
      show (p₀ + l.cursor + 80 * k + 1) / 80 = (p₀ + l.cursor + 1) / 80 + k by omega, Nat.add_right_cancel_iff]
  | backspace =>
    refine imp_congr_right fun h => and_congr_right fun _ => ?_
    have := hpos h
    omega
  | moveLeft => exact imp_congr_right fun h => by omega
  | moveRight => exact imp_congr_right fun h => by omega
  | clear => exact Iff.rfl
  | keep => exact Iff.rfl

/-- Printing `cs` from `p` and moving back over all but its first character. -/
theorem back_insert_iff (c : UInt8) (r : List UInt8) (p : Nat) :
    back (advance (c :: r) p) r.length = p + 1 ↔
      (c = 0x0A → p % 80 = 79) ∧ 0x0A ∉ r ∧ (p + 1) / 80 = (p + 1 + r.length) / 80 := by
  have hnext : nextPos c p = p + 1 ↔ (c = 0x0A → p % 80 = 79) := by
    unfold nextPos
    by_cases hc : c = 0x0A
    · simp only [hc, if_true, true_imp_iff]; omega
    · simp [hc]
  rw [advance_cons, ← hnext]
  have hle := le_advance r (nextPos c p)
  have hlt := lt_nextPos c p
  constructor
  · intro h
    have hsub := sub_le_back (advance r (nextPos c p)) r.length
    have hn : nextPos c p = p + 1 := by omega
    have hrow := row_of_back_le (Nat.le_of_eq h)
    rw [hn] at hle hsub hrow h ⊢
    have hq : advance r (p + 1) = p + 1 + r.length := by omega
    exact ⟨rfl, not_mem_of_row (p := p + 1) (by omega), by omega⟩
  · rintro ⟨hn, hr, hrow⟩
    rw [hn, advance_of_not_mem hr, back_eq (by rw [Nat.add_sub_cancel]; omega), Nat.add_sub_cancel]

/-- Moving back over the deleted character, printing the tail and a blank and moving back. -/
theorem back_backspace_iff (r : List UInt8) {p : Nat} (hp : 0 < p) :
    back (advance (r ++ [0x20]) (back p 1)) (r.length + 1) = p - 1 ↔
      0x0A ∉ r ∧ (p - 1) / 80 = (p + r.length) / 80 := by
  have hle := le_advance (r ++ [0x20]) (back p 1)
  simp only [List.length_append, List.length_singleton] at hle
  constructor
  · intro h
    have hsub := sub_le_back (advance (r ++ [0x20]) (back p 1)) (r.length + 1)
    have hsub' := sub_le_back p 1
    have hb : back p 1 = p - 1 := by omega
    have hrow := row_of_back_le (Nat.le_of_eq h)
    rw [hb] at hle hsub hrow h
    have hq : advance (r ++ [0x20]) (p - 1) = p + r.length := by omega
    have hmem : 0x0A ∉ r ++ [0x20] := not_mem_of_row (p := p - 1) (by omega)
    exact ⟨fun h' => hmem (List.mem_append_left _ h'), by omega⟩
  · rintro ⟨hr, hrow⟩
    have hmem : 0x0A ∉ r ++ [0x20] := by simp [hr]
    rw [back_eq (q := p) (by omega), advance_of_not_mem hmem]
    simp only [List.length_append, List.length_singleton]
    rw [show p - 1 + (r.length + 1) = p + r.length by omega, back_eq (by omega)]
    omega

/-- From aligned cursors, an edit keeps them aligned exactly when it stays on a row. -/
theorem redrawActive_aligned {v : VgaConsole} (h : OnScreen v) {g : Nat} {l : Line UInt8 TTY_BUF_SIZE}
    (hg : v.paperPos = g + l.cursor) {e : Edit UInt8} (he : e ≠ .clear) :
    (redrawActive l v e).paperPos = g + (l.apply e).cursor ↔ StaysOnRow g l e := by
  have hb := l.bound
  cases e with
  | insert c =>
    simp only [redrawActive, StaysOnRow]
    by_cases hl : l.length < TTY_BUF_SIZE
    · obtain ⟨h1, h2⟩ := putcsActive_paperPos (c :: l.right) h
      rw [if_pos hl, (moveLeft_iterate h1 _).2, h2, hg]
      have hcur : g + (l.apply (.insert c)).cursor = g + l.cursor + 1 := by
        simp [Line.apply, Line.cursor, Line.insert_left hl]; omega
      rw [hcur, back_insert_iff]
      simp [hl]
    · rw [if_neg hl, hg, Line.apply, Line.insert, dif_neg hl]
      simp [hl]
  | backspace =>
    simp only [redrawActive, StaysOnRow]
    by_cases hl : l.left = []
    · simp [hl, hg, Line.apply, Line.backspace, Line.cursor]
    · obtain ⟨h1, h2⟩ := moveLeftOne_paperPos h
      obtain ⟨h3, h4⟩ := putcsActive_paperPos (l.right ++ [0x20]) h1
      have hpos := List.length_pos_iff.2 hl
      have hsmall : l.right.length + 1 < 2 ^ 31 := by simp only [TTY_BUF_SIZE] at hb; omega
      rw [if_neg hl, (moveLeft_paperPos h3 hsmall).2]
      have hcur : g + (l.apply .backspace).cursor = g + l.cursor - 1 := by
        simp [Line.apply, Line.cursor, Line.backspace]; omega
      rw [h4, h2, hg, hcur, back_backspace_iff _ (by unfold Line.cursor; omega)]
      simp [hl]
  | moveLeft =>
    simp only [redrawActive, StaysOnRow]
    by_cases hl : l.left = []
    · simp [hl, hg, Line.apply, Line.moveLeft, Line.cursor]
    · have hpos := List.length_pos_iff.2 hl
      have hcur : (l.apply .moveLeft).cursor = l.cursor - 1 := by simp [Line.apply, Line.cursor, Line.moveLeft]
      rw [if_neg hl, (moveLeftOne_paperPos h).2, hg, hcur]
      simp only [hl, not_false_eq_true, ne_eq, true_imp_iff]
      unfold back Line.cursor
      omega
  | moveRight =>
    simp only [redrawActive, StaysOnRow]
    cases hl : l.right with
    | nil => simp [hl, hg, Line.apply, Line.moveRight, Line.cursor]
    | cons x xs =>
      have hcur : (l.apply .moveRight).cursor = l.cursor + 1 := by simp [Line.apply, Line.cursor, Line.moveRight, hl]
      rw [if_neg (List.cons_ne_nil x xs), (moveRight_paperPos h).2, hg, hcur]
      simp only [ne_eq, List.cons_ne_nil, not_false_eq_true, true_imp_iff]
      split <;> omega
  | clear => exact absurd rfl he
  | keep => simp [redrawActive, StaysOnRow, hg, Line.apply]

theorem redrawActive_onScreen {v : VgaConsole} (h : OnScreen v) (l : Line UInt8 TTY_BUF_SIZE) (e : Edit UInt8) :
    OnScreen (redrawActive l v e) := by
  have hb := l.bound
  cases e with
  | insert c =>
    simp only [redrawActive]
    split
    · exact (moveLeft_iterate (putcsActive_paperPos _ h).1 _).1
    · exact h
  | backspace =>
    simp only [redrawActive]
    split
    · exact h
    · have hsmall : l.right.length + 1 < 2 ^ 31 := by simp only [TTY_BUF_SIZE] at hb; omega
      exact (moveLeft_paperPos (putcsActive_paperPos _ (moveLeftOne_paperPos h).1).1 hsmall).1
  | moveLeft =>
    simp only [redrawActive]
    split
    · exact h
    · exact (moveLeftOne_paperPos h).1
  | moveRight =>
    simp only [redrawActive]
    split
    · exact h
    · exact (moveRight_paperPos h).1
  | clear => exact (putcsActive_paperPos _ h).1
  | keep => exact h

/-! ## Runs from a prompt -/

/-- A prompt has just been written: the line is empty, echo is on and the cursor of the active
console, `v`, is on the screen. -/
structure AtPrompt (s : Terminal) (v : VgaConsole) : Prop where
  len : s.tty.len = 0
  cursor : s.tty.cursor = 0
  echo : s.tty.echo = true
  view : s.con.view = some v
  screen : OnScreen v

/-- The console cursor is `tty_active.cursor` positions after the prompt `v`, less a row for each
`vga_scroll_up` since. -/
def Aligned (v : VgaConsole) (s : Terminal) : Prop :=
  ∃ w, s.con.view = some w ∧ (w.pos : Int) = v.pos - 80 * ((w.vga.scrolls : Int) - v.vga.scrolls) + s.tty.cursor

/-- What holds after any key events: the terminal line is the editor's, and the active console is
`w`, with its cursor on the screen. -/
structure Echoes (s : Terminal) (l : Line UInt8 TTY_BUF_SIZE) (w : VgaConsole) : Prop where
  holds : Holds s.tty l
  echo : s.tty.echo = true
  view : s.con.view = some w
  screen : OnScreen w

theorem AtPrompt.echoes {s : Terminal} {v : VgaConsole} (h : AtPrompt s v) : Echoes s Line.empty v :=
  ⟨⟨by simp [Tty.line, h.len, Line.empty], h.cursor, h.len⟩, h.echo, h.view, h.screen⟩

theorem Echoes.step {s : Terminal} {l : Line UInt8 TTY_BUF_SIZE} {w : VgaConsole} (h : Echoes s l w) (ev : KeyEvent) :
    ∃ s', ttyHandleKey ev s = .ok s' ∧ Echoes s' (l.apply (editOf ev)) (redrawActive l w (editOf ev)) := by
  obtain ⟨t', hrun, hholds, hecho⟩ := ttyHandleKey_spec h.holds s.con ev
  rw [if_pos h.echo] at hrun
  exact ⟨_, hrun, hholds, hecho.trans h.echo, view_redraw h.view l _, redrawActive_onScreen h.screen l _⟩

theorem Echoes.run {s : Terminal} {v : VgaConsole} (h : Echoes s Line.empty v) (evs : List KeyEvent) :
    ∃ s' w, ttyRun evs s = .ok s' ∧ Echoes s' (lineAfter evs) w := by
  have hrun : ∃ s', ttyRun evs s = .ok s' ∧ ∃ w, Echoes s' (evs.foldl (fun l ev => l.apply (editOf ev)) Line.empty) w :=
    Run.foldlM_sim (fun s l => ∃ w, Echoes s l w)
      (fun s l ev ⟨w, hw⟩ => (hw.step ev).imp fun s' h' => ⟨h'.1, _, h'.2⟩) evs s Line.empty ⟨v, h⟩
  obtain ⟨s', hs', w, hw⟩ := hrun
  refine ⟨s', w, hs', ?_⟩
  unfold lineAfter Line.run
  rw [List.foldl_map]
  exact hw

theorem Echoes.aligned_iff {s : Terminal} {l : Line UInt8 TTY_BUF_SIZE} {v w : VgaConsole} (h : Echoes s l w) :
    Aligned v s ↔ w.paperPos = v.paperPos + l.cursor := by
  have hpos : Aligned v s ↔
      (w.pos : Int) = v.pos - 80 * ((w.vga.scrolls : Int) - v.vga.scrolls) + s.tty.cursor := by
    constructor
    · rintro ⟨w', hw', hpos⟩
      obtain rfl := Option.some.inj (h.view.symm.trans hw')
      exact hpos
    · exact fun hpos => ⟨w, h.view, hpos⟩
  rw [hpos, h.holds.cursor]
  unfold VgaConsole.paperPos Line.cursor
  omega

/-- The cursors are aligned after some key events. -/
def AlignedAfter (s : Terminal) (v : VgaConsole) (evs : List KeyEvent) : Prop :=
  ∃ s', ttyRun evs s = .ok s' ∧ Aligned v s'

theorem alignedAfter_nil {s : Terminal} {v : VgaConsole} (h : AtPrompt s v) : AlignedAfter s v [] :=
  ⟨s, rfl, (h.echoes.aligned_iff).2 rfl⟩

/-- One more key event, not Enter, keeps aligned cursors aligned exactly when its edit stays on a row. -/
theorem alignedAfter_snoc {s : Terminal} {v : VgaConsole} (h : AtPrompt s v) {pre : List KeyEvent} {ev : KeyEvent}
    (hev : editOf ev ≠ .clear) (ha : AlignedAfter s v pre) :
    AlignedAfter s v (pre ++ [ev]) ↔ StaysOnRow v.pos (lineAfter pre) (editOf ev) := by
  obtain ⟨s₁, w, hrun, hw⟩ := h.echoes.run pre
  obtain ⟨s₂, hstep, hw'⟩ := hw.step ev
  have hrun' : ttyRun (pre ++ [ev]) s = .ok s₂ := (Run.foldlM_snoc hrun ev).trans hstep
  have hpos : w.paperPos = v.paperPos + (lineAfter pre).cursor := by
    obtain ⟨s', hs', ha'⟩ := ha
    obtain rfl := Except.ok.inj (hrun.symm.trans hs')
    exact hw.aligned_iff.1 ha'
  have hafter : AlignedAfter s v (pre ++ [ev]) ↔ Aligned v s₂ := by
    constructor
    · rintro ⟨s', hs', ha'⟩
      obtain rfl := Except.ok.inj (hrun'.symm.trans hs')
      exact ha'
    · exact fun ha' => ⟨s₂, hrun', ha'⟩
  rw [hafter, hw'.aligned_iff, redrawActive_aligned hw.screen hpos hev]
  exact staysOnRow_add _ _ _ _

/-- From a prompt, as long as Enter is not pressed: the console cursor stays aligned with the
terminal's along a run exactly when every edit of the run stays on a row. -/
theorem cursor_aligned_iff (s : Terminal) (v : VgaConsole) (h : AtPrompt s v) (evs : List KeyEvent)
    (hevs : ∀ ev ∈ evs, editOf ev ≠ .clear) :
    (∀ pre, pre <+: evs → ∃ s', ttyRun pre s = .ok s' ∧ Aligned v s') ↔
      ∀ pre ev, pre ++ [ev] <+: evs → StaysOnRow v.pos (lineAfter pre) (editOf ev) :=
  Run.forall_prefix_iff (alignedAfter_nil h) fun _ ev hp =>
    alignedAfter_snoc h (hevs ev (hp.subset (List.mem_append_right _ (List.mem_singleton_self ev))))

/-! ## A line that wraps -/

/-- The terminal at the first prompt after boot. -/
def bootPrompt : Terminal := ⟨ttyActive, consoleWrite (some prompt) (consoleInit Console.boot Timer.boot).1⟩

def pressA : KeyEvent := ⟨.a, .press, 0, 0x61⟩

def pressLeft : KeyEvent := ⟨.left, .press, 0, 0⟩

theorem bootPrompt_atPrompt : ∃ v, AtPrompt bootPrompt v ∧ v.con.row = 1 ∧ v.con.col = 10 := by
  obtain ⟨v, hv, hw⟩ := Cleared.window (.inl ⟨Console.boot, Timer.boot, rfl⟩)
  have hprompt := Run.foldl_sim Window (fun v p c h => h.putc c) (prompt.takeWhile (· ≠ 0)) v Paper.blank hw
  have hcol : (Paper.write 80 0x0A Paper.blank (prompt.takeWhile (· ≠ 0))).col = 10 := by decide
  refine ⟨_, ⟨rfl, rfl, rfl, ?_, hprompt.onScreen⟩, ?_, hprompt.col.trans hcol⟩
  · show (consoleWriteLoop prompt _).view = _
    rw [consoleWriteLoop_eq, view_putcs, hv]; rfl
  · have htop : ((prompt.takeWhile (· ≠ 0)).foldl (Paper.put 80 0x0A) Paper.blank).top 25 = 0 := by decide
    have hrow : ((prompt.takeWhile (· ≠ 0)).foldl (Paper.put 80 0x0A) Paper.blank).row = 1 := by decide
    have hwin := hprompt.row
    rwa [htop, hrow] at hwin

/-- One typed letter is echoed on the prompt's row. -/
theorem cursor_aligned_iff_letter : ∃ v, AtPrompt bootPrompt v ∧
    ∀ pre, pre <+: [pressA] → ∃ s', ttyRun pre bootPrompt = .ok s' ∧ Aligned v s' := by
  obtain ⟨v, hv, hr, hc⟩ := bootPrompt_atPrompt
  refine ⟨v, hv, (cursor_aligned_iff bootPrompt v hv [pressA] (by simp [editOf, pressA])).2 fun pre ev hp => ?_⟩
  have hlen := hp.length_le
  simp only [List.length_append, List.length_singleton] at hlen
  obtain rfl := List.eq_nil_of_length_eq_zero (show pre.length = 0 by omega)
  obtain rfl : ev = pressA := by simpa using hp
  have hpos : v.pos = 90 := by unfold VgaConsole.pos; omega
  rw [hpos]
  exact fun _ => ⟨by decide, by decide, by decide⟩

/-- The 71st key after the boot prompt, a move back over the wrap at column 80, leaves the
console cursor behind. -/
theorem cursor_not_aligned : ¬ ∀ s v, AtPrompt s v → ∀ evs, (∀ ev ∈ evs, editOf ev ≠ .clear) →
    ∃ s', ttyRun evs s = .ok s' ∧ Aligned v s' := by
  intro hall
  obtain ⟨v, hv, hr, hc⟩ := bootPrompt_atPrompt
  have hpos : v.pos = 90 := by unfold VgaConsole.pos; omega
  have hletters : ∀ ev ∈ List.replicate 70 pressA, editOf ev ≠ .clear := by
    intro ev hev
    rw [List.eq_of_mem_replicate hev]
    decide
  have hwrap : ∀ ev ∈ List.replicate 70 pressA ++ [pressLeft], editOf ev ≠ .clear := by
    intro ev hev
    rcases List.mem_append.1 hev with hev | hev
    · exact hletters ev hev
    · rw [List.mem_singleton.1 hev]; decide
  have hleft : editOf pressLeft ≠ .clear := by decide
  have hstay := (alignedAfter_snoc hv hleft (hall _ v hv _ hletters)).1 (hall _ v hv _ hwrap)
  have hcur : (lineAfter (List.replicate 70 pressA)).cursor = 70 := by decide +kernel
  refine hstay ?_ ?_
  · rw [← List.length_pos_iff]
    show 0 < (lineAfter (List.replicate 70 pressA)).cursor
    rw [hcur]; decide
  · rw [hpos, hcur]

end SnakeOS.Term
