/-
The rows of the screen while lines are typed: the cursor's row shows the prompt, the line and blanks,
and a submitted line stays as it was when Enter was pressed. Lines are short enough that nothing
typed on a row leaves it.
-/
import Mathlib.Data.List.GetD
import Mathlib.Data.List.Infix
import SnakeOS.Term.Committed
import SnakeOS.Term.Keyboard

namespace SnakeOS.Term

open C LineEdit

/-! ## Rows -/

/-- `"<SnakeOS> "`. -/
def promptText : List UInt8 := prompt.tail

/-- A row of the screen shows a text and blanks after it. -/
def RowShows (v : VgaConsole) (i : Nat) (cs : List UInt8) : Prop :=
  ∀ j < 80, v.vga.memory (80 * i + j) = cellOf (cs.getD j 0x20)

/-- The rows below the cursor's are blank. -/
def BlankBelow (v : VgaConsole) : Prop := ∀ k, 80 * (v.con.row + 1) ≤ k → k < 2000 → v.vga.memory k = blank

theorem RowShows.of_blank {v : VgaConsole} {i : Nat} {cs : List UInt8} (h : RowShows v i (cs ++ [0x20])) :
    RowShows v i cs := by
  intro j hj
  rw [h j hj]
  congr 1
  rcases Nat.lt_trichotomy j cs.length with hlt | rfl | hgt
  · rw [List.getD_append _ _ _ _ hlt]
  · simp
  · rw [List.getD_eq_default _ _ (by simp; omega), List.getD_eq_default _ _ (by omega)]

/-- A row that is kept still shows its text, moved up by the scrolls since. -/
theorem Kept.rowShows {p i : Nat} {v w : VgaConsole} (h : Kept p v w) {cs : List UInt8} (hi : RowShows v i cs)
    (hp : 80 * (i + 1) ≤ p) (hs : w.vga.scrolls ≤ v.vga.scrolls + i) :
    RowShows w (i + v.vga.scrolls - w.vga.scrolls) cs := by
  intro j hj
  have hle := h.scrolls
  have hkept := h.cells (80 * i + j) (by omega) (by omega)
  rw [← hi j hj, ← hkept]
  congr 1
  omega

/-! ## Printing within a row -/

/-- Printing a text that ends before the last column changes the cells it is printed on. -/
theorem putcsActive_row : ∀ (cs : List UInt8) {v : VgaConsole}, OnScreen v → 0x0A ∉ cs →
    v.con.col + cs.length < 80 →
    OnScreen (putcsActive cs v) ∧ (putcsActive cs v).con.row = v.con.row ∧
      (putcsActive cs v).con.col = v.con.col + cs.length ∧ (putcsActive cs v).vga.scrolls = v.vga.scrolls ∧
      ∀ k < 2000, (putcsActive cs v).vga.memory k =
        if v.pos ≤ k ∧ k < v.pos + cs.length then cellOf (cs.getD (k - v.pos) 0x20) else v.vga.memory k
  | [], v, h, _, _ => ⟨h, rfl, rfl, rfl, fun k _ => (if_neg (by simp)).symm⟩
  | c :: cs, v, h, hnl, hlen => by
    obtain ⟨hc, hnl⟩ := not_or.1 (fun hm => hnl (List.mem_cons.2 hm))
    simp only [List.length_cons] at hlen
    obtain ⟨hon, hpos, hscr, hmem⟩ := putcActive_spec h c
    have hrow := h.row
    have hcol := hon.col
    have hv : v.pos = 80 * v.con.row + v.con.col := rfl
    have hw : (putcActive c v).pos = 80 * (putcActive c v).con.row + (putcActive c v).con.col := rfl
    have hnext : nextPos c v.pos = v.pos + 1 := nextPos_of_ne (Ne.symm hc) _
    have hzero : scrollsAt c v.pos = 0 := if_pos (by omega)
    rw [hzero] at hpos hscr hmem
    simp only [Nat.mul_zero, Nat.add_zero] at hmem
    obtain ⟨hon', hrow', hcol', hscr', hmem'⟩ := putcsActive_row cs hon hnl (by omega)
    refine ⟨hon', ?_, ?_, ?_, ?_⟩
    · show (putcsActive cs (putcActive c v)).con.row = _
      omega
    · show (putcsActive cs (putcActive c v)).con.col = _
      simp only [List.length_cons]
      omega
    · exact hscr'.trans hscr
    · intro k hk
      refine (hmem' k hk).trans ?_
      rw [hmem k hk, show (putcActive c v).pos = v.pos + 1 by omega]
      unfold storeAt
      rw [if_pos hk]
      simp only [List.length_cons]
      rcases Nat.lt_trichotomy k v.pos with hlt | rfl | hgt
      · rw [if_neg (by omega), if_neg (by omega), if_neg (by omega)]
      · rw [if_neg (by omega), if_pos ⟨Ne.symm hc, rfl⟩, if_pos (by omega), Nat.sub_self]
        rfl
      · by_cases hin : k < v.pos + (cs.length + 1)
        · rw [if_pos (by omega), if_pos (by omega), show k - v.pos = k - (v.pos + 1) + 1 by omega]
          rfl
        · rw [if_neg (by omega), if_neg (by omega), if_neg (by omega)]

/-- A cursor movement to the left. -/
theorem moveLeft_row {v : VgaConsole} (h : OnScreen v) {n : Nat} (hn : n < 2 ^ 31) :
    (moveCursorActive (-n) 0 v).con.row = v.con.row ∧ (moveCursorActive (-n) 0 v).con.col = v.con.col - n := by
  rw [moveCursorActive_left h hn]
  exact ⟨rfl, rfl⟩

/-! ## The row of the cursor -/

/-- What is drawn from `w` to `w'` is on the cursor's row. -/
structure OnRow (w w' : VgaConsole) : Prop where
  row : w'.con.row = w.con.row
  scrolls : w'.vga.scrolls = w.vga.scrolls
  other : ∀ k < 2000, k / 80 ≠ w.con.row → w'.vga.memory k = w.vga.memory k

theorem OnRow.refl (w : VgaConsole) : OnRow w w := ⟨rfl, rfl, fun _ _ _ => rfl⟩

theorem OnRow.trans {u v w : VgaConsole} (h : OnRow u v) (h' : OnRow v w) : OnRow u w := by
  refine ⟨h'.row.trans h.row, h'.scrolls.trans h.scrolls, fun k hk hne => ?_⟩
  rw [h'.other k hk (by rw [h.row]; exact hne), h.other k hk hne]

/-- The cursor is in column `col` of a row that shows `cs`, over blank rows. -/
structure Shows (w : VgaConsole) (col : Nat) (cs : List UInt8) : Prop where
  screen : OnScreen w
  col : w.con.col = col
  row : RowShows w w.con.row cs
  below : BlankBelow w

/-- Moving the cursor within the row. -/
theorem Shows.moved {w w' : VgaConsole} {col col' : Nat} {cs : List UInt8} (h : Shows w col cs) (hon : OnScreen w')
    (hvga : w'.vga = w.vga) (hrow : w'.con.row = w.con.row) (hcol : w'.con.col = col') :
    Shows w' col' cs ∧ OnRow w w' := by
  have hshow := h.row
  have hbelow := h.below
  unfold RowShows at hshow
  unfold BlankBelow at hbelow
  rw [← hvga, ← hrow] at hshow hbelow
  exact ⟨⟨hon, hcol, hshow, hbelow⟩, hrow, congrArg Vga.scrolls hvga, fun k _ _ => by rw [hvga]⟩

theorem Shows.left {w : VgaConsole} {col : Nat} {cs : List UInt8} (h : Shows w col cs) {n : Nat} (hn : n < 2 ^ 31) :
    Shows (moveCursorActive (-n) 0 w) (col - n) cs ∧ OnRow w (moveCursorActive (-n) 0 w) := by
  obtain ⟨hrow, hcol⟩ := moveLeft_row h.screen hn
  exact h.moved (moveLeft_paperPos h.screen hn).1 (moveCursorActive_vga ..) hrow (by rw [hcol, h.col])

theorem Shows.leftOne {w : VgaConsole} {col : Nat} {cs : List UInt8} (h : Shows w col cs) :
    Shows (moveCursorActive (-1) 0 w) (col - 1) cs ∧ OnRow w (moveCursorActive (-1) 0 w) :=
  h.left (n := 1) (by omega)

theorem Shows.leftTimes {w : VgaConsole} {col : Nat} {cs : List UInt8} (h : Shows w col cs) (n : Nat) :
    Shows ((moveCursorActive (-1) 0)^[n] w) (col - n) cs ∧ OnRow w ((moveCursorActive (-1) 0)^[n] w) := by
  induction n with
  | zero => exact ⟨h, OnRow.refl w⟩
  | succ n ih =>
    rw [Function.iterate_succ_apply']
    exact ⟨ih.1.leftOne.1, ih.2.trans ih.1.leftOne.2⟩

theorem Shows.right {w : VgaConsole} {col : Nat} {cs : List UInt8} (h : Shows w col cs) (hcol : col < 79) :
    Shows (moveCursorActive 1 0 w) (col + 1) cs ∧ OnRow w (moveCursorActive 1 0 w) := by
  have hmove := moveCursorActive_right h.screen
  refine h.moved (moveRight_paperPos h.screen).1 (moveCursorActive_vga ..) ?_ ?_
  · rw [hmove]
  · rw [hmove]
    simp only [h.col]
    omega

/-- Printing over the end of the row's text. -/
theorem Shows.print {w : VgaConsole} {a b : List UInt8} (h : Shows w a.length (a ++ b)) (cs : List UInt8)
    (hlen : b.length ≤ cs.length) (hnl : 0x0A ∉ cs) (hfit : a.length + cs.length < 80) :
    Shows (putcsActive cs w) (a.length + cs.length) (a ++ cs) ∧ OnRow w (putcsActive cs w) := by
  obtain ⟨hon, hrow, hcol, hscr, hmem⟩ := putcsActive_row cs h.screen hnl (by rw [h.col]; exact hfit)
  have hr := h.screen.row
  have hpos : w.pos = 80 * w.con.row + a.length := by rw [← h.col]; rfl
  have hother : ∀ k < 2000, k / 80 ≠ w.con.row → (putcsActive cs w).vga.memory k = w.vga.memory k := by
    intro k hk hne
    rw [hmem k hk, if_neg (by omega)]
  refine ⟨⟨hon, by rw [hcol, h.col], ?_, ?_⟩, hrow, hscr, hother⟩
  · intro j hj
    rw [hrow, hmem _ (by omega), hpos]
    by_cases hin : a.length ≤ j ∧ j < a.length + cs.length
    · rw [if_pos (by omega), List.getD_append_right _ _ _ _ hin.1]
      congr 2
      omega
    · rw [if_neg (by omega), h.row j hj]
      congr 1
      rcases Nat.lt_or_ge j a.length with hlt | hge
      · rw [List.getD_append _ _ _ _ hlt, List.getD_append _ _ _ _ hlt]
      · rw [List.getD_eq_default _ _ (by simp; omega), List.getD_eq_default _ _ (by simp; omega)]
  · intro k hk hlt
    rw [hrow] at hk
    rw [hother k hlt (by omega)]
    exact h.below k hk hlt

/-- A newline leaves the row for a blank one. -/
theorem Shows.newline {w : VgaConsole} {col : Nat} {cs : List UInt8} (h : Shows w col cs) :
    Shows (putcActive 0x0A w) 0 [] ∧
      (putcActive 0x0A w).con.row + (putcActive 0x0A w).vga.scrolls = w.con.row + w.vga.scrolls + 1 ∧
      Kept (80 * (w.con.row + 1)) w (putcActive 0x0A w) := by
  obtain ⟨hon, hpos, hscr, hmem⟩ := putcActive_spec h.screen 0x0A
  have hnext : nextPos 0x0A w.pos = 80 * (w.con.row + 1) := by
    rw [← h.screen.pos_div]
    exact if_pos rfl
  have hr := h.screen.row
  have hcol := hon.col
  have hw : (putcActive 0x0A w).pos = 80 * (putcActive 0x0A w).con.row + (putcActive 0x0A w).con.col := rfl
  rw [hnext] at hpos
  -- no cell is stored to, so from the next row on all is blank
  have hstore : ∀ k, storeAt 0x0A w k = if k < 2000 then w.vga.memory k else blank := by
    intro k
    unfold storeAt
    rw [if_neg (by simp)]
  have hblank : ∀ k, 80 * (putcActive 0x0A w).con.row ≤ k → k < 2000 →
      (putcActive 0x0A w).vga.memory k = blank := by
    intro k hk hlt
    rw [hmem k hlt, hstore]
    split
    · exact h.below _ (by omega) ‹_›
    · rfl
  refine ⟨⟨hon, by omega, fun j hj => ?_, fun k hk hlt => hblank k (by omega) hlt⟩, by omega, by omega, ?_⟩
  · have hr' := hon.row
    exact hblank _ (by omega) (by omega)
  · intro k hk hge
    rw [hscr, Nat.add_sub_cancel_left] at hge ⊢
    rw [hmem _ (by omega), hstore, Nat.sub_add_cancel hge, if_pos (by omega)]

/-! ## The line on the cursor's row -/

theorem promptText_length : promptText.length = 10 := rfl

/-- The row shows the prompt and the line, with the console cursor at the terminal's. -/
structure Typed (w : VgaConsole) (l : Line UInt8 TTY_BUF_SIZE) : Prop where
  shows : Shows w (10 + l.cursor) (promptText ++ (l.left ++ l.right))
  plain : 0x0A ∉ l.left ++ l.right

/-- The row split at the terminal's cursor. -/
theorem Typed.split {w : VgaConsole} {l : Line UInt8 TTY_BUF_SIZE} (h : Typed w l) :
    Shows w (promptText ++ l.left).length ((promptText ++ l.left) ++ l.right) := by
  rw [List.append_assoc, List.length_append]
  exact h.shows

theorem Typed.insert {w : VgaConsole} {l : Line UInt8 TTY_BUF_SIZE} (h : Typed w l) {c : UInt8} (hc : c ≠ 0x0A)
    (hlen : (l.insert c).length ≤ 69) :
    Typed (redrawActive l w (.insert c)) (l.insert c) ∧ OnRow w (redrawActive l w (.insert c)) := by
  have hl : l.length < 256 := by
    by_contra hge
    rw [Line.insert, dif_neg hge] at hlen
    omega
  have hleft : (l.insert c).left = l.left ++ [c] := Line.insert_left hl
  have hright : (l.insert c).right = l.right := Line.insert_right
  have hplain := h.plain
  unfold Line.length at hlen
  simp only [hleft, hright, List.length_append, List.length_singleton] at hlen
  simp only [List.mem_append, not_or] at hplain
  obtain ⟨hprint, hon₁⟩ := h.split.print (c :: l.right) (by simp) (by simp [Ne.symm hc, hplain.2])
    (by simp only [List.length_append, List.length_cons, promptText_length]; omega)
  obtain ⟨hmove, hon₂⟩ := hprint.leftTimes l.right.length
  simp only [redrawActive]
  rw [if_pos hl]
  refine ⟨⟨?_, ?_⟩, hon₁.trans hon₂⟩
  · have hcol : (promptText ++ l.left).length + (c :: l.right).length - l.right.length = 10 + (l.insert c).cursor := by
      simp only [Line.cursor, hleft, List.length_append, List.length_cons, List.length_nil, promptText_length]
      omega
    rw [hcol] at hmove
    simpa [hleft, hright] using hmove
  · simp [hleft, hright, hplain, Ne.symm hc]

theorem Typed.backspace {w : VgaConsole} {l : Line UInt8 TTY_BUF_SIZE} (h : Typed w l) (hlen : l.length ≤ 69) :
    Typed (redrawActive l w .backspace) l.backspace ∧ OnRow w (redrawActive l w .backspace) := by
  simp only [redrawActive]
  rcases List.eq_nil_or_concat l.left with hl | ⟨xs, x, hl⟩
  · have hsame : l.backspace = l := by
      cases l
      simp_all [Line.backspace]
    rw [if_pos hl, hsame]
    exact ⟨h, OnRow.refl w⟩
  · have hleft : l.backspace.left = xs := by simp [Line.backspace, hl]
    have hright : l.backspace.right = l.right := rfl
    have hplain := h.plain
    have hsplit := h.split
    simp only [hl, List.concat_eq_append, List.mem_append, List.mem_singleton, not_or] at hplain
    simp only [Line.length, hl, List.length_concat] at hlen
    obtain ⟨hback, hon₁⟩ := hsplit.leftOne
    -- the deleted character is printed over by what is right of it, and a blank takes the last place
    have hcol : (promptText ++ l.left).length - 1 = (promptText ++ xs).length := by simp [hl]
    have htext : promptText ++ l.left ++ l.right = (promptText ++ xs) ++ (x :: l.right) := by simp [hl]
    rw [hcol, htext] at hback
    obtain ⟨hprint, hon₂⟩ := hback.print (l.right ++ [0x20]) (by simp) (by simp [hplain.2])
      (by simp only [List.length_append, List.length_singleton, promptText_length]; omega)
    obtain ⟨hmove, hon₃⟩ := hprint.left (n := l.right.length + 1) (by omega)
    rw [if_neg (by simp [hl])]
    refine ⟨⟨⟨hmove.screen, ?_, ?_, hmove.below⟩, ?_⟩, (hon₁.trans hon₂).trans hon₃⟩
    · rw [hmove.col]
      simp only [Line.cursor, hleft, List.length_append, List.length_singleton, promptText_length]
      omega
    · rw [hleft, hright]
      refine RowShows.of_blank ?_
      simpa using hmove.row
    · rw [hleft, hright]
      simp [hplain]

theorem Typed.moveLeft {w : VgaConsole} {l : Line UInt8 TTY_BUF_SIZE} (h : Typed w l) :
    Typed (redrawActive l w .moveLeft) l.moveLeft ∧ OnRow w (redrawActive l w .moveLeft) := by
  simp only [redrawActive]
  rcases List.eq_nil_or_concat l.left with hl | ⟨xs, x, hl⟩
  · have hsame : l.moveLeft = l := by
      cases l
      simp_all [Line.moveLeft]
    rw [if_pos hl, hsame]
    exact ⟨h, OnRow.refl w⟩
  · have htext : l.moveLeft.left ++ l.moveLeft.right = l.left ++ l.right := by simp [Line.moveLeft, hl]
    have hcol : 10 + l.cursor - 1 = 10 + l.moveLeft.cursor := by
      simp only [Line.cursor, Line.moveLeft, hl, List.concat_eq_append, List.length_append, List.length_singleton,
        List.dropLast_concat]
      omega
    have hmove := h.shows.leftOne
    rw [if_neg (by simp [hl])]
    rw [hcol] at hmove
    refine ⟨⟨?_, ?_⟩, hmove.2⟩
    · rw [htext]
      exact hmove.1
    · rw [htext]
      exact h.plain

theorem Typed.moveRight {w : VgaConsole} {l : Line UInt8 TTY_BUF_SIZE} (h : Typed w l) (hlen : l.length ≤ 69) :
    Typed (redrawActive l w .moveRight) l.moveRight ∧ OnRow w (redrawActive l w .moveRight) := by
  simp only [redrawActive]
  cases hl : l.right with
  | nil =>
    have hsame : l.moveRight = l := by
      cases l
      simp_all [Line.moveRight]
    rw [if_pos rfl, hsame]
    exact ⟨h, OnRow.refl w⟩
  | cons x xs =>
    have htext : l.moveRight.left ++ l.moveRight.right = l.left ++ l.right := by simp [Line.moveRight, hl]
    have hcol : 10 + l.cursor + 1 = 10 + l.moveRight.cursor := by
      simp [Line.cursor, Line.moveRight, hl]
      omega
    have hroom : 10 + l.cursor < 79 := by
      simp only [Line.length, hl, List.length_cons] at hlen
      unfold Line.cursor
      omega
    have hmove := h.shows.right hroom
    rw [if_neg (List.cons_ne_nil x xs)]
    rw [hcol] at hmove
    refine ⟨⟨?_, ?_⟩, hmove.2⟩
    · rw [htext]
      exact hmove.1
    · rw [htext]
      exact h.plain

/-- Writing a prompt leaves the row for the next one. -/
theorem Shows.prompt {w : VgaConsole} {col : Nat} {cs : List UInt8} (h : Shows w col cs) :
    Shows (putcsActive (prompt.takeWhile (· ≠ 0)) w) 10 promptText ∧
      ∃ w₁, OnScreen w₁ ∧ OnRow w₁ (putcsActive (prompt.takeWhile (· ≠ 0)) w) ∧
        w₁.con.row + w₁.vga.scrolls = w.con.row + w.vga.scrolls + 1 ∧ Kept (80 * (w.con.row + 1)) w w₁ := by
  obtain ⟨hnl, hrow, hkept⟩ := h.newline
  obtain ⟨hprint, hon⟩ := Shows.print (a := []) (b := []) hnl promptText (by simp) (by decide) (by decide)
  exact ⟨hprint, _, hnl.screen, hon, hrow, hkept⟩

/-! ## One key -/

theorem OnRow.kept {w w' : VgaConsole} (h : OnRow w w') (hon : OnScreen w) : Kept (80 * w.con.row) w w' := by
  have hr := hon.row
  refine ⟨Nat.le_of_eq h.scrolls.symm, fun k hk _ => ?_⟩
  rw [h.scrolls, Nat.sub_self, Nat.mul_zero, Nat.sub_zero]
  exact h.other k (by omega) (by omega)

theorem Kept.trans {p q : Nat} {u v w : VgaConsole} (h : Kept p u v) (h' : Kept q v w)
    (hpq : p + 80 * u.vga.scrolls ≤ q + 80 * v.vga.scrolls) : Kept p u w := by
  have hs := h.scrolls
  have hs' := h'.scrolls
  refine ⟨by omega, fun k hk hge => ?_⟩
  rw [← h.cells k hk (by omega), ← h'.cells (k - 80 * (v.vga.scrolls - u.vga.scrolls)) (by omega) (by omega)]
  congr 1
  omega

/-- The rows an edit moves down. -/
def newRows (e : Edit UInt8) : Nat := if e = .clear then 1 else 0

/-- The cursor goes down `n` rows, with what was above kept. -/
structure Down (n : Nat) (w w' : VgaConsole) : Prop where
  row : w'.con.row + w'.vga.scrolls = w.con.row + w.vga.scrolls + n
  kept : Kept (80 * (w.con.row + n)) w w'

theorem OnRow.down {w w' : VgaConsole} (h : OnRow w w') (hon : OnScreen w) : Down 0 w w' :=
  ⟨by rw [h.row, h.scrolls, Nat.add_zero], h.kept hon⟩

/-- An edit that leaves the line short keeps it on the cursor's row; Enter goes down a row. -/
theorem Typed.edit {w : VgaConsole} {l : Line UInt8 TTY_BUF_SIZE} (h : Typed w l) {e : Edit UInt8}
    (he : e ≠ .insert 0x0A) (hlen : l.length ≤ 69) (hlen' : (l.apply e).length ≤ 69) :
    Typed (redrawActive l w e) (l.apply e) ∧ Down (newRows e) w (redrawActive l w e) := by
  have hdown : ∀ {w' l'}, Typed w' l' ∧ OnRow w w' → Typed w' l' ∧ Down 0 w w' :=
    And.imp_right fun hon => hon.down h.shows.screen
  cases e with
  | insert c => exact hdown (h.insert (fun hc => he (by rw [hc])) hlen')
  | backspace => exact hdown (h.backspace hlen)
  | moveLeft => exact hdown h.moveLeft
  | moveRight => exact hdown (h.moveRight hlen)
  | clear =>
    obtain ⟨hshows, w₁, hon₁, hon, hrow, hkept⟩ := h.shows.prompt
    refine ⟨⟨hshows, List.not_mem_nil⟩, ?_, hkept.trans (hon.kept hon₁) ?_⟩
    · show (putcsActive _ w).con.row + (putcsActive _ w).vga.scrolls = _
      rw [hon.row, hon.scrolls]
      exact hrow
    · omega
  | keep => exact hdown ⟨h, OnRow.refl w⟩

/-! ## Events of the keyboard -/

/-- The event that the keyboard makes of a scancode of a known key. -/
def keyEvent (kbd : KeyboardState) (scancode : UInt8) : KeyEvent :=
  let key := scancodeToKeycode (keyScancode scancode)
  let mods := if kbd.shift then MOD_SHIFT else 0
  ⟨key, if isPress scancode then .press else .release, mods,
    if isPress scancode then keycodeToAscii key mods kbd.caps else 0⟩

/-- Key events are those of the keyboard. -/
def Keyed (ev : KeyEvent) : Prop := ∃ kbd scancode, ev = keyEvent kbd scancode

/-- What the keyboard does to the terminal is to hand it a key event. -/
theorem keyboardHandleScancode_keyed {scancode : UInt8} {s s' : Keyboard}
    (h : keyboardHandleScancode scancode s = .ok s') :
    s'.term = s.term ∨ ∃ ev, Keyed ev ∧ ttyHandleKey ev s.term = .ok s'.term := by
  unfold keyboardHandleScancode at h
  obtain ⟨_, -, h⟩ := bind_eq_ok h
  simp only at h
  split at h
  · obtain ⟨_, -, h⟩ := bind_eq_ok h
    exact .inl (Except.ok.inj h ▸ rfl)
  · obtain ⟨_, -, h⟩ := bind_eq_ok h
    obtain ⟨term, hterm, h⟩ := bind_eq_ok h
    obtain rfl := Except.ok.inj h
    exact .inr ⟨_, ⟨_, scancode, rfl⟩, hterm⟩

theorem keyEvent_tables : ∀ n < 256, ∀ shift caps : Bool,
    editOf (keyEvent ⟨shift, caps, Kernel.spinlockInit⟩ (UInt8.ofNat n)) ≠ .insert 0x0A := by
  decide +kernel

/-- No key types a newline. -/
theorem Keyed.not_newline {ev : KeyEvent} (h : Keyed ev) : editOf ev ≠ .insert 0x0A := by
  obtain ⟨⟨shift, caps, lock⟩, scancode, rfl⟩ := h
  revert scancode
  exact Byte.forall_of_lt fun n hn => keyEvent_tables n hn shift caps

/-! ## Runs -/

/-- A prompt has just been written at the start of a row, and nothing is after it on the screen. -/
structure FreshPrompt (s : Terminal) (v : VgaConsole) : Prop where
  prompt : AtPrompt s v
  shows : Shows v 10 promptText

/-- The line `l₁`, on the row of the cursor of `w₁`, was submitted: on the screen `w` its row is
above the cursor's and is kept. -/
structure Submitted (w₁ w : VgaConsole) : Prop where
  above : w₁.con.row + w₁.vga.scrolls < w.con.row + w.vga.scrolls
  kept : Kept (80 * (w₁.con.row + 1)) w₁ w

/-- After some key events the rows show the lines. -/
def RowsAfter (s : Terminal) (pre : List KeyEvent) : Prop :=
  ∃ s' l w, ttyRun pre s = .ok s' ∧ Echoes s' l w ∧ Typed w l ∧
    ∀ pre₁ ev, pre₁ ++ [ev] <+: pre → editOf ev = .clear →
      ∃ s₁ l₁ w₁, ttyRun pre₁ s = .ok s₁ ∧ Echoes s₁ l₁ w₁ ∧ Typed w₁ l₁ ∧ Submitted w₁ w

theorem Submitted.down {w₁ w w' : VgaConsole} {n : Nat} (h : Submitted w₁ w) (hdown : Down n w w') :
    Submitted w₁ w' := by
  have habove := h.above
  have hrow := hdown.row
  exact ⟨by omega, h.kept.trans hdown.kept (by omega)⟩

theorem FreshPrompt.rowsAfter {s : Terminal} {v : VgaConsole} (h : FreshPrompt s v) : RowsAfter s [] := by
  refine ⟨s, Line.empty, v, rfl, h.prompt.echoes, ⟨h.shows, List.not_mem_nil⟩, fun pre₁ ev hp _ => ?_⟩
  exact absurd (List.prefix_nil.1 hp) (by simp)

theorem Echoes.length {s : Terminal} {l : Line UInt8 TTY_BUF_SIZE} {w : VgaConsole} (h : Echoes s l w) :
    s.tty.len = l.length := h.holds.len

/-- One more key event. -/
theorem RowsAfter.snoc {s : Terminal} {pre : List KeyEvent} {ev : KeyEvent} (h : RowsAfter s pre)
    (hev : editOf ev ≠ .insert 0x0A)
    (hlen : ∀ s', ttyRun pre s = .ok s' → s'.tty.len ≤ 69)
    (hlen' : ∀ s', ttyRun (pre ++ [ev]) s = .ok s' → s'.tty.len ≤ 69) : RowsAfter s (pre ++ [ev]) := by
  obtain ⟨s', l, w, hrun, hw, htyped, hold⟩ := h
  obtain ⟨s'', hstep, hw'⟩ := hw.step ev
  have hrun' : ttyRun (pre ++ [ev]) s = .ok s'' := (Run.foldlM_snoc hrun ev).trans hstep
  obtain ⟨htyped', hdown⟩ := htyped.edit hev (hw.length ▸ hlen s' hrun) (hw'.length ▸ hlen' s'' hrun')
  refine ⟨s'', _, _, hrun', hw', htyped', fun pre₁ ev₁ hp hclear => ?_⟩
  rcases List.prefix_concat_iff.1 hp with heq | hp
  · -- the line submitted by this event
    obtain ⟨rfl, hsame⟩ := List.append_inj' heq rfl
    obtain rfl := List.singleton_inj.1 hsame
    rw [show newRows (editOf ev₁) = 1 from if_pos hclear] at hdown
    have hrow := hdown.row
    exact ⟨s', l, w, hrun, hw, htyped, by omega, hdown.kept⟩
  · obtain ⟨s₁, l₁, w₁, hrun₁, hw₁, htyped₁, hsub⟩ := hold pre₁ ev₁ hp hclear
    exact ⟨s₁, l₁, w₁, hrun₁, hw₁, htyped₁, hsub.down hdown⟩

theorem FreshPrompt.rowsAfter_run {s : Terminal} {v : VgaConsole} (h : FreshPrompt s v) {evs : List KeyEvent}
    (hplain : ∀ ev ∈ evs, editOf ev ≠ .insert 0x0A)
    (hshort : ∀ pre, pre <+: evs → ∀ s', ttyRun pre s = .ok s' → s'.tty.len ≤ 69) :
    ∀ pre, pre <+: evs → RowsAfter s pre := by
  intro pre
  induction pre using List.reverseRecOn with
  | nil => exact fun _ => h.rowsAfter
  | append_singleton pre ev ih =>
    intro hp
    have hpre := (List.prefix_append pre [ev]).trans hp
    exact (ih hpre).snoc (hplain ev (hp.subset (by simp))) (hshort pre hpre) (hshort _ hp)

/-- The case of the keyboard, none of whose events types a newline. -/
theorem FreshPrompt.rowsAfter_keyed {s : Terminal} {v : VgaConsole} (h : FreshPrompt s v) {evs : List KeyEvent}
    (hkeyed : ∀ ev ∈ evs, Keyed ev)
    (hshort : ∀ pre, pre <+: evs → ∀ s', ttyRun pre s = .ok s' → s'.tty.len ≤ 69) :
    ∀ pre, pre <+: evs → RowsAfter s pre :=
  h.rowsAfter_run (fun ev hev => (hkeyed ev hev).not_newline) hshort

/-- From a prompt at the start of a row over a blank rest of the screen, whatever keys are handled that
type no newline, Enter included, as long as no line is longer than 69 characters: after every key the
cursor's row shows the prompt, `buf[0..len)` and blanks, and each line submitted before shows on its
row, as long as that is on the screen, what it did when Enter was pressed. -/
theorem rows_show_lines (s : Terminal) (v : VgaConsole) (h : FreshPrompt s v) (evs : List KeyEvent)
    (hplain : ∀ ev ∈ evs, editOf ev ≠ .insert 0x0A)
    (hshort : ∀ pre, pre <+: evs → ∀ s', ttyRun pre s = .ok s' → s'.tty.len ≤ 69) :
    ∀ pre, pre <+: evs → ∃ s' w, ttyRun pre s = .ok s' ∧ s'.con.view = some w ∧
      OnScreen w ∧ RowShows w w.con.row (promptText ++ s'.tty.line) ∧
      ∀ pre₁ ev, pre₁ ++ [ev] <+: pre → editOf ev = .clear →
        ∃ s₁ w₁, ttyRun pre₁ s = .ok s₁ ∧ s₁.con.view = some w₁ ∧
          (w.vga.scrolls ≤ w₁.vga.scrolls + w₁.con.row →
            RowShows w (w₁.con.row + w₁.vga.scrolls - w.vga.scrolls) (promptText ++ s₁.tty.line)) := by
  intro pre hp
  obtain ⟨s', l, w, hrun, hw, htyped, hold⟩ := h.rowsAfter_run hplain hshort pre hp
  refine ⟨s', w, hrun, hw.view, hw.screen, ?_, fun pre₁ ev hp₁ hclear => ?_⟩
  · rw [hw.holds.line]
    exact htyped.shows.row
  · obtain ⟨s₁, l₁, w₁, hrun₁, hw₁, htyped₁, hsub⟩ := hold pre₁ ev hp₁ hclear
    refine ⟨s₁, w₁, hrun₁, hw₁.view, fun hs => ?_⟩
    rw [hw₁.holds.line]
    exact hsub.kept.rowShows htyped₁.shows.row (Nat.le_refl _) hs

/-! ## The prompt after boot -/

theorem Window.shows_blank {v : VgaConsole} (h : Window v Paper.blank) : Shows v 0 [] := by
  have hrow : v.con.row = 0 := h.row
  refine ⟨h.onScreen, h.col, fun j hj => ?_, fun k hk hlt => ?_⟩
  · rw [hrow]
    exact h.cells 0 (by omega) j hj
  · rw [show k = 80 * (k / 80) + k % 80 by omega]
    exact h.cells (k / 80) (by omega) (k % 80) (by omega)

theorem bootPrompt_fresh : ∃ v, FreshPrompt bootPrompt v := by
  obtain ⟨v, hv, -, -⟩ := bootPrompt_atPrompt
  obtain ⟨v₀, hv₀, hw⟩ := Cleared.window (.inl ⟨Console.boot, Timer.boot, rfl⟩)
  have hview : bootPrompt.con.view = some (putcsActive (prompt.takeWhile (· ≠ 0)) v₀) := by
    show (consoleWriteLoop prompt _).view = _
    rw [consoleWriteLoop_eq, view_putcs, hv₀]
    rfl
  obtain rfl := Option.some.inj (hv.view.symm.trans hview)
  exact ⟨_, hv, hw.shows_blank.prompt.1⟩

def pressEnter : KeyEvent := ⟨.enter, .press, 0, 0⟩

/-- A letter submitted at the first prompt, and another. -/
theorem rows_show_lines_letter : ∃ s' w, ttyRun [pressA, pressEnter, pressA] bootPrompt = .ok s' ∧
    s'.con.view = some w ∧ RowShows w w.con.row (promptText ++ s'.tty.line) := by
  obtain ⟨v, hv⟩ := bootPrompt_fresh
  have hA : Keyed pressA := ⟨⟨false, false, Kernel.spinlockInit⟩, 0x1E, by decide⟩
  have hEnter : Keyed pressEnter := ⟨⟨false, false, Kernel.spinlockInit⟩, 0x1C, by decide⟩
  have hkeyed : ∀ ev ∈ [pressA, pressEnter, pressA], Keyed ev := by
    simp only [List.mem_cons, List.not_mem_nil, or_false]
    rintro ev (rfl | rfl | rfl)
    · exact hA
    · exact hEnter
    · exact hA
  have hshort : ∀ pre ∈ [pressA, pressEnter, pressA].inits, (lineAfter pre).length ≤ 69 := by decide
  obtain ⟨s', w, hrun, hview, -, hrow, -⟩ := rows_show_lines bootPrompt v hv [pressA, pressEnter, pressA]
    (fun ev hev => (hkeyed ev hev).not_newline) (fun pre hp s' hs' => by
      obtain ⟨s'', hs'', hholds, -⟩ := ttyRun_holds ttyActive_holds bootPrompt.con pre
      obtain rfl := Except.ok.inj (hs'.symm.trans hs'')
      rw [hholds.len]
      exact hshort pre ((List.mem_inits _ _).2 hp)) _ (List.prefix_refl _)
  exact ⟨s', w, hrun, hview, hrow⟩

end SnakeOS.Term
