/-
What was on the screen before a prompt stays there while a line is edited. As long as the console
cursor is on the prompt's row it is the terminal's; once it has left that row it never comes back
to it, so nothing is written before the prompt's end.
-/
import SnakeOS.Term.Align

namespace SnakeOS.Term

open C LineEdit

/-! ## Kept cells -/

/-- The cells of `v` before the position `p` are those of `w`, moved up by the scrolls since. -/
structure Kept (p : Nat) (v w : VgaConsole) : Prop where
  scrolls : v.vga.scrolls ≤ w.vga.scrolls
  cells : ∀ k < p, 80 * (w.vga.scrolls - v.vga.scrolls) ≤ k →
    w.vga.memory (k - 80 * (w.vga.scrolls - v.vga.scrolls)) = v.vga.memory k

theorem Kept.refl (p : Nat) (v : VgaConsole) : Kept p v v :=
  ⟨Nat.le_refl _, fun k _ _ => by rw [Nat.sub_self, Nat.mul_zero, Nat.sub_zero]⟩

/-- Only the screen matters. -/
theorem Kept.congr {p : Nat} {v w w' : VgaConsole} (h : Kept p v w) (hvga : w'.vga = w.vga) : Kept p v w' := by
  obtain ⟨hs, hc⟩ := h
  rw [← hvga] at hs hc
  exact ⟨hs, hc⟩

theorem moveCursorActive_vga (dx dy : Int) (v : VgaConsole) : (moveCursorActive dx dy v).vga = v.vga := by
  unfold moveCursorActive
  generalize toInt32 (toInt32 v.con.col + dx) = col
  generalize toInt32 (toInt32 v.con.row + dy) = row
  rfl

theorem moveCursor_iterate_vga (dx dy : Int) (n : Nat) (v : VgaConsole) :
    ((moveCursorActive dx dy)^[n] v).vga = v.vga := by
  induction n with
  | zero => rfl
  | succ n ih => rw [Function.iterate_succ_apply', moveCursorActive_vga, ih]

/-- Printing after the position keeps the cells before it. -/
theorem Kept.putc {p : Nat} {v w : VgaConsole} (h : Kept p v w) (hon : OnScreen w)
    (hp : p + 80 * v.vga.scrolls ≤ w.paperPos) (c : UInt8) : Kept p v (putcActive c w) := by
  obtain ⟨-, -, hscr, hmem⟩ := putcActive_spec hon c
  have hs := h.scrolls
  have hlt := hon.pos_lt
  unfold VgaConsole.paperPos at hp
  refine ⟨by omega, fun k hk hge => ?_⟩
  rw [hscr] at hge ⊢
  rw [hmem _ (by omega)]
  -- the cell is before the cursor, so it is not the one that is stored
  have hsub : k - 80 * (w.vga.scrolls + scrollsAt c w.pos - v.vga.scrolls) + 80 * scrollsAt c w.pos =
      k - 80 * (w.vga.scrolls - v.vga.scrolls) := by omega
  unfold storeAt
  rw [hsub, if_neg (by omega), if_pos (by omega)]
  exact h.cells k hk (by omega)

theorem Kept.putcs {p : Nat} {v : VgaConsole} : ∀ (cs : List UInt8) {w : VgaConsole}, Kept p v w → OnScreen w →
    p + 80 * v.vga.scrolls ≤ w.paperPos → Kept p v (putcsActive cs w)
  | [], _, h, _, _ => h
  | c :: cs, w, h, hon, hp => by
    obtain ⟨hon', hpos⟩ := putcActive_paperPos hon c
    have hlt := lt_nextPos c w.paperPos
    refine Kept.putcs cs (h.putc hon hp c) hon' ?_
    rw [hpos]
    omega

/-! ## Where the cursor can be -/

/-- The console cursor is the terminal's, on the row of a prompt that ends at `g`, with room for a
blank after the line; or it is on a later row. -/
def Beyond (g q : Nat) (l : Line UInt8 TTY_BUF_SIZE) : Prop :=
  (q = g + l.cursor ∧ (g + l.length) / 80 = g / 80 ∧ 0x0A ∉ l.left ++ l.right) ∨ 80 * (g / 80 + 1) ≤ q

theorem Beyond.le {g q : Nat} {l : Line UInt8 TTY_BUF_SIZE} (h : Beyond g q l) : g ≤ q := by
  unfold Beyond at h
  omega

theorem le_advance_row (cs : List UInt8) (q : Nat) : q ≤ advance cs q := by
  have := le_advance cs q
  omega

/-- Moving back stays on the row. -/
theorem row_le_back {r q : Nat} (h : 80 * r ≤ q) (n : Nat) : 80 * r ≤ back q n := by
  unfold back
  omega

/-- Printing a text that holds a newline, or that fills the row, leaves the row. -/
theorem row_lt_advance {cs : List UInt8} {q : Nat} (h : 0x0A ∈ cs ∨ (q + cs.length) / 80 ≠ q / 80) :
    80 * (q / 80 + 1) ≤ advance cs q := by
  have hle := le_advance cs q
  by_contra hlt
  have hrow : advance cs q / 80 = q / 80 := by omega
  have hmem := not_mem_of_row hrow
  rcases h with h | h
  · exact hmem h
  · rw [advance_of_not_mem hmem] at hrow
    exact h hrow

/-! ## One edit -/

/-- The state of the console while a line is edited at the prompt `v`. -/
structure Contained (v w : VgaConsole) (l : Line UInt8 TTY_BUF_SIZE) : Prop where
  screen : OnScreen w
  kept : Kept v.pos v w
  beyond : Beyond v.paperPos w.paperPos l

theorem Contained.insert {v w : VgaConsole} {l : Line UInt8 TTY_BUF_SIZE} (h : Contained v w l) (c : UInt8) :
    Contained v (redrawActive l w (.insert c)) (l.apply (.insert c)) := by
  have hle := h.beyond.le
  simp only [redrawActive, Line.apply]
  by_cases hl : l.length < TTY_BUF_SIZE
  · obtain ⟨hon, hpos⟩ := putcsActive_paperPos (c :: l.right) h.screen
    obtain ⟨hon', hpos'⟩ := moveLeft_iterate hon l.right.length
    have hkept := Kept.putcs (c :: l.right) h.kept h.screen hle
    have hadv := le_advance_row (c :: l.right) w.paperPos
    rw [if_pos hl]
    refine ⟨hon', hkept.congr (moveCursor_iterate_vga ..), ?_⟩
    rw [hpos', hpos]
    rcases h.beyond with ⟨hq, hrow, hnl⟩ | hq
    · -- the line stays on the row, or printing leaves it
      by_cases hstay : 0x0A ∈ c :: l.right ∨ (w.paperPos + (c :: l.right).length) / 80 ≠ w.paperPos / 80
      · have hnext := row_lt_advance hstay
        right
        refine row_le_back (Nat.le_trans ?_ hnext) _
        unfold Line.length Line.cursor at *
        omega
      · rw [not_or, not_not] at hstay
        obtain ⟨hmem, hlen⟩ := hstay
        left
        rw [advance_of_not_mem hmem]
        simp only [List.length_cons] at hlen ⊢
        simp only [List.mem_cons, List.mem_append, not_or] at hmem hnl
        have hcur : (l.insert c).cursor = l.cursor + 1 := by simp [Line.cursor, Line.insert_left hl]
        have hlen' : (l.insert c).length = l.length + 1 := by
          simp [Line.length, Line.insert_left hl, Line.insert_right]
          omega
        rw [hcur, hlen']
        refine ⟨?_, ?_, ?_⟩
        · rw [back_eq (by omega)]
          omega
        · unfold Line.length Line.cursor at *
          omega
        · simp only [Line.insert_left hl, Line.insert_right, List.mem_append, List.mem_singleton, not_or]
          exact ⟨⟨hnl.1, hmem.1⟩, hnl.2⟩
    · right
      exact row_le_back (Nat.le_trans hq hadv) _
  · rw [if_neg hl, Line.insert, dif_neg hl]
    exact h

theorem Contained.backspace {v w : VgaConsole} {l : Line UInt8 TTY_BUF_SIZE} (h : Contained v w l) :
    Contained v (redrawActive l w .backspace) (l.apply .backspace) := by
  have hb := l.bound
  have hle := h.beyond.le
  simp only [redrawActive, Line.apply]
  by_cases hl : l.left = []
  · rw [if_pos hl]
    have hsame : l.backspace = l := by
      cases l
      simp_all [Line.backspace]
    rw [hsame]
    exact h
  · have hpos := List.length_pos_iff.2 hl
    have hsmall : l.right.length + 1 < 2 ^ 31 := by simp only [TTY_BUF_SIZE] at hb; omega
    obtain ⟨hon₁, hpos₁⟩ := moveLeftOne_paperPos h.screen
    obtain ⟨hon₂, hpos₂⟩ := putcsActive_paperPos (l.right ++ [0x20]) hon₁
    obtain ⟨hon₃, hpos₃⟩ := moveLeft_paperPos hon₂ hsmall
    have hkept₁ := h.kept.congr (moveCursorActive_vga (-1) 0 w)
    -- one step back is not before the prompt's end
    have hback : v.paperPos ≤ back w.paperPos 1 := by
      rcases h.beyond with ⟨hq, -, -⟩ | hq
      · unfold back Line.cursor at *
        omega
      · have := row_le_back hq 1
        omega
    have hkept₂ := Kept.putcs (l.right ++ [0x20]) hkept₁ hon₁ (by rw [hpos₁]; exact hback)
    rw [if_neg hl]
    refine ⟨hon₃, hkept₂.congr (moveCursorActive_vga ..), ?_⟩
    rw [hpos₃, hpos₂, hpos₁]
    rcases h.beyond with ⟨hq, hrow, hnl⟩ | hq
    · left
      simp only [List.mem_append, not_or] at hnl
      have hmem : 0x0A ∉ l.right ++ [0x20] := by simp [hnl.2]
      have hcur : l.backspace.cursor = l.cursor - 1 := by simp [Line.cursor, Line.backspace]
      have hlen : l.backspace.length = l.length - 1 := by
        simp [Line.length, Line.backspace]
        omega
      rw [hcur, hlen]
      unfold Line.length Line.cursor at *
      refine ⟨?_, by omega, ?_⟩
      · rw [back_eq (q := w.paperPos) (by omega), advance_of_not_mem hmem]
        simp only [List.length_append, List.length_singleton]
        rw [back_eq (by omega)]
        omega
      · simp only [Line.backspace, List.mem_append, not_or]
        exact ⟨fun hm => hnl.1 (List.dropLast_subset _ hm), hnl.2⟩
    · right
      refine row_le_back (Nat.le_trans (row_le_back hq 1) (le_advance_row ..)) _

theorem Contained.moveLeft {v w : VgaConsole} {l : Line UInt8 TTY_BUF_SIZE} (h : Contained v w l) :
    Contained v (redrawActive l w .moveLeft) (l.apply .moveLeft) := by
  simp only [redrawActive, Line.apply]
  rcases List.eq_nil_or_concat l.left with hl | ⟨xs, x, hl⟩
  · rw [if_pos hl]
    have hsame : l.moveLeft = l := by
      cases l
      simp_all [Line.moveLeft]
    rw [hsame]
    exact h
  · obtain ⟨hon, hpos⟩ := moveLeftOne_paperPos h.screen
    rw [if_neg (by simp [hl])]
    refine ⟨hon, h.kept.congr (moveCursorActive_vga ..), ?_⟩
    rw [hpos]
    rcases h.beyond with ⟨hq, hrow, hnl⟩ | hq
    · left
      have hcur : l.moveLeft.cursor = l.cursor - 1 := by simp [Line.cursor, Line.moveLeft]
      have hlen : l.moveLeft.length = l.length := by simp [Line.length, Line.moveLeft, hl]; omega
      have hpos' : 0 < l.cursor := by simp [Line.cursor, hl]
      rw [hcur, hlen]
      refine ⟨?_, hrow, ?_⟩
      · unfold Line.length Line.cursor back at *
        omega
      · simpa [Line.moveLeft, hl] using hnl
    · exact Or.inr (row_le_back hq 1)

theorem Contained.moveRight {v w : VgaConsole} {l : Line UInt8 TTY_BUF_SIZE} (h : Contained v w l) :
    Contained v (redrawActive l w .moveRight) (l.apply .moveRight) := by
  simp only [redrawActive, Line.apply]
  cases hl : l.right with
  | nil =>
    have hsame : l.moveRight = l := by
      cases l
      simp_all [Line.moveRight]
    rw [if_pos rfl, hsame]
    exact h
  | cons x xs =>
    obtain ⟨hon, hpos⟩ := moveRight_paperPos h.screen
    rw [if_neg (List.cons_ne_nil x xs)]
    refine ⟨hon, h.kept.congr (moveCursorActive_vga ..), ?_⟩
    rw [hpos]
    rcases h.beyond with ⟨hq, hrow, hnl⟩ | hq
    · left
      have hcur : l.moveRight.cursor = l.cursor + 1 := by simp [Line.cursor, Line.moveRight, hl]
      have hlen : l.moveRight.length = l.length := by simp [Line.length, Line.moveRight, hl]; omega
      have hlen' : l.length = l.cursor + (xs.length + 1) := by simp [Line.length, Line.cursor, hl]
      rw [hcur, hlen]
      refine ⟨?_, hrow, ?_⟩
      · rw [if_neg (by omega)]
        omega
      · simpa [Line.moveRight, hl] using hnl
    · right
      split <;> omega

/-- Every edit but Enter keeps what was before the prompt's end. -/
theorem Contained.edit {v w : VgaConsole} {l : Line UInt8 TTY_BUF_SIZE} (h : Contained v w l) {e : Edit UInt8}
    (he : e ≠ .clear) : Contained v (redrawActive l w e) (l.apply e) := by
  cases e with
  | insert c => exact h.insert c
  | backspace => exact h.backspace
  | moveLeft => exact h.moveLeft
  | moveRight => exact h.moveRight
  | clear => exact absurd rfl he
  | keep => exact h

/-! ## Runs -/

theorem AtPrompt.contained {s : Terminal} {v : VgaConsole} (h : AtPrompt s v) : Contained v v Line.empty :=
  ⟨h.screen, Kept.refl .., Or.inl ⟨rfl, rfl, List.not_mem_nil⟩⟩

/-- From a prompt, whatever keys but Enter are handled, with lines up to the full buffer: the cells
before the end of the prompt keep their content, moved up by the scrolls since, as long as they are
on the screen. -/
theorem committed_output_kept (s : Terminal) (v : VgaConsole) (h : AtPrompt s v) (evs : List KeyEvent)
    (hevs : ∀ ev ∈ evs, editOf ev ≠ .clear) :
    ∃ s' w, ttyRun evs s = .ok s' ∧ s'.con.view = some w ∧ Kept v.pos v w := by
  obtain ⟨s', hrun, l, w, hw, hc⟩ := Run.foldlM_inv_of
    (fun s => ∃ l w, Echoes s l w ∧ Contained v w l)
    (fun s ev hev ⟨l, w, hw, hc⟩ =>
      (hw.step ev).imp fun s' h' => ⟨h'.1, _, _, h'.2, hc.edit hev⟩)
    evs s hevs ⟨Line.empty, v, h.echoes, h.contained⟩
  exact ⟨s', w, hrun, hw.view, hc.kept⟩

/-- A letter and a move to its left at the first prompt. -/
theorem committed_output_kept_letter : ∃ v, AtPrompt bootPrompt v ∧ v.con.col = 10 ∧
    ∃ s' w, ttyRun [pressA, pressLeft] bootPrompt = .ok s' ∧ s'.con.view = some w ∧ Kept v.pos v w := by
  obtain ⟨v, hv, -, hcol⟩ := bootPrompt_atPrompt
  have hevs : ∀ ev ∈ [pressA, pressLeft], editOf ev ≠ .clear := by
    intro ev hev
    simp only [List.mem_cons, List.not_mem_nil, or_false] at hev
    rcases hev with rfl | rfl <;> decide
  exact ⟨v, hv, hcol, committed_output_kept bootPrompt v hv _ hevs⟩

end SnakeOS.Term
