/-
Writing a text and taking it back with `console_backspace`: the cursor is where it was on the paper, and on
the screen, moved up by the scrolls since, the cells of the text are blank.
-/
import SnakeOS.Term.Position

namespace SnakeOS.Term

/-! ## Scrolling several times -/

theorem vgaScrollUp_iterate_memory (n : Nat) (v : Vga) {k : Nat} (hk : k < 2000) :
    (vgaScrollUp^[n] v).memory k = if k + 80 * n < 2000 then v.memory (k + 80 * n) else blank := by
  induction n generalizing k with
  | zero => exact (if_pos hk).symm
  | succ n ih =>
    rw [Function.iterate_succ_apply', vgaScrollUp_memory]
    by_cases h : k < 1920
    · rw [if_pos h, ih (by omega), show k + 80 + 80 * n = k + 80 * (n + 1) by omega]
    · rw [if_neg h, if_pos hk, if_neg (by omega)]

/-! ## What is not written on -/

/-- From `v` to `w` the screen was scrolled, and otherwise changed only between the two cursors. -/
structure Between (v w : VgaConsole) : Prop where
  scrolls : v.vga.scrolls ≤ w.vga.scrolls
  rest : ∀ k < 2000, k + 80 * (w.vga.scrolls - v.vga.scrolls) < v.pos ∨ w.pos ≤ k →
    w.vga.memory k = (vgaScrollUp^[w.vga.scrolls - v.vga.scrolls] v.vga).memory k

theorem Between.refl (v : VgaConsole) : Between v v where
  scrolls := Nat.le_refl _
  rest k _ _ := by rw [Nat.sub_self]; rfl

/-- Another character is written on the cell of the second cursor. -/
theorem Between.putc {v w : VgaConsole} (h : Between v w) (hon : OnScreen w) (hpos : v.paperPos ≤ w.paperPos)
    {c : UInt8} (hc : c ≠ 0x0A) : Between v (putcActive c w) := by
  obtain ⟨-, hnext, hscr, hmem⟩ := putcActive_spec hon c
  rw [nextPos_of_ne hc] at hnext
  have hle := h.scrolls
  unfold VgaConsole.paperPos at hpos
  have hbase : v.pos ≤ w.pos + 80 * (w.vga.scrolls - v.vga.scrolls) := by omega
  refine ⟨by omega, fun k hk hout => ?_⟩
  rw [hmem k hk]
  generalize scrollsAt c w.pos = d at hnext hscr
  have hscr' : (putcActive c w).vga.scrolls - v.vga.scrolls = w.vga.scrolls - v.vga.scrolls + d := by omega
  rw [hscr'] at hout ⊢
  have hrest := h.rest (k + 80 * d)
  generalize w.vga.scrolls - v.vga.scrolls = n at hout hrest hbase
  rw [vgaScrollUp_iterate_memory _ _ hk]
  unfold storeAt
  rw [if_neg (by omega)]
  by_cases hd : k + 80 * d < 2000
  · rw [if_pos hd, hrest hd (by omega), vgaScrollUp_iterate_memory _ _ hd,
      show k + 80 * d + 80 * n = k + 80 * (n + d) by omega]
  · rw [if_neg hd, if_neg (by omega)]

theorem Between.putcs {v : VgaConsole} : ∀ (cs : List UInt8) {w : VgaConsole}, Between v w → OnScreen w →
    v.paperPos ≤ w.paperPos → 0x0A ∉ cs → Between v (putcsActive cs w)
  | [], _, h, _, _, _ => h
  | c :: cs, w, h, hon, hpos, hnl => by
    obtain ⟨hc, hnl⟩ := not_or.1 (fun hm => hnl (List.mem_cons.2 hm))
    obtain ⟨hon', hpos'⟩ := putcActive_paperPos hon c
    have hlt := lt_nextPos c w.paperPos
    exact (h.putc hon hpos (Ne.symm hc)).putcs cs hon' (by omega) hnl

/-! ## Taking it back -/

/-- `m` backspaces blank the `m` cells before the cursor. -/
theorem backspaces_spec {w : VgaConsole} (h : OnScreen w) {m : Nat} (hm : m ≤ w.pos) :
    OnScreen (backspaceActive^[m] w) ∧ (backspaceActive^[m] w).pos = w.pos - m ∧ ∀ k,
      (backspaceActive^[m] w).vga.memory k = if w.pos - m ≤ k ∧ k < w.pos then blank else w.vga.memory k := by
  induction m with
  | zero => exact ⟨h, rfl, fun k => (if_neg (by omega)).symm⟩
  | succ m ih =>
    obtain ⟨hon, hpos, hmem⟩ := ih (by omega)
    obtain ⟨hon', hpos', -, hmem'⟩ := backspaceActive_spec hon
    rw [hpos] at hpos' hmem'
    rw [if_neg (by omega)] at hmem'
    rw [Function.iterate_succ_apply']
    refine ⟨hon', by omega, fun k => ?_⟩
    rw [hmem', Function.update_apply, hmem]
    by_cases hk : k = w.pos - m - 1
    · rw [if_pos hk, if_pos (by omega)]
    · rw [if_neg hk]
      congr 1
      simp only [eq_iff_iff]
      omega

/-- The scrolls caused by writing a text. -/
def scrollsBy (text : List UInt8) (v : VgaConsole) : Nat := (putcsActive text v).vga.scrolls - v.vga.scrolls

/-- The screen after writing, in terms of the scrolls. -/
theorem putcsActive_scrolled {v : VgaConsole} (hon : OnScreen v) {text : List UInt8} (hnl : 0x0A ∉ text) :
    OnScreen (putcsActive text v) ∧ (putcsActive text v).pos + 80 * scrollsBy text v = v.pos + text.length ∧
      ∀ k < 2000, k + 80 * scrollsBy text v < v.pos ∨ (putcsActive text v).pos ≤ k →
        (putcsActive text v).vga.memory k = (vgaScrollUp^[scrollsBy text v] v.vga).memory k := by
  obtain ⟨honw, hposw⟩ := putcsActive_paperPos text hon
  obtain ⟨hle, hrest⟩ := (Between.refl v).putcs text hon (Nat.le_refl _) hnl
  rw [advance_of_not_mem hnl] at hposw
  refine ⟨honw, ?_, hrest⟩
  unfold VgaConsole.paperPos at hposw
  unfold scrollsBy
  omega

theorem view_backspaces {s : Console} {v : VgaConsole} (hv : s.view = some v) (text : List UInt8) (m : Nat) :
    (consoleBackspace^[m] (putcs text s)).view = some (backspaceActive^[m] (putcsActive text v)) := by
  refine (Console.view_iterate backspaceActive m _).trans ?_
  rw [view_putcs, hv]
  rfl

/-- A text without newlines that does not scroll its own start off the screen is taken back by as many backspaces
as it has characters: the cursor is on the cell it was on, and this cell and the ones after it, as many as there
were characters, are blank on a screen that is otherwise the scrolled one. -/
theorem backspaces_take_back {s : Console} {v : VgaConsole} (hv : s.view = some v) (hon : OnScreen v)
    {text : List UInt8} (hnl : 0x0A ∉ text) (hn : scrollsBy text v ≤ v.con.row) :
    ∃ w, (consoleBackspace^[text.length] (putcs text s)).view = some w ∧
      w.con.row = v.con.row - scrollsBy text v ∧ w.con.col = v.con.col ∧
      ∀ k < 2000, w.vga.memory k =
        if 80 * (v.con.row - scrollsBy text v) + v.con.col ≤ k ∧
            k < 80 * (v.con.row - scrollsBy text v) + v.con.col + text.length then blank
        else (vgaScrollUp^[scrollsBy text v] v.vga).memory k := by
  obtain ⟨honw, hposw, hrest⟩ := putcsActive_scrolled hon hnl
  rw [view_backspaces hv]
  generalize scrollsBy text v = n at hn hposw hrest ⊢
  generalize putcsActive text v = w at honw hposw hrest ⊢
  have hv : v.pos = 80 * v.con.row + v.con.col := rfl
  have hpos : w.pos = 80 * (v.con.row - n) + v.con.col + text.length := by omega
  obtain ⟨hon', hpos', hmem⟩ := backspaces_spec honw (m := text.length) (by omega)
  have hcol := hon.col
  have hcol' := hon'.col
  have hcursor : 80 * (backspaceActive^[text.length] w).con.row + (backspaceActive^[text.length] w).con.col =
      80 * (v.con.row - n) + v.con.col := by
    show (backspaceActive^[text.length] w).pos = _
    omega
  refine ⟨_, rfl, by omega, by omega, fun k hk => ?_⟩
  rw [hmem k, hpos, Nat.add_sub_cancel]
  by_cases hin : 80 * (v.con.row - n) + v.con.col ≤ k ∧ k < 80 * (v.con.row - n) + v.con.col + text.length
  · rw [if_pos hin, if_pos hin]
  · rw [if_neg hin, if_neg hin]
    exact hrest k hk (by omega)

theorem scrollsBy_single {v : VgaConsole} (h : OnScreen v) (c : UInt8) : scrollsBy [c] v = scrollsAt c v.pos := by
  obtain ⟨-, -, hscr, -⟩ := putcActive_spec h c
  unfold scrollsBy
  rw [show putcsActive [c] v = putcActive c v from rfl, hscr, Nat.add_sub_cancel_left]

/-- A console with the cursor on the last cell of the screen. -/
theorem exists_lastCell : ∃ (s : Console) (v : VgaConsole),
    s.view = some v ∧ OnScreen v ∧ v.con.row = 24 ∧ v.con.col = 79 := by
  let con : Con := ⟨24, 79, some .consoleVgaOps⟩
  refine ⟨⟨Vector.replicate NR_CONS con, some 0, Console.boot.vga⟩, ⟨con, Console.boot.vga⟩, ?_, ?_, rfl, rfl⟩
  · simp [Console.view]
  · exact ⟨rfl, Nat.lt_succ_self 24, Nat.lt_succ_self 79⟩

/-- A character on the last cell scrolls the screen and is taken back in the row above. -/
theorem backspaces_take_back_last : ∃ (s : Console) (v w : VgaConsole), v.con.row = 24 ∧ v.con.col = 79 ∧
    (consoleBackspace^[1] (putcs [0x41] s)).view = some w ∧ w.con.row = 23 ∧ w.con.col = 79 ∧
    ∀ k < 2000, w.vga.memory k = if 1919 ≤ k ∧ k < 1920 then blank else (vgaScrollUp v.vga).memory k := by
  obtain ⟨s, v, hview, hon, hrow, hcol⟩ := exists_lastCell
  have hone : scrollsBy [0x41] v = 1 := by
    rw [scrollsBy_single hon]
    unfold scrollsAt VgaConsole.pos
    rw [nextPos_of_ne (by decide), hrow, hcol]
    exact if_neg (by omega)
  have hroom : scrollsBy [0x41] v ≤ v.con.row := by
    rw [hone, hrow]
    decide
  obtain ⟨w, hw, hrow', hcol', hmem⟩ := backspaces_take_back hview hon (by decide) hroom
  rw [hone, hrow] at hrow'
  rw [hone, hrow, hcol] at hmem
  exact ⟨s, v, w, hrow, hcol, hw, hrow', hcol'.trans hcol, hmem⟩

end SnakeOS.Term
