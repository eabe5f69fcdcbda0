/-
What the user sees: the screen that `kmain` leaves, and the row of the prompt while keys are typed.
-/
import SnakeOS.Init.Runs

namespace SnakeOS.Init

open C Kernel Arch Drivers Term Boot LineEdit

/-! ## The screen after `kmain` -/

/-- `kmain` up to the loop at its end, when no interrupt comes. -/
def kmain (early late : List Arrival) (mem : Nat → UInt8) (s : System) : Except Fault System := do
  let s ← kmainStart early late s
  kmainRest mem s

/-- A row of the screen is blank where the paper is, so that a newline comes to a blank row. -/
theorem newline_shows {v : VgaConsole} {p : Paper UInt8} (h : Window v p) : Shows (putcActive 0x0A v) 0 [] := by
  have hnext := h.putc 0x0A
  have hput : Paper.put 80 0x0A p 0x0A = { p with row := p.row + 1, col := 0 } := if_pos rfl
  have hrow := hnext.row
  have hblank : ∀ k, 80 * (putcActive 0x0A v).con.row ≤ k → k < 2000 →
      (putcActive 0x0A v).vga.memory k = Term.blank := by
    intro k hk hlt
    have hcell := hnext.cells (k / 80) (by omega) (k % 80) (Nat.mod_lt k (by decide))
    rw [show 80 * (k / 80) + k % 80 = k by omega] at hcell
    rw [hcell, hput]
    rw [hput] at hrow
    rw [h.below _ _ (show p.row < _ by simp only at hrow ⊢; omega)]
    rfl
  have hlt := hnext.onScreen.row
  refine ⟨hnext.onScreen, ?_, fun j hj => ?_, fun k hk hk' => hblank k (by omega) hk'⟩
  · rw [hnext.col, hput]
  · exact hblank _ (by omega) (by omega)

theorem kmainSteps_con (mem : Nat → UInt8) (s : System) : ((kmainSteps mem).foldl Step.run s).con =
    putcs (mapText (ramMap mem) ++ requestText 0 ++ requestText 1 ++ promptText) s.con := by
  have hprompt : promptText = Byte.text "<SnakeOS> " := rfl
  unfold kmainSteps requestSteps pitSteps
  simp only [List.foldl_append, putc_steps, putcs_append, List.foldl_cons, List.foldl_nil, Step.run, hprompt]

/-- The steps of `kmain` leave the keyboard as it is but for its lock, which they free. -/
theorem kmainSteps_types {s : System} {t : Typing} (h : Types (keyboard s) t) (steps : List Step) :
    Types (keyboard (steps.foldl Step.run s)) t ∧ (steps.foldl Step.run s).hw.rest.tty = s.hw.rest.tty := by
  refine Run.foldl_inv (fun s' : System => Types (keyboard s') t ∧ s'.hw.rest.tty = s.hw.rest.tty) ?_ steps s ⟨h, rfl⟩
  rintro s' st ⟨ht, htty⟩
  refine ⟨⟨?_, ?_, ?_, ?_⟩, ?_⟩
  · cases st <;> exact ht.shift
  · cases st <;> exact ht.caps
  · cases st with
    | lockInit => rfl
    | _ => exact ht.unlocked
  · cases st <;> exact ht.holds
  · cases st <;> exact htty

/-- The prompt and the line behind a keyboard are on the cursor's row. -/
structure OnPrompt (kb : Keyboard) (t : Typing) (w : VgaConsole) : Prop where
  types : Types kb t
  echoes : Echoes kb.term t.line w
  typed : Typed w t.line

theorem bootText_eq (mem : Nat → UInt8) : Byte.text "Interrupts are enabled!!!\n" ++
    (mapText (ramMap mem) ++ requestText 0 ++ requestText 1 ++ promptText) = bootText mem ++ 0x0A :: promptText := by
  have hend : Byte.text " IRQ\n" = Byte.text " IRQ" ++ [0x0A] := by decide
  have hone : requestText 1 = Byte.text "Requesting " ++ itoaDec 1 ++ Byte.text " IRQ\n" := rfl
  unfold bootText
  rw [hone, hend]
  simp only [List.append_assoc, List.cons_append, List.nil_append]

theorem kmainStart_con {early late : List Arrival} {s s₁ : System} (h : kmainStart early late s = .ok s₁) :
    s₁.con = putcs (Byte.text "Interrupts are enabled!!!\n") (consoleInit s.con s.hw.rest.timer).1 := by
  have hcon : ∀ arrivals t, (arrive arrivals t).con = t.con := by
    intro arrivals t
    rw [(arrive_arrived arrivals t).same]
  obtain rfl := Except.ok.inj ((kmainStart_eq early late s).symm.trans h)
  show putcs _ (arrive late (started early s)).con = _
  rw [hcon]
  show putcs _ (arrive early _).con = _
  rw [hcon]

theorem kmainStart_tty {early late : List Arrival} {s s₁ : System} (h : kmainStart early late s = .ok s₁) :
    s₁.hw.rest.tty = s.hw.rest.tty := by
  have htty : ∀ arrivals t, (arrive arrivals t).hw.rest.tty = t.hw.rest.tty := by
    intro arrivals t
    rw [(arrive_arrived arrivals t).same]
  obtain rfl := Except.ok.inj ((kmainStart_eq early late s).symm.trans h)
  show (arrive late (started early s)).hw.rest.tty = _
  rw [htty]
  show (arrive early _).hw.rest.tty = _
  rw [htty]

/-- A prompt on a new row, whatever has been printed before. -/
theorem shows_prompt (s : Console) (timer : Timer) (text : List UInt8) :
    ∃ v, (putcs (text ++ 0x0A :: promptText) (consoleInit s timer).1).view = some v ∧ Shows v 10 promptText ∧
      Window v (Paper.write 80 0x0A Paper.blank (text ++ 0x0A :: promptText)) := by
  obtain ⟨v₀, hv₀, hwindow⟩ := Cleared.window (.inl ⟨s, timer, rfl⟩)
  have hwrite : ∀ cs, Window (putcsActive cs v₀) (Paper.write 80 0x0A Paper.blank cs) := fun cs =>
    Run.foldl_sim Window (fun v p c hw => hw.putc c) cs v₀ Paper.blank hwindow
  obtain ⟨hprompt, -⟩ := Shows.print (a := []) (b := []) (newline_shows (hwrite text)) promptText (Nat.zero_le _)
    (by decide) (by decide)
  have hlast : putcsActive (text ++ 0x0A :: promptText) v₀ =
      putcsActive promptText (putcActive 0x0A (putcsActive text v₀)) := List.foldl_append
  refine ⟨putcsActive (text ++ 0x0A :: promptText) v₀, ?_, ?_, hwrite _⟩
  · rw [view_putcs, hv₀]
    rfl
  · rw [hlast]
    exact hprompt

/-- What `kmain` leaves: a prompt at the start of a row, and the screen shows the end of what was printed. -/
theorem kmain_prompt {s₀ : System} (h : AtBoot s₀) (mem : Nat → UInt8) (early late : List Arrival) :
    ∃ s v, kmain early late mem s₀ = .ok s ∧ OnPrompt (keyboard s) Typing.boot v ∧
      Window v (Paper.write 80 0x0A Paper.blank (bootText mem ++ 0x0A :: promptText)) := by
  obtain ⟨s₁, sent, hstart, -, hsound⟩ := kmainStart_sound h mem early late
  obtain ⟨htypes, htty⟩ := kmainSteps_types hsound.statics.types (kmainSteps mem)
  obtain ⟨v, hv, hshows, hwindow⟩ := shows_prompt s₀.con s₀.hw.rest.timer (bootText mem)
  have hview : ((kmainSteps mem).foldl Step.run s₁).con.view = some v := by
    rw [kmainSteps_con, kmainStart_con hstart, ← putcs_append, bootText_eq, hv]
  have hkmain : kmain early late mem s₀ = .ok ((kmainSteps mem).foldl Step.run s₁) := by
    unfold kmain
    rw [hstart, ok_bind, kmainRest_eq mem hsound.served.chip]
  have hecho : ((kmainSteps mem).foldl Step.run s₁).hw.rest.tty.echo = true := by
    rw [htty, kmainStart_tty hstart, h.tty]
    rfl
  generalize (kmainSteps mem).foldl Step.run s₁ = s at *
  have hechoes : Echoes (keyboard s).term Line.empty v := ⟨htypes.holds, hecho, hview, hshows.screen⟩
  have htyped : Typed v Line.empty := ⟨hshows, List.not_mem_nil⟩
  exact ⟨s, v, hkmain, ⟨htypes, hechoes, htyped⟩, hwindow⟩

/-! ## Typing -/

/-- A terminal holds one line. -/
theorem holds_unique {tty : Tty} {l l' : Line UInt8 TTY_BUF_SIZE} (h : Holds tty l) (h' : Holds tty l') : l = l' := by
  have htext := h.line.symm.trans h'.line
  obtain ⟨hleft, hright⟩ := List.append_inj htext (h.cursor.symm.trans h'.cursor)
  cases l
  cases l'
  simp only at hleft hright
  subst hleft hright
  rfl

/-- A scancode that leaves the line short. -/
theorem OnPrompt.key {kb : Keyboard} {t : Typing} {w : VgaConsole} (h : OnPrompt kb t w) {scancode : UInt8}
    (hlen : t.line.length ≤ 69) (hlen' : (t.step scancode).line.length ≤ 69) :
    ∃ kb' w', keyboardHandleScancode scancode kb = .ok kb' ∧ OnPrompt kb' (t.step scancode) w' := by
  obtain ⟨kb', hrun, htypes, -⟩ := keyboardHandleScancode_spec h.types scancode
  rcases keyboardHandleScancode_keyed hrun with hsame | ⟨ev, hkeyed, hev⟩
  · have hholds := htypes.holds
    rw [hsame] at hholds
    have hline := holds_unique h.types.holds hholds
    refine ⟨kb', w, hrun, htypes, ?_, ?_⟩
    · rw [hsame, ← hline]
      exact h.echoes
    · rw [← hline]
      exact h.typed
  · obtain ⟨term, hterm, hechoes⟩ := h.echoes.step ev
    obtain rfl := Except.ok.inj (hev.symm.trans hterm)
    have hline := holds_unique hechoes.holds htypes.holds
    rw [hline] at hechoes
    refine ⟨kb', _, hrun, htypes, hechoes, ?_⟩
    rw [← hline] at hlen' ⊢
    exact (h.typed.edit hkeyed.not_newline hlen hlen').1

/-- From the entry of `kmain` to the screen, while no interrupt but the keyboard's comes: after `kmain` and whatever
scancodes, as long as no line is longer than 69 characters, the cursor's row shows the prompt and the line that the
scancodes type, with the cursor where the next character goes. -/
theorem row_shows_typed {s₀ : System} (h : AtBoot s₀) (mem : Nat → UInt8) (early late : List Arrival) :
    ∃ s, kmain early late mem s₀ = .ok s ∧ ∀ scancodes : List UInt8,
      (∀ pre, pre <+: scancodes → (typed pre).line.length ≤ 69) →
      ∃ kb w, keyboardRun scancodes (keyboard s) = .ok kb ∧ kb.term.con.view = some w ∧
        RowShows w w.con.row (promptText ++ ((typed scancodes).line.left ++ (typed scancodes).line.right)) ∧
        w.con.col = 10 + (typed scancodes).line.cursor := by
  obtain ⟨s, v, hkmain, hprompt, -⟩ := kmain_prompt h mem early late
  refine ⟨s, hkmain, fun scancodes hshort => ?_⟩
  have hrun : ∀ pre, pre <+: scancodes → ∃ kb w, keyboardRun pre (keyboard s) = .ok kb ∧ OnPrompt kb (typed pre) w := by
    intro pre
    induction pre using List.reverseRecOn with
    | nil => exact fun _ => ⟨_, v, rfl, hprompt⟩
    | append_singleton pre c ih =>
      intro hp
      have hpre := (List.prefix_append pre [c]).trans hp
      obtain ⟨kb, w, hkb, hon⟩ := ih hpre
      have hlen := hshort _ hp
      rw [typed_snoc] at hlen ⊢
      obtain ⟨kb', w', hkey, hon'⟩ := hon.key (hshort pre hpre) hlen
      exact ⟨kb', w', (Run.foldlM_snoc hkb c).trans hkey, hon'⟩
  obtain ⟨kb, w, hkb, hon⟩ := hrun scancodes (List.prefix_refl _)
  exact ⟨kb, w, hkb, hon.echoes.view, hon.typed.shows.row, hon.typed.shows.col⟩

/-- Two letters. -/
theorem row_shows_typed_hi : ∃ s, kmain [] [] (fun _ => 0) powerOn = .ok s ∧
    ∃ kb w, keyboardRun [0x23, 0x17] (keyboard s) = .ok kb ∧ kb.term.con.view = some w ∧
      RowShows w w.con.row (Byte.text "<SnakeOS> hi") ∧ w.con.col = 12 := by
  have hshort : ∀ pre ∈ [0x23, 0x17].inits, (typed pre).line.length ≤ 69 := by decide
  have hline : promptText ++ ((typed [0x23, 0x17]).line.left ++ (typed [0x23, 0x17]).line.right) =
      Byte.text "<SnakeOS> hi" := by decide
  have hcursor : 10 + (typed [0x23, 0x17]).line.cursor = 12 := by decide
  obtain ⟨s, hkmain, hkeys⟩ := row_shows_typed powerOn_atBoot (fun _ => 0) [] []
  obtain ⟨kb, w, hkb, hview, hrow, hcol⟩ := hkeys [0x23, 0x17] fun pre hp => hshort pre ((List.mem_inits pre _).2 hp)
  rw [hline] at hrow
  exact ⟨s, hkmain, kb, w, hkb, hview, hrow, hcol.trans hcursor⟩

end SnakeOS.Init
