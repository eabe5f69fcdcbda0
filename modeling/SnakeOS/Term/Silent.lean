/-
Typing without echo: whatever keys are typed, nothing of them reaches the console, and the terminal line is the one
that the same keys make with echo on.
-/
import SnakeOS.Term.Editor

namespace SnakeOS.Term

open C LineEdit

/-! ## Reachable terminal lines -/

/-- `tty_active` with `echo` set. -/
def Tty.withEcho (echo : Bool) (t : Tty) : Tty := { t with echo }

/-- What `tty_active` can be: keys are handled over any console, and `echo` may be set in between. -/
inductive TtyReached : Tty → Prop
  | start : TtyReached ttyActive
  | key {t t' : Tty} {con con' : Console} (ev : KeyEvent) :
    TtyReached t → ttyHandleKey ev ⟨t, con⟩ = .ok ⟨t', con'⟩ → TtyReached t'
  | echo {t : Tty} (echo : Bool) : TtyReached t → TtyReached (t.withEcho echo)

theorem Holds.withEcho {t : Tty} {l : Line UInt8 TTY_BUF_SIZE} (h : Holds t l) (echo : Bool) :
    Holds (t.withEcho echo) l := ⟨h.line, h.cursor, h.len⟩

theorem TtyReached.holds {t : Tty} (h : TtyReached t) : ∃ l, Holds t l := by
  induction h with
  | start => exact ⟨_, ttyActive_holds⟩
  | @key t t' con con' ev _ hkey ih =>
    obtain ⟨l, hl⟩ := ih
    obtain ⟨t'', hrun, hl', -⟩ := ttyHandleKey_spec hl con ev
    have hsame := Except.ok.inj (hkey.symm.trans hrun)
    obtain rfl : t' = t'' := congrArg Terminal.tty hsame
    exact ⟨_, hl'⟩
  | echo echo _ ih =>
    obtain ⟨l, hl⟩ := ih
    exact ⟨l, hl.withEcho echo⟩

/-! ## Runs without echo -/

/-- A key without echo leaves the console as it is. -/
theorem ttyHandleKey_silent {t : Tty} {l : Line UInt8 TTY_BUF_SIZE} (h : Holds t l) (hecho : t.echo = false)
    (con : Console) (ev : KeyEvent) :
    ∃ t', ttyHandleKey ev ⟨t, con⟩ = .ok ⟨t', con⟩ ∧ Holds t' (l.apply (editOf ev)) ∧ t'.echo = false := by
  obtain ⟨t', hrun, hholds, hkept⟩ := ttyHandleKey_spec h con ev
  rw [hecho] at hrun hkept
  exact ⟨t', hrun, hholds, hkept⟩

/-- Without echo a run of keys edits the line and leaves the console as it is. -/
theorem ttyRun_silent {t : Tty} {l : Line UInt8 TTY_BUF_SIZE} (h : Holds t l) (hecho : t.echo = false) (con : Console)
    (evs : List KeyEvent) :
    ∃ t', ttyRun evs ⟨t, con⟩ = .ok ⟨t', con⟩ ∧ Holds t' (l.run (evs.map editOf)) := by
  have hstep : ∀ (s : Terminal) (l : Line UInt8 TTY_BUF_SIZE) (ev : KeyEvent),
      (Holds s.tty l ∧ s.tty.echo = false ∧ s.con = con) → ∃ s', ttyHandleKey ev s = .ok s' ∧
        Holds s'.tty (l.apply (editOf ev)) ∧ s'.tty.echo = false ∧ s'.con = con := by
    rintro ⟨t, con⟩ l ev ⟨hs, he, rfl⟩
    obtain ⟨t', hkey, hholds, hkept⟩ := ttyHandleKey_silent hs he con ev
    exact ⟨_, hkey, hholds, hkept, rfl⟩
  unfold Line.run
  rw [List.foldl_map]
  obtain ⟨⟨t', con'⟩, hrun, hholds, -, rfl⟩ := Run.foldlM_sim _ hstep evs ⟨t, con⟩ l ⟨h, hecho, rfl⟩
  exact ⟨t', hrun, hholds⟩

/-- Two terminal lines that hold the same line agree on `buf[0..len)`, `len` and `cursor`. -/
theorem Holds.agree {t t' : Tty} {l : Line UInt8 TTY_BUF_SIZE} (h : Holds t l) (h' : Holds t' l) :
    t.line = t'.line ∧ t.len = t'.len ∧ t.cursor = t'.cursor :=
  ⟨h.line.trans h'.line.symm, h.len.trans h'.len.symm, h.cursor.trans h'.cursor.symm⟩

/-- From any reachable terminal line, whatever keys are typed without echo: the console is as it was before, also
when compared with a run of other keys, and the line is that of the same keys with echo on. -/
theorem silent_typing {t : Tty} (h : TtyReached t) (con con' : Console) (evs : List KeyEvent) :
    ∃ silent echoed, ttyRun evs ⟨t.withEcho false, con⟩ = .ok silent ∧
      ttyRun evs ⟨t.withEcho true, con'⟩ = .ok echoed ∧ silent.con = con ∧
      (∀ evs', ∃ silent', ttyRun evs' ⟨t.withEcho false, con⟩ = .ok silent' ∧ silent'.con = silent.con) ∧
      silent.tty.line = echoed.tty.line ∧ silent.tty.len = echoed.tty.len ∧ silent.tty.cursor = echoed.tty.cursor := by
  obtain ⟨l, hl⟩ := h.holds
  obtain ⟨t', hsilent, hholds⟩ := ttyRun_silent (hl.withEcho false) rfl con evs
  obtain ⟨echoed, hechoed, hholds', -⟩ := ttyRun_holds (hl.withEcho true) con' evs
  refine ⟨⟨t', con⟩, echoed, hsilent, hechoed, rfl, fun evs' => ?_, hholds.agree hholds'⟩
  obtain ⟨t'', hother, -⟩ := ttyRun_silent (hl.withEcho false) rfl con evs'
  exact ⟨⟨t'', con⟩, hother, rfl⟩

/-- A letter typed after boot. -/
theorem silent_typing_letter : ∃ silent echoed,
    ttyRun [⟨.a, .press, 0, 0x61⟩] ⟨ttyActive.withEcho false, Console.boot⟩ = .ok silent ∧
      ttyRun [⟨.a, .press, 0, 0x61⟩] ⟨ttyActive.withEcho true, Console.boot⟩ = .ok echoed ∧
      silent.con = Console.boot ∧ silent.tty.line = echoed.tty.line := by
  obtain ⟨silent, echoed, hsilent, hechoed, hcon, -, hline, -⟩ :=
    silent_typing .start Console.boot Console.boot [⟨.a, .press, 0, 0x61⟩]
  exact ⟨silent, echoed, hsilent, hechoed, hcon, hline⟩

end SnakeOS.Term
