/-
What the devices and the two interrupt handlers do to the kernel: devices change the chips and the keyboard
controller only, a tick counts, and a scancode is typed once.
-/
import SnakeOS.Term.Bounds
import SnakeOS.Term.Rows
import SnakeOS.Init.Machine

namespace SnakeOS.Init

open C Kernel Arch Drivers Term LineEdit

/-! ## Devices -/

/-- What devices leave: more may be asked for, and the keyboard controller may have another scancode. -/
structure Arrived (s s' : System) : Prop where
  kept : Kept s s'
  same : s' = { s with hw.chips := s'.hw.chips, hw.rest.dev := s'.hw.rest.dev }

theorem Arrived.refl (s : System) : Arrived s s := ⟨Leaves.kept ⟨rfl, rfl⟩, rfl⟩

theorem Arrived.trans {s t u : System} (h : Arrived s t) (h' : Arrived t u) : Arrived s u := by
  refine ⟨h.kept.trans h'.kept, ?_⟩
  rw [h'.same, h.same]

theorem Arrival.run_arrived (s : System) (d : Arrival) : Arrived s (d.run s) := by
  cases d with
  | scancode b =>
    unfold Arrival.run
    simp only
    split
    · exact Arrived.refl s
    · exact ⟨Kept.raise (w := .keyboard) (by decide) rfl rfl, rfl⟩
  | raise w hw => exact ⟨Kept.raise hw.2 rfl rfl, rfl⟩

theorem arrive_arrived (arrivals : List Arrival) (s : System) : Arrived s (arrive arrivals s) :=
  Run.foldl_inv (Arrived s) (fun _ d ht => ht.trans (d.run_arrived _)) arrivals s (Arrived.refl s)

/-- The line that a device asks on. -/
def Arrival.line : Arrival → Wire
  | .scancode _ => .keyboard
  | .raise w _ => w

/-- The lines that devices ask on. -/
def asked (arrivals : List Arrival) : Finset Wire := (arrivals.map Arrival.line).toFinset

theorem arrive_requests (arrivals : List Arrival) (s : System) :
    (arrive arrivals s).hw.chips.requests ⊆ s.hw.chips.requests ∪ asked arrivals := by
  induction arrivals generalizing s with
  | nil => exact Finset.subset_union_left
  | cons d arrivals ih =>
    have hone : (d.run s).hw.chips.requests ⊆ insert d.line s.hw.chips.requests := by
      cases d with
      | scancode b =>
        unfold Arrival.run
        simp only
        split
        · exact Finset.subset_insert _ _
        · exact (Chips.requests_raise s.hw.chips .keyboard).le
      | raise w hw => exact (Chips.requests_raise s.hw.chips w).le
    intro w hw
    have hw := ih (d.run s) hw
    simp only [asked, List.map_cons, List.toFinset_cons, Finset.mem_union, Finset.mem_insert] at hw ⊢
    rcases hw with hw | hw
    · rcases Finset.mem_insert.1 (hone hw) with rfl | hw
      · exact .inr (.inl rfl)
      · exact .inl hw
    · exact .inr (.inr hw)

/-- The request of the timer that is latched. -/
def latched (s : System) : Nat := if .timer ∈ s.hw.chips.requests then 1 else 0

/-- From `s` to `s'` with `n` ticks: every other edge of the timer's line is latched or lost. -/
structure Balanced (n : Nat) (s s' : System) : Prop where
  edges : s'.hw.rest.dev.edges + latched s + s.hw.rest.dev.lost =
    s.hw.rest.dev.edges + n + latched s' + s'.hw.rest.dev.lost
  lost : s.hw.rest.dev.lost ≤ s'.hw.rest.dev.lost

theorem Balanced.trans {n m : Nat} {s t u : System} (h : Balanced n s t) (h' : Balanced m t u) :
    Balanced (n + m) s u := by
  obtain ⟨hedges, hlost⟩ := h
  obtain ⟨hedges', hlost'⟩ := h'
  exact ⟨by omega, by omega⟩

theorem Balanced.of_same {s s' : System} (hedges : s'.hw.rest.dev.edges = s.hw.rest.dev.edges)
    (hlost : s'.hw.rest.dev.lost = s.hw.rest.dev.lost) (hrequests : s'.hw.chips.requests = s.hw.chips.requests) :
    Balanced 0 s s' := by
  refine ⟨?_, hlost.ge⟩
  unfold latched
  simp only [hedges, hlost, hrequests, Nat.add_zero]

theorem Arrival.run_balanced (s : System) (d : Arrival) : Balanced 0 s (d.run s) := by
  have hraise : ∀ w, .timer ∈ (s.hw.chips.raise w).requests ↔ w = .timer ∨ .timer ∈ s.hw.chips.requests := by
    intro w
    rw [Chips.requests_raise, Finset.mem_insert, eq_comm]
  cases d with
  | scancode b =>
    by_cases hfull : s.hw.rest.dev.full
    · have hrun : Arrival.run s (.scancode b) = s := if_pos hfull
      rw [hrun]
      exact .of_same rfl rfl rfl
    · have hrun : Arrival.run s (.scancode b) = { s with
          hw.rest.dev := { s.hw.rest.dev with data := b, full := true, sent := s.hw.rest.dev.sent ++ [b] }
          hw.chips := s.hw.chips.raise .keyboard } := if_neg hfull
      have hkey : .timer ∈ (s.hw.chips.raise .keyboard).requests ↔ .timer ∈ s.hw.chips.requests :=
        (hraise .keyboard).trans (or_iff_right (by decide))
      rw [hrun]
      refine ⟨?_, le_rfl⟩
      unfold latched
      simp only [hkey, Nat.add_zero]
  | raise w hw =>
    have hlatched : latched (Arrival.run s (.raise w hw)) = if w = .timer then 1 else latched s := by
      unfold latched Arrival.run
      simp only [hraise w]
      by_cases h0 : w = .timer
      · simp [h0]
      · simp [h0]
    by_cases h0 : w = .timer
    · subst h0
      have hdev : (Arrival.run s (.raise .timer hw)).hw.rest.dev =
        s.hw.rest.dev.edge (.timer ∈ s.hw.chips.requests) := rfl
      have hlost : latched s = (decide (.timer ∈ s.hw.chips.requests)).toNat := by
        unfold latched
        by_cases hmem : .timer ∈ s.hw.chips.requests
        · simp [hmem]
        · simp [hmem]
      refine ⟨?_, ?_⟩
      · rw [hlatched, if_pos rfl, hdev, hlost]
        simp only [Devices.edge]
        omega
      · rw [hdev]
        exact Nat.le_add_right _ _
    · have hdev : (Arrival.run s (.raise w hw)).hw.rest.dev = s.hw.rest.dev := if_neg h0
      refine ⟨?_, ?_⟩
      · rw [hlatched, if_neg h0, hdev]
        omega
      · rw [hdev]

theorem arrive_balanced (arrivals : List Arrival) (s : System) : Balanced 0 s (arrive arrivals s) :=
  Run.foldl_inv (Balanced 0 s) (fun _ d ht => ht.trans (d.run_balanced _)) arrivals s (.of_same rfl rfl rfl)

/-- What the devices do while a handler runs. -/
structure Meanwhile (arrivals : List Arrival) (s s' : System) : Prop where
  asked : s'.hw.chips.requests ⊆ s.hw.chips.requests ∪ asked arrivals
  balanced : Balanced 0 s s'
  pit : s'.hw.rest.pit = s.hw.rest.pit

/-- Other code may run in between that leaves the chips alone. -/
theorem arrive_meanwhile {before between : List Arrival} {s t : System}
    (hchips : t.hw.chips = (arrive before s).hw.chips)
    (hedges : t.hw.rest.dev.edges = (arrive before s).hw.rest.dev.edges)
    (hlost : t.hw.rest.dev.lost = (arrive before s).hw.rest.dev.lost)
    (hpit : t.hw.rest.pit = (arrive before s).hw.rest.pit) :
    Meanwhile (before ++ between) s (arrive between t) := by
  have hsame : Balanced 0 (arrive before s) t := .of_same hedges hlost (by rw [hchips])
  refine ⟨?_, ((arrive_balanced before s).trans hsame).trans (arrive_balanced between t), ?_⟩
  swap
  · rw [(arrive_arrived between t).same]
    show t.hw.rest.pit = _
    rw [hpit, (arrive_arrived before s).same]
  have hbefore := arrive_requests before s
  have hbetween := arrive_requests between t
  rw [hchips] at hbetween
  intro w hw
  have hw := hbetween hw
  simp only [Init.asked, List.map_append, List.toFinset_append, Finset.mem_union] at hw ⊢
  rcases hw with hw | hw
  · have hw := hbefore hw
    simp only [Init.asked, Finset.mem_union] at hw
    rcases hw with hw | hw
    · exact .inl hw
    · exact .inr (.inl hw)
  · exact .inr (.inr hw)

/-! ## The keyboard's line -/

/-- `sent` are the scancodes that have been in the controller's buffer, but for the one that line 1 asks for. The
line asks exactly when the buffer is full, unless it is `stuck`: then the buffer is full and nothing asks. -/
structure Wired (stuck : Prop) (sent : List UInt8) (s : System) : Prop where
  full : s.hw.rest.dev.full ↔ stuck ∨ .keyboard ∈ s.hw.chips.requests
  asks : .keyboard ∈ s.hw.chips.requests → ¬stuck
  sent : s.hw.rest.dev.sent = sent ++ if .keyboard ∈ s.hw.chips.requests then [s.hw.rest.dev.data] else []

/-- The controller's buffer is as it was. -/
structure SameBuffer (s s' : System) : Prop where
  data : s'.hw.rest.dev.data = s.hw.rest.dev.data
  full : s'.hw.rest.dev.full = s.hw.rest.dev.full
  sent : s'.hw.rest.dev.sent = s.hw.rest.dev.sent

theorem SameBuffer.of_dev {s s' : System} (h : s'.hw.rest.dev = s.hw.rest.dev) : SameBuffer s s' :=
  ⟨congrArg _ h, congrArg _ h, congrArg _ h⟩

theorem SameBuffer.trans {s t u : System} (h : SameBuffer s t) (h' : SameBuffer t u) : SameBuffer s u :=
  ⟨h'.data.trans h.data, h'.full.trans h.full, h'.sent.trans h.sent⟩

theorem sameBuffer_raise (s : System) {w : Wire} (hw : w ≠ .keyboard ∧ w ≠ .cascade) :
    SameBuffer s (Arrival.run s (.raise w hw)) := by
  unfold Arrival.run
  by_cases h0 : w = .timer
  · simp only [if_pos h0]
    exact ⟨rfl, rfl, rfl⟩
  · simp only [if_neg h0]
    exact ⟨rfl, rfl, rfl⟩

theorem Wired.of_buffer {stuck : Prop} {sent : List UInt8} {s s' : System} (h : Wired stuck sent s)
    (hsame : SameBuffer s s') (hasks : .keyboard ∈ s'.hw.chips.requests ↔ .keyboard ∈ s.hw.chips.requests) :
    Wired stuck sent s' := by
  obtain ⟨hfull, hstuck, hsent⟩ := h
  refine ⟨?_, ?_, ?_⟩
  · rw [hsame.full, hasks]
    exact hfull
  · rw [hasks]
    exact hstuck
  · rw [hsame.sent, hsame.data, hsent]
    simp only [hasks]

theorem Wired.of_same {stuck : Prop} {sent : List UInt8} {s s' : System} (h : Wired stuck sent s)
    (hdev : s'.hw.rest.dev = s.hw.rest.dev)
    (hasks : .keyboard ∈ s'.hw.chips.requests ↔ .keyboard ∈ s.hw.chips.requests) : Wired stuck sent s' :=
  h.of_buffer (.of_dev hdev) hasks

theorem Wired.run {stuck : Prop} {sent : List UInt8} {s : System} (h : Wired stuck sent s) (d : Arrival) :
    Wired stuck sent (d.run s) := by
  cases d with
  | scancode b =>
    by_cases hfull : s.hw.rest.dev.full
    · have hrun : Arrival.run s (.scancode b) = s := if_pos hfull
      rw [hrun]
      exact h
    · have hnone : ¬(stuck ∨ .keyboard ∈ s.hw.chips.requests) := fun h' => hfull (h.full.2 h')
      obtain ⟨hstuck, hreq⟩ := not_or.1 hnone
      have hmem : .keyboard ∈ (s.hw.chips.raise .keyboard).requests := by
        rw [Chips.requests_raise]
        exact Finset.mem_insert_self _ _
      have hrun : Arrival.run s (.scancode b) = { s with
          hw.rest.dev := { s.hw.rest.dev with data := b, full := true, sent := s.hw.rest.dev.sent ++ [b] }
          hw.chips := s.hw.chips.raise .keyboard } := if_neg hfull
      have hsent := h.sent
      rw [if_neg hreq, List.append_nil] at hsent
      rw [hrun]
      refine ⟨iff_of_true rfl (.inr hmem), fun _ => hstuck, ?_⟩
      simp only [hmem, if_true, hsent]
  | raise w hw =>
    refine h.of_buffer (sameBuffer_raise s hw) ?_
    show .keyboard ∈ (s.hw.chips.raise w).requests ↔ _
    rw [Chips.requests_raise, Finset.mem_insert]
    exact or_iff_right (Ne.symm hw.1)

theorem Wired.arrive {stuck : Prop} {sent : List UInt8} {s : System} (h : Wired stuck sent s)
    (arrivals : List Arrival) : Wired stuck sent (arrive arrivals s) :=
  Run.foldl_inv (Wired stuck sent) (fun _ d hs => hs.run d) arrivals s h

/-- Nothing gets into a full buffer. -/
theorem arrive_full {s : System} (h : s.hw.rest.dev.full) (arrivals : List Arrival) :
    SameBuffer s (arrive arrivals s) := by
  have hrun : ∀ t d, SameBuffer s t → SameBuffer s (Arrival.run t d) := by
    intro t d ht
    cases d with
    | scancode b =>
      have hsame : Arrival.run t (.scancode b) = t := if_pos (ht.full.trans h)
      rw [hsame]
      exact ht
    | raise w hw => exact ht.trans (sameBuffer_raise t hw)
  exact Run.foldl_inv (SameBuffer s) hrun arrivals s ⟨rfl, rfl, rfl⟩

/-- Once line 1 has been answered for, its scancode counts as sent, and the buffer is held until it is read. -/
theorem Wired.serve {stuck : Prop} {sent : List UInt8} {s s' : System} (h : Wired stuck sent s)
    (hmem : .keyboard ∈ s.hw.chips.requests) (hdev : s'.hw.rest.dev = s.hw.rest.dev)
    (hasks : .keyboard ∉ s'.hw.chips.requests) : Wired True (sent ++ [s.hw.rest.dev.data]) s' := by
  refine ⟨?_, fun h' => absurd h' hasks, ?_⟩
  · rw [hdev, h.full]
    exact iff_of_true (.inr hmem) (.inl trivial)
  · rw [hdev, h.sent, if_pos hmem, if_neg hasks, List.append_nil]

/-- Reading the scancode frees the buffer. -/
theorem Wired.inb {sent : List UInt8} {s : System} (h : Wired True sent s) :
    Wired False sent { s with hw.rest.dev := s.hw.rest.dev.inb.2 } := by
  have hasks : .keyboard ∉ s.hw.chips.requests := fun h' => h.asks h' trivial
  have hsent := h.sent
  rw [if_neg hasks] at hsent
  refine ⟨iff_of_false Bool.false_ne_true (not_or.2 ⟨not_false, hasks⟩), fun _ => not_false, ?_⟩
  show s.hw.rest.dev.sent = sent ++ if .keyboard ∈ s.hw.chips.requests then _ else []
  rw [if_neg hasks, hsent]

/-! ## The console under the keyboard and the clock -/

theorem bounded_putcs {con : Console} (h : Bounded con) (cs : List UInt8) : Bounded (putcs cs con) :=
  Run.foldl_inv Bounded (fun _ c hs => hs.step (.putc c)) cs con h

theorem bounded_redraw {con : Console} (h : Bounded con) (l : Line UInt8 TTY_BUF_SIZE) (e : Edit UInt8) :
    Bounded (redraw l con e) := by
  obtain ⟨v, hv, hon⟩ := h
  exact ⟨_, view_redraw hv l e, redrawActive_onScreen hon l e⟩

theorem bounded_vga {con : Console} (h : Bounded con) (vga : Vga) : Bounded { con with vga } := by
  obtain ⟨v, hv, hon⟩ := h
  unfold Console.view at hv
  obtain ⟨i, hi, rfl⟩ := Option.map_eq_some_iff.1 hv
  refine ⟨⟨con.consoles[i], vga⟩, ?_, hon.ops, hon.row, hon.col⟩
  unfold Console.view
  rw [hi]
  rfl

/-- A key leaves the cursor on the screen. -/
theorem keyboardHandleScancode_bounded {scancode : UInt8} {kb kb' : Keyboard} {t : Typing} (ht : Types kb t)
    (hcon : Bounded kb.term.con) (h : keyboardHandleScancode scancode kb = .ok kb') : Bounded kb'.term.con := by
  rcases keyboardHandleScancode_keyed h with heq | ⟨ev, -, hev⟩
  · rw [heq]
    exact hcon
  · obtain ⟨tty', hrun, -⟩ := ttyHandleKey_spec ht.holds kb.term.con ev
    rw [← Except.ok.inj (hrun.symm.trans hev)]
    show Bounded (if kb.term.tty.echo then _ else _)
    split
    · exact bounded_redraw hcon t.line (editOf ev)
    · exact hcon

/-! ## The kernel's variables -/

/-- The handler of a line once `k` of the steps that register and open the two lines are done. -/
def handlerOf (k irq : Nat) : Option Handler :=
  if irq = 0 ∧ 1 ≤ k then some .i8253IrqHandle else if irq = 1 ∧ 3 ≤ k then some .i8042IrqHandler else none

/-- The static variables after `k` of these steps, `ticks` ticks and the scancodes `bytes`. -/
structure Statics (k ticks : Nat) (bytes : List UInt8) (s : System) : Prop where
  table : ∀ irq (h : irq < NMBR_IRQS), s.irqTable[irq] = ⟨handlerOf k irq, none⟩
  timer : s.hw.rest.timer = ⟨UInt64.ofNat ticks, some .vgaDrawClock⟩
  types : Types (keyboard s) (typed bytes)
  console : Bounded s.con

theorem Statics.arrived {k ticks : Nat} {bytes : List UInt8} {s s' : System} (h : Statics k ticks bytes s)
    (h' : Arrived s s') : Statics k ticks bytes s' := by
  rw [h'.same]
  exact ⟨h.table, h.timer, ⟨h.types.shift, h.types.caps, h.types.unlocked, h.types.holds⟩, h.console⟩

theorem Statics.print {k ticks : Nat} {bytes : List UInt8} {s : System} (h : Statics k ticks bytes s)
    (cs : List UInt8) : Statics k ticks bytes { s with con := putcs cs s.con } :=
  ⟨h.table, h.timer, ⟨h.types.shift, h.types.caps, h.types.unlocked, h.types.holds⟩, bounded_putcs h.console cs⟩

/-- A tick is counted, modulo the width of the counter. -/
theorem Statics.tick {k ticks : Nat} {bytes : List UInt8} {s : System} (h : Statics k ticks bytes s) :
    Statics k (ticks + 1) bytes (i8253IrqHandle s) := by
  obtain ⟨vga, hrun⟩ : ∃ vga, timerHandleTick s.hw.rest.timer s.con.vga =
      (⟨UInt64.ofNat (ticks + 1), some .vgaDrawClock⟩, vga) := by
    rw [h.timer]
    unfold timerHandleTick
    simp only [UInt64.ofNat_add]
    split
    · exact ⟨_, rfl⟩
    · exact ⟨_, rfl⟩
  have hstate : i8253IrqHandle s = { s with
      hw.rest.timer := ⟨UInt64.ofNat (ticks + 1), some .vgaDrawClock⟩, con.vga := vga } := by
    unfold i8253IrqHandle
    rw [hrun]
  rw [hstate]
  exact ⟨h.table, rfl, ⟨h.types.shift, h.types.caps, h.types.unlocked, h.types.holds⟩, bounded_vga h.console vga⟩

/-! ## The handlers -/

theorem i8253_spec {k ticks : Nat} {bytes sent : List UInt8} {stuck : Prop} {s : System}
    (h : Statics k ticks bytes s) (hwired : Wired stuck sent s) (before between : List Arrival) :
    ∃ s', s' = arrive between (i8253IrqHandle (arrive before s)) ∧ Kept s s' ∧
      Statics k (ticks + 1) bytes s' ∧ Wired stuck sent s' ∧
      Meanwhile (before ++ between) s s' := by
  refine ⟨_, rfl, ?_, ?_, ?_, arrive_meanwhile rfl rfl rfl rfl⟩
  · have hkept : Kept (arrive before s) (i8253IrqHandle (arrive before s)) := Leaves.kept ⟨rfl, rfl⟩
    exact ((arrive_arrived before s).kept.trans hkept).trans (arrive_arrived between _).kept
  · exact (h.arrived (arrive_arrived before s)).tick.arrived (arrive_arrived between _)
  · have htick : Wired stuck sent (i8253IrqHandle (arrive before s)) := (hwired.arrive before).of_same rfl Iff.rfl
    exact htick.arrive between

/-- The handler of the keyboard types the scancode that was in the buffer when its line was answered for. -/
theorem i8042_spec {k ticks : Nat} {bytes sent : List UInt8} {s : System} (h : Statics k ticks bytes s)
    (hwired : Wired True sent s) (before between : List Arrival) :
    ∃ s', i8042IrqHandler between (arrive before s) = .ok s' ∧ Kept s s' ∧
      Statics k ticks (bytes ++ [s.hw.rest.dev.data]) s' ∧ Wired False sent s' ∧
      Meanwhile (before ++ between) s s' := by
  have hbefore := arrive_arrived before s
  have hdata := (arrive_full (hwired.full.2 (.inl trivial)) before).data
  let read : System := { arrive before s with hw.rest.dev := (arrive before s).hw.rest.dev.inb.2 }
  let late : System := arrive between read
  have hread : Arrived (arrive before s) read := ⟨Leaves.kept ⟨rfl, rfl⟩, rfl⟩
  have hmeanwhile : Meanwhile (before ++ between) s late := arrive_meanwhile rfl rfl rfl rfl
  have hlate : Arrived s late := (hbefore.trans hread).trans (arrive_arrived between read)
  have hstatics := h.arrived hlate
  have hwired' : Wired False sent late := (Wired.inb (hwired.arrive before)).arrive between
  obtain ⟨kb, hrun, htypes, -⟩ := keyboardHandleScancode_spec hstatics.types s.hw.rest.dev.data
  have hbounded := keyboardHandleScancode_bounded hstatics.types hstatics.console hrun
  refine ⟨withKeyboard kb late, ?_, hlate.kept.trans (Leaves.kept ⟨rfl, rfl⟩), ?_, hwired'.of_same rfl Iff.rfl,
    hmeanwhile.asked, ⟨hmeanwhile.balanced.edges, hmeanwhile.balanced.lost⟩, hmeanwhile.pit⟩
  · show (do
      let kb ← keyboardHandleScancode (arrive before s).hw.rest.dev.data (keyboard late)
      return withKeyboard kb late) = _
    rw [hdata, hrun]
    rfl
  · rw [← typed_snoc] at htypes
    exact ⟨hstatics.table, hstatics.timer, ⟨htypes.shift, htypes.caps, htypes.unlocked, htypes.holds⟩, hbounded⟩

end SnakeOS.Init
