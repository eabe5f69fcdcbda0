/-
kernel/timer.c and the clock of drivers/console.c over a run of ticks: the seconds hook is called at every
hundredth tick, and the clock it leaves on the screen reads the seconds of the timer.
-/
import SnakeOS.Lib.Decimal
import SnakeOS.Term.Clock

namespace SnakeOS.Term

open CLoop Decimal

/-! ## The clock on the screen -/

/-- The characters of row 24, columns 72 to 79. -/
def overlay (v : Vga) : List UInt8 := (List.range 8).map fun i => (v.memory (80 * 24 + 72 + i)).character

/-- A text is `hh:mm:ss` for `s` seconds, the hours modulo 100. -/
structure ReadsClock (text : List UInt8) (s : Nat) (hh mm ss : List UInt8) : Prop where
  text : text = hh ++ [0x3A] ++ mm ++ [0x3A] ++ ss
  length : hh.length = 2 ∧ mm.length = 2 ∧ ss.length = 2
  digits : ∀ c ∈ hh ++ mm ++ ss, IsDigit c
  minutes : natVal mm < 60
  seconds : natVal ss < 60
  value : 3600 * natVal hh + 60 * natVal mm + natVal ss = s % 360000

/-- A number below 100 in two digits. -/
def twoDigits (n : Nat) : List UInt8 := [digit (n / 10), digit (n % 10)]

theorem natVal_twoDigits {n : Nat} (h : n < 100) : natVal (twoDigits n) = n := by
  have hhigh := digit_toNat (show n / 10 < 10 by omega)
  have hlow := digit_toNat (show n % 10 < 10 by omega)
  unfold natVal twoDigits
  simp only [List.foldl_cons, List.foldl_nil, hhigh, hlow]
  omega

theorem isDigit_twoDigits {n : Nat} (h : n < 100) : ∀ c ∈ twoDigits n, IsDigit c := by
  intro c hc
  simp only [twoDigits, List.mem_cons, List.not_mem_nil, or_false] at hc
  rcases hc with rfl | rfl
  · exact isDigit_digit (by omega)
  · exact isDigit_digit (by omega)

/-- The text of the clock after `s` seconds. -/
def clockText (s : Nat) : List UInt8 :=
  twoDigits (s / 3600 % 100) ++ [0x3A] ++ twoDigits (s / 60 % 60) ++ [0x3A] ++ twoDigits (s % 60)

theorem readsClock_clockText (s : Nat) : ReadsClock (clockText s) s (twoDigits (s / 3600 % 100))
    (twoDigits (s / 60 % 60)) (twoDigits (s % 60)) where
  text := rfl
  length := ⟨rfl, rfl, rfl⟩
  digits := by
    intro c hc
    simp only [List.mem_append] at hc
    rcases hc with (hc | hc) | hc
    · exact isDigit_twoDigits (by omega) c hc
    · exact isDigit_twoDigits (by omega) c hc
    · exact isDigit_twoDigits (by omega) c hc
  minutes := by rw [natVal_twoDigits (by omega)]; omega
  seconds := by rw [natVal_twoDigits (by omega)]; omega
  value := by
    rw [natVal_twoDigits (by omega), natVal_twoDigits (by omega), natVal_twoDigits (by omega)]
    omega

/-- `'0' + x` in a `char`. -/
theorem digit_uint64 (x : UInt64) : (0x30 + x).toUInt8 = digit x.toNat := by
  apply UInt8.toNat_inj.1
  simp only [digit, Nat.toUInt8_eq, UInt8.toNat_ofNat', UInt64.toNat_toUInt8, UInt64.toNat_add]
  simp

/-- The loop of `vga_draw_clock` leaves each character in its cell. -/
theorem overlay_drawn (buf : Nat → UInt8) (v : Vga) :
    overlay (forUp 0 8 (fun i v => vgaPutChar 24 (72 + i) (buf i) v) v) = (List.range 8).map buf := by
  have hcells : ∀ k < 8, (forUp 0 8 (fun i v => vgaPutChar 24 (72 + i) (buf i) v) v).memory (80 * 24 + 72 + k) =
      cellOf (buf k) := by
    refine forUp_inv (fun i (w : Vga) => ∀ k < i, w.memory (80 * 24 + 72 + k) = cellOf (buf k)) (by omega) ?_ ?_
    · intro i w _ hi hw k hk
      rw [vgaPutChar_memory _ _ (by omega) (by omega), Function.update_apply]
      by_cases hki : k = i
      · rw [if_pos (by omega), hki]
      · rw [if_neg (by omega), hw k (by omega)]
    · exact fun k hk => absurd hk (Nat.not_lt_zero k)
  unfold overlay
  refine List.map_congr_left fun k hk => ?_
  rw [hcells k (List.mem_range.1 hk)]
  rfl

/-- The clock is drawn for the seconds of the timer. -/
theorem overlay_vgaDrawClock (t : Timer) (v : Vga) :
    overlay (vgaDrawClock t v) = clockText (timerGetSeconds t).toNat := by
  unfold vgaDrawClock
  simp only [digit_uint64]
  refine (overlay_drawn _ v).trans ?_
  have hhigh : ∀ s : Nat, s / 3600 / 10 % 10 = s / 3600 % 100 / 10 := fun s => by omega
  have hlow : ∀ s : Nat, s / 3600 % 10 = s / 3600 % 100 % 10 := fun s => by omega
  simp only [clockText, twoDigits, UInt64.toNat_div, UInt64.toNat_mod, UInt64.reduceToNat, hhigh, hlow]
  rfl

/-! ## The calls of the hook -/

/-- `timer_handle_tick`, for a hook that acts on states of any kind. -/
def handleTick {σ : Type} (call : TimerHook → Timer → σ → σ) (t : Timer) (s : σ) : Timer × σ :=
  let t := { t with tick := t.tick + 1 }
  if t.tick % CLOCK_FREQUENCY = 0 then
    match t.timerSecsHook with
    | none => (t, s)
    | some hook => (t, call hook t s)
  else (t, s)

/-- A screen, and a record of the calls of the hook: the timer, and the screen right after each. -/
structure Recorded where
  vga : Vga
  calls : List (Timer × Vga)

/-- A call through `timer_secs_hook`, recorded. -/
def TimerHook.record (hook : TimerHook) (t : Timer) (s : Recorded) : Recorded :=
  ⟨hook.run t s.vga, s.calls ++ [(t, hook.run t s.vga)]⟩

/-- Ticks one after another; before each of them other code may draw on the screen. -/
def ticks (draws : List (Vga → Vga)) (s : Timer × Recorded) : Timer × Recorded :=
  draws.foldl (fun s draw => handleTick TimerHook.record s.1 { s.2 with vga := draw s.2.vga }) s

theorem ticks_snoc (draws : List (Vga → Vga)) (draw : Vga → Vga) (s : Timer × Recorded) :
    ticks (draws ++ [draw]) s =
      handleTick TimerHook.record (ticks draws s).1 { (ticks draws s).2 with vga := draw (ticks draws s).2.vga } := by
  unfold ticks
  rw [List.foldl_append]
  rfl

/-- Recording the calls changes nothing. -/
theorem ticks_screen (draws : List (Vga → Vga)) (s : Timer × Recorded) :
    ((ticks draws s).1, (ticks draws s).2.vga) =
      draws.foldl (fun s draw => timerHandleTick s.1 (draw s.2)) (s.1, s.2.vga) := by
  refine Run.foldl_sim (fun (s : Timer × Recorded) s' => (s.1, s.2.vga) = s') ?_ draws s _ rfl
  rintro ⟨t, r⟩ _ draw rfl
  unfold handleTick timerHandleTick
  simp only
  split
  · cases t.timerSecsHook with
    | none => rfl
    | some hook => rfl
  · rfl

/-- A tick before the counter overflows calls the hook at every hundredth tick. -/
theorem handleTick_spec {σ : Type} (call : TimerHook → Timer → σ → σ) (s : σ) {t : Timer} {hook : TimerHook} {n : Nat}
    (hhook : t.timerSecsHook = some hook) (hn : t.tick.toNat = n) (hlt : n + 1 < 2 ^ 64) :
    ∃ t' : Timer, t'.timerSecsHook = some hook ∧ t'.tick.toNat = n + 1 ∧
      handleTick call t s = (t', if (n + 1) % 100 = 0 then call hook t' s else s) := by
  have htick : (t.tick + 1).toNat = n + 1 := by
    rw [UInt64.toNat_add, hn]
    exact Nat.mod_eq_of_lt hlt
  have hzero : (t.tick + 1) % CLOCK_FREQUENCY = 0 ↔ (n + 1) % 100 = 0 := by
    rw [← UInt64.toNat_inj, UInt64.toNat_mod, htick]
    rfl
  refine ⟨{ t with tick := t.tick + 1 }, hhook, htick, ?_⟩
  unfold handleTick
  simp only [hhook, hzero]
  split
  · rfl
  · rfl

/-- The hook was called at the end of each second of `n` ticks, and each time the clock was right. -/
structure CallsRight (n : Nat) (calls : List (Timer × Vga)) : Prop where
  seconds : calls.map (fun c => (timerGetSeconds c.1).toNat) = List.range' 1 (n / 100)
  clock : ∀ c ∈ calls, ∃ hh mm ss, ReadsClock (overlay c.2) (timerGetSeconds c.1).toNat hh mm ss

theorem CallsRight.tick {n : Nat} {calls : List (Timer × Vga)} (h : CallsRight n calls) (hn : (n + 1) % 100 ≠ 0) :
    CallsRight (n + 1) calls := by
  refine ⟨?_, h.clock⟩
  rw [h.seconds, show (n + 1) / 100 = n / 100 by omega]

theorem CallsRight.call {n : Nat} {calls : List (Timer × Vga)} (h : CallsRight n calls) {t : Timer}
    (ht : t.tick.toNat = n + 1) (hn : (n + 1) % 100 = 0) (v : Vga) :
    CallsRight (n + 1) (calls ++ [(t, vgaDrawClock t v)]) := by
  have hsec : (timerGetSeconds t).toNat = (n + 1) / 100 := by
    unfold timerGetSeconds
    rw [UInt64.toNat_div, ht]
    rfl
  refine ⟨?_, fun c hc => ?_⟩
  · rw [List.map_append, h.seconds, show (n + 1) / 100 = n / 100 + 1 by omega, List.range'_1_concat]
    simp only [List.map_cons, List.map_nil, hsec]
    rw [show (n + 1) / 100 = 1 + n / 100 by omega]
  · rcases List.mem_append.1 hc with hc | hc
    · exact h.clock c hc
    · obtain rfl := List.mem_singleton.1 hc
      have hclock := readsClock_clockText (timerGetSeconds t).toNat
      rw [← overlay_vgaDrawClock t v] at hclock
      exact ⟨_, _, _, hclock⟩

/-- With the clock registered before the first tick, whatever is on the screen and whatever other code draws
between the ticks: after `n` of them the hook has been called `n / 100` times, at the seconds 1, 2, …, and right
after each call the overlay reads the seconds of the timer. -/
theorem clock_reads_seconds (v : Vga) (draws : List (Vga → Vga)) (hn : draws.length < 2 ^ 64) :
    let start := timerRegisterSecsHook (some .vgaDrawClock) Timer.boot
    let last := ticks draws (start, ⟨v, []⟩)
    (last.1, last.2.vga) = draws.foldl (fun s draw => timerHandleTick s.1 (draw s.2)) (start, v) ∧
      last.2.calls.length = draws.length / 100 ∧ CallsRight draws.length last.2.calls := by
  intro start last
  have hrun : last.1.timerSecsHook = some .vgaDrawClock ∧ last.1.tick.toNat = draws.length ∧
      CallsRight draws.length last.2.calls := by
    induction draws using List.reverseRecOn with
    | nil => exact ⟨rfl, rfl, rfl, fun c hc => absurd hc List.not_mem_nil⟩
    | append_singleton draws draw ih =>
      rw [List.length_append, List.length_singleton] at hn ⊢
      obtain ⟨hhook, htick, hcalls⟩ := ih (by omega)
      obtain ⟨t', hhook', htick', hrun⟩ := handleTick_spec TimerHook.record
        { (ticks draws (start, ⟨v, []⟩)).2 with vga := draw (ticks draws (start, ⟨v, []⟩)).2.vga } hhook htick hn
      have hend : last = _ := (ticks_snoc draws draw _).trans hrun
      rw [hend]
      refine ⟨hhook', htick', ?_⟩
      simp only
      split
      · rename_i h100
        exact hcalls.call htick' h100 _
      · rename_i h100
        exact hcalls.tick h100
  refine ⟨ticks_screen draws _, ?_, hrun.2.2⟩
  have hlen := congrArg List.length hrun.2.2.seconds
  rwa [List.length_map, List.length_range'] at hlen

/-- A minute of ticks from a screen of zero bytes, with nothing else drawn. -/
theorem clock_reads_seconds_minute :
    (List.replicate 6000 (id : Vga → Vga)).length < 2 ^ 64 ∧
      (ticks (List.replicate 6000 id) (timerRegisterSecsHook (some .vgaDrawClock) Timer.boot,
        ⟨Console.boot.vga, []⟩)).2.calls.length = 60 := by
  have hlen : (List.replicate 6000 (id : Vga → Vga)).length = 6000 := List.length_replicate
  refine ⟨by rw [hlen]; decide, ?_⟩
  have hcalls := (clock_reads_seconds Console.boot.vga (List.replicate 6000 id) (by rw [hlen]; decide)).2.1
  rw [hlen] at hcalls
  exact hcalls

end SnakeOS.Term
