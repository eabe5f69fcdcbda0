/-
Reading the boot disk when `INT 13h` fails: `disk_read` makes its next attempt with the count of sectors
that the failed one has left in AL.
-/
import SnakeOS.Boot.Disk
import SnakeOS.Lib.Retry

namespace SnakeOS.Boot.Stage0

open Mem Retry

/-! ## The attempts -/

/-- The count that attempt `i` leaves in AL when it fails. -/
def Bios.countLeft (bios : Bios) (i : Nat) : Option (BitVec 8) :=
  match bios.outcome i with
  | .success => none
  | .failure _ count => some count

/-- An attempt with AL. -/
def Machine.attempt (m : Machine) (al : BitVec 8) : Request :=
  ⟨0x2, al, hi m.regs.cx, lo m.regs.cx, hi m.regs.dx, lo m.regs.dx, m.es, m.regs.bx⟩

variable {bios : Bios} {m : Machine}

theorem outcome_of_countLeft_none {i : Nat} (h : bios.countLeft i = none) : bios.outcome i = .success := by
  unfold Bios.countLeft at h
  split at h
  · assumption
  · exact absurd h (Option.some_ne_none _)

theorem outcome_of_countLeft_some {i : Nat} {count : BitVec 8} (h : bios.countLeft i = some count) :
    ∃ status, bios.outcome i = .failure status count := by
  unfold Bios.countLeft at h
  split at h
  · exact absurd h.symm (Option.some_ne_none _)
  · rename_i status count' hout
    obtain rfl := Option.some.inj h
    exact ⟨status, hout⟩

/-- The machine after an attempt that fails. -/
def Machine.failed (status count : BitVec 8) (m : Machine) : Machine :=
  { m with
    regs.ax := status ++ count
    regs.di := m.regs.di - 1
    cf := true
    requests := m.requests ++ [m.attempt (lo m.regs.ax)] }

theorem request_attempt (m : Machine) :
    { m with regs.ax := setHi m.regs.ax 0x2, cf := true }.request = m.attempt (lo m.regs.ax) := by
  unfold Machine.request Machine.attempt
  simp only [hi_setHi, lo_setHi]

theorem int13_failure {status count : BitVec 8} (h : bios.outcome m.requests.length = .failure status count) :
    int13 bios m = { m with regs.ax := status ++ count, cf := true, requests := m.requests ++ [m.request] } := by
  unfold int13
  rw [h]

theorem tryAgain_failure {status count : BitVec 8} (n : Nat)
    (h : bios.outcome m.requests.length = .failure status count) : tryAgain bios (n + 1) m =
      if m.regs.di - 1 ≠ 0 then tryAgain bios n (m.failed status count)
      else .error (.halted, (m.failed status count).print "Read failed\r\n") := by
  have hint := int13_failure (m := { m with regs.ax := setHi m.regs.ax 0x2, cf := true }) h
  rw [request_attempt] at hint
  rw [tryAgain.eq_def]
  simp only [hint]
  rfl

/-- What the attempts leave of the registers. -/
structure Kept (m m' : Machine) : Prop where
  bx : m'.regs.bx = m.regs.bx
  ds : m'.ds = m.ds
  es : m'.es = m.es

/-- The memory below `ES:BX` is as it was. -/
def SameBelow (m m' : Machine) : Prop := ∀ k < linear m.es m.regs.bx, m'.mem k = m.mem k

/-- DI counts the attempts; each of them is made with what the one before has left in AL. -/
theorem tryAgain_spec (bios : Bios) : ∀ (n : Nat) (m : Machine),
    m.regs.di = BitVec.ofNat 16 n → 0 < n → n < 2 ^ 16 →
    ∃ m', tryAgain bios n m =
        (if (tried bios.countLeft n m.requests.length (lo m.regs.ax)).2 then .ok m' else .error (.halted, m')) ∧
      m'.requests = m.requests ++ (tried bios.countLeft n m.requests.length (lo m.regs.ax)).1.map m.attempt ∧
      Kept m m' ∧ SameBelow m m'
  | n + 1, m, hdi, _, hn => by
    cases hleft : bios.countLeft m.requests.length with
    | none =>
      have hsuccess := outcome_of_countLeft_none hleft
      have hint := int13_success (m := { m with regs.ax := setHi m.regs.ax 0x2, cf := true }) hsuccess
      rw [request_attempt] at hint
      rw [tried_success hleft, tryAgain_success n hsuccess, hint]
      exact ⟨_, rfl, rfl, ⟨rfl, rfl, rfl⟩, fun k hk => blits_outside 512 _ m.mem (.inl hk)⟩
    | some count =>
      obtain ⟨status, hfailure⟩ := outcome_of_countLeft_some hleft
      have hnext : m.regs.di - 1 = BitVec.ofNat 16 n := by
        rw [hdi]
        bv_omega
      rw [tried_failure hleft, tryAgain_failure n hfailure]
      by_cases h0 : n = 0
      · subst h0
        rw [if_neg (show ¬(m.regs.di - 1 ≠ 0) by rw [hnext]; decide)]
        exact ⟨_, rfl, rfl, ⟨rfl, rfl, rfl⟩, fun _ _ => rfl⟩
      · have hne : m.regs.di - 1 ≠ 0 := by
          rw [hnext]
          bv_omega
        have hlen : (m.failed status count).requests.length = m.requests.length + 1 := List.length_append
        have hal : lo (m.failed status count).regs.ax = count := lo_append ..
        obtain ⟨m', hrun, hrequests, hkept, hbelow⟩ :=
          tryAgain_spec bios n (m.failed status count) hnext (Nat.pos_of_ne_zero h0) (by omega)
        rw [hlen, hal] at hrun hrequests
        rw [if_pos hne]
        refine ⟨m', hrun, ?_, ⟨hkept.bx, hkept.ds, hkept.es⟩, hbelow⟩
        rw [hrequests]
        exact List.append_assoc ..

/-! ## `disk_read` -/

/-- The registers and segments that `disk_read` gives back. -/
structure Restored (m m' : Machine) : Prop extends Kept m m' where
  cx : m'.regs.cx = m.regs.cx
  dx : m'.regs.dx = m.regs.dx
  si : m'.regs.si = m.regs.si
  di : m'.regs.di = m.regs.di

/-- The attempts that `disk_read` makes, and whether the last one succeeds. -/
def attempts (bios : Bios) (m : Machine) : List (BitVec 8) × Bool :=
  tried bios.countLeft 3 m.requests.length (hi m.regs.ax)

/-- The request for `AH` sectors from sector AL on, to `ES:BX`. -/
structure Asks (m : Machine) (q : Request) : Prop where
  ah : q.ah = 0x2
  al : q.al = hi m.regs.ax
  dl : q.dl = bpb.driveNumber
  es : q.es = m.es
  bx : q.bx = m.regs.bx
  decodes : q.Decodes 18 2 (lo m.regs.ax).toNat

/-- The attempts are one request, but for AL. -/
theorem diskRead_spec (bios : Bios) (m : Machine) :
    ∃ q m', Asks m q ∧ diskRead bpb bios m = (if (attempts bios m).2 then .ok m' else .error (.halted, m')) ∧
      m'.requests = m.requests ++ (attempts bios m).1.map (fun al => { q with al }) ∧
      ((attempts bios m).2 → Restored m m') ∧ SameBelow m m' := by
  obtain ⟨cx, dx, hdl, haddr, hread⟩ := diskRead_eq bpb_valid m
  let ready : Machine := { m with regs.ax := m.regs.ax >>> 8, regs.cx := cx, regs.dx := dx, regs.di := 3 }
  obtain ⟨m', hrun, hrequests, hkept, hbelow⟩ := tryAgain_spec bios 3 ready rfl (by decide) (by decide)
  have hal : lo ready.regs.ax = hi m.regs.ax := lo_ushiftRight_eight ..
  have hdecodes := haddr.decodes (by decide) (by decide)
  rw [hal] at hrun hrequests
  have hasks : Asks m (ready.attempt (hi m.regs.ax)) :=
    ⟨rfl, rfl, hdl, rfl, rfl, ⟨hdecodes.sector, hdecodes.head, hdecodes.lba⟩⟩
  have hread := (hread bios).trans (congrArg (Except.map _) hrun)
  by_cases hok : (attempts bios m).2 = true
  · refine ⟨_, { m' with
      regs.cx := m.regs.cx, regs.di := m.regs.di, regs.dx := m.regs.dx, regs.si := m.regs.si },
      hasks, hread.trans ?_, hrequests, fun _ => ⟨⟨hkept.bx, hkept.ds, hkept.es⟩, rfl, rfl, rfl, rfl⟩, hbelow⟩
    rw [if_pos hok]
    exact congrArg (Except.map _) (if_pos hok)
  · refine ⟨_, m', hasks, hread.trans ?_, hrequests, fun h => absurd h hok, hbelow⟩
    rw [if_neg hok]
    exact congrArg (Except.map _) (if_neg hok)

/-- All attempts are the request `q`: the read returns right after the first that succeeds, with its
registers restored, and halts after three that do not. -/
structure Repeats (bios : Bios) (m : Machine) (q : Request) : Prop where
  returns : ∀ k < 3, SucceedsAfter bios.countLeft m.requests.length k → ∃ m', diskRead bpb bios m = .ok m' ∧
    Restored m m' ∧ m'.requests = m.requests ++ List.replicate (k + 1) q
  halts : (∀ j < 3, bios.countLeft (m.requests.length + j) ≠ none) → ∃ m',
    diskRead bpb bios m = .error (.halted, m') ∧ m'.requests = m.requests ++ List.replicate 3 q

/-- In every attempt the request is the one for the sectors asked for. -/
def SameRequest (bios : Bios) (m : Machine) : Prop := ∃ q, Asks m q ∧ Repeats bios m q

/-- An attempt that fails and is not the last one leaves the count asked for in AL. -/
def CountKept (bios : Bios) (m : Machine) : Prop :=
  ∀ k < 2, (∀ j < k, bios.countLeft (m.requests.length + j) ≠ none) →
    ∀ count ∈ bios.countLeft (m.requests.length + k), count = hi m.regs.ax

theorem countKept_iff : CountKept bios m ↔ ∀ al ∈ (attempts bios m).1, al = hi m.regs.ax := by
  unfold attempts
  rw [tried_eq_iff]
  constructor
  · intro h
    exact ⟨fun _ => rfl, fun k hk => h k (by omega)⟩
  · rintro ⟨-, h⟩ k hk
    exact h k (by omega)

/-- The read repeats one request when the attempts that it makes are all that request. -/
theorem repeats_iff {q q' : Request} {m' : Machine}
    (hrun : diskRead bpb bios m = if (attempts bios m).2 then .ok m' else .error (.halted, m'))
    (hrequests : m'.requests = m.requests ++ (attempts bios m).1.map (fun al => { q with al }))
    (hrestored : (attempts bios m).2 → Restored m m') : Repeats bios m q' ↔
      (attempts bios m).1.map (fun al => { q with al }) = List.replicate (attempts bios m).1.length q' := by
  constructor
  · intro hrep
    rcases succeedsAfter_or_failed bios.countLeft m.requests.length 3 with ⟨k, hk, hafter⟩ | hfailed
    · obtain ⟨hok, hlen⟩ := hafter.tried hk (hi m.regs.ax)
      obtain ⟨m'', hrun', -, hrequests'⟩ := hrep.returns k hk hafter
      rw [show (attempts bios m).2 = true from hok, if_pos rfl] at hrun
      obtain rfl := Except.ok.inj (hrun.symm.trans hrun')
      rw [show (attempts bios m).1.length = k + 1 from hlen]
      exact List.append_cancel_left (hrequests.symm.trans hrequests')
    · obtain ⟨hok, hlen⟩ := tried_failed hfailed (hi m.regs.ax)
      obtain ⟨m'', hrun', hrequests'⟩ := hrep.halts hfailed
      rw [show (attempts bios m).2 = false from hok, if_neg Bool.false_ne_true] at hrun
      obtain rfl := (Prod.mk.inj (Except.error.inj (hrun.symm.trans hrun'))).2
      rw [show (attempts bios m).1.length = 3 from hlen]
      exact List.append_cancel_left (hrequests.symm.trans hrequests')
  · intro hmap
    rw [hmap] at hrequests
    constructor
    · intro k hk hafter
      obtain ⟨hok, hlen⟩ := hafter.tried hk (hi m.regs.ax)
      have hok : (attempts bios m).2 = true := hok
      rw [hok, if_pos rfl] at hrun
      rw [show (attempts bios m).1.length = k + 1 from hlen] at hrequests
      exact ⟨m', hrun, hrestored hok, hrequests⟩
    · intro hfailed
      obtain ⟨hok, hlen⟩ := tried_failed hfailed (hi m.regs.ax)
      have hok : (attempts bios m).2 = false := hok
      rw [hok, if_neg Bool.false_ne_true] at hrun
      rw [show (attempts bios m).1.length = 3 from hlen] at hrequests
      exact ⟨m', hrun, hrequests⟩

/-- For every BIOS, every sequence of outcomes and every request, `disk_read` repeats the same request
exactly when a failed attempt that is followed by another leaves the requested count in AL. -/
theorem disk_read_repeats_iff (bios : Bios) (m : Machine) : SameRequest bios m ↔ CountKept bios m := by
  rw [countKept_iff]
  obtain ⟨q, m', hasks, hrun, hrequests, hrestored, -⟩ := diskRead_spec bios m
  constructor
  · rintro ⟨q', hasks', hrep⟩ al hal
    have hmem := List.mem_map_of_mem (f := fun al => { q with al }) hal
    rw [(repeats_iff hrun hrequests hrestored).1 hrep] at hmem
    rw [← hasks'.al, ← List.eq_of_mem_replicate hmem]
  · intro hkept
    refine ⟨q, hasks, (repeats_iff hrun hrequests hrestored).2 ?_⟩
    refine List.eq_replicate_iff.2 ⟨List.length_map .., fun q' hq' => ?_⟩
    obtain ⟨al, hal, rfl⟩ := List.mem_map.1 hq'
    rw [hkept al hal, ← hasks.al]

/-- A drive whose first attempt fails with no sector read. -/
def slowDrive : Bios := ⟨18, 2, fun _ _ => 0, fun i => if i = 0 then .failure 0x80 0 else .success⟩

/-- The request for one sector. -/
def oneSector : Machine := ⟨⟨0x0113, 0x7E00, 0, 0, 0, 0⟩, 0, 0, false, fun _ => 0, [], []⟩

/-- The second attempt is for no sector. -/
theorem request_not_repeated : ¬SameRequest slowDrive oneSector := by
  rintro ⟨q, hasks, hrep⟩
  have hafter : SucceedsAfter slowDrive.countLeft oneSector.requests.length 1 := ⟨by decide, by decide⟩
  obtain ⟨q', m', hasks', hrun, hrequests, -⟩ := diskRead_spec slowDrive oneSector
  obtain ⟨m'', hrun', -, hrequests'⟩ := hrep.returns 1 (by decide) hafter
  have htried : attempts slowDrive oneSector = ([1, 0], true) := by decide
  rw [htried, if_pos rfl] at hrun
  obtain rfl := Except.ok.inj (hrun.symm.trans hrun')
  rw [htried] at hrequests
  have hcount := List.append_cancel_left (hrequests.symm.trans hrequests')
  have hsecond : ({ q' with al := 0 } : Request) = q := (List.cons.inj (List.cons.inj hcount).2).1
  have hal := hasks.al
  rw [← hsecond] at hal
  exact absurd (show (0 : BitVec 8) = 1 from hal) (by decide)

end SnakeOS.Boot.Stage0
