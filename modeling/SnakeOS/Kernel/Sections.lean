/-
The critical sections of one processor, instruction by instruction: a main program and interrupt
handlers call spin_lock and spin_unlock of kernel/spinlock.c, and a handler may start between any
two instructions with interrupts on. What a context may do is limited only by its nesting: it
releases the lock it took last, takes no lock it holds, and a handler returns with none.
-/
import Mathlib.Logic.Function.Basic
import SnakeOS.Kernel.Spinlock
import SnakeOS.Lib.Run

namespace SnakeOS.Kernel

open C

variable {L : Type} [DecidableEq L]

/-! ## The instructions of spin_lock and spin_unlock -/

inductive Instr (L : Type)
  | pushfq
  | popFlags
  | cli
  | panicIfLocked (lk : L)
  | setLocked (lk : L)
  | setIrqFlags (lk : L)
  | panicIfFree (lk : L)
  | clearLocked (lk : L)
  | loadIrqFlags (lk : L)
  | pushFlags
  | popfq
  deriving DecidableEq

def irqSaveCode : List (Instr L) := [.pushfq, .popFlags, .cli]

def irqRestoreCode : List (Instr L) := [.pushFlags, .popfq]

def spinLockCode (lk : L) : List (Instr L) := irqSaveCode ++ [.panicIfLocked lk, .setLocked lk, .setIrqFlags lk]

def spinUnlockCode (lk : L) : List (Instr L) := [.panicIfFree lk, .clearLocked lk, .loadIrqFlags lk] ++ irqRestoreCode

/-! ## Contexts -/

inductive Call
  | lock
  | unlock
  deriving DecidableEq

/-- The main program or a handler: what is left of the call it is in, the local `flags` and the word
it has pushed. `call` and `sections` are no variables of the source: the call it is in, and the
sections it is in, the last first, each with its lock and the flags register at the call of spin_lock
that opened it. -/
structure Context (L : Type) where
  code : List (Instr L)
  flags : UInt64
  top : UInt64
  call : Option Call
  sections : List (L × UInt64)

namespace Context

def start : Context L := ⟨[], 0, 0, none, []⟩

/-- The locks of the sections. -/
def entered (c : Context L) : List L := c.sections.map Prod.fst

/-- The locks it holds: each from the end of its spin_lock to the end of its spin_unlock. -/
def locks (c : Context L) : List L := if c.call = some .lock then c.entered.tail else c.entered

/-- The locks that it holds and is not about to release. -/
def inside (c : Context L) : List L := if c.call = none then c.entered else c.entered.tail

end Context

/-- A call of spin_unlock that has ended: its lock, the flags register at the call of the spin_lock
before it, and the flags register and the lock at its end. -/
structure Released (L : Type) where
  lock : L
  before : UInt64
  after : UInt64
  locked : Int
  deriving DecidableEq

/-- The locks, the flags register, the context that runs and those that were interrupted, the last
first, each with the flags register it is to get back. `released`, which is no part of the machine,
lists the calls of spin_unlock that have ended. -/
structure Machine (L : Type) where
  locks : L → Spinlock
  rflags : UInt64
  running : Context L
  suspended : List (Context L × UInt64)
  released : List (Released L)

def Machine.boot (rflags : UInt64) : Machine L := ⟨fun _ => spinlockInit, rflags, Context.start, [], []⟩

def interruptsOn (rflags : UInt64) : Prop := rflags &&& RFLAGS_IF ≠ 0

instance (rflags : UInt64) : Decidable (interruptsOn rflags) := inferInstanceAs (Decidable (_ ≠ _))

def Machine.setLock (s : Machine L) (lk : L) (l : Spinlock) : Machine L :=
  { s with locks := Function.update s.locks lk l }

/-- One instruction of the running context. -/
def exec (i : Instr L) (s : Machine L) : Except Fault (Machine L) :=
  match i with
  | .pushfq => .ok { s with running := { s.running with top := s.rflags } }
  | .popFlags => .ok { s with running := { s.running with flags := s.running.top } }
  | .cli => .ok { s with rflags := s.rflags &&& ~~~RFLAGS_IF }
  | .panicIfLocked lk => if (s.locks lk).locked ≠ 0 then .error (.halt doubleLock) else .ok s
  | .setLocked lk => .ok (s.setLock lk { s.locks lk with locked := 1 })
  | .setIrqFlags lk => .ok (s.setLock lk { s.locks lk with irqFlags := s.running.flags })
  | .panicIfFree lk => if (s.locks lk).locked = 0 then .error (.halt unlockWithoutLock) else .ok s
  | .clearLocked lk => .ok (s.setLock lk { s.locks lk with locked := 0 })
  | .loadIrqFlags lk => .ok { s with running := { s.running with flags := (s.locks lk).irqFlags } }
  | .pushFlags => .ok { s with running := { s.running with top := s.running.flags } }
  | .popfq => .ok { s with rflags := s.running.top }

theorem exec_panicIfLocked {lk : L} {s : Machine L} (h : (s.locks lk).locked = 0) :
    exec (.panicIfLocked lk) s = .ok s := if_neg (not_not_intro h)

theorem exec_panicIfFree {lk : L} {s : Machine L} (h : (s.locks lk).locked ≠ 0) :
    exec (.panicIfFree lk) s = .ok s := if_neg h

/-- The instructions of a call, not interrupted. -/
def execAll (code : List (Instr L)) (s : Machine L) : Except Fault (Machine L) :=
  code.foldlM (fun s i => exec i s) s

/-- Not interrupted, the instructions of spin_lock do what the function does. -/
theorem spinLockCode_eq (lk : L) (s : Machine L) :
    (execAll (spinLockCode lk) s).map (fun s' => (s'.locks lk, s'.rflags)) = spinLock (s.locks lk) s.rflags := by
  unfold spinLock execAll spinLockCode irqSaveCode
  by_cases h : (s.locks lk).locked = 0
  · simp [exec, h, Machine.setLock, irqSave, Except.map]
  · simp [exec, h, Except.map]
    rfl

theorem spinUnlockCode_eq (lk : L) (s : Machine L) :
    (execAll (spinUnlockCode lk) s).map (fun s' => (s'.locks lk, s'.rflags)) = spinUnlock (s.locks lk) := by
  unfold spinUnlock execAll spinUnlockCode irqRestoreCode
  by_cases h : (s.locks lk).locked = 0
  · simp [exec, h, Except.map]
    rfl
  · simp [exec, h, Machine.setLock, irqRestore, Except.map]

/-! ## Events -/

/-- What the processor does next. -/
inductive Event (L : Type)
  | work (rflags : UInt64)
  | lock (lk : L)
  | unlock
  | instruction
  | interrupt
  | iret

namespace Machine

/-- When an event can happen. Between calls a context computes, which leaves the interrupt flag as it is unless
it is the main program outside every section, calls spin_lock with a lock whose section it is not in
or spin_unlock with the lock of its last section, or returns, a handler that is in no section. -/
def Enabled (s : Machine L) : Event L → Prop
  | .work rflags => s.running.call = none ∧
      ((interruptsOn rflags ↔ interruptsOn s.rflags) ∨ s.running.sections = [] ∧ s.suspended = [])
  | .lock lk => s.running.call = none ∧ lk ∉ s.running.entered
  | .unlock => s.running.call = none ∧ s.running.sections ≠ []
  | .instruction => s.running.code ≠ []
  | .interrupt => interruptsOn s.rflags
  | .iret => s.running.call = none ∧ s.running.sections = [] ∧ s.suspended ≠ []

instance (s : Machine L) : DecidablePred s.Enabled := fun e => by
  cases e <;> unfold Enabled <;> infer_instance

/-- A call with no instruction left has ended, whatever its instructions were; with spin_unlock the
last section ends. -/
def endCall (s : Machine L) : Machine L :=
  match s.running.code, s.running.call, s.running.sections with
  | [], some .unlock, (lk, before) :: sections =>
    { s with
      running := { s.running with call := none, sections }
      released := ⟨lk, before, s.rflags, (s.locks lk).locked⟩ :: s.released }
  | [], _, _ => { s with running := { s.running with call := none } }
  | _ :: _, _, _ => s

/-- What the event does. -/
def next (s : Machine L) : Event L → Except Fault (Machine L)
  | .work rflags => .ok { s with rflags }
  | .lock lk =>
    let sections := (lk, s.rflags) :: s.running.sections
    .ok { s with running := { s.running with code := spinLockCode lk, call := some .lock, sections } }.endCall
  | .unlock =>
    match s.running.entered with
    | [] => .ok s
    | lk :: _ => .ok { s with running := { s.running with code := spinUnlockCode lk, call := some .unlock } }.endCall
  | .instruction =>
    match s.running.code with
    | [] => .ok s
    | i :: code => (exec i { s with running := { s.running with code } }).map endCall
  | .interrupt =>
    let suspended := (s.running, s.rflags) :: s.suspended
    .ok { s with rflags := s.rflags &&& ~~~RFLAGS_IF, running := Context.start, suspended }
  | .iret =>
    match s.suspended with
    | [] => .ok s
    | (c, rflags) :: suspended => .ok { s with rflags, running := c, suspended }

/-- An event that cannot happen is left out. -/
def step (s : Machine L) (e : Event L) : Except Fault (Machine L) := if s.Enabled e then s.next e else .ok s

def run (es : List (Event L)) (s : Machine L) : Except Fault (Machine L) := es.foldlM step s

def contexts (s : Machine L) : List (Context L) := s.running :: s.suspended.map Prod.fst

end Machine

/-! ## The locks and the open sections -/

theorem not_interruptsOn_cli (rflags : UInt64) : ¬interruptsOn (rflags &&& ~~~RFLAGS_IF) := by
  unfold interruptsOn
  rw [UInt64.and_assoc, show ~~~RFLAGS_IF &&& RFLAGS_IF = 0 by decide, UInt64.and_zero]
  exact not_not_intro rfl

/-- In a handler, and in a section that is in another, interrupts were off before spin_lock. -/
def Masked (handler : Bool) : List (L × UInt64) → Prop
  | [] => True
  | (_, flags) :: held => (handler = true ∨ held ≠ [] → ¬interruptsOn flags) ∧ Masked handler held

/-- The locks are those of the open sections, each with the flags register it was taken with. -/
structure Sections (handler : Bool) (locks : L → Spinlock) (held : List (L × UInt64)) : Prop where
  locked : ∀ lk, (locks lk).locked ≠ 0 ↔ lk ∈ held.map Prod.fst
  saved : ∀ p ∈ held, (locks p.1).irqFlags = p.2
  nodup : (held.map Prod.fst).Nodup
  masked : Masked handler held

omit [DecidableEq L] in
theorem fst_ne_of_not_mem {held : List (L × UInt64)} {lk : L} (hlk : lk ∉ held.map Prod.fst) {p : L × UInt64}
    (hp : p ∈ held) : p.1 ≠ lk := fun heq => hlk (List.mem_map.2 ⟨p, hp, heq⟩)

omit [DecidableEq L] in
theorem Sections.free {handler : Bool} {locks : L → Spinlock} {held : List (L × UInt64)}
    (h : Sections handler locks held) {lk : L} (hlk : lk ∉ held.map Prod.fst) : (locks lk).locked = 0 := by
  by_contra hne
  exact hlk ((h.locked lk).1 hne)

/-- The section of a free lock is opened. -/
theorem Sections.take {handler : Bool} {locks : L → Spinlock} {held : List (L × UInt64)}
    (h : Sections handler locks held) {lk : L} (hlk : lk ∉ held.map Prod.fst) {flags : UInt64}
    (hm : handler = true ∨ held ≠ [] → ¬interruptsOn flags) :
    Sections handler (Function.update locks lk ⟨1, flags⟩) ((lk, flags) :: held) := by
  refine ⟨fun k => ?_, fun p hp => ?_, ?_, hm, h.masked⟩
  · rcases eq_or_ne k lk with rfl | hk
    · simp
    · rw [Function.update_of_ne hk, h.locked k]
      simp [hk]
  · rcases List.mem_cons.1 hp with rfl | hp
    · simp
    · rw [Function.update_of_ne (fst_ne_of_not_mem hlk hp)]
      exact h.saved p hp
  · exact List.nodup_cons.2 ⟨hlk, h.nodup⟩

/-- The innermost section is closed. -/
theorem Sections.release {handler : Bool} {locks : L → Spinlock} {held : List (L × UInt64)} {lk : L} {flags : UInt64}
    (h : Sections handler locks ((lk, flags) :: held)) (flags' : UInt64) :
    Sections handler (Function.update locks lk ⟨0, flags'⟩) held := by
  obtain ⟨hlk, hnodup⟩ := List.nodup_cons.1 h.nodup
  refine ⟨fun k => ?_, fun p hp => ?_, hnodup, h.masked.2⟩
  · rcases eq_or_ne k lk with rfl | hk
    · simpa using hlk
    · rw [Function.update_of_ne hk, h.locked k]
      simp [hk]
  · rw [Function.update_of_ne (fst_ne_of_not_mem hlk hp)]
    exact h.saved p (List.mem_cons_of_mem _ hp)

/-! ## Where a context is -/

/-- A context between calls or before an instruction of one, over the locks and the flags register it
runs with. Only until `cli` is done can interrupts be on. -/
inductive Place (handler : Bool) (locks : L → Spinlock) (rflags : UInt64) : Context L → Prop
  | between {flags top held} (sections : Sections handler locks held)
      (masked : handler = true ∨ held ≠ [] → ¬interruptsOn rflags) :
      Place handler locks rflags ⟨[], flags, top, none, held⟩
  | pushfq {lk flags top held} (sections : Sections handler locks held) (new : lk ∉ held.map Prod.fst)
      (masked : handler = true ∨ held ≠ [] → ¬interruptsOn rflags) :
      Place handler locks rflags ⟨spinLockCode lk, flags, top, some .lock, (lk, rflags) :: held⟩
  | popFlags {lk flags held} (sections : Sections handler locks held) (new : lk ∉ held.map Prod.fst)
      (masked : handler = true ∨ held ≠ [] → ¬interruptsOn rflags) :
      Place handler locks rflags ⟨(spinLockCode lk).drop 1, flags, rflags, some .lock, (lk, rflags) :: held⟩
  | cli {lk top held} (sections : Sections handler locks held) (new : lk ∉ held.map Prod.fst)
      (masked : handler = true ∨ held ≠ [] → ¬interruptsOn rflags) :
      Place handler locks rflags ⟨(spinLockCode lk).drop 2, rflags, top, some .lock, (lk, rflags) :: held⟩
  | panicIfLocked {lk top entry held} (sections : Sections handler locks held) (new : lk ∉ held.map Prod.fst)
      (masked : handler = true ∨ held ≠ [] → ¬interruptsOn entry) (off : ¬interruptsOn rflags) :
      Place handler locks rflags ⟨(spinLockCode lk).drop 3, entry, top, some .lock, (lk, entry) :: held⟩
  | setLocked {lk top entry held} (sections : Sections handler locks held) (new : lk ∉ held.map Prod.fst)
      (masked : handler = true ∨ held ≠ [] → ¬interruptsOn entry) (off : ¬interruptsOn rflags) :
      Place handler locks rflags ⟨(spinLockCode lk).drop 4, entry, top, some .lock, (lk, entry) :: held⟩
  | setIrqFlags {lk top entry held}
      (sections : Sections handler (Function.update locks lk ⟨1, entry⟩) ((lk, entry) :: held))
      (locked : (locks lk).locked = 1) (off : ¬interruptsOn rflags) :
      Place handler locks rflags ⟨(spinLockCode lk).drop 5, entry, top, some .lock, (lk, entry) :: held⟩
  | panicIfFree {lk saved flags top held} (sections : Sections handler locks ((lk, saved) :: held))
      (off : ¬interruptsOn rflags) :
      Place handler locks rflags ⟨spinUnlockCode lk, flags, top, some .unlock, (lk, saved) :: held⟩
  | clearLocked {lk saved flags top held} (sections : Sections handler locks ((lk, saved) :: held))
      (off : ¬interruptsOn rflags) :
      Place handler locks rflags ⟨(spinUnlockCode lk).drop 1, flags, top, some .unlock, (lk, saved) :: held⟩
  | loadIrqFlags {lk saved flags top held} (sections : Sections handler locks held)
      (masked : handler = true ∨ held ≠ [] → ¬interruptsOn saved) (loaded : (locks lk).irqFlags = saved)
      (new : lk ∉ held.map Prod.fst) (off : ¬interruptsOn rflags) :
      Place handler locks rflags ⟨(spinUnlockCode lk).drop 2, flags, top, some .unlock, (lk, saved) :: held⟩
  | pushFlags {lk saved top held} (sections : Sections handler locks held)
      (masked : handler = true ∨ held ≠ [] → ¬interruptsOn saved)
      (new : lk ∉ held.map Prod.fst) (off : ¬interruptsOn rflags) :
      Place handler locks rflags ⟨[.pushFlags, .popfq], saved, top, some .unlock, (lk, saved) :: held⟩
  | popfq {lk saved flags held} (sections : Sections handler locks held)
      (masked : handler = true ∨ held ≠ [] → ¬interruptsOn saved)
      (new : lk ∉ held.map Prod.fst) (off : ¬interruptsOn rflags) :
      Place handler locks rflags ⟨[.popfq], flags, saved, some .unlock, (lk, saved) :: held⟩

/-- The lock is free when spin_unlock has ended, and the interrupt flag is as it was just before the
matching spin_lock. -/
structure Released.Right (r : Released L) : Prop where
  free : r.locked = 0
  restored : interruptsOn r.after ↔ interruptsOn r.before

/-- An instruction ends well and leads to the next place. The last one of spin_unlock ends the call
with the lock free and the flags register as it was saved. -/
theorem Place.instruction {handler : Bool} {s : Machine L} (h : Place handler s.locks s.rflags s.running)
    (hcode : s.running.code ≠ []) :
    ∃ locks rflags c released, s.next .instruction = .ok ⟨locks, rflags, c, s.suspended, released⟩ ∧
      Place handler locks rflags c ∧ ∀ r ∈ released, r ∈ s.released ∨ r.Right := by
  obtain ⟨locks, rflags, c, suspended, released⟩ := s
  simp only at h hcode
  cases h with
  | between => exact absurd rfl hcode
  | pushfq hs hnew hm => exact ⟨_, _, _, _, rfl, .popFlags hs hnew hm, fun _ => .inl⟩
  | popFlags hs hnew hm => exact ⟨_, _, _, _, rfl, .cli hs hnew hm, fun _ => .inl⟩
  | cli hs hnew hm => exact ⟨_, _, _, _, rfl, .panicIfLocked hs hnew hm (not_interruptsOn_cli _), fun _ => .inl⟩
  | @panicIfLocked lk top entry held hs hnew hm hoff =>
    have hplace : Place handler locks rflags ⟨_, entry, top, _, _⟩ := .setLocked hs hnew hm hoff
    exact ⟨_, _, _, _, congrArg (Except.map Machine.endCall) (exec_panicIfLocked (hs.free hnew)), hplace, fun _ => .inl⟩
  | setLocked hs hnew hm hoff =>
    refine ⟨_, _, _, _, rfl, .setIrqFlags ?_ ?_ hoff, fun _ => .inl⟩
    · simp only [Function.update_idem]
      exact hs.take hnew hm
    · simp
  | setIrqFlags hs hlocked hoff =>
    refine ⟨_, _, _, _, rfl, .between ?_ fun _ => hoff, fun _ => .inl⟩
    simp only [hlocked]
    exact hs
  | @panicIfFree lk saved flags top held hs hoff =>
    have hplace : Place handler locks rflags ⟨_, flags, top, _, _⟩ := .clearLocked hs hoff
    have htaken : (locks lk).locked ≠ 0 := (hs.locked lk).2 (List.mem_cons_self ..)
    exact ⟨_, _, _, _, congrArg (Except.map Machine.endCall) (exec_panicIfFree htaken), hplace, fun _ => .inl⟩
  | clearLocked hs hoff =>
    refine ⟨_, _, _, _, rfl, .loadIrqFlags (hs.release _) hs.masked.1 ?_ (List.nodup_cons.1 hs.nodup).1 hoff,
      fun _ => .inl⟩
    rw [Function.update_self]
    exact hs.saved _ (List.mem_cons_self ..)
  | loadIrqFlags hs hm hloaded hnew hoff =>
    subst hloaded
    exact ⟨_, _, _, _, rfl, .pushFlags hs hm hnew hoff, fun _ => .inl⟩
  | pushFlags hs hm hnew hoff => exact ⟨_, _, _, _, rfl, .popfq hs hm hnew hoff, fun _ => .inl⟩
  | popfq hs hm hnew hoff =>
    refine ⟨_, _, _, _, rfl, .between hs hm, fun r hr => ?_⟩
    rcases List.mem_cons.1 hr with rfl | hr
    · exact .inr ⟨hs.free hnew, Iff.rfl⟩
    · exact .inl hr

omit [DecidableEq L] in
theorem Sections.nil {handler handler' : Bool} {locks : L → Spinlock} (h : Sections handler locks []) :
    Sections handler' locks [] := ⟨h.locked, h.saved, h.nodup, trivial⟩

/-- Between calls. -/
theorem Place.idle {handler : Bool} {locks : L → Spinlock} {rflags : UInt64} {c : Context L}
    (h : Place handler locks rflags c) (hcall : c.call = none) :
    c.code = [] ∧ Sections handler locks c.sections ∧
      (handler = true ∨ c.sections ≠ [] → ¬interruptsOn rflags) := by
  cases h with
  | between hs hm => exact ⟨rfl, hs, hm⟩
  | _ => cases hcall

/-- The locks of the sections that a context is inside are taken, and those of no section are free. -/
theorem Place.taken {handler : Bool} {locks : L → Spinlock} {rflags : UInt64} {c : Context L}
    (h : Place handler locks rflags c) :
    (∀ lk ∈ c.inside, (locks lk).locked ≠ 0) ∧ ∀ lk, lk ∉ c.entered → (locks lk).locked = 0 := by
  have hopen : ∀ {held : List (L × UInt64)} {lk : L}, Sections handler locks held →
      (∀ k ∈ held.map Prod.fst, (locks k).locked ≠ 0) ∧ ∀ k, k ∉ lk :: held.map Prod.fst → (locks k).locked = 0 :=
    fun hs => ⟨fun k hk => (hs.locked k).2 hk, fun k hk => hs.free fun hk' => hk (List.mem_cons_of_mem _ hk')⟩
  cases h with
  | between hs => exact ⟨fun k hk => (hs.locked k).2 hk, fun k hk => hs.free hk⟩
  | @setIrqFlags lk top entry held hs hlocked =>
    have hne : ∀ k, k ≠ lk → (Function.update locks lk ⟨1, entry⟩ k).locked = (locks k).locked := fun k hk => by
      rw [Function.update_of_ne hk]
    constructor
    · intro k hk
      have hk' : k ≠ lk := fun heq => (List.nodup_cons.1 hs.nodup).1 (heq ▸ hk)
      rw [← hne k hk']
      exact (hs.locked k).2 (List.mem_cons_of_mem _ hk)
    · intro k hk
      rw [← hne k fun heq => hk (heq ▸ List.mem_cons_self ..)]
      exact hs.free hk
  | panicIfFree hs => exact ⟨fun k hk => (hs.locked k).2 (List.mem_cons_of_mem _ hk), fun k hk => hs.free hk⟩
  | clearLocked hs => exact ⟨fun k hk => (hs.locked k).2 (List.mem_cons_of_mem _ hk), fun k hk => hs.free hk⟩
  | pushfq hs => exact hopen hs
  | popFlags hs => exact hopen hs
  | cli hs => exact hopen hs
  | panicIfLocked hs => exact hopen hs
  | setLocked hs => exact hopen hs
  | loadIrqFlags hs => exact hopen hs
  | pushFlags hs => exact hopen hs
  | popfq hs => exact hopen hs

/-- A context that was interrupted holds no lock and goes on, over whatever the locks are, as long as
they are all free. -/
structure Resumes (c : Context L) (rflags : UInt64) : Prop where
  none : c.locks = [] ∧ c.inside = []
  place : ∀ locks, Sections false locks [] → Place false locks rflags c

/-- With interrupts on, it is the main program that runs, and it holds no lock. -/
theorem Place.interrupted {handler : Bool} {locks : L → Spinlock} {rflags : UInt64} {c : Context L}
    (h : Place handler locks rflags c) (hon : interruptsOn rflags) :
    handler = false ∧ Sections false locks [] ∧ Resumes c rflags := by
  have hopen : ∀ {held : List (L × UInt64)}, (handler = true ∨ held ≠ [] → ¬interruptsOn rflags) →
      handler = false ∧ held = [] := by
    intro held hm
    have hno : ¬(handler = true ∨ held ≠ []) := fun h' => hm h' hon
    simpa using hno
  cases h with
  | between hs hm =>
    obtain ⟨rfl, rfl⟩ := hopen hm
    exact ⟨rfl, hs, ⟨rfl, rfl⟩, fun _ hs' => .between hs' (by simp)⟩
  | pushfq hs hnew hm =>
    obtain ⟨rfl, rfl⟩ := hopen hm
    exact ⟨rfl, hs, ⟨rfl, rfl⟩, fun _ hs' => .pushfq hs' hnew (by simp)⟩
  | popFlags hs hnew hm =>
    obtain ⟨rfl, rfl⟩ := hopen hm
    exact ⟨rfl, hs, ⟨rfl, rfl⟩, fun _ hs' => .popFlags hs' hnew (by simp)⟩
  | cli hs hnew hm =>
    obtain ⟨rfl, rfl⟩ := hopen hm
    exact ⟨rfl, hs, ⟨rfl, rfl⟩, fun _ hs' => .cli hs' hnew (by simp)⟩
  | _ => exact absurd hon ‹¬interruptsOn rflags›

/-- No lock is taken while interrupts are on. -/
theorem Place.free {handler : Bool} {locks : L → Spinlock} {rflags : UInt64} {c : Context L}
    (h : Place handler locks rflags c) (hon : interruptsOn rflags) (lk : L) : (locks lk).locked = 0 ∧ lk ∉ c.locks := by
  obtain ⟨-, hs, hr⟩ := h.interrupted hon
  refine ⟨hs.free List.not_mem_nil, ?_⟩
  rw [hr.none.1]
  exact List.not_mem_nil

/-! ## Runs -/

/-- What is under a context: nothing under the main program, the main program under a handler. -/
inductive Below : Bool → List (Context L × UInt64) → Prop
  | main : Below false []
  | handler {c rflags} : Resumes c rflags → Below true [(c, rflags)]

structure Inv (handler : Bool) (s : Machine L) : Prop where
  place : Place handler s.locks s.rflags s.running
  below : Below handler s.suspended
  released : ∀ r ∈ s.released, r.Right

theorem Inv.boot (rflags : UInt64) : Inv false (Machine.boot rflags : Machine L) :=
  ⟨.between ⟨by simp [Machine.boot, spinlockInit], by simp, List.nodup_nil, trivial⟩ (by simp), .main, nofun⟩

/-- An event ends well and leads to a state of the same kind. -/
theorem Inv.step {handler : Bool} {s : Machine L} (h : Inv handler s) (e : Event L) :
    ∃ s' handler', s.step e = .ok s' ∧ Inv handler' s' := by
  by_cases henabled : s.Enabled e
  · obtain ⟨locks, rflags, ⟨code, flags, top, call, held⟩, suspended, released⟩ := s
    obtain ⟨hplace, hbelow, hreleased⟩ := h
    unfold Machine.step
    rw [if_pos henabled]
    simp only at hplace hbelow hreleased
    cases e with
    | work rflags' =>
      obtain ⟨rfl, hflags⟩ := henabled
      obtain ⟨rfl, hs, hm⟩ := hplace.idle rfl
      refine ⟨_, handler, rfl, .between hs ?_, hbelow, hreleased⟩
      rcases hflags with hsame | ⟨rfl, rfl⟩
      · rw [hsame]
        exact hm
      · cases hbelow
        simp
    | lock lk =>
      obtain ⟨rfl, hnew⟩ := henabled
      obtain ⟨rfl, hs, hm⟩ := hplace.idle rfl
      exact ⟨_, handler, rfl, .pushfq hs hnew hm, hbelow, hreleased⟩
    | unlock =>
      obtain ⟨rfl, hheld⟩ := henabled
      obtain ⟨rfl, hs, hm⟩ := hplace.idle rfl
      obtain ⟨⟨lk, saved⟩, held, rfl⟩ := List.exists_cons_of_ne_nil hheld
      exact ⟨_, handler, rfl, .panicIfFree hs (hm (.inr hheld)), hbelow, hreleased⟩
    | instruction =>
      obtain ⟨_, _, _, _, hnext, hplace', hnew⟩ :=
        Place.instruction (s := ⟨locks, rflags, ⟨code, flags, top, call, held⟩, suspended, released⟩) hplace henabled
      exact ⟨_, handler, hnext, hplace', hbelow, fun r hr => (hnew r hr).elim (hreleased r) id⟩
    | interrupt =>
      obtain ⟨rfl, hs, hr⟩ := hplace.interrupted henabled
      cases hbelow with
      | main => exact ⟨_, true, rfl, .between hs.nil fun _ => not_interruptsOn_cli _, .handler hr, hreleased⟩
    | iret =>
      obtain ⟨rfl, rfl, hne⟩ := henabled
      obtain ⟨rfl, hs, -⟩ := hplace.idle rfl
      cases hbelow with
      | main => exact absurd rfl hne
      | handler hr => exact ⟨_, false, rfl, hr.place _ hs.nil, .main, hreleased⟩
  · exact ⟨s, handler, if_neg henabled, h⟩

/-- What holds in every state: no two contexts hold a lock; interrupts are off while a lock is held;
the lock of every section is taken, but for the one a call of its context is about, and with no section
it is free; and every spin_unlock that has ended left its lock free and the interrupt flag as it was
just before the spin_lock that opened the section. -/
structure Safe (s : Machine L) : Prop where
  exclusive : s.contexts.Pairwise fun c d => ∀ lk ∈ c.locks, lk ∉ d.locks
  masked : ∀ lk, ((s.locks lk).locked ≠ 0 ∨ ∃ c ∈ s.contexts, lk ∈ c.locks) → ¬interruptsOn s.rflags
  taken : ∀ c ∈ s.contexts, ∀ lk ∈ c.inside, (s.locks lk).locked ≠ 0
  free : ∀ lk, (∀ c ∈ s.contexts, lk ∉ c.entered) → (s.locks lk).locked = 0
  released : ∀ r ∈ s.released, r.Right

theorem Below.none {handler : Bool} {suspended : List (Context L × UInt64)} (h : Below handler suspended) :
    ∀ c ∈ suspended.map Prod.fst, c.locks = [] ∧ c.inside = [] := by
  cases h with
  | main => exact fun c hc => absurd hc List.not_mem_nil
  | handler hr =>
    intro c hc
    obtain rfl := List.mem_singleton.1 hc
    exact hr.none

theorem Inv.safe {handler : Bool} {s : Machine L} (h : Inv handler s) : Safe s := by
  have hnone := h.below.none
  obtain ⟨htaken, hfree⟩ := h.place.taken
  refine ⟨?_, ?_, ?_, fun lk hlk => hfree lk (hlk _ (List.mem_cons_self ..)), h.released⟩
  · refine List.pairwise_cons.2 ⟨fun d hd lk _ => ?_, List.pairwise_of_forall_mem_list fun c _ d hd lk _ => ?_⟩
    · rw [(hnone d hd).1]
      exact List.not_mem_nil
    · rw [(hnone d hd).1]
      exact List.not_mem_nil
  · rintro lk (hlocked | ⟨c, hc, hlk⟩) hon
    · exact hlocked (h.place.free hon lk).1
    · rcases List.mem_cons.1 hc with rfl | hc
      · exact (h.place.free hon lk).2 hlk
      · rw [(hnone c hc).1] at hlk
        exact List.not_mem_nil hlk
  · intro c hc lk hlk
    rcases List.mem_cons.1 hc with rfl | hc
    · exact htaken lk hlk
    · rw [(hnone c hc).2] at hlk
      exact absurd hlk List.not_mem_nil

/-- From all locks initialised and the main program with any flags register, whatever happens next and
however it is interleaved: neither panic is reached, and every state is safe. -/
theorem spinlocks_exclude (rflags : UInt64) (es : List (Event L)) :
    ∃ s, Machine.run es (Machine.boot rflags) = .ok s ∧ Safe s := by
  have hstep : ∀ (s : Machine L) e, (∃ handler, Inv handler s) →
      ∃ s', s.step e = .ok s' ∧ ∃ handler, Inv handler s' := by
    rintro s e ⟨handler, h⟩
    obtain ⟨s', handler', hs', h'⟩ := h.step e
    exact ⟨s', hs', handler', h'⟩
  obtain ⟨s, hrun, handler, h⟩ := Run.foldlM_inv _ hstep es (Machine.boot rflags) ⟨false, Inv.boot rflags⟩
  exact ⟨s, hrun, h.safe⟩

/-- A handler takes and releases the first lock while the main program has called spin_lock for it and not
yet turned interrupts off; the main program then gets it, and the second lock within. -/
def nestedEvents : List (Event Bool) :=
  [.lock false, .instruction, .interrupt, .lock false] ++ List.replicate 6 .instruction ++ [.unlock] ++
    List.replicate 5 .instruction ++ [.iret] ++ List.replicate 5 .instruction ++ [.lock true] ++
    List.replicate 6 .instruction

theorem spinlocks_exclude_nested : ∃ s, Machine.run nestedEvents (Machine.boot 0x202) = .ok s ∧ Safe s ∧
    s.running.locks = [true, false] ∧ (s.locks true).locked = 1 ∧ (s.locks false).locked = 1 ∧ s.rflags = 0x002 ∧
    s.released = [⟨false, 0x002, 0x002, 0⟩] := by
  obtain ⟨s, hrun, hsafe⟩ := spinlocks_exclude 0x202 nestedEvents
  have hend : (Machine.run nestedEvents (Machine.boot 0x202)).toOption.map (fun s =>
      (s.running.locks, (s.locks true).locked, (s.locks false).locked, s.rflags, s.released)) =
      some ([true, false], 1, 1, 0x002, [⟨false, 0x002, 0x002, 0⟩]) := by
    decide
  rw [hrun] at hend
  simp only [Except.toOption, Option.map_some, Option.some.injEq, Prod.mk.injEq] at hend
  exact ⟨s, hrun, hsafe, hend⟩

end SnakeOS.Kernel
