/-
The memory map: `get_memory_map` of boot/x86/stage1/utils_real_mode.asm collects it from the BIOS
in real mode, and drivers/init_ram.c reads it in long mode. CX serves as the entry counter and, as
the low half of ECX, as the buffer size that every call of the BIOS takes and returns.
-/
import SnakeOS.Lib.Mem
import SnakeOS.Boot.Real

namespace SnakeOS.Boot

open Mem

/-! ## What the BIOS reports -/

/-- The 20 bytes of an address range descriptor. -/
abbrev Descriptor : Type := Vector UInt8 20

def Descriptor.byte (d : Descriptor) (i : Nat) : UInt8 := d.getD i 0

/-- The replies of `INT 15h, EAX = E820h` to the calls made one after another: a descriptor and a
continuation value that is not zero, the last descriptor with `EBX = 0`, or carry set and the
registers as the BIOS leaves them. -/
inductive Report
  | next (d : Descriptor) (ebx : BitVec 32) (more : ebx ≠ 0) (rest : Report)
  | last (d : Descriptor)
  | carry (eax ebx ecx edx : BitVec 32)

/-- The ranges reported. -/
def Report.ranges : Report → List Descriptor
  | .next d _ _ rest => d :: rest.ranges
  | .last d => [d]
  | .carry .. => []

/-- The way the list ends. -/
inductive Ending
  | ebxZero
  | carry (ecx : BitVec 32)

def Report.ending : Report → Ending
  | .next _ _ _ rest => rest.ending
  | .last _ => .ebxZero
  | .carry _ _ ecx _ => .carry ecx

/-! ## The real-mode machine -/

structure Regs where
  eax : BitVec 32
  ebx : BitVec 32
  ecx : BitVec 32
  edx : BitVec 32
  esi : BitVec 32
  edi : BitVec 32
  ebp : BitVec 32
  deriving DecidableEq

/-- `stores` is no part of the machine: it lists the descriptors stored and their addresses. -/
structure Machine where
  regs : Regs
  ds : BitVec 16
  es : BitVec 16
  cf : Bool
  mem : Nat → UInt8
  stores : List (Nat × Descriptor)

def low (r : BitVec 32) : BitVec 16 := r.extractLsb' 0 16

/-- `r` with its low half set to `x`. -/
def setLow (r : BitVec 32) (x : BitVec 16) : BitVec 32 := r.extractLsb' 16 16 ++ x

abbrev SMAP : BitVec 32 := 0x534D4150

/-- A call that succeeds writes a descriptor at `ES:DI`. -/
def int15 (d : Descriptor) (ebx : BitVec 32) (m : Machine) : Machine :=
  let a := linear m.es (low m.regs.edi)
  { m with
    regs := { m.regs with eax := SMAP, ebx, ecx := 20 }
    cf := false
    mem := blit a 20 d.byte m.mem
    stores := m.stores ++ [(a, d)] }

def int15Fails (eax ebx ecx edx : BitVec 32) (m : Machine) : Machine :=
  { m with regs := { m.regs with eax, ebx, ecx, edx }, cf := true }

/-! ## `get_memory_map` -/

/-- `.next_entry` up to the BIOS call. -/
def request (m : Machine) : Machine :=
  { m with regs := { m.regs with eax := 0xE820, edx := SMAP, ecx := 20 } }

/-- From the BIOS call to `jnz .next_entry`: whether the jump is taken. -/
def countEntry (m : Machine) : Machine × Bool :=
  if m.cf then (m, false)
  else if m.regs.eax ≠ SMAP then (m, false)
  else if m.regs.ecx < 20 then (m, false)
  else
    let regs := { m.regs with edi := setLow m.regs.edi (low m.regs.edi + 20) }
    let regs := { regs with ecx := setLow regs.ecx (low regs.ecx + 1) }
    ({ m with regs }, regs.ebx ≠ 0)

/-- `mov [0x5FFD], cx`. -/
def storeCount (m : Machine) : Machine :=
  { m with mem := blitWord (linear m.ds 0x5FFD) (low m.regs.ecx) m.mem }

/-- The loop; `none` when the BIOS is called once more after its last reply. -/
def nextEntry : Report → Machine → Option Machine
  | .next d ebx _ rest, m =>
    let (m, again) := countEntry (int15 d ebx (request m))
    if again then nextEntry rest m else some (storeCount m)
  | .last d, m =>
    let (m, again) := countEntry (int15 d 0 (request m))
    if again then none else some (storeCount m)
  | .carry eax ebx ecx edx, m =>
    let (m, again) := countEntry (int15Fails eax ebx ecx edx (request m))
    if again then none else some (storeCount m)

/-- `pushad` and `popad` keep the registers in a frame that no other instruction touches. -/
def getMemoryMap (bios : Report) (m : Machine) : Option Machine := do
  let regs := { m.regs with ebx := setLow m.regs.ebx 0, ecx := setLow m.regs.ecx 0 }
  let m' ← nextEntry bios { m with regs }
  return { m' with regs := m.regs }

/-- The end of stage0, which sets the segments, and the call from `enter_stage1`. -/
def enterStage1 (bios : Report) (m : Machine) : Option Machine :=
  getMemoryMap bios { m with ds := 0x8000, es := 0x8000, regs := { m.regs with edi := setLow m.regs.edi 0x6000 } }

/-! ## The kernel's view -/

structure RamEntry where
  base : Nat
  length : Nat
  type : Nat
  deriving DecidableEq, Repr

/-- The packed `struct ram_entry` at `a`. -/
def readRamEntry (mem : Nat → UInt8) (a : Nat) : RamEntry :=
  ⟨littleEndian mem a 8, littleEndian mem (a + 8) 8, littleEndian mem (a + 16) 4⟩

/-- `*ram_entries`. -/
def ramEntries (mem : Nat → UInt8) : Nat := littleEndian mem 0x85FFD 2

/-- The entries that `print_ram_map` goes through. -/
def ramMap (mem : Nat → UInt8) : List RamEntry :=
  (List.range (ramEntries mem)).map fun i => readRamEntry mem (0x86000 + 20 * i)

/-- The entry of a descriptor. -/
def Descriptor.entry (d : Descriptor) : RamEntry := readRamEntry d.byte 0

/-! ## The loop -/

/-- The descriptors and the addresses they are stored at when `DI` starts at `di`. -/
def storesFrom (di : BitVec 16) : List Descriptor → List (Nat × Descriptor)
  | [] => []
  | d :: ds => (linear 0x8000 di, d) :: storesFrom (di + 20) ds

/-- The memory after these stores. -/
def memoryAfter (stores : List (Nat × Descriptor)) (mem : Nat → UInt8) : Nat → UInt8 :=
  stores.foldl (fun mem (a, d) => blit a 20 d.byte mem) mem

/-- What `.done` stores as the count. -/
def Report.count (bios : Report) : BitVec 16 :=
  match bios.ending with
  | .ebxZero => 21
  | .carry ecx => low ecx

@[simp] theorem low_setLow (r : BitVec 32) (x : BitVec 16) : low (setLow r x) = x :=
  BitVec.extractLsb'_append_eq_right

/-- The machine after one entry is stored and counted. -/
def counted (d : Descriptor) (ebx : BitVec 32) (m : Machine) : Machine :=
  { m with
    regs := { m.regs with
      eax := SMAP, ebx, ecx := 21, edx := SMAP, edi := setLow m.regs.edi (low m.regs.edi + 20) }
    cf := false
    mem := blit (linear m.es (low m.regs.edi)) 20 d.byte m.mem
    stores := m.stores ++ [(linear m.es (low m.regs.edi), d)] }

/-- Whatever CX was, after an entry it is 21. -/
theorem countEntry_int15 (d : Descriptor) (ebx : BitVec 32) (m : Machine) :
    countEntry (int15 d ebx (request m)) = (counted d ebx m, decide (ebx ≠ 0)) := by
  unfold countEntry int15 request
  simp only [Bool.false_eq_true, if_false, ne_eq, not_true, show ¬(20 : BitVec 32) < 20 by decide]
  have h21 : setLow 20 (low 20 + 1) = 21 := by decide
  rw [h21]
  rfl

theorem nextEntry_spec (bios : Report) (m : Machine) (hds : m.ds = 0x8000) (hes : m.es = 0x8000) :
    ∃ m', nextEntry bios m = some m' ∧
      m'.stores = m.stores ++ storesFrom (low m.regs.edi) bios.ranges ∧
      m'.mem = blitWord 0x85FFD bios.count (memoryAfter (storesFrom (low m.regs.edi) bios.ranges) m.mem) := by
  have hcount : linear m.ds 0x5FFD = 0x85FFD := by rw [hds]; rfl
  induction bios generalizing m with
  | next d ebx more rest ih =>
    obtain ⟨m', hrun, hstores, hmem⟩ := ih (counted d ebx m) hds hes hcount
    have hdi : low (counted d ebx m).regs.edi = low m.regs.edi + 20 := low_setLow ..
    rw [hdi] at hstores hmem
    refine ⟨m', ?_, ?_, ?_⟩
    · simp only [nextEntry, countEntry_int15, more, ne_eq, not_false_eq_true, decide_true, if_true]
      exact hrun
    · rw [hstores]
      simp [counted, Report.ranges, storesFrom, hes]
    · rw [hmem]
      simp [counted, Report.ranges, storesFrom, memoryAfter, hes, Report.count, Report.ending]
  | last d =>
    refine ⟨storeCount (counted d 0 m), ?_, ?_, ?_⟩
    · simp [nextEntry, countEntry_int15]
    · simp [storeCount, counted, Report.ranges, storesFrom, hes]
    · simp only [storeCount, counted, hcount, hes]
      rfl
  | carry eax ebx ecx edx =>
    refine ⟨storeCount (int15Fails eax ebx ecx edx (request m)), ?_, ?_, ?_⟩
    · simp [nextEntry, countEntry, int15Fails]
    · simp [storeCount, int15Fails, request, Report.ranges, storesFrom]
    · simp only [storeCount, int15Fails, request, hcount]
      rfl

/-! ## Consecutive entries -/

/-- The descriptors stored consecutively from `a` on. -/
def consecutive : Nat → List Descriptor → List (Nat × Descriptor)
  | _, [] => []
  | a, d :: ds => (a, d) :: consecutive (a + 20) ds

/-- The addresses are consecutive until `DI` wraps around. -/
theorem storesFrom_eq_iff (di : BitVec 16) (ds : List Descriptor) :
    storesFrom di ds = consecutive (0x80000 + di.toNat) ds ↔ ds ≠ [] → di.toNat + 20 * (ds.length - 1) < 2 ^ 16 := by
  induction ds generalizing di with
  | nil => simp [storesFrom, consecutive]
  | cons d ds ih =>
    have hdi := di.isLt
    have hhead : linear 0x8000 di = 0x80000 + di.toNat := rfl
    simp only [storesFrom, consecutive, hhead, List.cons.injEq, true_and, ne_eq, reduceCtorEq, not_false_eq_true,
      true_imp_iff, List.length_cons, Nat.add_sub_cancel]
    by_cases hwrap : di.toNat + 20 < 2 ^ 16
    · have hnext : (di + 20).toNat = di.toNat + 20 := by
        rw [BitVec.toNat_add]
        exact Nat.mod_eq_of_lt hwrap
      rw [Nat.add_assoc, ← hnext, ih, hnext]
      cases ds with
      | nil => simp; omega
      | cons d' ds => simp; omega
    · cases ds with
      | nil => exact iff_of_true rfl (by simpa using hdi)
      | cons d' ds =>
        refine iff_of_false (fun heq => ?_) (by simp; omega)
        have haddr : linear 0x8000 (di + 20) = 0x80000 + di.toNat + 20 := (Prod.mk.inj (List.cons.inj heq).1).1
        have hlt : linear 0x8000 (di + 20) = 0x80000 + (di + 20).toNat := rfl
        have := (di + 20).isLt
        omega

theorem memoryAfter_consecutive (a : Nat) (ds : List Descriptor) (mem : Nat → UInt8) :
    memoryAfter (consecutive a ds) mem = blits 20 a (ds.map Descriptor.byte) mem := by
  induction ds generalizing a mem with
  | nil => rfl
  | cons d ds ih => exact ih (a + 20) _

/-! ## The map as the kernel sees it -/

/-- The descriptors are stored in order from `0x8000:0x6000`, the count is their number, and the
kernel sees the map that was reported. -/
structure MapRight (bios : Report) (m m' : Machine) : Prop where
  stores : m'.stores = m.stores ++ consecutive 0x86000 bios.ranges
  count : ramEntries m'.mem = bios.ranges.length
  view : ramMap m'.mem = bios.ranges.map Descriptor.entry

/-- The list ends with `EBX = 0` after 21 ranges; or it ends with carry, with the number of ranges
in CX as the BIOS leaves it, and they fit the segment. -/
def CountRight (bios : Report) : Prop :=
  match bios.ending with
  | .ebxZero => bios.ranges.length = 21
  | .carry ecx => (low ecx).toNat = bios.ranges.length ∧ bios.ranges.length ≤ 2048

theorem countRight_iff (bios : Report) :
    CountRight bios ↔ bios.ranges.length ≤ 2048 ∧ bios.count.toNat = bios.ranges.length := by
  unfold CountRight Report.count
  cases bios.ending with
  | ebxZero =>
    constructor
    · intro h; exact ⟨by omega, h.symm⟩
    · exact fun h => h.2.symm
  | carry ecx => exact and_comm

theorem enterStage1_spec (bios : Report) (m : Machine) : ∃ m', enterStage1 bios m = some m' ∧
    m'.stores = m.stores ++ storesFrom 0x6000 bios.ranges ∧
    m'.mem = blitWord 0x85FFD bios.count (memoryAfter (storesFrom 0x6000 bios.ranges) m.mem) := by
  let regs := { m.regs with edi := setLow m.regs.edi 0x6000 }
  let m₀ : Machine := { m with
    ds := 0x8000, es := 0x8000, regs := { regs with ebx := setLow regs.ebx 0, ecx := setLow regs.ecx 0 } }
  obtain ⟨m', hrun, hstores, hmem⟩ := nextEntry_spec bios m₀ rfl rfl
  have hdi : low m₀.regs.edi = 0x6000 := low_setLow ..
  rw [hdi] at hstores hmem
  refine ⟨{ m' with regs }, ?_, hstores, hmem⟩
  show (nextEntry bios m₀ >>= fun m' => some { m' with regs }) = _
  rw [hrun]
  rfl

theorem readRamEntry_congr {mem mem' : Nat → UInt8} {a a' : Nat} (h : ∀ j < 20, mem (a + j) = mem' (a' + j)) :
    readRamEntry mem a = readRamEntry mem' a' := by
  have hat : ∀ k n, k + n ≤ 20 → littleEndian mem (a + k) n = littleEndian mem' (a' + k) n := by
    intro k n hk
    refine littleEndian_congr fun i hi => ?_
    rw [Nat.add_assoc, Nat.add_assoc]
    exact h (k + i) (by omega)
  unfold readRamEntry
  rw [hat 8 8 (by omega), hat 16 4 (by omega), ← Nat.add_zero a, hat 0 8 (by omega), Nat.add_zero]

/-- The kernel reads the descriptors stored from `0x86000` on back as entries. -/
theorem readRamEntry_stored {ds : List Descriptor} {i : Nat} (hi : i < ds.length) (count : BitVec 16)
    (mem : Nat → UInt8) :
    readRamEntry (blitWord 0x85FFD count (blits 20 0x86000 (ds.map Descriptor.byte) mem)) (0x86000 + 20 * i) =
      ds[i].entry := by
  have hbyte : ∀ j < 20, blitWord 0x85FFD count (blits 20 0x86000 (ds.map Descriptor.byte) mem) (0x86000 + 20 * i + j) =
      ds[i].byte j := by
    intro j hj
    unfold blitWord
    rw [blit_outside (by omega), blits_inside hj _ mem (by simpa using hi), List.getElem_map]
  refine readRamEntry_congr fun j hj => ?_
  rw [Nat.zero_add]
  exact hbyte j hj

theorem mapRight_iff {bios : Report} {m m' : Machine} (hstores : m'.stores = m.stores ++ storesFrom 0x6000 bios.ranges)
    (hmem : m'.mem = blitWord 0x85FFD bios.count (memoryAfter (storesFrom 0x6000 bios.ranges) m.mem)) :
    MapRight bios m m' ↔ CountRight bios := by
  have hfit : storesFrom 0x6000 bios.ranges = consecutive 0x86000 bios.ranges ↔ bios.ranges.length ≤ 2048 := by
    refine (storesFrom_eq_iff 0x6000 bios.ranges).trans ?_
    have h6000 : (0x6000 : BitVec 16).toNat = 0x6000 := rfl
    rw [h6000, ← List.length_pos_iff]
    omega
  have hcount : ramEntries m'.mem = bios.count.toNat := by
    rw [hmem]
    exact littleEndian_blitWord ..
  rw [countRight_iff]
  constructor
  · intro h
    exact ⟨hfit.1 (List.append_cancel_left (hstores.symm.trans h.stores)), hcount.symm.trans h.count⟩
  · rintro ⟨hlen, hn⟩
    have hcons := hfit.2 hlen
    refine ⟨by rw [hstores, hcons], hcount.trans hn, ?_⟩
    unfold ramMap
    rw [hcount, hn, hmem, hcons, memoryAfter_consecutive]
    apply List.ext_getElem
    · simp
    · intro i h1 h2
      rw [List.getElem_map, List.getElem_range, List.getElem_map]
      exact readRamEntry_stored _ _ _

/-- Whatever the BIOS reports, `get_memory_map` returns; the kernel sees the reported map exactly
when the count that is left is right. -/
theorem memory_map_iff (bios : Report) (m : Machine) :
    ∃ m', enterStage1 bios m = some m' ∧ (MapRight bios m m' ↔ CountRight bios) := by
  obtain ⟨m', hrun, hstores, hmem⟩ := enterStage1_spec bios m
  exact ⟨m', hrun, mapRight_iff hstores hmem⟩

/-- A single range, reported with `EBX = 0`. -/
def oneRange : Report := .last (Vector.replicate 20 1)

def blankMachine : Machine := ⟨⟨0, 0, 0, 0, 0, 0, 0⟩, 0, 0, false, fun _ => 0, []⟩

/-- One range is reported and 21 are counted. -/
theorem memory_map_wrong : ¬∃ m', enterStage1 oneRange blankMachine = some m' ∧ MapRight oneRange blankMachine m' := by
  rintro ⟨m', hrun, hright⟩
  obtain ⟨m'', hrun', hstores, hmem⟩ := enterStage1_spec oneRange blankMachine
  obtain rfl := Option.some.inj (hrun.symm.trans hrun')
  have hcount : oneRange.ranges.length = 21 := (mapRight_iff hstores hmem).1 hright
  exact absurd hcount (by decide)

end SnakeOS.Boot
