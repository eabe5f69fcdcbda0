/-
The way from stage0 to `kmain`: stage0 loads the FAT, stage1.bin and kernel.bin, and stage1 collects the
memory map, opens the A20 gate and goes through protected and long mode to the kernel.
-/
import SnakeOS.Boot.LoadFile
import SnakeOS.Boot.Long

namespace SnakeOS.Boot

open Mem

/-! ## `main` of stage0 -/

namespace Stage0

abbrev stage1_load_segment : BitVec 16 := 0x8000
abbrev kernel_load_segment : BitVec 16 := 0x9000
abbrev bdb_reserved_sectors : BitVec 8 := 1
abbrev bdb_sectors_per_fat : BitVec 8 := 9

/-- The call of `load_file` for a segment. -/
def loadSegment (bios : Bios) (fuel : Nat) (segment cluster : BitVec 16) (m : Machine) : Option (Run Machine) :=
  let m := { m with regs.bx := segment }
  let m := { m with es := m.regs.bx }
  let m := { m with regs.bx := 0 }
  let m := { m with regs.ax := cluster }
  loadFile bpb bios fuel { m with regs.si := buffer }

/-- `main` from the load of the FAT to the jump to stage1, with the clusters that `search_file` found. -/
def loadFiles (bios : Bios) (fuel : Nat) (stage1_cluster kernel_cluster : BitVec 16) (m : Machine) :
    Option (Run Machine) :=
  let m := { m with ds := 0, es := 0 }
  let m := m.print "Load FAT12\r\n"
  let m := { m with regs.bx := buffer }
  let m := { m with regs.ax := setLo m.regs.ax bdb_reserved_sectors }
  let m := { m with regs.ax := setHi m.regs.ax bdb_sectors_per_fat }
  match diskRead bpb bios m with
  | .error stop => some (.error stop)
  | .ok m =>
    match loadSegment bios fuel stage1_load_segment stage1_cluster m with
    | some (.ok m) => loadSegment bios fuel kernel_load_segment kernel_cluster m
    | stopped => stopped

/-- A boot disk: the two files, of at most 64 KiB each, and the clusters they start at. -/
structure BootDisk where
  volume : Volume
  stage1 : List Nat
  kernel : List Nat
  stage1_cluster : BitVec 16
  kernel_cluster : BitVec 16
  stage1_file : volume.IsFile stage1
  kernel_file : volume.IsFile kernel
  stage1_head : stage1.head? = some stage1_cluster.toNat
  kernel_head : kernel.head? = some kernel_cluster.toNat
  stage1_length : stage1.length ≤ 128
  kernel_length : kernel.length ≤ 128

/-- The memory after the sectors read for a file are stored from `a` on. -/
def Volume.load (v : Volume) (chain : List Nat) (a : Nat) (m : Nat → UInt8) : Nat → UInt8 :=
  blits 512 a (chain.map fun c => v.byte (sectorRead c)) m

/-- The memory after the FAT is stored. -/
def Volume.loadFat (v : Volume) (m : Nat → UInt8) : Nat → UInt8 :=
  blits 512 0x7E00 ((List.range 9).map fun i => v.byte (1 + i)) m

def BootDisk.load (d : BootDisk) (m : Nat → UInt8) : Nat → UInt8 :=
  d.volume.load d.kernel 0x90000 (d.volume.load d.stage1 0x80000 (d.volume.loadFat m))

theorem Volume.load_outside {v : Volume} {chain : List Nat} {a k : Nat} (h : k < a ∨ a + 512 * chain.length ≤ k)
    (m : Nat → UInt8) : v.load chain a m k = m k :=
  blits_outside 512 _ m (by simpa using h)

/-- The byte of a file in the `i`-th of the sectors loaded for it. -/
theorem Volume.load_inside (v : Volume) (chain : List Nat) {i j : Nat} (hi : i < chain.length) (hj : j < 512) (a : Nat)
    (m : Nat → UInt8) : v.load chain a m (a + 512 * i + j) = v.byte (sectorRead chain[i]) j := by
  unfold Volume.load
  rw [blits_inside hj _ m (by simpa using hi), List.getElem_map]

theorem Volume.loadFat_inside (v : Volume) (m : Nat → UInt8) {i : Nat} (hi : i < 4608) :
    v.loadFat m (0x7E00 + i) = v.fat i := by
  have hsplit : 0x7E00 + i = 0x7E00 + 512 * (i / 512) + i % 512 := by omega
  unfold Volume.loadFat
  rw [hsplit, blits_inside (Nat.mod_lt _ (by decide)) _ m (by simp; omega), List.getElem_map, List.getElem_range]
  rfl

/-- A file is loaded to a segment above the FAT. -/
theorem loadSegment_spec {v : Volume} {chain : List Nat} (segment : BitVec 16) {cluster : BitVec 16} {m : Machine}
    (hfile : v.IsFile chain) (hhead : chain.head? = some cluster.toNat) (hlen : chain.length ≤ 128) (hds : m.ds = 0)
    (hseg : 0x900 ≤ segment.toNat ∧ segment.toNat ≤ 0x9000) (hfat : ∀ i < 4608, m.mem (0x7E00 + i) = v.fat i) :
    ∃ m', (∀ fuel, 128 ≤ fuel → loadSegment v.bios fuel segment cluster m = some (.ok m')) ∧ Loading v m' ∧
      m'.mem = v.load chain (linear segment 0) m.mem := by
  let called : Machine := { m with es := segment, regs.bx := 0, regs.ax := cluster, regs.si := buffer }
  have hloading : Loading v called := ⟨hds, rfl, hseg, hfat⟩
  have hroom : called.regs.bx.toNat + 512 * chain.length ≤ 2 ^ 16 := by
    show 0 + 512 * chain.length ≤ _
    omega
  obtain ⟨m', hrun, hloading', hall⟩ := loadFile_run hfile hloading hhead hroom
  exact ⟨m', fun fuel hfuel => hrun fuel (by omega), hloading', hall.mem⟩

/-- Whatever the registers and the memory are, the two files are loaded. -/
theorem loadFiles_spec (d : BootDisk) (m : Machine) :
    ∃ m', (∀ fuel, 128 ≤ fuel → loadFiles d.volume.bios fuel d.stage1_cluster d.kernel_cluster m = some (.ok m')) ∧
      m'.mem = d.load m.mem := by
  let asked : Machine := { { m with ds := 0, es := 0 }.print "Load FAT12\r\n" with
    regs.bx := buffer, regs.ax := setHi (setLo m.regs.ax bdb_reserved_sectors) bdb_sectors_per_fat }
  obtain ⟨ax, q, hread, hcount, haddr⟩ := @diskRead_success bpb d.volume.bios asked bpb_valid rfl
  have hsectors : q.sectors d.volume.bios.sectorsPerTrack d.volume.bios.heads = _ := haddr.sectors_eq
  have hal : (lo asked.regs.ax).toNat = 1 := by
    show (lo (setHi (setLo m.regs.ax bdb_reserved_sectors) bdb_sectors_per_fat)).toNat = _
    rw [lo_setHi, lo_setLo]
    rfl
  have hah : (hi asked.regs.ax).toNat = 9 := by
    show (hi (setHi (setLo m.regs.ax bdb_reserved_sectors) bdb_sectors_per_fat)).toNat = _
    rw [hi_setHi]
    rfl
  rw [hal, hcount, hah] at hsectors
  have hbuffer : linear asked.es asked.regs.bx = 0x7E00 := by
    show linear 0 buffer = 0x7E00
    decide
  rw [hsectors, List.map_map, hbuffer] at hread
  let read : Machine := { asked with
    regs.ax := ax
    cf := false
    mem := d.volume.loadFat m.mem
    requests := asked.requests ++ [q]
    printed := asked.printed ++ Byte.text "Read finished\r\n" }
  have hread : diskRead bpb d.volume.bios asked = .ok read := hread
  obtain ⟨m₁, hrun₁, hloading₁, hmem₁⟩ := loadSegment_spec (m := read) stage1_load_segment d.stage1_file d.stage1_head
    d.stage1_length rfl (by decide) (fun i hi => d.volume.loadFat_inside m.mem hi)
  obtain ⟨m₂, hrun₂, -, hmem₂⟩ := loadSegment_spec (m := m₁) kernel_load_segment d.kernel_file d.kernel_head
    d.kernel_length hloading₁.ds (by decide) hloading₁.fat
  refine ⟨m₂, fun fuel hfuel => ?_, ?_⟩
  · unfold loadFiles
    show (match diskRead bpb d.volume.bios asked with | .error stop => _ | .ok m => _) = _
    rw [hread]
    simp only [hrun₁ fuel hfuel, hrun₂ fuel hfuel]
  · rw [hmem₂, hmem₁]
    rfl

end Stage0

/-! ## The A20 gate -/

/-- An address as it reaches memory: with the gate closed bit 20 is zero. -/
def gate (a20 : Bool) (a : Nat) : Nat := if a20 then a else a - a / 2 ^ 20 % 2 * 2 ^ 20

def byteAt (a20 : Bool) (seg off : BitVec 16) (m : Machine) : BitVec 8 := (m.mem (gate a20 (linear seg off))).toBitVec

def storeByte (a20 : Bool) (seg off : BitVec 16) (x : BitVec 8) (m : Machine) : Machine :=
  { m with mem := blit (gate a20 (linear seg off)) 1 (fun _ => ⟨x⟩) m.mem }

/-- `.check_a20`, with whether `jne` is taken after it. -/
def checkA20 (a20 : Bool) (m : Machine) : Machine × Bool :=
  -- the segments pushed
  let (ds, es) := (m.ds, m.es)
  let m := { m with regs := { m.regs with eax := setLow m.regs.eax 0x0000 } }
  let m := { m with ds := low m.regs.eax }
  let m := { m with regs := { m.regs with edi := setLow m.regs.edi 0x0500 } }
  let m := { m with regs := { m.regs with eax := setLow m.regs.eax (~~~low m.regs.eax) } }
  let m := { m with es := low m.regs.eax }
  let m := { m with regs := { m.regs with esi := setLow m.regs.esi 0x0510 } }
  let m := { m with regs := { m.regs with
    eax := setLow m.regs.eax (setLo (low m.regs.eax) (byteAt a20 m.ds (low m.regs.edi) m)) } }
  let m := { m with regs := { m.regs with
    eax := setLow m.regs.eax (setHi (low m.regs.eax) (byteAt a20 m.es (low m.regs.esi) m)) } }
  let m := storeByte a20 m.ds (low m.regs.edi) 0xBB m
  let m := storeByte a20 m.es (low m.regs.esi) 0xFF m
  let m := { m with regs := { m.regs with
    ebx := setLow m.regs.ebx (setLo (low m.regs.ebx) (byteAt a20 m.ds (low m.regs.edi) m)) } }
  let m := { m with regs := { m.regs with
    ecx := setLow m.regs.ecx (setLo (low m.regs.ecx) (byteAt a20 m.es (low m.regs.esi) m)) } }
  let enabled := decide (lo (low m.regs.ebx) ≠ lo (low m.regs.ecx))
  let m := storeByte a20 m.ds (low m.regs.edi) (lo (low m.regs.eax)) m
  let m := storeByte a20 m.es (low m.regs.esi) (hi (low m.regs.eax)) m
  ({ m with ds, es }, enabled)

/-- The gate at the start, what port 0x92 reads, and the gate once its bit 1 is set. -/
structure A20 where
  enabled : Bool
  port : BitVec 8
  fast : Bool
  opens : enabled ∨ fast

/-- With whether it returns: otherwise the processor is halted. -/
def ensureA20 (a20 : A20) (m : Machine) : Machine × Bool :=
  let (m, enabled) := checkA20 a20.enabled m
  if enabled then (m, true)
  else
    let m := { m with regs := { m.regs with eax := setLow m.regs.eax (setLo (low m.regs.eax) a20.port) } }
    let m := { m with regs := { m.regs with
      eax := setLow m.regs.eax (setLo (low m.regs.eax) (lo (low m.regs.eax) ||| 0x02)) } }
    checkA20 a20.fast m

/-- Two bytes are written, read and restored: they differ when they are not at one address. -/
theorem restored (p q : Nat) (m : Nat → UInt8) :
    let written := blit q 1 (fun _ => 0xFF) (blit p 1 (fun _ => 0xBB) m)
    blit q 1 (fun _ => m q) (blit p 1 (fun _ => m p) written) = m ∧ (written p ≠ written q ↔ p ≠ q) := by
  intro written
  constructor
  · funext k
    simp only [written, blit]
    by_cases hq : k = q
    · rw [if_pos (by omega), hq]
    · rw [if_neg (by omega)]
      by_cases hp : k = p
      · rw [if_pos (by omega), hp]
      · rw [if_neg (by omega), if_neg (by omega), if_neg (by omega)]
  · have hwritten : written q = 0xFF := blit_first (by omega) _ _
    rw [hwritten]
    by_cases h : p = q
    · rw [h, hwritten]
      exact iff_of_false (not_not_intro rfl) (not_not_intro rfl)
    · have hother : written p = 0xBB := by
        simp only [written, blit]
        rw [if_neg (by omega), if_pos (by omega)]
      rw [hother]
      exact iff_of_true (by decide) h

/-- The test finds the gate as it is, and restores the two bytes it writes. -/
theorem checkA20_spec (a20 : Bool) (m : Machine) : (checkA20 a20 m).1.mem = m.mem ∧ (checkA20 a20 m).2 = a20 := by
  let q := if a20 then 0x100500 else 0x500
  have hp : gate a20 (linear 0 0x0500) = 0x500 := by cases a20 <;> decide
  have hq : gate a20 (linear (~~~0) 0x0510) = q := by cases a20 <;> decide
  obtain ⟨hmem, hdiffer⟩ := restored 0x500 q m.mem
  unfold checkA20 storeByte byteAt
  simp only [low_setLow, lo_setLo, lo_setHi, hi_setHi, hp, hq]
  refine ⟨hmem, ?_⟩
  have hbits : ∀ x y : UInt8, x.toBitVec ≠ y.toBitVec ↔ x ≠ y := fun _ _ => not_congr UInt8.toBitVec_inj
  have hopen : 0x500 ≠ q ↔ a20 = true := by
    cases a20
    · exact iff_of_false (fun h => h rfl) (by decide)
    · exact iff_of_true (by decide) rfl
  rw [Bool.eq_iff_iff, decide_eq_true_iff]
  exact (hbits _ _).trans (hdiffer.trans hopen)

theorem ensureA20_spec (a20 : A20) (m : Machine) : (ensureA20 a20 m).1.mem = m.mem ∧ (ensureA20 a20 m).2 = true := by
  obtain ⟨hmem, henabled⟩ := checkA20_spec a20.enabled m
  unfold ensureA20
  simp only
  rw [henabled]
  by_cases hopen : a20.enabled = true
  · rw [if_pos hopen]
    exact ⟨hmem, rfl⟩
  · have hfast : a20.fast = true := a20.opens.resolve_left hopen
    rw [if_neg hopen]
    obtain ⟨hmem', henabled'⟩ := checkA20_spec a20.fast _
    exact ⟨hmem'.trans hmem, henabled'.trans hfast⟩

/-! ## Stage1 and the kernel's entry -/

/-- What stage1 finds in the machine: the memory map, of no more ranges than fit below the end of its
segment; the A20 gate; and what BIOS calls leave in the memory they use, below stage0 and from the
extended BIOS data area to the end of the video memory. -/
structure Firmware where
  report : Report
  a20 : A20
  low : Nat → UInt8
  high : Nat → UInt8
  room : report.ranges.length ≤ 2048

/-- The memory after the last BIOS call. -/
def Firmware.settle (fw : Firmware) (m : Nat → UInt8) : Nat → UInt8 :=
  blit 0x9FC00 0x20400 fw.high (blit 0 0x7C00 fw.low m)

/-- From `enter_stage1` to `kmain`; `none` when it is not reached. -/
def enterKernel (l : Stage1) (k : Kernel) (p : Processor) (fw : Firmware) (fuel : Nat) (m : Machine) (s : Cpu) :
    Option LongCpu := do
  let m ← enterStage1 fw.report m
  let (m, returns) := ensureA20 fw.a20 m
  if !returns then none else
  let s := { s with regs := m.regs, mem := fw.settle m.mem }
  let (s, reached) ← startProtectedMode l p fuel s
  if !reached then none else
  let s ← startLongMode l fuel s.enterLongMode
  kernelStart k fuel s

theorem enterStage1_frame {bios : Report} (hroom : bios.ranges.length ≤ 2048) (m : Machine) :
    ∃ m', enterStage1 bios m = some m' ∧ Frame [(0x85FFD, 0xA003)] m.mem m'.mem := by
  obtain ⟨m', hrun, -, hmem⟩ := enterStage1_spec bios m
  have h6000 : (0x6000 : BitVec 16).toNat = 0x6000 := rfl
  have hcons : storesFrom 0x6000 bios.ranges = consecutive 0x86000 bios.ranges := by
    refine (storesFrom_eq_iff 0x6000 bios.ranges).2 fun _ => ?_
    rw [h6000]
    omega
  refine ⟨m', hrun, fun k hk => ?_⟩
  have hk := hk _ (List.mem_singleton_self _)
  simp only at hk
  rw [hmem, hcons, memoryAfter_consecutive]
  unfold blitWord
  rw [blit_outside (by omega), blits_outside 20 _ _ (by simp only [List.length_map]; omega)]

/-- What is written on the way to `kmain`: memory below the kernel, the print position of the kernel, and
the memory of the BIOS and the screen above it. -/
def Kernel.pathWrites (k : Kernel) : List (Nat × Nat) :=
  [(0, 0x90000), (k.printStringPossition.toNat, 8), (0x9FC00, 0x20400)]

theorem Firmware.settle_frame (fw : Firmware) (m : Nat → UInt8) :
    Frame [(0, 0x7C00), (0x9FC00, 0x20400)] m (fw.settle m) := by
  intro k hk
  have hlow := hk (0, 0x7C00) (by simp)
  have hhigh := hk (0x9FC00, 0x20400) (by simp)
  exact (blit_outside hhigh _ _).trans (blit_outside hlow _ _)

section Covered

variable (k : Kernel)

theorem Kernel.low_covered {rs : List (Nat × Nat)}
    (hrs : ∀ r ∈ rs, r.1 + r.2 ≤ 0x90000 ∨ 0x9FC00 ≤ r.1 ∧ r.1 + r.2 ≤ 0xC0000) :
    Covered rs k.pathWrites := by
  rintro r hr
  rcases hrs r hr with h | h
  · exact ⟨(0, 0x90000), by simp [Kernel.pathWrites], Nat.zero_le _, by simp only; omega⟩
  · exact ⟨(0x9FC00, 0x20400), by simp [Kernel.pathWrites], h.1, by simp only; omega⟩

theorem Stage1.writes_covered (l : Stage1) : Covered l.writes k.pathWrites := by
  have hposs := l.possition_range
  refine k.low_covered fun r hr => ?_
  simp only [Stage1.writes, List.mem_cons, List.not_mem_nil, or_false] at hr
  rcases hr with rfl | rfl | rfl | rfl
  · exact .inl (by decide)
  · exact .inl (by decide)
  · exact .inl (by simp only; omega)
  · exact .inr (by decide)

theorem Kernel.writes_covered : Covered k.writes k.pathWrites := by
  rintro r hr
  simp only [Kernel.writes, List.mem_cons, List.not_mem_nil, or_false] at hr
  rcases hr with rfl | rfl | rfl
  · exact ⟨(0, 0x90000), by simp [Kernel.pathWrites], by decide, by decide⟩
  · exact ⟨_, by simp [Kernel.pathWrites], Nat.le_refl _, Nat.le_refl _⟩
  · exact ⟨(0x9FC00, 0x20400), by simp [Kernel.pathWrites], by decide, by decide⟩

end Covered

/-- What stays of the image of the kernel up to its entry. -/
theorem Kernel.Loaded.frame {k : Kernel} {m m' : Nat → UInt8} (h : k.Loaded m) {rs : List (Nat × Nat)}
    (hframe : Frame rs m m') (hrs : ∀ r ∈ rs, r.1 + r.2 ≤ 0x90000 ∨ 0x9FC00 ≤ r.1) :
    k.Loaded m' := by
  have hmsg := k.msg_range
  have himage := k.image_range
  intro i hi
  refine (hframe _ fun r hr => ?_).trans (h i hi)
  have := hrs r hr
  omega

theorem enterKernel_spec {l : Stage1} {k : Kernel} (p : LongModeProcessor) (fw : Firmware) {m : Machine} (s : Cpu)
    (hl : l.Loaded 0xB8000 m.mem) (hk : k.Loaded m.mem) :
    ∃ s', (∀ fuel, 512 ≤ fuel → enterKernel l k p.toProcessor fw fuel m s = some s') ∧
      Frame k.pathWrites m.mem s'.mem := by
  obtain ⟨m₁, hrun₁, hframe₁⟩ := enterStage1_frame fw.room m
  obtain ⟨hmem₂, hreturns⟩ := ensureA20_spec fw.a20 m₁
  let m₂ := (ensureA20 fw.a20 m₁).1
  let s₃ : Cpu := { s with regs := m₂.regs, mem := fw.settle m₂.mem }
  have hsettle : Frame [(0, 0x7C00), (0x9FC00, 0x20400)] m₁.mem s₃.mem := by
    rw [← hmem₂]
    exact fw.settle_frame m₂.mem
  have hl₃ : l.Loaded 0xB8000 s₃.mem := (hl.frame hframe₁ (by decide)).frame hsettle (by decide)
  have hk₃ : k.Loaded s₃.mem := (hk.frame hframe₁ (by decide)).frame hsettle (by decide)
  obtain ⟨s₄, hrun₄, hat, heax⟩ := startProtectedMode_spec p hl₃
  obtain ⟨s₅, hrun₅, hrsp, hrax, hframe₅⟩ := startLongMode_spec hat heax
  have hk₅ : k.Loaded s₅.mem := by
    have hposs := l.possition_range
    refine hk₃.frame hframe₅ fun r hr => ?_
    simp only [Stage1.writes, List.mem_cons, List.not_mem_nil, or_false] at hr
    rcases hr with rfl | rfl | rfl | rfl
    · exact .inl (by decide)
    · exact .inl (by decide)
    · exact .inl (by simp only; omega)
    · exact .inr (by decide)
  obtain ⟨s₆, hrun₆, hframe₆⟩ := kernelStart_spec hk₅ hrsp hrax (onScreen_line (n := 7) (by omega))
  refine ⟨s₆, fun fuel hfuel => ?_, ?_⟩
  · unfold enterKernel
    simp only [hrun₁, Option.bind_eq_bind, Option.bind_some, hreturns, Bool.not_true, Bool.false_eq_true, if_false]
    show (startProtectedMode l p.toProcessor fuel s₃ >>= _) = _
    simp only [hrun₄ fuel hfuel, Option.bind_eq_bind, Option.bind_some, Bool.not_true, Bool.false_eq_true, if_false,
      hrun₅ fuel hfuel, hrun₆ fuel hfuel]
  · exact (((hframe₁.widen (k.low_covered (by decide))).trans (hsettle.widen (k.low_covered (by decide)))).trans
      (hframe₅.widen (l.writes_covered k))).trans (hframe₆.widen k.writes_covered)

end SnakeOS.Boot
