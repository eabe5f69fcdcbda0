/-
The memory map from the BIOS to `print_ram_map` of drivers/init_ram.c, for a machine that boots from a floppy: stage1
stores the map above its image, and nothing on the way to `kmain` writes there.
-/
import SnakeOS.Boot.Main
import SnakeOS.Drivers.InitRam

namespace SnakeOS.Boot

open Mem Drivers Term

/-- Stage1 writes to its own image and below, and to the screen. -/
theorem Stage1.writes_apart (l : Stage1) : ∀ r ∈ l.writes, r.1 + r.2 ≤ 0x85FFD ∨ 0x9FC00 ≤ r.1 := by
  have hposs := l.possition_range
  intro r hr
  simp only [Stage1.writes, List.mem_cons, List.not_mem_nil, or_false] at hr
  rcases hr with rfl | rfl | rfl | rfl
  · exact .inl (by decide)
  · exact .inl (by decide)
  · exact .inl hposs.2
  · exact .inr (by decide)

/-- Between the end of the image of stage1 and the kernel, memory is at `kmain` as `get_memory_map` left it. -/
theorem enterKernel_map {l : Stage1} {k : Kernel} (p : LongModeProcessor) (fw : Firmware) {m : Machine} (s : Cpu)
    (hl : l.Loaded 0xB8000 m.mem) (hk : k.Loaded m.mem) :
    ∃ m₁ s', enterStage1 fw.report m = some m₁ ∧
      (∀ fuel, 512 ≤ fuel → enterKernel l k p.toProcessor fw fuel m s = some s') ∧
      ∀ a, 0x85FFD ≤ a → a < 0x90000 → s'.mem a = m₁.mem a := by
  obtain ⟨m₁, hrun₁, hframe₁⟩ := enterStage1_frame fw.room m
  obtain ⟨hmem₂, hreturns⟩ := ensureA20_spec fw.a20 m₁
  let s₃ : Cpu := { s with
    regs := (ensureA20 fw.a20 m₁).1.regs, mem := fw.settle (ensureA20 fw.a20 m₁).1.mem }
  have hsettle : Frame [(0, 0x7C00), (0x9FC00, 0x20400)] m₁.mem s₃.mem := by
    rw [← hmem₂]
    exact fw.settle_frame _
  have hl₃ : l.Loaded 0xB8000 s₃.mem := (hl.frame hframe₁ (by decide)).frame hsettle (by decide)
  obtain ⟨s₄, hrun₄, hat, heax⟩ := startProtectedMode_spec p hl₃
  obtain ⟨s₅, hrun₅, hrsp, hrax, hframe₅⟩ := startLongMode_spec hat heax
  have hk₅ : k.Loaded s₅.mem := by
    refine ((hk.frame hframe₁ (by decide)).frame hsettle (by decide)).frame hframe₅ fun r hr => ?_
    have hapart := l.writes_apart r hr
    omega
  -- the print position of the kernel is in its image, above the map
  obtain ⟨s₆, hrun₆, hframe₆⟩ := kernelStart_spec hk₅ hrsp hrax (onScreen_line (n := 7) (by omega))
  refine ⟨m₁, s₆, hrun₁, fun fuel hfuel => ?_, fun a hlo hhi => ?_⟩
  · unfold enterKernel
    simp only [hrun₁, Option.bind_eq_bind, Option.bind_some, hreturns, Bool.not_true, Bool.false_eq_true, if_false]
    show (startProtectedMode l p.toProcessor fuel s₃ >>= _) = _
    simp only [hrun₄ fuel hfuel, Option.bind_eq_bind, Option.bind_some, Bool.not_true, Bool.false_eq_true, if_false,
      hrun₅ fuel hfuel, hrun₆ fuel hfuel]
  · have hposs := k.possition_range
    rw [hframe₆ a fun r hr => ?_, hframe₅ a fun r hr => ?_, hsettle a fun r hr => ?_]
    · simp only [List.mem_cons, List.not_mem_nil, or_false] at hr
      rcases hr with rfl | rfl
      · exact .inr (by simp only; omega)
      · exact .inl (by simp only; omega)
    · have hapart := l.writes_apart r hr
      omega
    · simp only [Kernel.writes, List.mem_cons, List.not_mem_nil, or_false] at hr
      rcases hr with rfl | rfl | rfl
      · exact .inr (by simp only; omega)
      · exact .inl (by simp only; omega)
      · exact .inl (by simp only; omega)

/-- From the end of the image of stage1 to the kernel, memory is as `get_memory_map` left it, which is called with the
memory and the segments that stage0 leaves. -/
def MapKept (l : Stage0.Labels) (f : Floppy) (fw : Firmware) (m : Stage0.Machine) (r : Machine) (mem : Nat → UInt8) :
    Prop :=
  ∃ m' m₁, (∀ fuel, 224 ≤ fuel → Stage0.main l f.volume.bios fuel m = ExceptT.mk (some (.ok m'))) ∧
    enterStage1 fw.report { r with ds := m'.ds, es := m'.es, mem := m'.mem } = some m₁ ∧
    ∀ a, 0x85FFD ≤ a → a < 0x90000 → mem a = m₁.mem a

/-- From the BIOS to the screen: whatever memory and the registers hold before, a floppy with the two files in its
directory boots to `kmain`, which finds the map as stage1 stored it, and where `print_ram_map` prints the ranges that
the BIOS reported exactly when the count that stage1 leaves is right. -/
theorem reported_map_shown (l : Stage0.Labels) (f : Floppy) (p : LongModeProcessor) (fw : Firmware) (m : Stage0.Machine)
    (r : Machine) (s : Cpu) (hl : l.Holds m.mem) {i j : Nat} (hi : f.volume.First Stage0.FILE_STAGE1 i)
    (hstage1 : f.volume.cluster i = f.stage1_cluster.toNat) (hj : f.volume.First Stage0.FILE_KERNEL j)
    (hkernel : f.volume.cluster j = f.kernel_cluster.toNat) :
    ∃ s', (∀ fuel, 512 ≤ fuel → Stage0.bootFrom l f p.toProcessor fw fuel m r s = some s') ∧
      MapKept l f fw m r s'.mem ∧ ∃ text, (∀ con, printRamMap s'.mem con = .ok (putcs text con)) ∧
        (text = mapText (fw.report.ranges.map Descriptor.entry) ↔ CountRight fw.report) := by
  obtain ⟨m', hmain, hloaded⟩ := Stage0.main_floppy l f m hl hi hstage1 hj hkernel
  obtain ⟨hl', hk'⟩ := hloaded.images
  obtain ⟨m₁, s', hrun₁, hrun, hkept⟩ :=
    enterKernel_map (m := { r with ds := m'.ds, es := m'.es, mem := m'.mem }) p fw s hl' hk'
  obtain ⟨m₂, hrun₂, hcount, hright⟩ := enterStage1_map fw.report { r with ds := m'.ds, es := m'.es, mem := m'.mem }
  obtain rfl := Option.some.inj (hrun₁.symm.trans hrun₂)
  have hentries : ramEntries s'.mem = fw.report.count.toNat := by
    rw [← hcount]
    exact littleEndian_congr fun i hi => hkept (0x85FFD + i) (by omega) (by omega)
  refine ⟨s', fun fuel hfuel => ?_, ⟨m', m₁, hmain, hrun₁, hkept⟩, mapText (ramMap s'.mem), printRamMap_eq s'.mem, ?_,
    fun hcountRight => ?_⟩
  · unfold Stage0.bootFrom
    rw [hmain fuel (by omega)]
    exact hrun fuel hfuel
  · exact countRight_of_text hentries fw.room
  · -- a wrong count could have the kernel read on into its own image; a right one ends with the map
    have hlen := ((countRight_iff fw.report).1 hcountRight).2
    have hroom := fw.room
    have hsame : SameMap (ramEntries m₁.mem) m₁.mem s'.mem := by
      intro a hlo hhi
      exact hkept a hlo (by omega)
    rw [ramMap_same hsame, hright hcountRight]

/-- The floppy of the example, and a BIOS that reports one range. -/
theorem reported_map_shown_named : ∃ s', (∀ fuel, 512 ≤ fuel → Stage0.bootFrom Stage0.namedLabels Stage0.namedFloppy
    capableProcessor.toProcessor plainFirmware fuel Stage0.namedMachine blankMachine blankCpu = some s') ∧
      MapKept Stage0.namedLabels Stage0.namedFloppy plainFirmware Stage0.namedMachine blankMachine s'.mem ∧
      ∃ text, (∀ con, printRamMap s'.mem con = .ok (putcs text con)) ∧
        (text = mapText (plainFirmware.report.ranges.map Descriptor.entry) ↔ CountRight plainFirmware.report) :=
  reported_map_shown Stage0.namedLabels Stage0.namedFloppy capableProcessor plainFirmware Stage0.namedMachine
    blankMachine blankCpu Stage0.namedLabels_holds Stage0.namedVolume_stage1.1 Stage0.namedVolume_stage1.2
    Stage0.namedVolume_kernel.1 Stage0.namedVolume_kernel.2

end SnakeOS.Boot
