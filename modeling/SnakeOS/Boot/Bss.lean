/-
The kernel's initial state. kernel.bin ends before .bss, and nothing on the way to `kmain` clears .bss:
its objects hold what the rest of the last sector of kernel.bin and the memory beyond it held.
-/
import Mathlib.Algebra.Order.BigOperators.Group.List
import SnakeOS.Boot.Path

namespace SnakeOS.Boot

open Mem

/-! ## kernel.elf and the floppy -/

/-- The objects of the kernel that have no initial value, or zero as it. -/
inductive BssObject
  | tick
  | timer_secs_hook
  | irq_table
  | irq_chip_active
  | cdev_table
  | cdev_count
  | gdt_table
  | kbd
  | consoles
  | active_console
  deriving DecidableEq, Repr

/-- The addresses and the sizes that the linker gives them, after the sections that are in the image. -/
structure KernelElf extends Kernel where
  address : BssObject → Nat
  size : BssObject → Nat
  bss_range : ∀ o, imageEnd ≤ address o ∧ address o + size o ≤ 0x9FC00

/-- The boot disk with stage1.bin and kernel.bin, the last sector of which goes on past the image. The
sectors read for the two files hold the data of the images. Their code is modelled and not looked up, so
that a file with clusters above 224, for which `load_file` reads other sectors, can be one. -/
structure Floppy extends Stage0.BootDisk where
  l : Stage1
  k : KernelElf
  stage1_data : ∀ m, l.Loaded 0xB8000 (volume.load stage1 0x80000 m)
  kernel_data : ∀ m, k.Loaded (volume.load kernel 0x90000 m)
  kernel_size : k.imageEnd ≤ 0x90000 + 512 * kernel.length ∧ 0x90000 + 512 * kernel.length < k.imageEnd + 512

/-- From stage0 to `kmain`; `none` when it is not reached. The other registers of stage1 are those of `r`
and `s`. -/
def Floppy.boot (f : Floppy) (p : Processor) (fw : Firmware) (fuel : Nat) (m : Stage0.Machine) (r : Machine)
    (s : Cpu) : Option LongCpu :=
  match Stage0.loadFiles f.volume.bios fuel f.stage1_cluster f.kernel_cluster m with
  | some (.ok m) => enterKernel f.l f.k.toKernel p fw fuel { r with mem := m.mem } s
  | _ => none

/-! ## What is in .bss -/

/-- An address of an object in .bss. -/
def KernelElf.InBss (k : KernelElf) (a : Nat) : Prop := ∃ o, k.address o ≤ a ∧ a < k.address o + k.size o

def KernelElf.BssZero (k : KernelElf) (m : Nat → UInt8) : Prop := ∀ a, k.InBss a → m a = 0

/-- The end of the sectors loaded for kernel.bin. -/
def Floppy.loadedEnd (f : Floppy) : Nat := 0x90000 + 512 * f.kernel.length

/-- The byte of the last sector of kernel.bin that is loaded to `a`, past the image. -/
def Floppy.slack (f : Floppy) (a : Nat) : UInt8 :=
  f.volume.byte (Stage0.sectorRead (f.kernel.getLast f.kernel_file.nonempty)) ((a - 0x90000) % 512)

/-- Where .bss begins in the last sector of kernel.bin the disk has zeros, and memory has zeros beyond. -/
structure Floppy.ZeroBefore (f : Floppy) (m : Nat → UInt8) : Prop where
  slack : ∀ a, f.k.InBss a → a < f.loadedEnd → f.slack a = 0
  beyond : ∀ a, f.k.InBss a → f.loadedEnd ≤ a → m a = 0

/-- The content of .bss when stage0 ends. -/
theorem Floppy.load_bss (f : Floppy) (m : Nat → UInt8) {a : Nat} (ha : f.k.imageEnd ≤ a) :
    f.load m a = if a < f.loadedEnd then f.slack a else m a := by
  have hposs := f.k.possition_range
  have hsize := f.kernel_size
  have hstage1 := f.stage1_length
  unfold Stage0.BootDisk.load Floppy.loadedEnd
  by_cases hin : a < 0x90000 + 512 * f.kernel.length
  · have hlast : f.kernel.length - 1 < f.kernel.length := by omega
    have hsplit : a = 0x90000 + 512 * (f.kernel.length - 1) + (a - 0x90000) % 512 := by omega
    rw [if_pos hin]
    conv_lhs => rw [hsplit]
    rw [Stage0.Volume.load_inside _ _ hlast (Nat.mod_lt _ (by decide))]
    unfold Floppy.slack
    rw [List.getLast_eq_getElem]
  · rw [if_neg hin, Stage0.Volume.load_outside (by omega), Stage0.Volume.load_outside (by omega)]
    unfold Stage0.Volume.loadFat
    exact blits_outside 512 _ m (by simp only [List.length_map, List.length_range]; omega)

/-- The way to `kmain` writes nothing to .bss. -/
theorem Floppy.boot_spec (f : Floppy) (p : LongModeProcessor) (fw : Firmware) (m : Stage0.Machine) (r : Machine)
    (s : Cpu) : ∃ s', (∀ fuel, 512 ≤ fuel → f.boot p.toProcessor fw fuel m r s = some s') ∧
      ∀ a, f.k.imageEnd ≤ a → a < 0x9FC00 → s'.mem a = f.load m.mem a := by
  obtain ⟨m', hrun, hmem⟩ := Stage0.loadFiles_spec f.toBootDisk m
  have hl : f.l.Loaded 0xB8000 m'.mem := by
    rw [hmem]
    have hframe : Frame [(0x90000, 512 * f.kernel.length)] (f.volume.load f.stage1 0x80000 (f.volume.loadFat m.mem))
        (f.load m.mem) := fun k hk => Stage0.Volume.load_outside (hk _ (List.mem_singleton_self _)) _
    refine (f.stage1_data _).frame hframe fun r hr => ?_
    obtain rfl := List.mem_singleton.1 hr
    unfold Apart
    omega
  have hk : f.k.Loaded m'.mem := by
    rw [hmem]
    exact f.kernel_data _
  obtain ⟨s', hrun', hframe⟩ := enterKernel_spec (m := { r with mem := m'.mem }) p fw s hl hk
  refine ⟨s', fun fuel hfuel => ?_, fun a ha hlt => ?_⟩
  · unfold Floppy.boot
    rw [hrun fuel (by omega)]
    exact hrun' fuel hfuel
  · rw [← hmem]
    refine hframe a ?_
    have hposs := f.k.possition_range
    unfold Kernel.pathWrites
    rintro r hr
    simp only [List.mem_cons, List.not_mem_nil, or_false] at hr
    rcases hr with rfl | rfl | rfl
    · simp only
      omega
    · simp only
      omega
    · simp only
      omega

/-- Whatever memory and the registers hold before the boot, the way to `kmain` is gone to its end; .bss
is then zero exactly when it was before, in the last sector of kernel.bin and in the memory beyond. -/
theorem bss_zero_iff (f : Floppy) (p : LongModeProcessor) (fw : Firmware) (m : Stage0.Machine) (r : Machine)
    (s : Cpu) : ∃ s', (∀ fuel, 512 ≤ fuel → f.boot p.toProcessor fw fuel m r s = some s') ∧
      (f.k.BssZero s'.mem ↔ f.ZeroBefore m.mem) := by
  obtain ⟨s', hrun, hkept⟩ := f.boot_spec p fw m r s
  refine ⟨s', hrun, ?_⟩
  have hbss : ∀ a, f.k.InBss a → s'.mem a = if a < f.loadedEnd then f.slack a else m.mem a := by
    rintro a ⟨o, hlo, hhi⟩
    have hrange := f.k.bss_range o
    rw [hkept a (by omega) (by omega), f.load_bss m.mem (by omega)]
  constructor
  · intro hzero
    constructor
    · intro a ha hin
      rw [← hzero a ha, hbss a ha, if_pos hin]
    · intro a ha hout
      rw [← hzero a ha, hbss a ha, if_neg (by omega)]
  · intro hzero a ha
    rw [hbss a ha]
    split
    · rename_i hin
      exact hzero.slack a ha hin
    · rename_i hout
      exact hzero.beyond a ha (by omega)

/-! ## A floppy -/

/-- The messages of stage1, in the order they have in the example. -/
def messages : List Message :=
  [.MSG_PROT_MODE, .MSG_CPUID_SUPP, .MSG_CPUID_NOT_SUPP, .MSG_EXT_FUNC_SUPP, .MSG_EXT_FUNC_NOT_SUPP, .MSG_LONG_SUPP,
    .MSG_LONG_NOT_SUPP, .MSG_PAGING_SET_UP, .MSG_PAGING_ENABLED, .long_mode_enabled]

/-- The print position, four bytes of code, and the messages. -/
def stage1Bin : List UInt8 := [0x00, 0x80, 0x0B, 0x00, 0, 0, 0, 0] ++ messages.flatMap fun msg => msg.text ++ [0]

def offset (msg : Message) : Nat := 8 + ((messages.takeWhile (· ≠ msg)).map fun msg => msg.length + 1).sum

/-- The print position and the message. -/
def kernelBin : List UInt8 := List.replicate 8 0 ++ MSG_KERNEL ++ [0]

/-- The first sector of the FAT, where cluster 2 goes on to cluster 3, and the sectors of clusters 2 to 4. -/
def sectorByte (lba i : Nat) : UInt8 :=
  match lba with
  | 1 => [0xF0, 0xFF, 0xFF, 0x03, 0xF0].getD i 0xFF
  | 33 => stage1Bin.getD i 0
  | 34 => stage1Bin.getD (512 + i) 0
  | 35 => kernelBin.getD i 0
  | _ => 0

def smallVolume : Stage0.Volume := fun lba => Vector.ofFn fun i => sectorByte lba i

theorem getD_ofFn {α : Type} {n i : Nat} (f : Fin n → α) (d : α) (hi : i < n) :
    (Vector.ofFn f).getD i d = f ⟨i, hi⟩ := by
  simp [Vector.getD, hi]

theorem smallVolume_byte (lba : Nat) {i : Nat} (hlba : lba < 2880) (hi : i < 512) :
    smallVolume.byte lba i = sectorByte lba i := by
  unfold Stage0.Volume.byte smallVolume
  rw [dif_pos hlba, getD_ofFn _ _ hi]

theorem smallVolume_fat {i : Nat} (hi : i < 512) : smallVolume.fat i = [0xF0, 0xFF, 0xFF, 0x03, 0xF0].getD i 0xFF := by
  unfold Stage0.Volume.fat
  rw [smallVolume_byte _ (by omega) (by omega), show 1 + i / 512 = 1 by omega, Nat.mod_eq_of_lt hi]
  rfl

theorem smallVolume_pair {a : Nat} (ha : a + 1 < 512) : littleEndian smallVolume.fat a 2 =
    ([0xF0, 0xFF, 0xFF, 0x03, 0xF0].getD a 0xFF : UInt8).toNat +
      256 * ([0xF0, 0xFF, 0xFF, 0x03, 0xF0].getD (a + 1) 0xFF : UInt8).toNat := by
  simp only [littleEndian, smallVolume_fat (show a < 512 by omega), smallVolume_fat ha]
  omega

theorem smallVolume_entry : Fat12.entry smallVolume.fat 0 4608 2 = 3 ∧ Fat12.entry smallVolume.fat 0 4608 3 = 0xFFF ∧
    Fat12.entry smallVolume.fat 0 4608 4 = 0xFFF := by
  refine ⟨?_, ?_, ?_⟩
  · rw [Fat12.entry_even _ _ (by decide) (by decide), smallVolume_pair (by decide)]
    rfl
  · rw [Fat12.entry_odd _ _ (by decide) (by decide), smallVolume_pair (by decide)]
    rfl
  · rw [Fat12.entry_even _ _ (by decide) (by decide), smallVolume_pair (by decide)]
    rfl

def smallDisk : Stage0.BootDisk where
  volume := smallVolume
  stage1 := [2, 3]
  kernel := [4]
  stage1_cluster := 2
  kernel_cluster := 4
  stage1_file := by
    obtain ⟨h2, h3, -⟩ := smallVolume_entry
    exact ⟨by decide, by decide, by simpa using h2, by simp [h3], by decide⟩
  kernel_file := by
    obtain ⟨-, -, h4⟩ := smallVolume_entry
    exact ⟨by decide, by decide, by simp, by simp [h4], by decide⟩
  stage1_head := rfl
  kernel_head := rfl
  stage1_length := by decide
  kernel_length := by decide

theorem load_stage1 (m : Nat → UInt8) {i : Nat} (hi : i < 1024) :
    smallVolume.load [2, 3] 0x80000 m (0x80000 + i) = stage1Bin.getD i 0 := by
  by_cases h : i < 512
  · have hload := smallVolume.load_inside [2, 3] (i := 0) (by decide) h 0x80000 m
    refine hload.trans ((smallVolume_byte 33 (by decide) h).trans ?_)
    simp only [sectorByte]
  · obtain ⟨j, rfl⟩ := Nat.exists_eq_add_of_le (Nat.le_of_not_lt h)
    have hj : j < 512 := by omega
    have hload := smallVolume.load_inside [2, 3] (i := 1) (by decide) hj 0x80000 m
    rw [← Nat.add_assoc]
    refine hload.trans ((smallVolume_byte 34 (by decide) hj).trans ?_)
    simp only [sectorByte]

theorem load_kernel (m : Nat → UInt8) {i : Nat} (hi : i < 512) :
    smallVolume.load [4] 0x90000 m (0x90000 + i) = kernelBin.getD i 0 := by
  have hload := smallVolume.load_inside [4] (i := 0) (by decide) hi 0x90000 m
  refine hload.trans ((smallVolume_byte 35 (by decide) hi).trans ?_)
  simp only [sectorByte]

/-- What follows the lists of the elements before `x` is the list of `x`. -/
theorem drop_flatMap {α β : Type} [DecidableEq α] (f : α → List β) {x : α} : ∀ {xs : List α}, x ∈ xs →
    ∃ rest, (xs.flatMap f).drop ((xs.takeWhile (· ≠ x)).map fun y => (f y).length).sum = f x ++ rest
  | y :: ys, hx => by
    by_cases hy : y = x
    · refine ⟨ys.flatMap f, ?_⟩
      rw [List.takeWhile_cons_of_neg (by simpa using hy), hy]
      rfl
    · obtain ⟨rest, hrest⟩ := drop_flatMap f ((List.mem_cons.1 hx).resolve_left (Ne.symm hy))
      refine ⟨rest, ?_⟩
      rw [List.takeWhile_cons_of_pos (by simpa using hy), List.flatMap_cons, List.map_cons, List.sum_cons,
        ← List.drop_drop, List.drop_left]
      exact hrest

theorem mem_messages (msg : Message) : msg ∈ messages := by
  cases msg <;> decide

theorem texts_length : (messages.flatMap fun msg => msg.text ++ [0]).length ≤ 970 := by
  have hone : ∀ n ∈ messages.map fun msg => (msg.text ++ [0]).length, n ≤ 97 := by
    intro n hn
    obtain ⟨msg, -, rfl⟩ := List.mem_map.1 hn
    rw [List.length_append, List.length_singleton]
    exact Nat.succ_le_succ msg.length_le
  have hsum := List.sum_le_card_nsmul _ 97 hone
  rw [List.length_map] at hsum
  rw [List.length_flatMap]
  exact hsum

theorem length_append_le {α : Type} {xs ys : List α} {a b : Nat} (hx : xs.length ≤ a) (hy : ys.length ≤ b) :
    (xs ++ ys).length ≤ a + b := by
  rw [List.length_append]
  exact Nat.add_le_add hx hy

theorem stage1Bin_length : stage1Bin.length ≤ 1024 := by
  have hhead : [0x00, 0x80, 0x0B, 0x00, 0, 0, 0, (0 : UInt8)].length ≤ 8 := Nat.le_refl 8
  exact (length_append_le hhead texts_length).trans (by decide)

/-- Where the texts are in the file. -/
theorem stage1Bin_text (msg : Message) : offset msg + msg.length + 1 ≤ 1024 ∧
    ∀ i ≤ msg.length, stage1Bin.getD (offset msg + i) 0 = msg.text.getD i 0 := by
  obtain ⟨rest, hrest⟩ := drop_flatMap (fun msg : Message => msg.text ++ [0]) (mem_messages msg)
  simp only [List.length_append, List.length_singleton] at hrest
  have hdrop : stage1Bin.drop (offset msg) = msg.text ++ [0] ++ rest := by
    have hhead : [0x00, 0x80, 0x0B, 0x00, 0, 0, 0, (0 : UInt8)].length = 8 := rfl
    rw [← hrest]
    unfold stage1Bin offset
    rw [← List.drop_drop, List.drop_left' hhead]
    unfold Message.length
    rfl
  have hlen := congrArg List.length hdrop
  have htotal := stage1Bin_length
  have hmsg : msg.length = msg.text.length := rfl
  simp only [List.length_drop, List.length_append, List.length_singleton] at hlen
  refine ⟨by omega, fun i hi => ?_⟩
  have hat : stage1Bin.getD (offset msg + i) 0 = (msg.text ++ [0] ++ rest).getD i 0 := by
    rw [List.getD_eq_getElem?_getD, List.getD_eq_getElem?_getD, ← hdrop, List.getElem?_drop]
  rw [hat, List.getD_append _ _ _ _ (by simp; omega)]
  rcases Nat.lt_or_eq_of_le hi with hlt | rfl
  · exact List.getD_append _ _ _ _ hlt
  · rw [List.getD_append_right _ _ _ _ (Nat.le_of_eq hmsg.symm), hmsg, Nat.sub_self]
    exact msg.nul.symm

/-- The messages are behind the variable and within the file. -/
theorem smallStage1_range (msg : Message) : 0x80008 ≤ (BitVec.ofNat 32 (0x80000 + offset msg)).toNat ∧
    (BitVec.ofNat 32 (0x80000 + offset msg)).toNat + msg.length + 1 ≤ 0x85FFD := by
  have hend := (stage1Bin_text msg).1
  have hstart : 8 ≤ offset msg := Nat.le_add_right 8 _
  rw [BitVec.toNat_ofNat, Nat.mod_eq_of_lt (by omega)]
  omega

def smallStage1 : Stage1 where
  message msg := BitVec.ofNat 32 (0x80000 + offset msg)
  printStringPossition := 0x80000
  ret := 0x80300
  message_range msg := ⟨Nat.le_trans (by decide) (smallStage1_range msg).1, (smallStage1_range msg).2⟩
  possition_range := by decide
  apart msg := .inr (smallStage1_range msg).1

/-- A word of .bss for each object, a sector past the image. -/
def smallKernel : KernelElf where
  printStringPossition := 0x90000
  msgKernel := 0x90008
  ret := 0x90004
  imageEnd := 0x90040
  possition_range := by decide
  msg_range := by
    rw [MSG_KERNEL_ok.1]
    decide
  image_range := by decide
  apart := by
    rw [MSG_KERNEL_ok.1]
    decide
  address o := 0x90200 + 8 * o.ctorIdx
  size _ := 8
  bss_range := by
    intro o
    cases o <;> decide

def smallFloppy : Floppy where
  toBootDisk := smallDisk
  l := smallStage1
  k := smallKernel
  stage1_data := by
    intro m
    constructor
    · intro msg i hi
      obtain ⟨hend, htext⟩ := stage1Bin_text msg
      have haddr : (smallStage1.message msg).toNat = 0x80000 + offset msg := by
        show (BitVec.ofNat 32 _).toNat = _
        rw [BitVec.toNat_ofNat, Nat.mod_eq_of_lt (by omega)]
      rw [haddr, Nat.add_assoc]
      exact (load_stage1 m (by omega)).trans (htext i hi)
    · have hbyte : ∀ i < 4, smallVolume.load [2, 3] 0x80000 m (0x80000 + i) = stage1Bin.getD (0 + i) 0 := by
        intro i hi
        rw [Nat.zero_add]
        exact load_stage1 m (by omega)
      have hfile : littleEndian (smallVolume.load [2, 3] 0x80000 m) 0x80000 4 =
          littleEndian (fun i => stage1Bin.getD i 0) 0 4 := littleEndian_congr hbyte
      refine hfile.trans ?_
      decide +kernel
  kernel_data := by
    intro m i hi
    have hlen := MSG_KERNEL_ok.1
    have htext : ∀ i ≤ 54, kernelBin.getD (8 + i) 0 = MSG_KERNEL.getD i 0 := by decide +kernel
    have haddr : smallKernel.msgKernel.toNat + i = 0x90000 + (8 + i) := Nat.add_assoc 0x90000 8 i
    rw [haddr]
    exact (load_kernel m (by omega)).trans (htext i (by omega))
  kernel_size := by decide

def capableProcessor : LongModeProcessor where
  flags := BitVec.allOnes 32
  cpuid _ := ⟨CPUID_EXT_FEATURES, 0, 0, CPUID_EDX_EXT_FEAT_LM⟩
  idFlag := by decide
  extended := by decide
  longMode := by decide

def plainFirmware : Firmware where
  report := oneRange
  a20 := ⟨true, 0, true, .inl rfl⟩
  low _ := 0
  high _ := 0
  room := by decide

/-- With `0xFF` in all of memory before the boot, .bss is not zero. -/
theorem bss_not_zero : ¬∃ s', (∀ fuel, 512 ≤ fuel → smallFloppy.boot capableProcessor.toProcessor plainFirmware fuel
    (Stage0.calledFor 2) blankMachine blankCpu = some s') ∧ smallFloppy.k.BssZero s'.mem := by
  rintro ⟨s', hrun, hzero⟩
  obtain ⟨s'', hrun', hkept⟩ :=
    smallFloppy.boot_spec capableProcessor plainFirmware (Stage0.calledFor 2) blankMachine blankCpu
  obtain rfl := Option.some.inj ((hrun 512 (Nat.le_refl _)).symm.trans (hrun' 512 (Nat.le_refl _)))
  have htick : smallFloppy.k.InBss 0x90200 := ⟨.tick, by decide, by decide⟩
  have hend : ¬0x90200 < smallFloppy.loadedEnd := by decide
  have hleft := hkept 0x90200 (by decide) (by decide)
  rw [smallFloppy.load_bss _ (by decide), if_neg hend, hzero _ htick] at hleft
  exact absurd hleft (by decide)

end SnakeOS.Boot
