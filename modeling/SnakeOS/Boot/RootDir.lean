/-
The root directory: `load_root_dir` and `search_file` of boot/x86/stage0/utils.asm. The length of the
directory is divided with the high word of an earlier product still in DX, and the product has the BH that
the BIOS left as a factor.
-/
import SnakeOS.Boot.Disk

namespace SnakeOS.Boot.Stage0

open Mem

/-- What the code reads of the BIOS parameter block to find the root directory. -/
structure DirBpb extends Bpb where
  reservedSectors : BitVec 16
  fatCount : BitVec 8
  dirEntriesCount : BitVec 16
  sectorsPerFat : BitVec 16

/-- The block of stage0.asm. -/
def dirBpb : DirBpb where
  toBpb := bpb
  reservedSectors := 1
  fatCount := 2
  dirEntriesCount := 0xE0
  sectorsPerFat := 9

namespace DirBpb

/-- The first sector of the root directory. -/
def rootLba (b : DirBpb) : Nat := b.reservedSectors.toNat + b.fatCount.toNat * b.sectorsPerFat.toNat

/-- The sectors of the root directory, the last of which need not be full. -/
def rootSectors (b : DirBpb) : Nat :=
  (b.dirEntriesCount.toNat * 32 + b.bytesPerSector.toNat - 1) / b.bytesPerSector.toNat

end DirBpb

/-! ## `load_root_dir` -/

/-- `main` up to the call of `load_root_dir`; the stack segment is not modelled. -/
def mainStart (m : Machine) : Machine :=
  let m := { m with regs.ax := 0 }
  let m := { m with ds := m.regs.ax }
  { m with es := m.regs.ax }

/-- `load_root_dir` up to the push of AX. -/
def rootDirStart (b : DirBpb) (m : Machine) : Machine :=
  let m := { m with regs.ax := b.sectorsPerFat }
  let m := { m with regs.bx := setLo m.regs.bx b.fatCount }
  let m := { m with regs := m.regs.mul m.regs.bx }
  { m with regs.ax := m.regs.ax + b.reservedSectors }

/-- From there to `.get_root_dir`. -/
def rootDirLength (b : DirBpb) (m : Machine) : Run Machine := do
  let m := { m with regs.ax := b.dirEntriesCount }
  let m := { m with regs.ax := m.regs.ax <<< 5 }
  let m ← m.div b.bytesPerSector
  if m.regs.dx = 0 then return m
  else return { m with regs.ax := setLo m.regs.ax (lo m.regs.ax + 1) }

/-- `load_root_dir` up to the call of `disk_read`. -/
def rootDirArgs (b : DirBpb) (m : Machine) : Run Machine := do
  let m := rootDirStart b m
  -- AX is on the stack meanwhile
  let ax := m.regs.ax
  let m ← rootDirLength b m
  let m := { m with regs.cx := setLo m.regs.cx (lo m.regs.ax) }
  let m := { m with regs.ax := ax }
  let m := { m with regs.ax := setHi m.regs.ax (lo m.regs.cx) }
  return { m with regs.bx := buffer }

def loadRootDir (b : DirBpb) (bios : Bios) (m : Machine) : Run Machine := do
  let m ← rootDirArgs b m
  diskRead b.toBpb bios m

/-- The sectors of the FATs, with BH in their number. -/
def fatSectors (bx : BitVec 16) : Nat := 9 * (256 * (hi bx).toNat + 2)

theorem rootDirStart_spec (m : Machine) : rootDirStart dirBpb m = { m with
    regs.ax := BitVec.ofNat 16 (fatSectors m.regs.bx) + 1
    regs.bx := setLo m.regs.bx 2
    regs.dx := BitVec.ofNat 16 (fatSectors m.regs.bx / 65536) } := by
  have hsize : (9 : BitVec 16).toNat * (setLo m.regs.bx 2).toNat = fatSectors m.regs.bx := by
    rw [setLo_toNat]
    rfl
  rw [← hsize]
  rfl

/-- DX is the high word of what is divided. -/
theorem rootDirLength_spec {m : Machine} (hdx : m.regs.dx.toNat < 9) : rootDirLength dirBpb m = .ok { m with
    regs.ax := BitVec.ofNat 16 (128 * m.regs.dx.toNat + 14), regs.dx := 0 } := by
  let dividend : Machine := { m with regs.ax := 7168 }
  have hdxax : dividend.regs.dxax = 65536 * m.regs.dx.toNat + 7168 := rfl
  have hdiv : dividend.div 512 = .ok { m with
      regs.ax := BitVec.ofNat 16 (128 * m.regs.dx.toNat + 14), regs.dx := 0 } := by
    have hrem : (65536 * m.regs.dx.toNat + 7168) % (512 : BitVec 16).toNat = 0 := by
      show _ % 512 = 0
      omega
    have hquot : (65536 * m.regs.dx.toNat + 7168) / (512 : BitVec 16).toNat = 128 * m.regs.dx.toNat + 14 := by
      show _ / 512 = _
      omega
    unfold Machine.div
    rw [Regs16.div_ok (show m.regs.dx.toNat < 512 by omega), hdxax, hrem, hquot]
    rfl
  unfold rootDirLength
  show (dividend.div 512 >>= _) = _
  rw [hdiv]
  rfl

/-- Neither `mul` nor `div` fails. The number of the first sector that is asked for does not depend on BH,
but the number of sectors has the high word of the first product in it. -/
theorem rootDirArgs_spec (m : Machine) : ∃ m', rootDirArgs dirBpb m = .ok m' ∧ m'.regs.bx = buffer ∧
    m'.mem = m.mem ∧ m'.ds = m.ds ∧ m'.es = m.es ∧ (lo m'.regs.ax).toNat = 19 ∧
    (hi m'.regs.ax).toNat = (128 * (fatSectors m.regs.bx / 65536) + 14) % 256 := by
  have hbh := (hi m.regs.bx).isLt
  have hdx : (rootDirStart dirBpb m).regs.dx.toNat = fatSectors m.regs.bx / 65536 := by
    rw [rootDirStart_spec]
    show (BitVec.ofNat 16 (fatSectors m.regs.bx / 65536)).toNat = _
    unfold fatSectors
    rw [BitVec.toNat_ofNat]
    omega
  have hlength := rootDirLength_spec (m := rootDirStart dirBpb m) (by unfold fatSectors at hdx; omega)
  rw [hdx] at hlength
  let started := rootDirStart dirBpb m
  let count := BitVec.ofNat 16 (128 * (fatSectors m.regs.bx / 65536) + 14)
  refine ⟨{ started with
    regs.ax := setHi started.regs.ax (lo count)
    regs.bx := buffer, regs.cx := setLo started.regs.cx (lo count), regs.dx := 0 }, ?_, rfl, rfl, rfl, rfl, ?_, ?_⟩
  · unfold rootDirArgs
    show (rootDirLength dirBpb started >>= _) = _
    rw [hlength]
    show Except.ok { started with
      regs.ax := setHi started.regs.ax (lo (setLo started.regs.cx (lo count)))
      regs.bx := buffer, regs.cx := setLo started.regs.cx (lo count), regs.dx := 0 } = _
    rw [lo_setLo]
  · have hax : started.regs.ax = BitVec.ofNat 16 (fatSectors m.regs.bx) + 1 :=
      congrArg (fun m => m.regs.ax) (rootDirStart_spec m)
    show (lo (setHi started.regs.ax (lo count))).toNat = 19
    rw [lo_setHi, hax, lo_toNat, BitVec.toNat_add, BitVec.toNat_ofNat]
    show (fatSectors m.regs.bx % 65536 + 1) % 65536 % 256 = 19
    unfold fatSectors
    omega
  · show (hi (setHi started.regs.ax (lo count))).toNat = _
    rw [hi_setHi, lo_ofNat_toNat]

/-- `main` asks for the root directory, to 0x7E00. -/
def RootDirAsked (m : Machine) : Prop :=
  ∃ m', rootDirArgs dirBpb (mainStart m) = .ok m' ∧ (lo m'.regs.ax).toNat = dirBpb.rootLba ∧
    (hi m'.regs.ax).toNat = dirBpb.rootSectors ∧ linear m'.es m'.regs.bx = 0x7E00

/-- The values of BH with which the high word of the product is even. -/
def BhHarmless (bx : BitVec 16) : Prop :=
  let bh := (hi bx).toNat
  bh ≤ 28 ∨ 57 ≤ bh ∧ bh ≤ 85 ∨ 114 ≤ bh ∧ bh ≤ 142 ∨ 171 ≤ bh ∧ bh ≤ 199 ∨ 228 ≤ bh

instance (bx : BitVec 16) : Decidable (BhHarmless bx) := inferInstanceAs (Decidable (_ ∨ _))

theorem high_word_even : ∀ bh < 256, (128 * (9 * (256 * bh + 2) / 65536) + 14) % 256 = 14 ↔
    bh ≤ 28 ∨ 57 ≤ bh ∧ bh ≤ 85 ∨ 114 ≤ bh ∧ bh ≤ 142 ∨ 171 ≤ bh ∧ bh ≤ 199 ∨ 228 ≤ bh := by
  decide +kernel

/-- Whatever the registers are when `main` is entered, the root directory is asked for exactly when BH is
harmless. -/
theorem root_dir_asked_iff (m : Machine) : RootDirAsked m ↔ BhHarmless m.regs.bx := by
  obtain ⟨m', hrun, hbx, -, -, hes, hlba, hcount⟩ := rootDirArgs_spec (mainStart m)
  have hbh := (hi m.regs.bx).isLt
  have hbx₀ : (mainStart m).regs.bx = m.regs.bx := rfl
  have hsectors : dirBpb.rootSectors = 14 := by decide
  rw [hbx₀] at hcount
  have hcount_iff : (hi m'.regs.ax).toNat = 14 ↔ BhHarmless m.regs.bx := by
    rw [hcount]
    exact high_word_even _ hbh
  unfold RootDirAsked
  rw [← hcount_iff, hsectors]
  constructor
  · rintro ⟨m'', hrun', -, hcount', -⟩
    obtain rfl := Except.ok.inj (hrun.symm.trans hrun')
    exact hcount'
  · intro hcount'
    refine ⟨m', hrun, hlba.trans (by decide), hcount', ?_⟩
    have hes₀ : (mainStart m).es = 0 := rfl
    rw [hbx, hes, hes₀]
    rfl

/-- The registers with which a BIOS may enter `main`. -/
def bootRegs (bx : BitVec 16) : Machine := ⟨⟨0xAA55, bx, 0, 0x0080, 0, 0⟩, 0, 0, false, fun _ => 0, [], []⟩

/-- With 29 in BH, 142 sectors are asked for. -/
theorem root_dir_not_asked : ¬RootDirAsked (bootRegs 0x1D00) := by
  rintro ⟨m', hrun, -, hcount, -⟩
  obtain ⟨m'', hrun', -, -, -, -, -, hcount'⟩ := rootDirArgs_spec (mainStart (bootRegs 0x1D00))
  obtain rfl := Except.ok.inj (hrun.symm.trans hrun')
  rw [hcount] at hcount'
  exact absurd hcount' (by decide)

end SnakeOS.Boot.Stage0
