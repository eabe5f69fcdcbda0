/-
Reading the boot disk: `disk_read` and `lba_to_chs` of boot/x86/stage0/utils.asm over `INT 13h`.
AX holds a sector count in AH and a sector number in AL; `lba_to_chs` splits the number into
cylinder, head and sector.
-/
import SnakeOS.Lib.Byte
import SnakeOS.Lib.Mem
import SnakeOS.Boot.Real

namespace SnakeOS.Boot.Stage0

open Mem

/-! ## The machine -/

/-- What the code reads of the BIOS parameter block. -/
structure Bpb where
  bytesPerSector : BitVec 16
  sectorsPerTrack : BitVec 16
  heads : BitVec 16
  driveNumber : BitVec 8

/-- The block of stage0.asm. -/
def bpb : Bpb := ⟨512, 18, 2, 0x00⟩

abbrev buffer : BitVec 16 := 0x7E00

/-- The registers of a call of `INT 13h`. -/
structure Request where
  ah : BitVec 8
  al : BitVec 8
  ch : BitVec 8
  cl : BitVec 8
  dh : BitVec 8
  dl : BitVec 8
  es : BitVec 16
  bx : BitVec 16
  deriving DecidableEq, Repr

/-- `requests` and `printed` are no part of the machine: they list the calls of `INT 13h` and the
bytes printed. -/
structure Machine where
  regs : Regs16
  ds : BitVec 16
  es : BitVec 16
  cf : Bool
  mem : Nat → UInt8
  requests : List Request
  printed : List UInt8

/-- Where the code ends: it returns, or it stops in some state. -/
abbrev Run (α : Type) : Type := Except (Stop × Machine) α

namespace Machine

def request (m : Machine) : Request :=
  ⟨hi m.regs.ax, lo m.regs.ax, hi m.regs.cx, lo m.regs.cx, hi m.regs.dx, lo m.regs.dx, m.es, m.regs.bx⟩

/-- The word at `DS:off`. -/
def word (off : BitVec 16) (m : Machine) : BitVec 16 :=
  (m.mem (linear m.ds (off + 1))).toBitVec ++ (m.mem (linear m.ds off)).toBitVec

def div (x : BitVec 16) (m : Machine) : Run Machine :=
  match m.regs.div x with
  | .ok regs => return { m with regs }
  | .error stop => throw (stop, m)

/-- `print`, which restores the registers. -/
def print (msg : String) (m : Machine) : Machine := { m with printed := m.printed ++ Byte.text msg }

end Machine

/-! ## `INT 13h` -/

namespace Request

def cylinder (q : Request) : Nat := q.ch.toNat + 256 * (q.cl >>> 6).toNat

def sector (q : Request) : Nat := (q.cl &&& 0x3F).toNat

/-- The number of the first sector. -/
def lba (sectorsPerTrack heads : Nat) (q : Request) : Nat :=
  (q.cylinder * heads + q.dh.toNat) * sectorsPerTrack + (q.sector - 1)

/-- The numbers of the sectors asked for. -/
def sectors (sectorsPerTrack heads : Nat) (q : Request) : List Nat :=
  (List.range q.al.toNat).map (q.lba sectorsPerTrack heads + ·)

end Request

inductive Outcome
  | success
  | failure (status count : BitVec 8)

/-- A disk in the drive, with its geometry and the bytes of its sectors, and how the calls of
`INT 13h` come out, one after another. -/
structure Bios where
  sectorsPerTrack : Nat
  heads : Nat
  byte : Nat → Nat → UInt8
  outcome : Nat → Outcome

/-- A call that succeeds delivers the sectors at `ES:BX`. -/
def int13 (bios : Bios) (m : Machine) : Machine :=
  let q := m.request
  let requests := m.requests ++ [q]
  match bios.outcome m.requests.length with
  | .success =>
    let delivered := (q.sectors bios.sectorsPerTrack bios.heads).map bios.byte
    let mem := blits 512 (linear m.es m.regs.bx) delivered m.mem
    { m with regs.ax := setHi m.regs.ax 0, cf := false, mem, requests }
  | .failure status count => { m with regs.ax := status ++ count, cf := true, requests }

/-! ## `disk_read` -/

def lbaToChs (bpb : Bpb) (m : Machine) : Run Machine := do
  let m := { m with regs.cx := 0, regs.dx := 0 }
  let m ← m.div bpb.sectorsPerTrack
  let m := { m with regs.dx := m.regs.dx + 1 }
  let m := { m with regs.cx := m.regs.dx }
  let m := { m with regs.dx := 0 }
  let m ← m.div bpb.heads
  let m := { m with regs.dx := setHi m.regs.dx (lo m.regs.dx) }
  let m := { m with regs.dx := setLo m.regs.dx bpb.driveNumber }
  let m := { m with regs.cx := setHi m.regs.cx (lo m.regs.ax) }
  let m := { m with regs.ax := setHi m.regs.ax (hi m.regs.ax <<< 6) }
  return { m with regs.cx := setLo m.regs.cx (lo m.regs.cx ||| hi m.regs.ax) }

/-- `.try_again` and what follows it; DI counts the attempts down, so that `0` is not reached. -/
def tryAgain (bios : Bios) : Nat → Machine → Run Machine
  | 0, m => throw (.halted, m)
  | n + 1, m => do
    let m := { m with regs.ax := setHi m.regs.ax 0x2 }
    let m := int13 bios { m with cf := true }
    if m.cf then
      let m := { m with regs.di := m.regs.di - 1 }
      if m.regs.di ≠ 0 then tryAgain bios n m
      else throw (.halted, m.print "Read failed\r\n")
    else return m.print "Read finished\r\n"

def diskRead (bpb : Bpb) (bios : Bios) (m : Machine) : Run Machine := do
  -- the registers pushed
  let ⟨ax, _, cx, dx, si, di⟩ := m.regs
  let m := { m with regs.ax := setHi m.regs.ax 0 }
  let m ← lbaToChs bpb m
  let m := { m with regs.ax := ax }
  let m := { m with regs.ax := m.regs.ax >>> 8 }
  let m := { m with regs.di := 3 }
  let m ← tryAgain bios 3 m
  return { m with regs.cx := cx, regs.di := di, regs.dx := dx, regs.si := si }

/-! ## Cylinder, head and sector -/

/-- With DX cleared, AX is divided. -/
theorem Machine.div_ok {x : BitVec 16} {m : Machine} (hdx : m.regs.dx = 0) (hx : 1 ≤ x.toNat) : m.div x =
    .ok { m with
      regs.ax := BitVec.ofNat 16 (m.regs.ax.toNat / x.toNat)
      regs.dx := BitVec.ofNat 16 (m.regs.ax.toNat % x.toNat) } := by
  have hdxax : m.regs.dxax = m.regs.ax.toNat := by
    unfold Regs16.dxax
    rw [hdx]
    exact Nat.zero_add _
  have hlt : m.regs.dx.toNat < x.toNat := by
    rw [hdx]
    exact hx
  unfold Machine.div
  rw [Regs16.div_ok hlt, hdxax]
  rfl

/-- A geometry that `INT 13h` can address. -/
structure Bpb.Valid (bpb : Bpb) : Prop where
  sectorsPerTrack : 1 ≤ bpb.sectorsPerTrack.toNat ∧ bpb.sectorsPerTrack.toNat ≤ 63
  heads : 1 ≤ bpb.heads.toNat ∧ bpb.heads.toNat ≤ 256

/-- CL, with the sector in the low six bits and the rest of the cylinder in the high two. -/
theorem cl_toNat {x y : BitVec 8} (hx : x.toNat < 64) (hy : y.toNat < 4) :
    (x ||| y <<< 6).toNat = 64 * y.toNat + x.toNat := by
  have hshift : y.toNat <<< 6 < 256 := by
    rw [Nat.shiftLeft_eq]
    omega
  rw [BitVec.toNat_or, BitVec.toNat_shiftLeft, Nat.mod_eq_of_lt hshift, Nat.or_comm, ← Nat.shiftLeft_add_eq_or_of_lt hx,
    Nat.shiftLeft_eq, Nat.mul_comm]

/-- The address of sector `lba`, in the parts that a request has it in. -/
structure Request.Addresses (sectorsPerTrack heads lba : Nat) (q : Request) : Prop where
  cylinder : q.cylinder = lba / sectorsPerTrack / heads
  head : q.dh.toNat = lba / sectorsPerTrack % heads
  sector : q.sector = lba % sectorsPerTrack + 1

theorem Request.Addresses.lba_eq {sectorsPerTrack heads lba : Nat} {q : Request}
    (h : q.Addresses sectorsPerTrack heads lba) : q.lba sectorsPerTrack heads = lba := by
  have htrack : q.cylinder * heads + q.dh.toNat = lba / sectorsPerTrack := by
    rw [h.cylinder, h.head, Nat.div_add_mod']
  unfold Request.lba
  rw [htrack, h.sector, Nat.add_sub_cancel, Nat.div_add_mod']

/-- Every sector number with a cylinder below 1024 is split into cylinder, head and sector. -/
theorem lbaToChs_spec {bpb : Bpb} (m : Machine) (hbpb : bpb.Valid)
    (hcyl : m.regs.ax.toNat / bpb.sectorsPerTrack.toNat / bpb.heads.toNat < 1024) :
    ∃ ax cx dx, lbaToChs bpb m = .ok { m with regs.ax := ax, regs.cx := cx, regs.dx := dx } ∧
      lo dx = bpb.driveNumber ∧
      Request.Addresses bpb.sectorsPerTrack.toNat bpb.heads.toNat m.regs.ax.toNat
        { m with regs.cx := cx, regs.dx := dx }.request := by
  obtain ⟨⟨hspt, hspt'⟩, hheads, hheads'⟩ := hbpb
  let lba := m.regs.ax.toNat
  let track := lba / bpb.sectorsPerTrack.toNat
  let cylinder := track / bpb.heads.toNat
  let head := track % bpb.heads.toNat
  let sector := BitVec.ofNat 16 (lba % bpb.sectorsPerTrack.toNat) + 1
  let ax := setHi (BitVec.ofNat 16 cylinder) (hi (BitVec.ofNat 16 cylinder) <<< 6)
  let cx := setHi sector (lo (BitVec.ofNat 16 cylinder))
  let cl := lo cx ||| hi ax
  have hlba : lba < 65536 := m.regs.ax.isLt
  have hmod : lba % bpb.sectorsPerTrack.toNat < bpb.sectorsPerTrack.toNat := Nat.mod_lt _ hspt
  have hhead : head < bpb.heads.toNat := Nat.mod_lt _ hheads
  have htrack : track ≤ lba := Nat.div_le_self ..
  have hcyl : cylinder < 1024 := hcyl
  have hcl : cl.toNat = 64 * (cylinder / 256) + (lba % bpb.sectorsPerTrack.toNat + 1) := by
    have hlow : (lo sector).toNat = lba % bpb.sectorsPerTrack.toNat + 1 := by
      show (lo (BitVec.ofNat 16 _ + BitVec.ofNat 16 1)).toNat = _
      rw [← BitVec.ofNat_add, lo_ofNat_toNat]
      omega
    have hhigh : (hi (BitVec.ofNat 16 cylinder)).toNat = cylinder / 256 := hi_ofNat_toNat (by omega)
    show (lo cx ||| hi ax).toNat = _
    rw [lo_setHi, hi_setHi, cl_toNat (by omega) (by omega), hlow, hhigh]
  refine ⟨ax, setLo cx cl,
    setLo (setHi (BitVec.ofNat 16 head) (lo (BitVec.ofNat 16 head))) bpb.driveNumber, ?_, lo_setLo .., ?_, ?_, ?_⟩
  · have h1 := Machine.div_ok (m := { m with regs.cx := 0, regs.dx := 0 }) rfl hspt
    have h2 := Machine.div_ok
      (m := { m with regs.ax := BitVec.ofNat 16 track, regs.cx := sector, regs.dx := 0 }) rfl hheads
    rw [BitVec.toNat_ofNat, Nat.mod_eq_of_lt (by omega)] at h2
    unfold lbaToChs
    show (Machine.div _ _ >>= _) = _
    rw [h1]
    show (Machine.div _ _ >>= _) = _
    rw [h2]
    rfl
  · show (hi (setLo _ cl)).toNat + 256 * ((lo (setLo _ cl)) >>> 6).toNat = cylinder
    rw [hi_setLo, hi_setHi, lo_setLo, lo_ofNat_toNat, BitVec.toNat_ushiftRight, hcl, Nat.shiftRight_eq_div_pow]
    omega
  · show (hi (setLo _ _)).toNat = head
    rw [hi_setLo, hi_setHi, lo_ofNat_toNat]
    omega
  · show ((lo (setLo _ cl)) &&& 0x3F).toNat = lba % bpb.sectorsPerTrack.toNat + 1
    rw [lo_setLo, BitVec.toNat_and, hcl]
    show _ &&& (2 ^ 6 - 1) = _
    rw [Nat.and_two_pow_sub_one_eq_mod]
    omega

/-- The values in CX and DX decode to the sector number `lba`. -/
structure Request.Decodes (sectorsPerTrack heads lba : Nat) (q : Request) : Prop where
  sector : 1 ≤ q.sector ∧ q.sector ≤ sectorsPerTrack
  head : q.dh.toNat < heads
  lba : (q.cylinder * heads + q.dh.toNat) * sectorsPerTrack + (q.sector - 1) = lba

theorem Request.Addresses.decodes {sectorsPerTrack heads lba : Nat} {q : Request}
    (h : q.Addresses sectorsPerTrack heads lba) (hspt : 1 ≤ sectorsPerTrack) (hheads : 1 ≤ heads) :
    q.Decodes sectorsPerTrack heads lba := by
  refine ⟨?_, ?_, h.lba_eq⟩
  · rw [h.sector]
    exact ⟨Nat.le_add_left 1 _, Nat.mod_lt lba hspt⟩
  · rw [h.head]
    exact Nat.mod_lt _ hheads

/-- For every geometry and every sector number in AX with a cylinder below 1024, `lba_to_chs` returns
without a divide error, and what it leaves in CX and DX decodes to the sector number. -/
theorem lba_to_chs_decodes {bpb : Bpb} (hbpb : bpb.Valid) (m : Machine)
    (hcyl : m.regs.ax.toNat / (bpb.sectorsPerTrack.toNat * bpb.heads.toNat) < 1024) :
    ∃ m', lbaToChs bpb m = .ok m' ∧ m'.request.dl = bpb.driveNumber ∧
      m'.request.Decodes bpb.sectorsPerTrack.toNat bpb.heads.toNat m.regs.ax.toNat := by
  rw [← Nat.div_div_eq_div_mul] at hcyl
  obtain ⟨ax, cx, dx, hrun, hdl, haddr⟩ := lbaToChs_spec m hbpb hcyl
  have haddr' : Request.Addresses bpb.sectorsPerTrack.toNat bpb.heads.toNat m.regs.ax.toNat
      { m with regs.ax := ax, regs.cx := cx, regs.dx := dx }.request :=
    ⟨haddr.cylinder, haddr.head, haddr.sector⟩
  exact ⟨_, hrun, hdl, haddr'.decodes hbpb.sectorsPerTrack.1 hbpb.heads.1⟩

theorem bpb_valid : bpb.Valid := ⟨by decide, by decide⟩

/-- The last sector of the floppy. -/
def lastSector : Machine := ⟨⟨2879, 0, 0, 0, 0, 0⟩, 0, 0, false, fun _ => 0, [], []⟩

theorem lba_to_chs_decodes_last : ∃ m', lbaToChs bpb lastSector = .ok m' ∧ m'.request.dl = 0x00 ∧
    m'.request.Decodes 18 2 2879 :=
  lba_to_chs_decodes bpb_valid lastSector (by decide)

/-! ## A read that succeeds -/

/-- AL always has a cylinder that `INT 13h` can address: what is left to do is the attempts. -/
theorem diskRead_eq {bpb : Bpb} (hbpb : bpb.Valid) (m : Machine) :
    ∃ cx dx, lo dx = bpb.driveNumber ∧
      Request.Addresses bpb.sectorsPerTrack.toNat bpb.heads.toNat (lo m.regs.ax).toNat
        { m with regs.cx := cx, regs.dx := dx }.request ∧
      ∀ bios, diskRead bpb bios m =
        (tryAgain bios 3 { m with regs.ax := m.regs.ax >>> 8, regs.cx := cx, regs.dx := dx, regs.di := 3 }).map
          fun m' => { m' with
            regs.cx := m.regs.cx, regs.di := m.regs.di, regs.dx := m.regs.dx, regs.si := m.regs.si } := by
  have hlba := setHi_zero_toNat m.regs.ax
  have hcyl : (setHi m.regs.ax 0).toNat / bpb.sectorsPerTrack.toNat / bpb.heads.toNat < 1024 := by
    have hlt := (lo m.regs.ax).isLt
    have h1 := Nat.div_le_self (setHi m.regs.ax 0).toNat bpb.sectorsPerTrack.toNat
    have h2 := Nat.div_le_self ((setHi m.regs.ax 0).toNat / bpb.sectorsPerTrack.toNat) bpb.heads.toNat
    omega
  obtain ⟨ax, cx, dx, hchs, hdl, haddr⟩ := lbaToChs_spec { m with regs.ax := setHi m.regs.ax 0 } hbpb hcyl
  rw [hlba] at haddr
  refine ⟨cx, dx, hdl, ⟨haddr.cylinder, haddr.head, haddr.sector⟩, fun bios => ?_⟩
  unfold diskRead
  show (lbaToChs bpb { m with regs.ax := setHi m.regs.ax 0 } >>= _) = _
  rw [hchs]
  show (tryAgain bios 3 _ >>= _) = _
  cases tryAgain bios 3 { m with regs.ax := m.regs.ax >>> 8, regs.cx := cx, regs.dx := dx, regs.di := 3 } with
  | error stop => rfl
  | ok m' => rfl

theorem int13_success {bios : Bios} {m : Machine} (h : bios.outcome m.requests.length = .success) :
    int13 bios m = { m with
      regs.ax := setHi m.regs.ax 0
      cf := false
      mem := blits 512 (linear m.es m.regs.bx)
        ((m.request.sectors bios.sectorsPerTrack bios.heads).map bios.byte) m.mem
      requests := m.requests ++ [m.request] } := by
  unfold int13
  rw [h]

theorem tryAgain_success {bios : Bios} {m : Machine} (n : Nat) (h : bios.outcome m.requests.length = .success) :
    tryAgain bios (n + 1) m =
      .ok ((int13 bios { m with regs.ax := setHi m.regs.ax 0x2, cf := true }).print "Read finished\r\n") := by
  unfold tryAgain
  simp only [int13_success (m := { m with regs.ax := setHi m.regs.ax 0x2, cf := true }) h, Bool.false_eq_true, if_false]
  rfl

/-- A read that succeeds is one call, for as many sectors as AH says. -/
theorem diskRead_success {bpb : Bpb} {bios : Bios} {m : Machine} (hbpb : bpb.Valid)
    (hsuccess : bios.outcome m.requests.length = .success) :
    ∃ ax q, diskRead bpb bios m = .ok { m with
        regs.ax := ax
        cf := false
        mem := blits 512 (linear m.es m.regs.bx)
          ((q.sectors bios.sectorsPerTrack bios.heads).map bios.byte) m.mem
        requests := m.requests ++ [q]
        printed := m.printed ++ Byte.text "Read finished\r\n" } ∧
      q.al = hi m.regs.ax ∧
      q.Addresses bpb.sectorsPerTrack.toNat bpb.heads.toNat (lo m.regs.ax).toNat := by
  obtain ⟨cx, dx, -, haddr, hread⟩ := diskRead_eq hbpb m
  let ready : Machine := { m with regs.ax := m.regs.ax >>> 8, regs.cx := cx, regs.dx := dx, regs.di := 3 }
  let called : Machine := { ready with regs.ax := setHi ready.regs.ax 0x2, cf := true }
  have htry : tryAgain bios 3 ready = .ok ((int13 bios called).print "Read finished\r\n") := tryAgain_success 2 hsuccess
  have hint : int13 bios called = _ := int13_success hsuccess
  refine ⟨setHi called.regs.ax 0, called.request, ?_, ?_, ⟨haddr.cylinder, haddr.head, haddr.sector⟩⟩
  · rw [hread]
    show (tryAgain bios 3 ready).map _ = _
    rw [htry, hint]
    rfl
  · show lo (setHi (m.regs.ax >>> 8) 0x2) = _
    rw [lo_setHi, lo_ushiftRight_eight]

/-- The sectors asked for, of a drive with the geometry of the block. -/
theorem Request.Addresses.sectors_eq {sectorsPerTrack heads lba : Nat} {q : Request}
    (h : q.Addresses sectorsPerTrack heads lba) :
    q.sectors sectorsPerTrack heads = (List.range q.al.toNat).map (lba + ·) := by
  unfold Request.sectors
  rw [h.lba_eq]

end SnakeOS.Boot.Stage0
