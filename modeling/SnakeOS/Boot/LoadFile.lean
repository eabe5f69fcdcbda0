/-
Loading a file: `load_file` of boot/x86/stage0/utils.asm follows the chain of a file's clusters in
the loaded FAT and reads each cluster with `disk_read`, which takes the sector number in AL.
-/
import SnakeOS.Lib.Fat12
import SnakeOS.Boot.Disk

namespace SnakeOS.Boot.Stage0

open Mem

/-! ## `load_file` -/

/-- From the multiplication by 3 to `.interpret_chain_marker`: the FAT entry of cluster AX, in the
FAT at SI. -/
def chainMarker (m : Machine) : Run Machine := do
  let m := { m with regs.cx := 3 }
  let m := { m with regs := m.regs.mul m.regs.cx }
  let m := { m with regs.cx := 2 }
  let m ← m.div m.regs.cx
  let m := { m with regs.si := m.regs.si + m.regs.ax }
  let m := { m with regs.ax := m.word m.regs.si }
  if m.regs.dx = 0 then return { m with regs.ax := m.regs.ax &&& 0x0FFF }
  else return { m with regs.ax := m.regs.ax >>> 4 }

/-- One pass of the loop, from `.load_next_cluster` to the jump after `cmp ax, 0x0FF8`: whether
`jae .read_finished` is taken. -/
def loadNextCluster (bpb : Bpb) (bios : Bios) (m : Machine) : Run (Machine × Bool) := do
  -- SI and the cluster number are on the stack meanwhile
  let si := m.regs.si
  let cluster := m.regs.ax
  let m := { m with regs.ax := m.regs.ax + 31 }
  let m := { m with regs.ax := setHi m.regs.ax 1 }
  let m ← diskRead bpb bios m
  let m := { m with regs.bx := m.regs.bx + bpb.bytesPerSector }
  let m := { m with regs.ax := cluster }
  let m ← chainMarker m
  let m := { m with regs.si := si }
  return (m, 0x0FF8 ≤ m.regs.ax)

/-- At most `n` passes; `none` when they do not suffice. -/
def loadFile (bpb : Bpb) (bios : Bios) : Nat → Machine → Option (Run Machine)
  | 0, _ => none
  | n + 1, m =>
    match loadNextCluster bpb bios m with
    | .error stop => some (.error stop)
    | .ok (m, true) => some (.ok m)
    | .ok (m, false) => loadFile bpb bios n m

/-! ## The floppy -/

abbrev Sector : Type := Vector UInt8 512

/-- The sectors of the boot disk. -/
abbrev Volume : Type := Fin 2880 → Sector

namespace Volume

def byte (v : Volume) (lba i : Nat) : UInt8 := if h : lba < 2880 then (v ⟨lba, h⟩).getD i 0 else 0

/-- The first FAT, in nine sectors from sector 1 on. -/
def fat (v : Volume) (i : Nat) : UInt8 := v.byte (1 + i / 512) (i % 512)

/-- The volume in the drive, with a BIOS that reads every sector. -/
def bios (v : Volume) : Bios := ⟨18, 2, v.byte, fun _ => .success⟩

def IsFile (v : Volume) (chain : List Nat) : Prop := Fat12.IsFile v.fat 0 4608 2848 chain

end Volume

/-- The state of stage0 at `.load_next_cluster`: the FAT is at 0x7E00, and the segment to load to
lies above it and ends by 0xA0000. -/
structure Loading (v : Volume) (m : Machine) : Prop where
  ds : m.ds = 0
  si : m.regs.si = 0x7E00
  es : 0x900 ≤ m.es.toNat ∧ m.es.toNat ≤ 0x9000
  fat : ∀ i < 4608, m.mem (0x7E00 + i) = v.fat i

/-! ## The FAT entry of a cluster -/

theorem word_toNat {m : Machine} {off : BitVec 16} (h : off.toNat + 1 < 2 ^ 16) :
    (m.word off).toNat = littleEndian m.mem (linear m.ds off) 2 := by
  have hnext : linear m.ds (off + 1) = linear m.ds off + 1 := linear_add h
  unfold Machine.word
  rw [BitVec.toNat_append, hnext, ← Nat.shiftLeft_add_eq_or_of_lt (BitVec.isLt _), Nat.shiftLeft_eq]
  simp only [littleEndian, UInt8.toNat_toBitVec]
  omega

theorem low_bits_toNat (w : BitVec 16) : (w &&& 0x0FFF).toNat = w.toNat % 4096 := by
  rw [BitVec.toNat_and]
  exact Nat.and_two_pow_sub_one_eq_mod w.toNat 12

theorem high_bits_toNat (w : BitVec 16) : (w >>> 4).toNat = w.toNat / 16 := by
  rw [BitVec.toNat_ushiftRight]
  exact Nat.shiftRight_eq_div_pow w.toNat 4

/-- The remainder of `3 * n` by 2 is that of `n`. -/
theorem parity_eq (n : Nat) : n * 3 % 2 = n % 2 := by omega

/-- The word at the offset of an entry, masked or shifted by the parity of the offset's remainder, is
the entry. -/
theorem marker_eq {m : Machine} {cluster len : Nat} (hcluster : cluster * 3 / 2 + 2 ≤ len)
    (hsi : m.regs.si.toNat + len ≤ 2 ^ 16) :
    let word := m.word (m.regs.si + BitVec.ofNat 16 (cluster * 3 / 2))
    (if BitVec.ofNat 16 (cluster * 3 % 2) = 0 then word &&& 0x0FFF else word >>> 4) =
      BitVec.ofNat 16 (Fat12.entry m.mem (linear m.ds m.regs.si) len cluster) := by
  have hoff : (m.regs.si + BitVec.ofNat 16 (cluster * 3 / 2)).toNat = m.regs.si.toNat + cluster * 3 / 2 := by
    rw [BitVec.toNat_add, BitVec.toNat_ofNat]
    omega
  have hword := @word_toNat m (m.regs.si + BitVec.ofNat 16 (cluster * 3 / 2)) (by omega)
  rw [linear_add (by omega)] at hword
  have hlt := littleEndian_lt m.mem (linear m.ds m.regs.si + cluster * 3 / 2) 2
  apply BitVec.eq_of_toNat_eq
  rw [parity_eq]
  rcases Nat.mod_two_eq_zero_or_one cluster with heven | hodd
  · rw [if_pos (by rw [heven]; rfl), low_bits_toNat, hword, Fat12.entry_even _ _ heven hcluster, BitVec.toNat_ofNat]
    omega
  · rw [if_neg (by rw [hodd]; decide), high_bits_toNat, hword, Fat12.entry_odd _ _ hodd hcluster, BitVec.toNat_ofNat]
    omega

/-- The product with 3 fits in AX, and its division by 2 does not fail. -/
theorem offset_div {m : Machine} (hcluster : m.regs.ax.toNat < 4096) :
    Machine.div 2 { m with regs := { Regs16.mul 3 { m.regs with cx := 3 } with cx := 2 } } = .ok { m with
      regs.ax := BitVec.ofNat 16 (m.regs.ax.toNat * 3 / 2)
      regs.cx := 2
      regs.dx := BitVec.ofNat 16 (m.regs.ax.toNat * 3 % 2) } := by
  let product : Machine := { m with regs.ax := BitVec.ofNat 16 (m.regs.ax.toNat * 3), regs.cx := 2, regs.dx := 0 }
  have hmul : Regs16.mul 3 { m.regs with cx := 3 } = { product.regs with cx := 3 } := by
    have hhigh : m.regs.ax.toNat * 3 / 65536 = 0 := by omega
    show ({ m.regs with
      ax := BitVec.ofNat 16 (m.regs.ax.toNat * 3), cx := 3, dx := BitVec.ofNat 16 (m.regs.ax.toNat * 3 / 65536) } :
        Regs16) = _
    rw [hhigh]
    rfl
  have hax : product.regs.ax.toNat = m.regs.ax.toNat * 3 := by
    rw [BitVec.toNat_ofNat]
    omega
  have hdiv := Machine.div_ok (x := 2) (m := product) rfl (by decide)
  rw [hax] at hdiv
  rw [hmul]
  exact hdiv

/-- The entry is found in the `len` bytes at `DS:SI`, whatever is in them, and SI is left where it is. -/
theorem chainMarker_spec {m : Machine} {len : Nat} (hcluster : m.regs.ax.toNat < 4096)
    (hlen : m.regs.ax.toNat * 3 / 2 + 2 ≤ len) (hsi : m.regs.si.toNat + len ≤ 2 ^ 16) :
    ∃ cx dx, chainMarker m = .ok { m with
      regs.ax := BitVec.ofNat 16 (Fat12.entry m.mem (linear m.ds m.regs.si) len m.regs.ax.toNat)
      regs.cx := cx, regs.dx := dx, regs.si := m.regs.si + BitVec.ofNat 16 (m.regs.ax.toNat * 3 / 2) } := by
  have hmarker := marker_eq hlen hsi
  let off := m.regs.si + BitVec.ofNat 16 (m.regs.ax.toNat * 3 / 2)
  let rem := BitVec.ofNat 16 (m.regs.ax.toNat * 3 % 2)
  let found (ax : BitVec 16) : Machine := { m with regs.ax := ax, regs.cx := 2, regs.dx := rem, regs.si := off }
  refine ⟨2, rem, ?_⟩
  unfold chainMarker
  show (Machine.div 2 { m with regs := { Regs16.mul 3 { m.regs with cx := 3 } with cx := 2 } } >>= _) = _
  rw [offset_div hcluster]
  show (if rem = 0 then Except.ok (found (m.word off &&& 0x0FFF)) else Except.ok (found (m.word off >>> 4))) = _
  rw [← apply_ite Except.ok, ← apply_ite found, hmarker]

/-- For every table of 3072 entries packed in the 4608 bytes at `DS:SI`, and every entry of it, no divide
error is raised, the word is loaded from `off` bytes into the table and inside it, and AX is the entry. -/
theorem chain_marker_decodes {e : Nat → BitVec 12} {m : Machine} (hn : m.regs.ax.toNat ≤ 3071)
    (hsi : m.regs.si.toNat + 4608 ≤ 2 ^ 16)
    (htable : ∀ i < 4608, m.mem (linear m.ds m.regs.si + i) = Fat12.pack e i) :
    ∃ off cx dx, off + 2 ≤ 4608 ∧ chainMarker m = .ok { m with
      regs.ax := (e m.regs.ax.toNat).setWidth 16
      regs.cx := cx, regs.dx := dx, regs.si := m.regs.si + BitVec.ofNat 16 off } := by
  have hlen : m.regs.ax.toNat * 3 / 2 + 2 ≤ 4608 := by omega
  obtain ⟨cx, dx, hrun⟩ := chainMarker_spec (by omega) hlen hsi
  rw [Fat12.entry_pack htable hlen, BitVec.ofNat_toNat] at hrun
  exact ⟨_, cx, dx, hlen, hrun⟩

/-- The table in which every cluster is followed by the next one, at 0x7E00. -/
def consecutive (cluster : BitVec 16) : Machine :=
  ⟨⟨cluster, 0, 0, 0, 0x7E00, 0⟩, 0, 0x8000, false,
    blit 0x7E00 4608 (Fat12.pack fun n => BitVec.ofNat 12 (n + 1)) (fun _ => 0), [], []⟩

theorem chain_marker_decodes_last : ∃ off cx dx, off + 2 ≤ 4608 ∧ chainMarker (consecutive 3071) = .ok
    { consecutive 3071 with
      regs.ax := (BitVec.ofNat 12 3072).setWidth 16
      regs.cx := cx, regs.dx := dx, regs.si := 0x7E00 + BitVec.ofNat 16 off } := by
  have hbase : linear (consecutive 3071).ds (consecutive 3071).regs.si = 0x7E00 := rfl
  refine chain_marker_decodes (e := fun n => BitVec.ofNat 12 (n + 1)) (m := consecutive 3071) (by decide) (by decide)
    fun i hi => ?_
  rw [hbase]
  simp only [consecutive]
  rw [blit_inside hi]

/-! ## One cluster -/

/-- The sector that is read for a cluster: AL has the low eight bits of its number. -/
def sectorRead (cluster : Nat) : Nat := (cluster + 31) % 256

/-- What one pass does for the cluster in AX. -/
structure Loads (v : Volume) (cluster : Nat) (m m' : Machine) : Prop where
  ax : m'.regs.ax = BitVec.ofNat 16 (Fat12.entry v.fat 0 4608 cluster)
  bx : m'.regs.bx = m.regs.bx + 512
  es : m'.es = m.es
  mem : m'.mem = blit (linear m.es m.regs.bx) 512 (v.byte (sectorRead cluster)) m.mem
  requests : ∃ q : Request, m'.requests = m.requests ++ [q] ∧ q.sectors 18 2 = [sectorRead cluster]

/-- The FAT stays as it is when a sector is delivered. -/
theorem Loading.delivered {v : Volume} {m m' : Machine} (h : Loading v m) (hds : m'.ds = m.ds)
    (hsi : m'.regs.si = m.regs.si) (hes : m'.es = m.es) {bx : BitVec 16} {f : Nat → UInt8}
    (hmem : m'.mem = blit (linear m.es bx) 512 f m.mem) : Loading v m' := by
  refine ⟨hds.trans h.ds, hsi.trans h.si, hes ▸ h.es, fun i hi => ?_⟩
  have hes := h.es.1
  rw [hmem, blit_outside, h.fat i hi]
  unfold linear
  omega

/-- The sector that is asked for and delivered for the cluster in AX. -/
theorem diskRead_cluster (v : Volume) (m : Machine) :
    ∃ ax q, diskRead bpb v.bios { m with regs.ax := setHi (m.regs.ax + 31) 1 } = .ok { m with
        regs.ax := ax
        cf := false
        mem := blit (linear m.es m.regs.bx) 512 (v.byte (sectorRead m.regs.ax.toNat)) m.mem
        requests := m.requests ++ [q]
        printed := m.printed ++ Byte.text "Read finished\r\n" } ∧
      q.sectors 18 2 = [sectorRead m.regs.ax.toNat] := by
  let asked : Machine := { m with regs.ax := setHi (m.regs.ax + 31) 1 }
  obtain ⟨ax, q, hread, hcount, haddr⟩ := @diskRead_success bpb v.bios asked bpb_valid rfl
  have hsectors : q.sectors 18 2 = _ := haddr.sectors_eq
  have hal : (lo asked.regs.ax).toNat = sectorRead m.regs.ax.toNat := by
    show (lo (setHi (m.regs.ax + 31) 1)).toNat = _
    rw [lo_setHi, lo_toNat, BitVec.toNat_add]
    show (_ + 31) % 65536 % 256 = _
    unfold sectorRead
    omega
  have hah : hi asked.regs.ax = 1 := hi_setHi ..
  rw [hal, hcount, hah] at hsectors
  refine ⟨ax, q, ?_, hsectors⟩
  rw [hread, show q.sectors v.bios.sectorsPerTrack v.bios.heads = _ from hsectors]
  rfl

/-- A pass whose read succeeds takes the cluster's entry in the `len` bytes at `DS:SI`. -/
theorem loadNextCluster_marker {bios : Bios} {m read : Machine} {len : Nat}
    (hread : diskRead bpb bios { m with regs.ax := setHi (m.regs.ax + 31) 1 } = .ok read)
    (hsi : read.regs.si = m.regs.si) (hcluster : m.regs.ax.toNat < 4096)
    (hlen : m.regs.ax.toNat * 3 / 2 + 2 ≤ len) (hroom : m.regs.si.toNat + len ≤ 2 ^ 16) :
    ∃ cx dx, loadNextCluster bpb bios m = .ok
      ({ read with
          regs.ax := BitVec.ofNat 16 (Fat12.entry read.mem (linear read.ds m.regs.si) len m.regs.ax.toNat)
          regs.bx := read.regs.bx + 512, regs.cx := cx, regs.dx := dx, regs.si := m.regs.si },
        decide (0xFF8 ≤ Fat12.entry read.mem (linear read.ds m.regs.si) len m.regs.ax.toNat)) := by
  let ready : Machine := { read with regs.bx := read.regs.bx + 512, regs.ax := m.regs.ax }
  obtain ⟨cx, dx, hmarker⟩ := chainMarker_spec (m := ready) hcluster hlen (by rw [← hsi] at hroom; exact hroom)
  rw [show ready.regs.si = m.regs.si from hsi] at hmarker
  have hlt := Fat12.entry_lt read.mem (linear read.ds m.regs.si) len m.regs.ax.toNat
  have hend : decide ((0x0FF8 : BitVec 16) ≤
      BitVec.ofNat 16 (Fat12.entry read.mem (linear read.ds m.regs.si) len m.regs.ax.toNat)) =
      decide (0xFF8 ≤ Fat12.entry read.mem (linear read.ds m.regs.si) len m.regs.ax.toNat) := by
    refine decide_eq_decide.2 ?_
    show (0x0FF8 : BitVec 16).toNat ≤ (BitVec.ofNat 16 _).toNat ↔ _
    rw [BitVec.toNat_ofNat, Nat.mod_eq_of_lt (by omega)]
    rfl
  refine ⟨cx, dx, ?_⟩
  rw [← hend]
  unfold loadNextCluster
  show (diskRead bpb bios { m with regs.ax := setHi (m.regs.ax + 31) 1 } >>= _) = _
  rw [hread]
  show (chainMarker ready >>= _) = _
  rw [hmarker]
  rfl

theorem loadNextCluster_spec {v : Volume} {m : Machine} (h : Loading v m) (hcluster : m.regs.ax.toNat < 3072) :
    ∃ m', loadNextCluster bpb v.bios m =
        .ok (m', decide (0xFF8 ≤ Fat12.entry v.fat 0 4608 m.regs.ax.toNat)) ∧
      Loading v m' ∧ Loads v m.regs.ax.toNat m m' := by
  let cluster := m.regs.ax.toNat
  obtain ⟨ax, q, hread, hsectors⟩ := diskRead_cluster v m
  let read : Machine := { m with
    regs.ax := ax
    cf := false
    mem := blit (linear m.es m.regs.bx) 512 (v.byte (sectorRead cluster)) m.mem
    requests := m.requests ++ [q]
    printed := m.printed ++ Byte.text "Read finished\r\n" }
  have hready : Loading v read := h.delivered rfl rfl rfl rfl
  have hentry : Fat12.entry read.mem (linear read.ds m.regs.si) 4608 cluster = Fat12.entry v.fat 0 4608 cluster := by
    have hfat : linear read.ds m.regs.si = 0x7E00 := by
      rw [hready.ds, h.si]
      rfl
    refine Fat12.entry_congr (fun i hi => ?_) cluster
    rw [hfat, Nat.zero_add]
    exact hready.fat i hi
  have hroom : m.regs.si.toNat + 4608 ≤ 2 ^ 16 := by
    rw [h.si]
    decide
  obtain ⟨cx, dx, hrun⟩ := @loadNextCluster_marker v.bios m read 4608 hread rfl (by omega) (by omega) hroom
  rw [hentry] at hrun
  refine ⟨_, hrun, ?_, ?_⟩
  · exact ⟨hready.ds, hready.si, hready.es, hready.fat⟩
  · exact ⟨rfl, rfl, rfl, rfl, q, rfl, hsectors⟩

/-! ## The whole chain -/

/-- What the passes do for a chain of clusters. -/
structure LoadsAll (v : Volume) (chain : List Nat) (m m' : Machine) : Prop where
  mem : m'.mem = blits 512 (linear m.es m.regs.bx) (chain.map fun c => v.byte (sectorRead c)) m.mem
  requests : ∃ qs : List Request, m'.requests = m.requests ++ qs ∧
    qs.flatMap (Request.sectors 18 2) = chain.map sectorRead

theorem Loads.one {v : Volume} {c : Nat} {m m' : Machine} (h : Loads v c m m') : LoadsAll v [c] m m' := by
  obtain ⟨q, hq, hsectors⟩ := h.requests
  exact ⟨h.mem, [q], hq, by simp [hsectors]⟩

theorem Loads.cons {v : Volume} {c : Nat} {cs : List Nat} {m m₁ m' : Machine} (h : Loads v c m m₁)
    (hbx : m.regs.bx.toNat + 512 < 2 ^ 16) (hrest : LoadsAll v cs m₁ m') : LoadsAll v (c :: cs) m m' := by
  obtain ⟨q, hq, hsectors⟩ := h.requests
  obtain ⟨qs, hqs, hrest'⟩ := hrest.requests
  refine ⟨?_, q :: qs, ?_, ?_⟩
  · have hnext : linear m₁.es m₁.regs.bx = linear m.es m.regs.bx + 512 := by
      rw [h.es, h.bx]
      exact linear_add hbx
    rw [hrest.mem, hnext, h.mem]
    rfl
  · rw [hqs, hq, List.append_assoc]
    rfl
  · rw [List.flatMap_cons, hsectors, hrest']
    rfl

theorem loadFile_finished {bios : Bios} {m m' : Machine} (h : loadNextCluster bpb bios m = .ok (m', true)) (n : Nat) :
    loadFile bpb bios (n + 1) m = some (.ok m') := by
  unfold loadFile
  rw [h]

theorem loadFile_more {bios : Bios} {m m' : Machine} (h : loadNextCluster bpb bios m = .ok (m', false)) (n : Nat) :
    loadFile bpb bios (n + 1) m = loadFile bpb bios n m' := by
  rw [loadFile.eq_def]
  simp only [h]

/-- The induction is on the chain: one pass reads its first cluster and leaves the next one in AX. -/
theorem loadFile_run {v : Volume} : ∀ {chain : List Nat} {m : Machine}, v.IsFile chain → Loading v m →
    chain.head? = some m.regs.ax.toNat → m.regs.bx.toNat + 512 * chain.length ≤ 2 ^ 16 →
    ∃ m', (∀ n, chain.length ≤ n → loadFile bpb v.bios n m = some (.ok m')) ∧ Loading v m' ∧ LoadsAll v chain m m'
  | [c], m, hfile, hm, hax, _ => by
    obtain rfl : c = m.regs.ax.toNat := by simpa using hax
    have hrange := hfile.range _ (List.mem_singleton_self _)
    obtain ⟨m', hstep, hm', hloads⟩ := loadNextCluster_spec hm (by omega)
    rw [decide_eq_true hfile.entry_last] at hstep
    refine ⟨m', fun n hn => ?_, hm', hloads.one⟩
    obtain ⟨n, rfl⟩ := Nat.exists_eq_add_of_le' hn
    exact loadFile_finished hstep n
  | c :: d :: cs, m, hfile, hm, hax, hbx => by
    obtain rfl : c = m.regs.ax.toNat := by simpa using hax
    have hrange := hfile.range _ (List.mem_cons_self ..)
    have hrange' := hfile.range d (by simp)
    have hlink := hfile.entry_next
    obtain ⟨m₁, hstep, hm₁, hloads⟩ := loadNextCluster_spec hm (by omega)
    rw [hlink, decide_eq_false (by omega)] at hstep
    have hax₁ : m₁.regs.ax.toNat = d := by
      rw [hloads.ax, hlink, BitVec.toNat_ofNat]
      omega
    simp only [List.length_cons] at hbx
    have hbx₁ : m₁.regs.bx.toNat = m.regs.bx.toNat + 512 := by
      rw [hloads.bx, BitVec.toNat_add]
      show (_ + 512) % 65536 = _
      omega
    have hroom : m₁.regs.bx.toNat + 512 * (d :: cs).length ≤ 2 ^ 16 := by
      calc m₁.regs.bx.toNat + 512 * (cs.length + 1)
          = m.regs.bx.toNat + 512 * (cs.length + 1 + 1) := by rw [hbx₁]; ring
        _ ≤ 2 ^ 16 := hbx
    obtain ⟨m', hrun, hm', hall⟩ := loadFile_run hfile.tail hm₁ (by rw [hax₁]; rfl) hroom
    refine ⟨m', fun n hn => ?_, hm', hloads.cons (by omega) hall⟩
    obtain ⟨n, rfl⟩ := Nat.exists_eq_add_of_le' hn
    exact (loadFile_more hstep _).trans (hrun _ (Nat.le_add_left ..))

/-! ## The file -/

/-- The call of `load_file` in `main`: AX is the first cluster, and ES:BX is at the start of a
segment. -/
structure Called (v : Volume) (chain : List Nat) (m : Machine) : Prop where
  loading : Loading v m
  ax : chain.head? = some m.regs.ax.toNat
  bx : m.regs.bx = 0

/-- The sectors of the file's clusters are in the segment, one after another, and no others were
read. -/
structure FileLoaded (v : Volume) (chain : List Nat) (m m' : Machine) : Prop where
  mem : ∀ i, (hi : i < chain.length) → ∀ j < 512, m'.mem (linear m.es 0 + 512 * i + j) = v.byte (chain[i] + 31) j
  read : ∃ qs : List Request, m'.requests = m.requests ++ qs ∧ qs.flatMap (Request.sectors 18 2) = chain.map (· + 31)

theorem LoadsAll.fileLoaded_iff {v : Volume} {chain : List Nat} {m m' : Machine} (h : LoadsAll v chain m m')
    (hbx : m.regs.bx = 0) : FileLoaded v chain m m' ↔ ∀ c ∈ chain, c ≤ 224 := by
  obtain ⟨qs, hqs, hread⟩ := h.requests
  constructor
  · rintro ⟨-, qs', hqs', hread'⟩ c hc
    obtain rfl : qs = qs' := List.append_cancel_left (hqs.symm.trans hqs')
    have hsector : sectorRead c = c + 31 := List.map_inj_left.1 (hread.symm.trans hread') c hc
    unfold sectorRead at hsector
    omega
  · intro hsmall
    have hsector : ∀ c ∈ chain, sectorRead c = c + 31 := by
      intro c hc
      have := hsmall c hc
      unfold sectorRead
      omega
    refine ⟨fun i hi j hj => ?_, qs, hqs, hread.trans (List.map_inj_left.2 hsector)⟩
    rw [h.mem, hbx, blits_inside hj _ _ (by simpa using hi), List.getElem_map, hsector _ (List.getElem_mem hi)]

/-- For every volume and every file on it with at most 128 clusters, `load_file` returns; the file
is loaded exactly when none of its clusters is above 224, the last one whose sector fits in AL. -/
theorem load_file_iff {v : Volume} {chain : List Nat} {m : Machine} (hfile : v.IsFile chain)
    (hlen : chain.length ≤ 128) (hm : Called v chain m) :
    ∃ m', (∀ n, chain.length ≤ n → loadFile bpb v.bios n m = some (.ok m')) ∧
      (FileLoaded v chain m m' ↔ ∀ c ∈ chain, c ≤ 224) := by
  have hroom : m.regs.bx.toNat + 512 * chain.length ≤ 2 ^ 16 := by
    rw [hm.bx]
    show 0 + 512 * chain.length ≤ _
    omega
  obtain ⟨m', hrun, -, hall⟩ := loadFile_run hfile hm.loading hm.ax hroom
  exact ⟨m', hrun, hall.fileLoaded_iff hm.bx⟩

/-- A volume whose clusters are files of their own: every FAT entry marks an end. -/
def endMarks : Volume := fun _ => Vector.replicate 512 0xFF

theorem endMarks_fat {i : Nat} (hi : i < 4608) : endMarks.fat i = 0xFF := by
  have hmod : i % 512 < 512 := Nat.mod_lt _ (by decide)
  unfold Volume.fat Volume.byte
  rw [dif_pos (by omega)]
  simp [endMarks, Vector.getD, hmod]

theorem endMarks_isFile {c : Nat} (h2 : 2 ≤ c) (h : c ≤ 2848) : endMarks.IsFile [c] := by
  have hbytes : littleEndian endMarks.fat (0 + c * 3 / 2) 2 = 0xFFFF := by
    have h0 := endMarks_fat (i := 0 + c * 3 / 2) (by omega)
    have h1 := endMarks_fat (i := 0 + c * 3 / 2 + 1) (by omega)
    simp only [littleEndian, h0, h1]
    rfl
  have hend : Fat12.entry endMarks.fat 0 4608 c = 0xFFF := by
    rcases Nat.mod_two_eq_zero_or_one c with heven | hodd
    · rw [Fat12.entry_even _ _ heven (by omega), hbytes]
    · rw [Fat12.entry_odd _ _ hodd (by omega), hbytes]
  refine ⟨by simp, by simp [h2, h], by simp, ?_, by simp⟩
  intro c' hc'
  obtain rfl : c = c' := by simpa using hc'
  rw [hend]
  decide

/-- The call for the file in a cluster, to load it to 0x80000. -/
def calledFor (cluster : BitVec 16) : Machine :=
  ⟨⟨cluster, 0, 0, 0, 0x7E00, 0⟩, 0, 0x8000, false, fun _ => 0xFF, [], []⟩

theorem called_calledFor (cluster : BitVec 16) : Called endMarks [cluster.toNat] (calledFor cluster) :=
  have hes : 0x900 ≤ 0x8000 ∧ 0x8000 ≤ 0x9000 := by decide
  ⟨⟨rfl, rfl, hes, fun _ hi => (endMarks_fat hi).symm⟩, rfl, rfl⟩

theorem load_file_iff_two : ∃ m', (∀ n, 1 ≤ n → loadFile bpb endMarks.bios n (calledFor 2) = some (.ok m')) ∧
    (FileLoaded endMarks [2] (calledFor 2) m' ↔ ∀ c ∈ [2], c ≤ 224) :=
  load_file_iff (endMarks_isFile (by decide) (by decide)) (by decide) (called_calledFor 2)

/-- For cluster 225 AL is 0, and the boot sector is read in place of sector 256. -/
theorem file_not_loaded : ¬∃ m', (∀ n, 1 ≤ n → loadFile bpb endMarks.bios n (calledFor 225) = some (.ok m')) ∧
    FileLoaded endMarks [225] (calledFor 225) m' := by
  rintro ⟨m', hrun, hloaded⟩
  have hm := called_calledFor 225
  obtain ⟨m'', hrun', -, hall⟩ := loadFile_run (endMarks_isFile (by decide) (by decide)) hm.loading hm.ax (by decide)
  obtain rfl : m' = m'' := by simpa using (hrun 1 (Nat.le_refl 1)).symm.trans (hrun' 1 (Nat.le_refl 1))
  exact absurd ((hall.fileLoaded_iff rfl).1 hloaded 225 (List.mem_singleton_self _)) (by decide)

end SnakeOS.Boot.Stage0
