/-
When `load_file` ends: nothing in it looks for a cluster that comes back, so on a FAT with a cycle it reads
the same clusters over and over.
-/
import SnakeOS.Boot.LoadFile
import SnakeOS.Boot.Retry
import SnakeOS.Lib.Follow

namespace SnakeOS.Boot.Stage0

open Mem Follow

/-! ## One pass on any FAT -/

/-- The calls of `load_file` in `main`: the FAT is at 0x7E00, and the file is loaded to a segment from 0x8000
on. The cluster is any number of twelve bits. -/
structure LoadCalled (m : Machine) : Prop where
  ds : m.ds = 0
  si : m.regs.si = buffer
  es : 0x8000 ≤ m.es.toNat
  ax : m.regs.ax.toNat < 4096

/-- The cluster that is taken to follow: its entry of the FAT or, from cluster 3072 on, of the memory after it. -/
def nextCluster (mem : Nat → UInt8) (cluster : Nat) : Nat := Fat12.entry mem 0x7E00 6144 cluster

/-- Marks of the end of a chain. -/
def IsEnd (marker : Nat) : Prop := 0xFF8 ≤ marker

instance (marker : Nat) : Decidable (IsEnd marker) := inferInstanceAs (Decidable (_ ≤ _))

theorem nextCluster_lt (mem : Nat → UInt8) (cluster : Nat) : nextCluster mem cluster < 4096 := Fat12.entry_lt ..

theorem nextCluster_congr {mem mem' : Nat → UInt8} (h : ∀ k < 0x80000, mem' k = mem k) :
    nextCluster mem' = nextCluster mem :=
  funext fun cluster => Fat12.entry_congr (fun i hi => h (0x7E00 + i) (by omega)) cluster

variable {bios : Bios} {m : Machine} {next : Nat → Nat}

/-- Every call of `disk_read` returns, if need be after attempts that fail. -/
def ReadsSucceed (bios : Bios) : Prop := ∀ m, ∃ read, diskRead bpb bios m = .ok read

/-- A read that succeeds restores its registers and keeps what is below the address that it reads to. -/
theorem ReadsSucceed.read (hbios : ReadsSucceed bios) (m : Machine) :
    ∃ read, diskRead bpb bios m = .ok read ∧ Restored m read ∧ SameBelow m read := by
  obtain ⟨q, m', -, hrun, -, hrestored, hbelow⟩ := diskRead_spec bios m
  obtain ⟨read, hread⟩ := hbios m
  rw [hread] at hrun
  split at hrun
  · obtain rfl := Except.ok.inj hrun
    exact ⟨read, hread, hrestored ‹_›, hbelow⟩
  · cases hrun

/-- The pass goes on to the cluster that follows, and keeps the FAT. -/
theorem loadNextCluster_follows (hbios : ReadsSucceed bios) (hm : LoadCalled m)
    (hnext : nextCluster m.mem = next) : ∃ m', loadNextCluster bpb bios m =
      .ok (m', decide (IsEnd (next m.regs.ax.toNat))) ∧ LoadCalled m' ∧ nextCluster m'.mem = next ∧
      m'.regs.ax.toNat = next m.regs.ax.toNat := by
  have hax := hm.ax
  obtain ⟨read, hread, hregs, hmem⟩ := hbios.read { m with regs.ax := setHi (m.regs.ax + 31) 1 }
  have hds : read.ds = m.ds := hregs.ds
  have hes : read.es = m.es := hregs.es
  have hsi : read.regs.si = m.regs.si := hregs.si
  have hfat : nextCluster read.mem = next := by
    refine (nextCluster_congr fun k hk => hmem k ?_).trans hnext
    have hes := hm.es
    show k < m.es.toNat * 16 + m.regs.bx.toNat
    omega
  have hroom : m.regs.si.toNat + 6144 ≤ 2 ^ 16 := by
    rw [hm.si]
    decide
  have hbase : linear read.ds m.regs.si = 0x7E00 := by
    rw [hds, hm.ds, hm.si]
    rfl
  have hlt : next m.regs.ax.toNat < 4096 := hfat ▸ nextCluster_lt read.mem _
  obtain ⟨cx, dx, hrun⟩ := loadNextCluster_marker hread hsi hax (by omega) hroom
  rw [hbase, show Fat12.entry read.mem 0x7E00 6144 m.regs.ax.toNat = _ from congrFun hfat _] at hrun
  have hax' : (BitVec.ofNat 16 (next m.regs.ax.toNat)).toNat = next m.regs.ax.toNat := by
    rw [BitVec.toNat_ofNat]
    omega
  refine ⟨_, hrun, ⟨hds.trans hm.ds, hm.si, ?_, ?_⟩, hfat, hax'⟩
  · show 0x8000 ≤ read.es.toNat
    rw [hes]
    exact hm.es
  · rw [hax']
    exact hlt

/-! ## Runs -/

/-- The induction is on the passes; the state after one is again one in which the loop is entered. -/
theorem loadFile_follows (hbios : ReadsSucceed bios) (n : Nat) : ∀ {m : Machine}, LoadCalled m →
    nextCluster m.mem = next →
    ((∃ k < n, IsEnd (next^[k + 1] m.regs.ax.toNat)) → ∃ m', loadFile bpb bios n m = some (.ok m')) ∧
    ((¬∃ k < n, IsEnd (next^[k + 1] m.regs.ax.toNat)) → loadFile bpb bios n m = none) := by
  induction n with
  | zero =>
    intro m _ _
    constructor
    · rintro ⟨k, hk, -⟩
      exact absurd hk (Nat.not_lt_zero k)
    · intro _
      rfl
  | succ n ih =>
    intro m hm hnext
    obtain ⟨m₁, hstep, hm₁, hnext₁, hax⟩ := loadNextCluster_follows hbios hm hnext
    have hrest := ih hm₁ hnext₁
    rw [hax] at hrest
    generalize m.regs.ax.toNat = cluster at hstep hrest ⊢
    rw [within_succ_iff]
    by_cases hend : IsEnd (next cluster)
    · rw [decide_eq_true hend] at hstep
      constructor
      · intro _
        exact ⟨m₁, loadFile_finished hstep n⟩
      · intro h
        exact absurd (Or.inl hend) h
    · rw [decide_eq_false hend] at hstep
      rw [loadFile_more hstep]
      constructor
      · intro h
        exact hrest.1 (h.resolve_left hend)
      · intro h
        exact hrest.2 fun h' => h (Or.inr h')

/-- All clusters are numbers of twelve bits. -/
theorem follow_lt (hm : LoadCalled m) (k : Nat) : (nextCluster m.mem)^[k] m.regs.ax.toNat ∈ Finset.range 4096 := by
  rw [Finset.mem_range]
  cases k with
  | zero => exact hm.ax
  | succ k =>
    rw [Function.iterate_succ_apply']
    exact nextCluster_lt m.mem _

/-- On every FAT, and for every starting cluster, when every read succeeds the loop ends exactly when no
cluster comes back before an end mark; at most 4096 passes are then made. -/
theorem load_file_ends_iff {bios : Bios} {m : Machine} (hbios : ReadsSucceed bios) (hm : LoadCalled m) :
    ((∃ n, loadFile bpb bios n m ≠ none) ↔ ¬Returns (nextCluster m.mem) IsEnd m.regs.ax.toNat) ∧
      (¬Returns (nextCluster m.mem) IsEnd m.regs.ax.toNat → ∃ m', loadFile bpb bios 4096 m = some (.ok m')) := by
  have hwithin : ¬Returns (nextCluster m.mem) IsEnd m.regs.ax.toNat →
      ∃ m', loadFile bpb bios 4096 m = some (.ok m') := by
    intro h
    have hends := ends_within (follow_lt hm) h
    rw [Finset.card_range] at hends
    exact (loadFile_follows hbios 4096 hm rfl).1 hends
  refine ⟨⟨?_, fun h => ?_⟩, hwithin⟩
  · rintro ⟨n, hn⟩ hreturns
    refine hn ((loadFile_follows hbios n hm rfl).2 ?_)
    rintro ⟨k, -, hlast⟩
    exact hreturns.not_ends ⟨k, hlast⟩
  · obtain ⟨m', hrun⟩ := hwithin h
    refine ⟨4096, ?_⟩
    rw [hrun]
    exact Option.some_ne_none _

/-! ## A cycle -/

/-- A drive that reads every sector, all of whose bytes are zero. -/
def blankDrive : Bios := ⟨18, 2, fun _ _ => 0, fun _ => .success⟩

theorem blankDrive_reads : ReadsSucceed blankDrive := by
  intro m
  obtain ⟨ax, q, hread, -⟩ := @diskRead_success bpb blankDrive m bpb_valid rfl
  exact ⟨_, hread⟩

/-- Every cluster is followed by `d`. -/
def allFollowedBy (d : BitVec 12) : Machine :=
  ⟨⟨2, 0, 0, 0, buffer, 0⟩, 0, 0x8000, false, blit 0x7E00 6144 (Fat12.pack fun _ => d) (fun _ => 0), [], []⟩

theorem loadCalled_allFollowedBy (d : BitVec 12) : LoadCalled (allFollowedBy d) :=
  have hes : 0x8000 ≤ (0x8000 : BitVec 16).toNat := by decide
  have hax : (2 : BitVec 16).toNat < 4096 := by decide
  ⟨rfl, rfl, hes, hax⟩

theorem nextCluster_allFollowedBy (d : BitVec 12) {cluster : Nat} (h : cluster < 4096) :
    nextCluster (allFollowedBy d).mem cluster = d.toNat :=
  Fat12.entry_pack (fun _ hi => blit_inside hi _ _) (by omega)

/-- A file of one cluster, whose entry is an end mark. -/
theorem load_file_ends_one :
    ((∃ n, loadFile bpb blankDrive n (allFollowedBy 0xFFF) ≠ none) ↔
      ¬Returns (nextCluster (allFollowedBy 0xFFF).mem) IsEnd 2) ∧
    (¬Returns (nextCluster (allFollowedBy 0xFFF).mem) IsEnd 2 →
      ∃ m', loadFile bpb blankDrive 4096 (allFollowedBy 0xFFF) = some (.ok m')) :=
  load_file_ends_iff blankDrive_reads (loadCalled_allFollowedBy 0xFFF)

/-- Cluster 2 is followed by itself. -/
theorem load_file_loops : ¬∃ n, loadFile bpb blankDrive n (allFollowedBy 2) ≠ none := by
  rintro ⟨n, hn⟩
  have hback : nextCluster (allFollowedBy 2).mem 2 = 2 := nextCluster_allFollowedBy 2 (by decide)
  refine hn ((loadFile_follows blankDrive_reads n (loadCalled_allFollowedBy 2) rfl).2 ?_)
  rintro ⟨k, -, hend⟩
  rw [show (allFollowedBy 2).regs.ax.toNat = 2 from rfl, Function.iterate_fixed hback] at hend
  exact absurd hend (by decide)

end SnakeOS.Boot.Stage0
