/-
`main` of boot/x86/stage0/stage0.asm, from the BIOS to the jump into stage1: the root directory is searched for the
two files, and they are loaded by the FAT.
-/
import SnakeOS.Boot.Bss
import SnakeOS.Boot.SearchFile

namespace SnakeOS.Boot.Stage0

open Mem

/-! ## `main` -/

/-- The addresses of the texts and the variables of stage0, all of them in its sector. -/
structure Labels extends Texts where
  fileStage1 : BitVec 16
  fileKernel : BitVec 16
  msgMovingFatToRam : BitVec 16
  stage1Cluster : BitVec 16
  kernelCluster : BitVec 16
  names_range : fileStage1.toNat + 11 ≤ 0x7E00 ∧ fileKernel.toNat + 11 ≤ 0x7E00
  clusters_range : stage1Cluster.toNat + 2 ≤ 0x7E00 ∧ kernelCluster.toNat + 2 ≤ 0x7E00
  name_apart : Apart fileStage1.toNat 11 kernelCluster.toNat 2
  clusters_apart : Apart kernelCluster.toNat 2 stage1Cluster.toNat 2

def FILE_STAGE1 : List UInt8 := Byte.text "STAGE1  BIN"

def FILE_KERNEL : List UInt8 := Byte.text "KERNEL  BIN"

/-- Code that returns, stops in some state, or does not end within the fuel. -/
abbrev Booting : Type → Type := ExceptT (Stop × Machine) Option

/-- The call of `search_file` for a name, and the store of AX to a variable. -/
def findFile (texts : Texts) (fuel : Nat) (name var : BitVec 16) (m : Machine) : Booting Machine := do
  let m := { m with regs.bx := 0 }
  let m := { m with regs.si := name }
  let m := { m with regs.di := buffer }
  match searchFile dirBpb texts fuel ⟨m, true, []⟩ with
  | none => ExceptT.mk none
  | some (.error (stop, s)) => throw (stop, s.m)
  | some (.ok s) => return { s.m with mem := blitWord (linear s.m.ds var) s.m.regs.ax s.m.mem }

def loadFat (l : Labels) (bios : Bios) (m : Machine) : Run Machine :=
  let m := { m with regs.si := l.msgMovingFatToRam }.print "Load FAT12\r\n"
  let m := { m with regs.bx := buffer }
  let m := { m with regs.ax := setLo m.regs.ax bdb_reserved_sectors }
  let m := { m with regs.ax := setHi m.regs.ax bdb_sectors_per_fat }
  diskRead bpb bios m

/-- Both calls of `search_file`. -/
def findFiles (l : Labels) (fuel : Nat) (m : Machine) : Booting Machine := do
  let m ← findFile l.toTexts fuel l.fileKernel l.kernelCluster m
  findFile l.toTexts fuel l.fileStage1 l.stage1Cluster m

/-- The FAT is loaded over the directory, and the files by it. -/
def loadFound (l : Labels) (bios : Bios) (fuel : Nat) (m : Machine) : Booting Machine := do
  let m ← ExceptT.mk (some (loadFat l bios m))
  let m ← ExceptT.mk (loadSegment bios fuel stage1_load_segment (m.word l.stage1Cluster) m)
  ExceptT.mk (loadSegment bios fuel kernel_load_segment (m.word l.kernelCluster) m)

/-- Up to the far jump to stage1. -/
def jumpToStage1 (m : Machine) : Machine :=
  let m := { m with regs.dx := setLo m.regs.dx bpb.driveNumber }
  let m := { m with regs.ax := stage1_load_segment }
  let m := { m with ds := m.regs.ax }
  { m with es := m.regs.ax }

def main (l : Labels) (bios : Bios) (fuel : Nat) (m : Machine) : Booting Machine := do
  let m ← ExceptT.mk (some (loadRootDir dirBpb bios (mainStart m)))
  let m ← findFiles l fuel m
  let m ← loadFound l bios fuel m
  return jumpToStage1 m

/-! ## The root directory -/

namespace Volume

variable (v : Volume)

/-- The root directory, in fourteen sectors from sector 19 on. -/
def dir (i : Nat) : UInt8 := v.byte (19 + i / 512) (i % 512)

/-- Record `i` has the name. -/
def Named (name : List UInt8) (i : Nat) : Prop := ∀ j < 11, v.dir (32 * i + j) = name.getD j 0

instance (name : List UInt8) (i : Nat) : Decidable (v.Named name i) := Nat.decidableBallLT ..

/-- The first cluster of the file in record `i`. -/
def cluster (i : Nat) : Nat := littleEndian v.dir (32 * i + 26) 2

def Has (name : List UInt8) : Prop := ∃ i < 224, v.Named name i

/-- The first record with the name. -/
structure First (name : List UInt8) (i : Nat) : Prop where
  lt : i < 224
  named : v.Named name i
  first : ∀ j < i, ¬v.Named name j

/-- The clusters of the file in record `i`, at most 64 KiB. -/
structure FileOf (i : Nat) (chain : List Nat) : Prop where
  isFile : v.IsFile chain
  head : chain.head? = some (v.cluster i)
  length : chain.length ≤ 128

/-- Where the name is found there is a file. -/
def Loadable (name : List UInt8) : Prop := ∀ i, v.First name i → ∃ chain, v.FileOf i chain

variable {v}

theorem First.has {name : List UInt8} {i : Nat} (h : v.First name i) : v.Has name := ⟨i, h.lt, h.named⟩

theorem First.unique {name : List UInt8} {i j : Nat} (hi : v.First name i) (hj : v.First name j) : i = j := by
  rcases Nat.lt_trichotomy i j with hlt | heq | hgt
  · exact absurd hi.named (hj.first i hlt)
  · exact heq
  · exact absurd hj.named (hi.first j hgt)

theorem cluster_toNat (v : Volume) (i : Nat) : (BitVec.ofNat 16 (v.cluster i)).toNat = v.cluster i := by
  have hlt := littleEndian_lt v.dir (32 * i + 26) 2
  unfold cluster
  rw [BitVec.toNat_ofNat]
  exact Nat.mod_eq_of_lt hlt

/-- The file with the name is in memory from `a` on: the sectors read for its clusters, one after another. -/
def LoadedAt (v : Volume) (name : List UInt8) (a : Nat) (m : Nat → UInt8) : Prop :=
  ∃ i chain, v.First name i ∧ v.FileOf i chain ∧
    ∀ k, (hk : k < chain.length) → ∀ j < 512, m (a + 512 * k + j) = v.byte (sectorRead chain[k]) j

end Volume

/-! ## `load_root_dir` -/

/-- Whatever BH is, the directory is read to 0x7E00, with as many sectors after it as the count says. -/
theorem loadRootDir_loads (v : Volume) {m : Machine} (hes : m.es = 0) : ∃ m', loadRootDir dirBpb v.bios m = .ok m' ∧
    m'.ds = m.ds ∧ m'.es = 0 ∧ (∀ k < 7168, m'.mem (0x7E00 + k) = v.dir k) ∧
    ∀ k, k < 0x7E00 ∨ 0x19A00 ≤ k → m'.mem k = m.mem k := by
  obtain ⟨args, hargs, hbx, hmem, hds, hes', hlba, hcount⟩ := rootDirArgs_spec m
  obtain ⟨ax, q, hread, hal, haddr⟩ := @diskRead_success dirBpb.toBpb v.bios args bpb_valid rfl
  have hsectors : q.sectors v.bios.sectorsPerTrack v.bios.heads = _ := haddr.sectors_eq
  have hrun : loadRootDir dirBpb v.bios m = diskRead dirBpb.toBpb v.bios args := by
    unfold loadRootDir
    rw [hargs]
    rfl
  have hat : linear args.es args.regs.bx = 0x7E00 := by
    rw [hbx, hes', hes]
    rfl
  have hhigh : fatSectors m.regs.bx / 65536 < 9 := by
    have hbh := (hi m.regs.bx).isLt
    unfold fatSectors
    omega
  rw [hlba, hal, hcount] at hsectors
  rw [hsectors, List.map_map, hat, hmem] at hread
  -- 14 or 142 sectors: the directory is among them, and they end by 0x19A00
  generalize fatSectors m.regs.bx / 65536 = high at hhigh hread
  refine ⟨_, hrun.trans hread, hds, hes'.trans hes, fun k hk => ?_, fun k hk => ?_⟩
  · have hsplit : 0x7E00 + k = 0x7E00 + 512 * (k / 512) + k % 512 := by omega
    show blits 512 0x7E00 _ m.mem (0x7E00 + k) = _
    rw [hsplit, blits_inside (Nat.mod_lt _ (by decide)) _ m.mem
      (by simp only [List.length_map, List.length_range]; omega), List.getElem_map, List.getElem_range]
    rfl
  · exact blits_outside 512 _ m.mem (by simp only [List.length_map, List.length_range]; omega)

/-! ## `search_file` leaves the rest -/

theorem repeCmpsb_kept : ∀ (n : Nat) (s : Searching), ∃ regs, (repeCmpsb n s).m = { s.m with regs }
  | 0, s => ⟨s.m.regs, rfl⟩
  | n + 1, s => by
    let s₁ := cmpsb { s with m := { s.m with regs.cx := s.m.regs.cx - 1 } }
    have hrun : repeCmpsb (n + 1) s = if s₁.zf then repeCmpsb n s₁ else s₁ := rfl
    rw [hrun]
    by_cases heq : s₁.zf = true
    · obtain ⟨regs, hrest⟩ := repeCmpsb_kept n s₁
      rw [if_pos heq]
      exact ⟨regs, hrest⟩
    · rw [if_neg heq]
      exact ⟨_, rfl⟩

theorem compareName_kept (s : Searching) : ∃ regs, (compareName s).m = { s.m with regs } := by
  obtain ⟨regs, hrest⟩ := repeCmpsb_kept 11 { s with m := { s.m with regs.cx := 11 } }
  refine ⟨{ regs with si := s.m.regs.si, di := s.m.regs.di }, ?_⟩
  show { (repeCmpsb 11 { s with m := { s.m with regs.cx := 11 } }).m with
    regs.si := s.m.regs.si, regs.di := s.m.regs.di } = _
  rw [hrest]

/-- How a search leaves the machine: registers are changed and a text is printed. -/
inductive Left (m : Machine) : Except (Stop × Searching) Searching → Prop
  | found {s' : Searching} (regs : Regs16) (eq : s'.m = ({ m with regs } : Machine).print "File found\r\n") :
      Left m (.ok s')
  | notFound {s' : Searching} (regs : Regs16) (eq : s'.m = ({ m with regs } : Machine).print "File not found\r\n") :
      Left m (.error (.halted, s'))

theorem Left.of_regs {m : Machine} {regs : Regs16} {r : Except (Stop × Searching) Searching}
    (h : Left { m with regs } r) : Left m r := by
  cases h with
  | found regs eq => exact .found regs eq
  | notFound regs eq => exact .notFound regs eq

theorem searchFile_left (texts : Texts) : ∀ (n : Nat) (s : Searching) {r : Except (Stop × Searching) Searching},
    searchFile dirBpb texts n s = some r → Left s.m r
  | 0, s, r, h => nomatch h
  | n + 1, s, r, h => by
    obtain ⟨regs, hm⟩ := compareName_kept s
    unfold searchFile at h
    simp only at h
    split at h
    · obtain rfl := Option.some.inj h
      refine .found { regs with
        si := texts.msgFileFound, ax := (fileFound texts (compareName s)).m.regs.ax } ?_
      unfold fileFound
      rw [hm]
      rfl
    · have hnext : (nextRecord (compareName s)).m =
          { s.m with regs := { regs with di := regs.di + 32, bx := regs.bx + 1 } } := by
        unfold nextRecord
        rw [hm]
      split at h
      · have hleft := searchFile_left texts n _ h
        rw [hnext] at hleft
        exact hleft.of_regs
      · obtain rfl := Option.some.inj h
        refine .notFound { regs with di := regs.di + 32, bx := regs.bx + 1, si := texts.msgFileNotFound } ?_
        unfold fileNotFound
        rw [hnext]

/-! ## The two searches -/

theorem Booting.ok_bind {α β : Type} (a : α) (f : α → Booting β) :
    (ExceptT.mk (some (.ok a)) : Booting α) >>= f = f a :=
  rfl

theorem Booting.error_bind {α β : Type} (e : Stop × Machine) (f : α → Booting β) :
    (ExceptT.mk (some (.error e)) : Booting α) >>= f = ExceptT.mk (some (.error e)) :=
  rfl

/-- The last line printed before `halt` says that a file is missing. -/
structure Missing (m : Machine) (r : Stop × Machine) : Prop where
  stop : r.1 = .halted
  mem : r.2.mem = m.mem
  printed : ∃ before, r.2.printed = before ++ Byte.text "File not found\r\n"

/-- How the search for a file ends: its cluster is in the variable, or the processor is halted. -/
inductive Finds (v : Volume) (file : List UInt8) (var : BitVec 16) (m : Machine) : Run Machine → Prop
  | found {i : Nat} {m' : Machine} (first : v.First file i) (flat : FlatSegments m')
      (mem : m'.mem = blitWord var.toNat (BitVec.ofNat 16 (v.cluster i)) m.mem) : Finds v file var m (.ok m')
  | notFound {r : Stop × Machine} (none : ¬v.Has file) (missing : Missing m r) : Finds v file var m (.error r)

/-- The registers and the memory of a search for a file: its name is at SI, and the directory at DI. -/
structure Asked (v : Volume) (file : List UInt8) (m : Machine) : Prop where
  si : m.regs.si.toNat + 11 ≤ 0x7E00
  di : m.regs.di = buffer
  name : ∀ j < 11, m.mem (m.regs.si.toNat + j) = file.getD j 0
  dir : ∀ k < 7168, m.mem (0x7E00 + k) = v.dir k

theorem Asked.recordIs_iff {v : Volume} {file : List UInt8} {m : Machine} (h : Asked v file m) {i : Nat}
    (hi : i < 224) : RecordIs m i ↔ v.Named file i := by
  have hat : ∀ j < 11, m.mem (m.regs.di.toNat + 32 * i + j) = v.dir (32 * i + j) := by
    intro j hj
    rw [h.di, Nat.add_assoc]
    exact h.dir _ (by omega)
  constructor
  · intro hrecord j hj
    rw [← hat j hj, ← h.name j hj]
    exact (hrecord j hj).symm
  · intro hnamed j hj
    rw [hat j hj, h.name j hj]
    exact (hnamed j hj).symm

theorem Asked.cluster_eq {v : Volume} {file : List UInt8} {m : Machine} (h : Asked v file m) {i : Nat} (hi : i < 224) :
    littleEndian m.mem (m.regs.di.toNat + 32 * i + 26) 2 = v.cluster i := by
  refine littleEndian_congr fun j hj => ?_
  rw [h.di, Nat.add_assoc, Nat.add_assoc, ← Nat.add_assoc (32 * i)]
  exact h.dir _ (by omega)

theorem findFile_spec {v : Volume} (texts : Texts) {file : List UInt8} {name : BitVec 16} (var : BitVec 16)
    {m : Machine} (hseg : FlatSegments m) (hrange : name.toNat + 11 ≤ 0x7E00)
    (hname : ∀ j < 11, m.mem (name.toNat + j) = file.getD j 0) (hdir : ∀ k < 7168, m.mem (0x7E00 + k) = v.dir k) :
    ∃ r, (∀ fuel, 224 ≤ fuel → findFile texts fuel name var m = ExceptT.mk (some r)) ∧ Finds v file var m r := by
  let asked : Machine := { m with regs.bx := 0, regs.si := name, regs.di := buffer }
  have hasked : Asked v file asked := ⟨hrange, rfl, hname, hdir⟩
  obtain ⟨r, hrun, hends⟩ := searchFile_run texts 223 ⟨asked, true, []⟩ ⟨hseg.ds, hseg.es⟩
    (show name.toNat + 11 ≤ 65536 by omega) (show buffer.toNat + 32 * 224 ≤ 2 ^ 16 by decide) rfl
  have hcall : ∀ fuel, 224 ≤ fuel → findFile texts fuel name var m = match r with
      | .error (stop, s) => throw (stop, s.m)
      | .ok s => return { s.m with mem := blitWord (linear s.m.ds var) s.m.regs.ax s.m.mem } := by
    intro fuel hfuel
    show (match searchFile dirBpb texts fuel ⟨asked, true, []⟩ with
      | none => _ | some (.error (stop, s)) => _ | some (.ok s) => _) = _
    rw [hrun fuel hfuel]
    cases r <;> rfl
  -- what is found comes from the one description of the search, what is left of the machine from the other
  have hleft := searchFile_left texts 224 ⟨asked, true, []⟩ (hrun 224 (Nat.le_refl _))
  cases hleft with
  | @found s' regs eq =>
    cases hends with
    | @found i _ lt record first cluster reads =>
      have hds : s'.m.ds = 0 := by
        rw [eq]
        exact hseg.ds
      have hes : s'.m.es = 0 := by
        rw [eq]
        exact hseg.es
      have hax : s'.m.regs.ax = BitVec.ofNat 16 (v.cluster i) := by
        apply BitVec.eq_of_toNat_eq
        have hlt := s'.m.regs.ax.isLt
        rw [cluster, hasked.cluster_eq lt] at hlt ⊢
        rw [BitVec.toNat_ofNat, Nat.mod_eq_of_lt hlt]
      refine ⟨_, hcall, .found (i := i) ⟨lt, (hasked.recordIs_iff lt).1 record, fun j hj h => ?_⟩ ⟨hds, hes⟩ ?_⟩
      · exact first j hj ((hasked.recordIs_iff (by omega)).2 h)
      · show blitWord (linear s'.m.ds var) s'.m.regs.ax s'.m.mem = _
        rw [hds, linear_zero, hax, eq]
        rfl
  | @notFound s' regs eq =>
    cases hends with
    | notFound records reads =>
      refine ⟨_, hcall, .notFound ?_ ⟨rfl, ?_, ?_⟩⟩
      · rintro ⟨i, hi, h⟩
        exact records i hi ((hasked.recordIs_iff hi).2 h)
      · show s'.m.mem = m.mem
        rw [eq]
        rfl
      · show ∃ before, s'.m.printed = _
        rw [eq]
        exact ⟨_, rfl⟩

/-! ## From the root directory to the jump -/

/-- The names of the two files are where the code looks for them. -/
structure Labels.Holds (l : Labels) (m : Nat → UInt8) : Prop where
  fileStage1 : ∀ j < 11, m (l.fileStage1.toNat + j) = FILE_STAGE1.getD j 0
  fileKernel : ∀ j < 11, m (l.fileKernel.toNat + j) = FILE_KERNEL.getD j 0

/-- Before the searches; `m₀` is the memory that `main` is entered with. -/
structure DirLoaded (l : Labels) (v : Volume) (m₀ : Nat → UInt8) (m : Machine) : Prop where
  seg : FlatSegments m
  names : l.Holds m.mem
  dir : ∀ k < 7168, m.mem (0x7E00 + k) = v.dir k
  above : ∀ k, 0x19A00 ≤ k → m.mem k = m₀ k

theorem loadRootDir_spec (l : Labels) (v : Volume) {m : Machine} (hl : l.Holds m.mem) :
    ∃ m', loadRootDir dirBpb v.bios (mainStart m) = .ok m' ∧ DirLoaded l v m.mem m' := by
  obtain ⟨m', hrun, hds, hes, hdir, hkept⟩ := loadRootDir_loads v (m := mainStart m) rfl
  have hnames := l.names_range
  refine ⟨m', hrun, ⟨hds, hes⟩, ⟨fun j hj => ?_, fun j hj => ?_⟩, hdir, fun k hk => hkept k (.inr hk)⟩
  · rw [hkept _ (.inl (by omega))]
    exact hl.fileStage1 j hj
  · rw [hkept _ (.inl (by omega))]
    exact hl.fileKernel j hj

/-- After the searches: the variables hold the first clusters of the files in records `i` and `j`. -/
structure Found (l : Labels) (v : Volume) (i j : Nat) (m₀ : Nat → UInt8) (m : Machine) : Prop where
  seg : FlatSegments m
  stage1 : littleEndian m.mem l.stage1Cluster.toNat 2 = v.cluster i
  kernel : littleEndian m.mem l.kernelCluster.toNat 2 = v.cluster j
  above : ∀ k, 0x19A00 ≤ k → m.mem k = m₀ k

/-- The processor is halted after a message, and memory from 0x19A00 on is untouched. -/
structure Halts (m₀ : Nat → UInt8) (e : Stop × Machine) : Prop where
  stop : e.1 = .halted
  above : ∀ k, 0x19A00 ≤ k → e.2.mem k = m₀ k
  printed : ∃ before, e.2.printed = before ++ Byte.text "File not found\r\n"

/-- How the searches end. -/
inductive Searched (l : Labels) (v : Volume) (m₀ : Nat → UInt8) : Run Machine → Prop
  | found {i j : Nat} {m : Machine} (stage1 : v.First FILE_STAGE1 i) (kernel : v.First FILE_KERNEL j)
      (found : Found l v i j m₀ m) : Searched l v m₀ (.ok m)
  | notFound {e : Stop × Machine} (missing : ¬(v.Has FILE_STAGE1 ∧ v.Has FILE_KERNEL)) (halts : Halts m₀ e) :
      Searched l v m₀ (.error e)

/-- The name of stage1 and the directory are as before when the first cluster of the kernel is stored. -/
theorem DirLoaded.findStage1 {l : Labels} {v : Volume} {m₀ : Nat → UInt8} {m m' : Machine} {x : BitVec 16}
    (h : DirLoaded l v m₀ m) (hseg : FlatSegments m') (hmem : m'.mem = blitWord l.kernelCluster.toNat x m.mem) :
    ∃ r, (∀ fuel, 224 ≤ fuel → findFile l.toTexts fuel l.fileStage1 l.stage1Cluster m' = ExceptT.mk (some r)) ∧
      Finds v FILE_STAGE1 l.stage1Cluster m' r := by
  have hname := l.name_apart
  have hvar := l.clusters_range
  unfold Apart at hname
  refine findFile_spec l.toTexts l.stage1Cluster hseg l.names_range.1 (fun j hj => ?_) fun k hk => ?_
  · rw [hmem, ← h.names.fileStage1 j hj]
    exact blit_outside (by omega) _ m.mem
  · rw [hmem, ← h.dir k hk]
    exact blit_outside (by omega) _ m.mem

theorem DirLoaded.findFiles {l : Labels} {v : Volume} {m₀ : Nat → UInt8} {m : Machine} (h : DirLoaded l v m₀ m) :
    ∃ r, (∀ fuel, 224 ≤ fuel → findFiles l fuel m = ExceptT.mk (some r)) ∧ Searched l v m₀ r := by
  have hvars := l.clusters_range
  obtain ⟨_, hrun, hfinds⟩ :=
    findFile_spec l.toTexts l.kernelCluster h.seg l.names_range.2 h.names.fileKernel h.dir
  cases hfinds with
  | @notFound e none missing =>
    refine ⟨.error e, fun fuel hfuel => ?_, .notFound (fun hboth => none hboth.2) ⟨missing.stop, fun k hk => ?_,
      missing.printed⟩⟩
    · unfold Stage0.findFiles
      rw [hrun fuel hfuel, Booting.error_bind]
    · rw [missing.mem, h.above k hk]
  | @found j m₁ first₁ seg₁ mem₁ =>
    obtain ⟨r, hrun', hfinds'⟩ := h.findStage1 seg₁ mem₁
    have habove : ∀ k, 0x19A00 ≤ k → m₁.mem k = m₀ k := by
      intro k hk
      rw [mem₁, ← h.above k hk]
      exact blit_outside (.inr (by omega)) _ m.mem
    refine ⟨r, fun fuel hfuel => ?_, ?_⟩
    · unfold Stage0.findFiles
      rw [hrun fuel hfuel, Booting.ok_bind, hrun' fuel hfuel]
    · cases hfinds' with
      | @notFound e none missing =>
        refine .notFound (fun hboth => none hboth.1) ⟨missing.stop, fun k hk => ?_, missing.printed⟩
        rw [missing.mem, habove k hk]
      | @found i m₂ first₂ seg₂ mem₂ =>
        refine .found first₂ first₁ ⟨seg₂, ?_, ?_, fun k hk => ?_⟩
        · rw [mem₂, littleEndian_blitWord, v.cluster_toNat]
        · -- the second store is apart from the first
          rw [← v.cluster_toNat j, ← littleEndian_blitWord l.kernelCluster.toNat (BitVec.ofNat 16 (v.cluster j)) m.mem,
            ← mem₁, mem₂]
          exact littleEndian_blit_outside l.clusters_apart _ m₁.mem
        · rw [mem₂, ← habove k hk]
          exact blit_outside (.inr (by omega)) _ m₁.mem

theorem loadFat_spec (l : Labels) (v : Volume) {m : Machine} (hseg : FlatSegments m) :
    ∃ m', loadFat l v.bios m = .ok m' ∧ m'.ds = 0 ∧ m'.mem = v.loadFat m.mem := by
  let asked : Machine := { { m with regs.si := l.msgMovingFatToRam }.print "Load FAT12\r\n" with
    regs.bx := buffer, regs.ax := setHi (setLo m.regs.ax bdb_reserved_sectors) bdb_sectors_per_fat
    regs.si := l.msgMovingFatToRam }
  obtain ⟨ax, q, hread, hcount, haddr⟩ := @diskRead_success bpb v.bios asked bpb_valid rfl
  have hsectors : q.sectors v.bios.sectorsPerTrack v.bios.heads = _ := haddr.sectors_eq
  have hal : (lo asked.regs.ax).toNat = 1 := by
    show (lo (setHi (setLo m.regs.ax bdb_reserved_sectors) bdb_sectors_per_fat)).toNat = _
    rw [lo_setHi, lo_setLo]
    rfl
  have hah : (hi asked.regs.ax).toNat = 9 := by
    show (hi (setHi (setLo m.regs.ax bdb_reserved_sectors) bdb_sectors_per_fat)).toNat = _
    rw [hi_setHi]
    rfl
  have hbuffer : linear asked.es asked.regs.bx = 0x7E00 := by
    show linear m.es buffer = 0x7E00
    rw [hseg.es]
    rfl
  rw [hal, hcount, hah] at hsectors
  rw [hsectors, List.map_map, hbuffer] at hread
  exact ⟨_, hread, hseg.ds, rfl⟩

/-- A variable is read where its word was stored. -/
theorem word_eq {m : Machine} {off x : BitVec 16} (hds : m.ds = 0) (hoff : off.toNat + 2 ≤ 0x7E00)
    (hx : littleEndian m.mem off.toNat 2 = x.toNat) : m.word off = x := by
  apply BitVec.eq_of_toNat_eq
  rw [word_toNat (by omega), hds, linear_zero, hx]

theorem Volume.low_kept (v : Volume) {chain : List Nat} {a k : Nat} (ha : 0x7E00 ≤ a) (hk : k < 0x7E00)
    (m : Nat → UInt8) : v.load chain a (v.loadFat m) k = m k := by
  rw [Volume.load_outside (.inl (by omega))]
  exact blits_outside 512 _ m (.inl hk)

/-- The memory at the jump: the FAT and the two files are stored in a memory that is as `main` found it from
0x19A00 on. -/
structure Loaded (v : Volume) (stage1 kernel : List Nat) (m₀ : Nat → UInt8) (m : Machine) : Prop where
  ds : m.ds = stage1_load_segment
  es : m.es = stage1_load_segment
  drive : lo m.regs.dx = bpb.driveNumber
  mem : ∃ low : Nat → UInt8, (∀ k, 0x19A00 ≤ k → low k = m₀ k) ∧
    m.mem = v.load kernel 0x90000 (v.load stage1 0x80000 (v.loadFat low))

theorem loadFound_spec {l : Labels} {v : Volume} {i j : Nat} {m₀ : Nat → UInt8} {m : Machine} {stage1 kernel : List Nat}
    (h : Found l v i j m₀ m) (hstage1 : v.FileOf i stage1) (hkernel : v.FileOf j kernel) :
    ∃ m', (∀ fuel, 128 ≤ fuel → loadFound l v.bios fuel m = ExceptT.mk (some (.ok m'))) ∧
      m'.mem = v.load kernel 0x90000 (v.load stage1 0x80000 (v.loadFat m.mem)) := by
  have hvars := l.clusters_range
  obtain ⟨m₁, hfat, hds₁, hmem₁⟩ := loadFat_spec l v h.seg
  have hword₁ : m₁.word l.stage1Cluster = BitVec.ofNat 16 (v.cluster i) := by
    refine word_eq hds₁ hvars.1 ?_
    rw [v.cluster_toNat, ← h.stage1, hmem₁]
    exact littleEndian_congr fun k hk => blits_outside 512 _ m.mem (.inl (by omega))
  have hhead₁ : stage1.head? = some (m₁.word l.stage1Cluster).toNat := by
    rw [hword₁, v.cluster_toNat]
    exact hstage1.head
  obtain ⟨m₂, hrun₂, hloading₂, hmem₂⟩ := loadSegment_spec (m := m₁) stage1_load_segment hstage1.isFile hhead₁
    hstage1.length hds₁ (by decide) (fun k hk => by rw [hmem₁]; exact v.loadFat_inside m.mem hk)
  -- the variables are below the FAT, and both files are loaded above it
  have hword₂ : m₂.word l.kernelCluster = BitVec.ofNat 16 (v.cluster j) := by
    refine word_eq hloading₂.ds hvars.2 ?_
    rw [v.cluster_toNat, ← h.kernel, hmem₂, hmem₁]
    exact littleEndian_congr fun k hk => v.low_kept (by decide) (by omega) m.mem
  have hhead₂ : kernel.head? = some (m₂.word l.kernelCluster).toNat := by
    rw [hword₂, v.cluster_toNat]
    exact hkernel.head
  obtain ⟨m₃, hrun₃, -, hmem₃⟩ := loadSegment_spec (m := m₂) kernel_load_segment hkernel.isFile hhead₂ hkernel.length
    hloading₂.ds (by decide) hloading₂.fat
  refine ⟨m₃, fun fuel hfuel => ?_, ?_⟩
  · unfold loadFound
    rw [hfat, Booting.ok_bind, hrun₂ fuel hfuel, Booting.ok_bind, hrun₃ fuel hfuel]
  · rw [hmem₃, hmem₂, hmem₁]
    rfl

theorem main_loads (l : Labels) {v : Volume} {m : Machine} (hl : l.Holds m.mem) {i j : Nat} {stage1 kernel : List Nat}
    (hi : v.First FILE_STAGE1 i) (hstage1 : v.FileOf i stage1) (hj : v.First FILE_KERNEL j)
    (hkernel : v.FileOf j kernel) :
    ∃ m', (∀ fuel, 224 ≤ fuel → main l v.bios fuel m = ExceptT.mk (some (.ok m'))) ∧
      Loaded v stage1 kernel m.mem m' := by
  obtain ⟨m₁, hroot, hm₁⟩ := loadRootDir_spec l v hl
  obtain ⟨_, hfind, hsearched⟩ := hm₁.findFiles
  cases hsearched with
  | notFound missing => exact absurd ⟨hi.has, hj.has⟩ missing
  | @found i' j' m₂ first first' found =>
    obtain rfl := hi.unique first
    obtain rfl := hj.unique first'
    obtain ⟨m₃, hload, hmem⟩ := loadFound_spec found hstage1 hkernel
    refine ⟨jumpToStage1 m₃, fun fuel hfuel => ?_, rfl, rfl, lo_setLo .., m₂.mem, found.above, hmem⟩
    unfold main
    rw [hroot, Booting.ok_bind, hfind fuel hfuel, Booting.ok_bind, hload fuel (by omega)]
    rfl

theorem main_halts (l : Labels) {v : Volume} {m : Machine} (hl : l.Holds m.mem)
    (hmissing : ¬(v.Has FILE_STAGE1 ∧ v.Has FILE_KERNEL)) :
    ∃ e, (∀ fuel, 224 ≤ fuel → main l v.bios fuel m = ExceptT.mk (some (.error e))) ∧ Halts m.mem e := by
  obtain ⟨m₁, hroot, hm₁⟩ := loadRootDir_spec l v hl
  obtain ⟨_, hfind, hsearched⟩ := hm₁.findFiles
  cases hsearched with
  | found first first' => exact absurd ⟨first.has, first'.has⟩ hmissing
  | @notFound e missing halts =>
    refine ⟨e, fun fuel hfuel => ?_, halts⟩
    unfold main
    rw [hroot, Booting.ok_bind, hfind fuel hfuel, Booting.error_bind]

theorem Volume.load_loadedAt {v : Volume} {name : List UInt8} {i : Nat} {chain : List Nat} (hi : v.First name i)
    (hchain : v.FileOf i chain) (a : Nat) (m : Nat → UInt8) : v.LoadedAt name a (v.load chain a m) :=
  ⟨i, chain, hi, hchain, fun _ hk _ hj => v.load_inside chain hk hj a m⟩

theorem Loaded.files {v : Volume} {i j : Nat} {stage1 kernel : List Nat} {m₀ : Nat → UInt8} {m : Machine}
    (h : Loaded v stage1 kernel m₀ m) (hi : v.First FILE_STAGE1 i) (hstage1 : v.FileOf i stage1)
    (hj : v.First FILE_KERNEL j) (hkernel : v.FileOf j kernel) :
    v.LoadedAt FILE_STAGE1 0x80000 m.mem ∧ v.LoadedAt FILE_KERNEL 0x90000 m.mem := by
  obtain ⟨low, -, hmem⟩ := h.mem
  have hlen := hstage1.length
  rw [hmem]
  refine ⟨⟨i, stage1, hi, hstage1, fun k hk b hb => ?_⟩, v.load_loadedAt hj hkernel 0x90000 _⟩
  rw [Volume.load_outside (.inl (by omega))]
  exact v.load_inside stage1 hk hb 0x80000 _

theorem Volume.exists_first {v : Volume} {name : List UInt8} (h : v.Has name) : ∃ i, v.First name i := by
  obtain ⟨hlt, hnamed⟩ := Nat.find_spec h
  exact ⟨Nat.find h, hlt, hnamed, fun j hj hj' => Nat.find_min h hj ⟨by omega, hj'⟩⟩

/-- Where `main` goes on to: stage1, with the two files in memory. -/
structure Jumps (v : Volume) (m : Machine) : Prop where
  ds : m.ds = stage1_load_segment
  es : m.es = stage1_load_segment
  drive : lo m.regs.dx = bpb.driveNumber
  stage1 : v.LoadedAt FILE_STAGE1 0x80000 m.mem
  kernel : v.LoadedAt FILE_KERNEL 0x90000 m.mem

/-! ## A floppy with a directory -/

/-- The records of stage1.bin and kernel.bin, which start at clusters 2 and 4. -/
def records : List UInt8 :=
  FILE_STAGE1 ++ List.replicate 15 0 ++ [2, 0, 0, 0, 0, 0] ++ FILE_KERNEL ++ List.replicate 15 0 ++ [4]

theorem FILE_STAGE1_eq : FILE_STAGE1 = [0x53, 0x54, 0x41, 0x47, 0x45, 0x31, 0x20, 0x20, 0x42, 0x49, 0x4E] := by
  decide +kernel

theorem FILE_KERNEL_eq : FILE_KERNEL = [0x4B, 0x45, 0x52, 0x4E, 0x45, 0x4C, 0x20, 0x20, 0x42, 0x49, 0x4E] := by
  decide +kernel

def namedVolume : Volume := fun lba => if lba = 19 then Vector.ofFn fun i => records.getD i 0 else smallVolume lba

theorem namedVolume_byte {lba : Nat} (hlba : lba ≠ 19) (i : Nat) : namedVolume.byte lba i = smallVolume.byte lba i := by
  unfold Volume.byte
  by_cases h : lba < 2880
  · have hother : (⟨lba, h⟩ : Fin 2880) ≠ 19 := fun heq => hlba (congrArg Fin.val heq)
    rw [dif_pos h, dif_pos h, namedVolume, if_neg hother]
  · rw [dif_neg h, dif_neg h]

theorem namedVolume_dir {i : Nat} (hi : i < 512) : namedVolume.dir i = records.getD i 0 := by
  have hlba : (19 + i / 512 : Nat) = 19 := by omega
  unfold Volume.dir Volume.byte
  rw [dif_pos (by omega), Nat.mod_eq_of_lt hi, namedVolume, if_pos (Fin.ext hlba), getD_ofFn _ _ hi]

theorem namedVolume_cluster {i : Nat} (hi : i < 15) :
    namedVolume.cluster i = littleEndian (fun k => records.getD k 0) (32 * i + 26) 2 :=
  littleEndian_congr fun k hk => namedVolume_dir (by omega)

theorem namedVolume_isFile {chain : List Nat} (h : smallVolume.IsFile chain) : namedVolume.IsFile chain :=
  h.congr fun i _ => namedVolume_byte (by omega) _

theorem namedVolume_stage1 : namedVolume.First FILE_STAGE1 0 ∧ namedVolume.cluster 0 = 2 := by
  have hname : ∀ j < 11, records.getD j 0 = FILE_STAGE1.getD j 0 := by
    rw [records, FILE_STAGE1_eq, FILE_KERNEL_eq]
    decide
  refine ⟨⟨by decide, fun j hj => ?_, nofun⟩, ?_⟩
  · rw [Nat.mul_zero, Nat.zero_add, namedVolume_dir (by omega)]
    exact hname j hj
  · rw [namedVolume_cluster (by decide), records, FILE_STAGE1_eq, FILE_KERNEL_eq]
    decide

theorem namedVolume_kernel : namedVolume.First FILE_KERNEL 1 ∧ namedVolume.cluster 1 = 4 := by
  have hname : ∀ j < 11, records.getD (32 + j) 0 = FILE_KERNEL.getD j 0 := by
    rw [records, FILE_STAGE1_eq, FILE_KERNEL_eq]
    decide
  refine ⟨⟨by decide, fun j hj => ?_, fun j hj h => ?_⟩, ?_⟩
  · rw [Nat.mul_one, namedVolume_dir (by omega)]
    exact hname j hj
  · obtain rfl := Nat.lt_one_iff.1 hj
    have hfirst := h 0 (by decide)
    rw [namedVolume_dir (by decide), records, FILE_STAGE1_eq, FILE_KERNEL_eq] at hfirst
    exact absurd hfirst (by decide)
  · rw [namedVolume_cluster (by decide), records, FILE_STAGE1_eq, FILE_KERNEL_eq]
    decide

def namedLabels : Labels where
  msgFileFound := 0x7D40
  msgFileNotFound := 0x7D50
  fileStage1 := 0x7D80
  fileKernel := 0x7D8B
  msgMovingFatToRam := 0x7D60
  stage1Cluster := 0x7DA0
  kernelCluster := 0x7DA2
  names_range := by decide
  clusters_range := by decide
  name_apart := by decide
  clusters_apart := by decide

/-- The machine as a BIOS may leave it, with the names of stage0 in memory. -/
def namedMachine : Machine :=
  { bootRegs 0 with mem := blit 0x7D80 22 (fun i => (FILE_STAGE1 ++ FILE_KERNEL).getD i 0) fun _ => 0xFF }

theorem namedLabels_holds : namedLabels.Holds namedMachine.mem := by
  have hstage1 : ∀ j < 11, (FILE_STAGE1 ++ FILE_KERNEL).getD j 0 = FILE_STAGE1.getD j 0 := by
    rw [FILE_STAGE1_eq, FILE_KERNEL_eq]
    decide
  have hkernel : ∀ j < 11, (FILE_STAGE1 ++ FILE_KERNEL).getD (11 + j) 0 = FILE_KERNEL.getD j 0 := by
    rw [FILE_STAGE1_eq, FILE_KERNEL_eq]
    decide
  constructor
  · intro j hj
    have hinside := blit_inside (a := 0x7D80) (show j < 22 by omega) (fun i => (FILE_STAGE1 ++ FILE_KERNEL).getD i 0)
      fun _ => 0xFF
    exact hinside.trans (hstage1 j hj)
  · intro j hj
    have hat : namedLabels.fileKernel.toNat + j = 0x7D80 + (11 + j) := Nat.add_assoc 0x7D80 11 j
    have hinside := blit_inside (a := 0x7D80) (show 11 + j < 22 by omega)
      (fun i => (FILE_STAGE1 ++ FILE_KERNEL).getD i 0) fun _ => 0xFF
    rw [hat]
    exact hinside.trans (hkernel j hj)

theorem namedVolume_loadable : namedVolume.Loadable FILE_STAGE1 ∧ namedVolume.Loadable FILE_KERNEL := by
  obtain ⟨hfirst, hcluster⟩ := namedVolume_stage1
  obtain ⟨hfirst', hcluster'⟩ := namedVolume_kernel
  constructor
  · intro i hi
    obtain rfl := hi.unique hfirst
    exact ⟨[2, 3], namedVolume_isFile smallDisk.stage1_file, by rw [hcluster]; rfl, by decide⟩
  · intro i hi
    obtain rfl := hi.unique hfirst'
    exact ⟨[4], namedVolume_isFile smallDisk.kernel_file, by rw [hcluster']; rfl, by decide⟩

/-! ## How `main` ends -/

/-- Whatever the registers, the memory and the directory hold, `main` ends. It jumps to stage1 exactly when both
names are in the directory, with the files of their first records in memory, and halts otherwise. -/
theorem stage0_main (l : Labels) (v : Volume) (m : Machine) (hl : l.Holds m.mem) (hstage1 : v.Loadable FILE_STAGE1)
    (hkernel : v.Loadable FILE_KERNEL) :
    ∃ r : Run Machine, (∀ fuel, 224 ≤ fuel → main l v.bios fuel m = ExceptT.mk (some r)) ∧
      ((∃ m', r = .ok m') ↔ v.Has FILE_STAGE1 ∧ v.Has FILE_KERNEL) ∧ (∀ m', r = .ok m' → Jumps v m') ∧
      ∀ e, r = .error e → Halts m.mem e := by
  by_cases hboth : v.Has FILE_STAGE1 ∧ v.Has FILE_KERNEL
  · obtain ⟨i, hi⟩ := Volume.exists_first hboth.1
    obtain ⟨j, hj⟩ := Volume.exists_first hboth.2
    obtain ⟨chain, hchain⟩ := hstage1 i hi
    obtain ⟨chain', hchain'⟩ := hkernel j hj
    obtain ⟨m', hrun, hloaded⟩ := main_loads l hl hi hchain hj hchain'
    obtain ⟨hs, hk⟩ := hloaded.files hi hchain hj hchain'
    refine ⟨.ok m', hrun, iff_of_true ⟨m', rfl⟩ hboth, ?_, nofun⟩
    rintro _ ⟨⟩
    exact ⟨hloaded.ds, hloaded.es, hloaded.drive, hs, hk⟩
  · obtain ⟨e, hrun, hhalts⟩ := main_halts l hl hboth
    refine ⟨.error e, hrun, iff_of_false nofun hboth, nofun, ?_⟩
    rintro _ ⟨⟩
    exact hhalts

theorem stage0_main_named : ∃ r : Run Machine,
    (∀ fuel, 224 ≤ fuel → main namedLabels namedVolume.bios fuel namedMachine = ExceptT.mk (some r)) ∧
      ((∃ m', r = .ok m') ↔ namedVolume.Has FILE_STAGE1 ∧ namedVolume.Has FILE_KERNEL) ∧
      (∀ m', r = .ok m' → Jumps namedVolume m') ∧ ∀ e, r = .error e → Halts namedMachine.mem e :=
  stage0_main namedLabels namedVolume namedMachine namedLabels_holds namedVolume_loadable.1 namedVolume_loadable.2

/-! ## To `kmain` -/

/-- From `main` of stage0 to `kmain`; `none` when it is not reached. -/
def bootFrom (l : Labels) (f : Floppy) (p : Processor) (fw : Firmware) (fuel : Nat) (m : Machine) (r : Boot.Machine)
    (s : Cpu) : Option LongCpu :=
  match main l f.volume.bios fuel m with
  | some (.ok m) => enterKernel f.l f.k.toKernel p fw fuel { r with ds := m.ds, es := m.es, mem := m.mem } s
  | _ => none

/-- The memory of the kernel at `kmain`: the sectors of kernel.bin, but for the print position, and beyond them
what was there before the boot. -/
structure KernelKept (f : Floppy) (m₀ m : Nat → UInt8) : Prop where
  image : ∀ k, (hk : k < f.kernel.length) → ∀ j < 512, 0x90000 + 512 * k + j < 0x9FC00 →
    Apart f.k.printStringPossition.toNat 8 (0x90000 + 512 * k + j) 1 →
    m (0x90000 + 512 * k + j) = f.volume.byte (sectorRead f.kernel[k]) j
  beyond : ∀ a, f.loadedEnd ≤ a → a < 0x9FC00 → m a = m₀ a

theorem Loaded.kernel_kept {f : Floppy} {m₀ m' : Nat → UInt8} {m : Machine}
    (h : Loaded f.volume f.stage1 f.kernel m₀ m) (hframe : Frame f.k.pathWrites m.mem m') : KernelKept f m₀ m' := by
  obtain ⟨low, habove, hmem⟩ := h.mem
  have hposs := f.k.possition_range
  have hsize := f.kernel_size
  have hstage1 := f.stage1_length
  have hkept : ∀ a, 0x90000 ≤ a → a < 0x9FC00 → Apart f.k.printStringPossition.toNat 8 a 1 → m' a = m.mem a := by
    intro a hlo hhi hapart
    unfold Apart at hapart
    refine hframe a fun r hr => ?_
    simp only [Kernel.pathWrites, List.mem_cons, List.not_mem_nil, or_false] at hr
    rcases hr with rfl | rfl | rfl
    · exact .inr hlo
    · simp only
      omega
    · exact .inl hhi
  constructor
  · intro k hk j hj hlt hapart
    rw [hkept _ (by omega) hlt hapart, hmem]
    exact f.volume.load_inside f.kernel hk hj 0x90000 _
  · intro a hlo hhi
    unfold Floppy.loadedEnd at hlo
    rw [hkept a (by omega) hhi (.inl (by omega)), hmem, Volume.load_outside (.inr hlo),
      Volume.load_outside (.inr (by omega)), ← habove a (by omega)]
    exact blits_outside 512 _ low (.inr (by simp only [List.length_map, List.length_range]; omega))

/-- Both images are whole when stage1 is jumped to. -/
theorem Loaded.images {f : Floppy} {m₀ : Nat → UInt8} {m : Machine} (h : Loaded f.volume f.stage1 f.kernel m₀ m) :
    f.l.Loaded 0xB8000 m.mem ∧ f.k.Loaded m.mem := by
  obtain ⟨low, -, hmem⟩ := h.mem
  have hstage1 := f.stage1_length
  rw [hmem]
  constructor
  · have hframe : Frame [(0x90000, 512 * f.kernel.length)] (f.volume.load f.stage1 0x80000 (f.volume.loadFat low))
        (f.volume.load f.kernel 0x90000 (f.volume.load f.stage1 0x80000 (f.volume.loadFat low))) :=
      fun k hk => Volume.load_outside (hk _ (List.mem_singleton_self _)) _
    refine (f.stage1_data _).frame hframe fun r hr => ?_
    obtain rfl := List.mem_singleton.1 hr
    exact .inr (by simp only; omega)
  · exact f.kernel_data _

theorem main_floppy (l : Labels) (f : Floppy) (m : Machine) (hl : l.Holds m.mem) {i j : Nat}
    (hi : f.volume.First FILE_STAGE1 i) (hstage1 : f.volume.cluster i = f.stage1_cluster.toNat)
    (hj : f.volume.First FILE_KERNEL j) (hkernel : f.volume.cluster j = f.kernel_cluster.toNat) :
    ∃ m', (∀ fuel, 224 ≤ fuel → main l f.volume.bios fuel m = ExceptT.mk (some (.ok m'))) ∧
      Loaded f.volume f.stage1 f.kernel m.mem m' :=
  main_loads l hl hi ⟨f.stage1_file, by rw [hstage1]; exact f.stage1_head, f.stage1_length⟩ hj
    ⟨f.kernel_file, by rw [hkernel]; exact f.kernel_head, f.kernel_length⟩

/-- Whatever the BIOS left in memory and in the registers, a floppy with the two files in its directory boots to
`kmain`, with kernel.bin as it is on the disk. -/
theorem floppy_boots (l : Labels) (f : Floppy) (p : LongModeProcessor) (fw : Firmware) (m : Machine) (r : Boot.Machine)
    (s : Cpu) (hl : l.Holds m.mem) {i j : Nat} (hi : f.volume.First FILE_STAGE1 i)
    (hstage1 : f.volume.cluster i = f.stage1_cluster.toNat) (hj : f.volume.First FILE_KERNEL j)
    (hkernel : f.volume.cluster j = f.kernel_cluster.toNat) :
    ∃ s', (∀ fuel, 512 ≤ fuel → bootFrom l f p.toProcessor fw fuel m r s = some s') ∧ KernelKept f m.mem s'.mem := by
  obtain ⟨m', hrun, hloaded⟩ := main_floppy l f m hl hi hstage1 hj hkernel
  obtain ⟨hl', hk'⟩ := hloaded.images
  obtain ⟨s', hrun', hframe⟩ :=
    enterKernel_spec (m := { r with ds := m'.ds, es := m'.es, mem := m'.mem }) p fw s hl' hk'
  refine ⟨s', fun fuel hfuel => ?_, hloaded.kernel_kept hframe⟩
  unfold bootFrom
  rw [hrun fuel (by omega)]
  exact hrun' fuel hfuel

theorem namedVolume_load {chain : List Nat} (h : ∀ c ∈ chain, sectorRead c ≠ 19) (a : Nat) (m : Nat → UInt8) :
    namedVolume.load chain a m = smallVolume.load chain a m := by
  have hsectors : (chain.map fun c => namedVolume.byte (sectorRead c)) =
      chain.map fun c => smallVolume.byte (sectorRead c) :=
    List.map_congr_left fun c hc => funext (namedVolume_byte (h c hc))
  unfold Volume.load
  rw [hsectors]

def namedFloppy : Floppy where
  toBootDisk := { smallDisk with
    volume := namedVolume
    stage1_file := namedVolume_isFile smallDisk.stage1_file
    kernel_file := namedVolume_isFile smallDisk.kernel_file }
  l := smallStage1
  k := smallKernel
  stage1_data m := by
    show smallStage1.Loaded 0xB8000 (namedVolume.load [2, 3] 0x80000 m)
    rw [namedVolume_load (by decide)]
    exact smallFloppy.stage1_data m
  kernel_data m := by
    show smallKernel.Loaded (namedVolume.load [4] 0x90000 m)
    rw [namedVolume_load (by decide)]
    exact smallFloppy.kernel_data m
  kernel_size := smallFloppy.kernel_size

theorem floppy_boots_named : ∃ s', (∀ fuel, 512 ≤ fuel → bootFrom namedLabels namedFloppy capableProcessor.toProcessor
    plainFirmware fuel namedMachine blankMachine blankCpu = some s') ∧
      KernelKept namedFloppy namedMachine.mem s'.mem :=
  floppy_boots namedLabels namedFloppy capableProcessor plainFirmware namedMachine blankMachine blankCpu
    namedLabels_holds namedVolume_stage1.1 namedVolume_stage1.2 namedVolume_kernel.1 namedVolume_kernel.2

end SnakeOS.Boot.Stage0
