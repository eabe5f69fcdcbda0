/-
`search_file` of boot/x86/stage0/utils.asm: it compares a name with the first eleven bytes of one record of
the root directory after another, and takes the number of the first cluster from the record that has it.
-/
import SnakeOS.Boot.LoadFile
import SnakeOS.Boot.RootDir

namespace SnakeOS.Boot.Stage0

open Mem

/-! ## `search_file` -/

/-- Where stage0 has the texts that `search_file` prints. -/
structure Texts where
  msgFileFound : BitVec 16
  msgFileNotFound : BitVec 16

/-- The machine with its zero flag. `reads` is no part of the machine: it lists the addresses read through
SI and DI. -/
structure Searching where
  m : Machine
  zf : Bool
  reads : List Nat

/-- `cmpsb`, with the direction flag clear. -/
def cmpsb (s : Searching) : Searching :=
  let src := linear s.m.ds s.m.regs.si
  let dst := linear s.m.es s.m.regs.di
  { m := { s.m with regs.si := s.m.regs.si + 1, regs.di := s.m.regs.di + 1 }
    zf := s.m.mem src = s.m.mem dst
    reads := s.reads ++ [src, dst] }

/-- `repe cmpsb`; CX counts the comparisons down. -/
def repeCmpsb : Nat → Searching → Searching
  | 0, s => s
  | n + 1, s =>
    let s := cmpsb { s with m := { s.m with regs.cx := s.m.regs.cx - 1 } }
    if s.zf then repeCmpsb n s else s

/-- From `search_file` to the pops. -/
def compareName (s : Searching) : Searching :=
  let ⟨si, di⟩ := (s.m.regs.si, s.m.regs.di)
  let s := { s with m := { s.m with regs.cx := 11 } }
  let s := repeCmpsb s.m.regs.cx.toNat s
  { s with m := { s.m with regs.si := si, regs.di := di } }

/-- DI is moved to the next record, and BX counts the records searched. -/
def nextRecord (s : Searching) : Searching :=
  { s with m := { s.m with regs.di := s.m.regs.di + 32, regs.bx := s.m.regs.bx + 1 } }

/-- `.file_not_found` up to the jump to `halt`. -/
def fileNotFound (texts : Texts) (s : Searching) : Searching :=
  { s with m := { s.m with regs.si := texts.msgFileNotFound }.print "File not found\r\n" }

/-- `.file_found`. -/
def fileFound (texts : Texts) (s : Searching) : Searching :=
  let m := { s.m with regs.si := texts.msgFileFound }.print "File found\r\n"
  let off := m.regs.di + 26
  let reads := s.reads ++ [linear m.ds off, linear m.ds (off + 1)]
  { s with m := { m with regs.ax := m.word off }, reads }

/-- At most `n` records; `none` when they do not suffice. -/
def searchFile (b : DirBpb) (texts : Texts) : Nat → Searching → Option (Except (Stop × Searching) Searching)
  | 0, _ => none
  | n + 1, s =>
    let s := compareName s
    if s.zf then some (.ok (fileFound texts s))
    else
      let s := nextRecord s
      if s.m.regs.bx.slt b.dirEntriesCount then searchFile b texts n s
      else some (.error (.halted, fileNotFound texts s))

/-! ## One record -/

/-- The first eleven bytes at `dir` and at `name` are the same. -/
def SameName (m : Nat → UInt8) (name dir : Nat) : Prop := ∀ j < 11, m (name + j) = m (dir + j)

instance (m : Nat → UInt8) (name dir : Nat) : Decidable (SameName m name dir) := Nat.decidableBallLT ..

theorem linear_zero (off : BitVec 16) : linear 0 off = off.toNat := Nat.zero_add _

theorem off_add (off : BitVec 16) {i : Nat} (h : off.toNat + i < 2 ^ 16) :
    (off + BitVec.ofNat 16 i).toNat = off.toNat + i := by
  rw [BitVec.toNat_add, BitVec.toNat_ofNat]
  omega

/-- The segments are zero, as `main` sets them. -/
structure FlatSegments (m : Machine) : Prop where
  ds : m.ds = 0
  es : m.es = 0

/-- The addresses of `reads` are among the `k` bytes at `name` and the `l` bytes at `dir`. -/
def Within (name k dir l : Nat) (reads : List Nat) : Prop :=
  ∀ a ∈ reads, name ≤ a ∧ a < name + k ∨ dir ≤ a ∧ a < dir + l

theorem Within.append {name k dir l : Nat} {reads reads' : List Nat} (h : Within name k dir l reads)
    (h' : Within name k dir l reads') : Within name k dir l (reads ++ reads') :=
  List.forall_mem_append.2 ⟨h, h'⟩

theorem Within.mono {name k dir l name' k' dir' l' : Nat} {reads : List Nat} (h : Within name k dir l reads)
    (hname : name' ≤ name ∧ name + k ≤ name' + k') (hdir : dir' ≤ dir ∧ dir + l ≤ dir' + l') :
    Within name' k' dir' l' reads := by
  intro a ha
  rcases h a ha with h | h
  · exact .inl (by omega)
  · exact .inr (by omega)

theorem forall_lt_succ_iff {n : Nat} {p : Nat → Prop} : (∀ j < n + 1, p j) ↔ p 0 ∧ ∀ j < n, p (j + 1) := by
  constructor
  · intro h
    exact ⟨h 0 (Nat.succ_pos n), fun j hj => h (j + 1) (Nat.succ_lt_succ hj)⟩
  · rintro ⟨h0, h⟩ j hj
    cases j with
    | zero => exact h0
    | succ j => exact h j (Nat.lt_of_succ_lt_succ hj)

/-- `repe cmpsb` of `n` bytes, entered with ZF set, stops at the first byte that differs. -/
structure Compared (n : Nat) (s s' : Searching) : Prop where
  rest : ∃ cx si di, s'.m = { s.m with regs.cx := cx, regs.si := si, regs.di := di }
  zf : s'.zf = true ↔ ∀ j < n, s.m.mem (s.m.regs.si.toNat + j) = s.m.mem (s.m.regs.di.toNat + j)
  reads : ∃ reads, s'.reads = s.reads ++ reads ∧ Within s.m.regs.si.toNat n s.m.regs.di.toNat n reads

theorem repeCmpsb_spec : ∀ (n : Nat) (s : Searching), FlatSegments s.m → s.zf = true →
    s.m.regs.si.toNat + n ≤ 2 ^ 16 → s.m.regs.di.toNat + n ≤ 2 ^ 16 → Compared n s (repeCmpsb n s)
  | 0, s, _, hzf, _, _ =>
    ⟨⟨_, _, _, rfl⟩, iff_of_true hzf nofun, [], (List.append_nil _).symm, nofun⟩
  | n + 1, s, hseg, hzf, hsi, hdi => by
    have hsrc : linear s.m.ds s.m.regs.si = s.m.regs.si.toNat := by rw [hseg.ds, linear_zero]
    have hdst : linear s.m.es s.m.regs.di = s.m.regs.di.toNat := by rw [hseg.es, linear_zero]
    let s₁ := cmpsb { s with m := { s.m with regs.cx := s.m.regs.cx - 1 } }
    have hzf₁ : s₁.zf = true ↔ s.m.mem s.m.regs.si.toNat = s.m.mem s.m.regs.di.toNat := by
      rw [← hsrc, ← hdst]
      exact decide_eq_true_iff
    have hreads₁ : s₁.reads = s.reads ++ [s.m.regs.si.toNat, s.m.regs.di.toNat] := by
      rw [← hsrc, ← hdst]
      rfl
    have hhere : Within s.m.regs.si.toNat (n + 1) s.m.regs.di.toNat (n + 1) [s.m.regs.si.toNat, s.m.regs.di.toNat] := by
      intro a ha
      rcases List.mem_pair.1 ha with rfl | rfl
      · exact .inl (by omega)
      · exact .inr (by omega)
    have hrun : repeCmpsb (n + 1) s = if s₁.zf then repeCmpsb n s₁ else s₁ := rfl
    rw [hrun]
    by_cases heq : s₁.zf = true
    · rw [if_pos heq]
      rcases Nat.eq_zero_or_pos n with rfl | hn
      · refine ⟨⟨_, _, _, rfl⟩, ?_, _, hreads₁, hhere⟩
        rw [forall_lt_succ_iff]
        exact hzf₁.trans (and_iff_left nofun).symm
      · have hsi₁ : s₁.m.regs.si.toNat = s.m.regs.si.toNat + 1 :=
          off_add s.m.regs.si (i := 1) (by omega)
        have hdi₁ : s₁.m.regs.di.toNat = s.m.regs.di.toNat + 1 :=
          off_add s.m.regs.di (i := 1) (by omega)
        obtain ⟨⟨cx, si, di, hrest⟩, hzf', reads, hreads, hin⟩ :=
          repeCmpsb_spec n s₁ ⟨hseg.ds, hseg.es⟩ heq (by omega) (by omega)
        refine ⟨⟨cx, si, di, hrest⟩, ?_, _ ++ reads, ?_, hhere.append ?_⟩
        · rw [hzf', forall_lt_succ_iff, hsi₁, hdi₁]
          simp only [Nat.add_assoc, Nat.add_comm 1]
          exact (and_iff_right (hzf₁.1 heq)).symm
        · rw [hreads, hreads₁, List.append_assoc]
        · rw [hsi₁, hdi₁] at hin
          exact hin.mono (by omega) (by omega)
    · rw [if_neg heq]
      refine ⟨⟨_, _, _, rfl⟩, iff_of_false heq fun h => heq (hzf₁.2 (h 0 (Nat.succ_pos n))), _, hreads₁, hhere⟩

/-- One record: SI and DI are kept, and ZF says whether the record has the name. -/
theorem compareName_spec {s : Searching} (hseg : FlatSegments s.m) (hsi : s.m.regs.si.toNat + 11 ≤ 2 ^ 16)
    (hdi : s.m.regs.di.toNat + 11 ≤ 2 ^ 16) : ∃ cx reads, (compareName s).m = { s.m with regs.cx := cx } ∧
      ((compareName s).zf = true ↔ SameName s.m.mem s.m.regs.si.toNat s.m.regs.di.toNat) ∧
      (compareName s).reads = s.reads ++ reads ∧ Within s.m.regs.si.toNat 11 s.m.regs.di.toNat 11 reads := by
  -- the first comparison sets ZF, whatever it was
  let s₀ : Searching := { s with m := { s.m with regs.cx := 11 }, zf := true }
  obtain ⟨⟨cx, si, di, hrest⟩, hzf, reads, hreads, hin⟩ := repeCmpsb_spec 11 s₀ ⟨hseg.ds, hseg.es⟩ rfl hsi hdi
  have hrun : compareName s = { repeCmpsb 11 s₀ with
      m := { (repeCmpsb 11 s₀).m with regs.si := s.m.regs.si, regs.di := s.m.regs.di } } := rfl
  rw [hrun]
  refine ⟨cx, reads, ?_, hzf, hreads, hin⟩
  simp only [hrest]
  rfl

/-! ## The records -/

/-- Record `i` from DI on has the name at SI. -/
def RecordIs (m : Machine) (i : Nat) : Prop := SameName m.mem m.regs.si.toNat (m.regs.di.toNat + 32 * i)

/-- What was read since `s` is the name at SI and the `k` records from DI on. -/
def ReadsRecords (k : Nat) (s s' : Searching) : Prop :=
  ∃ reads, s'.reads = s.reads ++ reads ∧ Within s.m.regs.si.toNat 11 s.m.regs.di.toNat (32 * k) reads

/-- How a search of `k` records from `s` on ends. -/
inductive Ends (k : Nat) (s : Searching) : Except (Stop × Searching) Searching → Prop
  | found {i : Nat} {s' : Searching} (lt : i < k) (record : RecordIs s.m i) (first : ∀ j < i, ¬RecordIs s.m j)
      (cluster : s'.m.regs.ax.toNat = littleEndian s.m.mem (s.m.regs.di.toNat + 32 * i + 26) 2)
      (reads : ReadsRecords k s s') : Ends k s (.ok s')
  | notFound {s' : Searching} (records : ∀ i < k, ¬RecordIs s.m i) (reads : ReadsRecords k s s') :
      Ends k s (.error (.halted, s'))

/-- BX as it is compared, below 2^15. -/
theorem slt_iff {x y : BitVec 16} (hx : x.toNat < 2 ^ 15) (hy : y.toNat < 2 ^ 15) :
    x.slt y = true ↔ x.toNat < y.toNat := by
  rw [BitVec.slt_iff_toInt_lt, BitVec.toInt_eq_toNat_of_lt (by omega), BitVec.toInt_eq_toNat_of_lt (by omega)]
  exact Int.ofNat_lt

variable {k : Nat} {s s' : Searching}

theorem ReadsRecords.mono {l : Nat} (h : ReadsRecords k s s') (hkl : k ≤ l) : ReadsRecords l s s' := by
  obtain ⟨reads, hreads, hin⟩ := h
  exact ⟨reads, hreads, hin.mono ⟨Nat.le_refl _, Nat.le_refl _⟩ (by omega)⟩

/-- The record at DI has the name, and the word at offset 26 in it is taken. -/
theorem ends_found (texts : Texts) (hseg : FlatSegments s.m) (hsi : s.m.regs.si.toNat + 11 ≤ 2 ^ 16)
    (hdi : s.m.regs.di.toNat + 32 ≤ 2 ^ 16) (hzf : (compareName s).zf = true) (hk : 0 < k) :
    Ends k s (.ok (fileFound texts (compareName s))) := by
  obtain ⟨cx, reads, hm, hname, hreads, hin⟩ := compareName_spec hseg hsi (by omega)
  have hoff : (s.m.regs.di + 26).toNat = s.m.regs.di.toNat + 26 := off_add _ (i := 26) (by omega)
  have hoff' : (s.m.regs.di + 26 + 1).toNat = s.m.regs.di.toNat + 26 + 1 := by
    rw [← hoff]
    exact off_add _ (i := 1) (by omega)
  refine .found hk (hname.1 hzf) nofun ?_ ⟨reads ++ [s.m.regs.di.toNat + 26, s.m.regs.di.toNat + 26 + 1], ?_, ?_⟩
  · show ((({ (compareName s).m with regs.si := texts.msgFileFound } : Machine).print "File found\r\n").word
      ((compareName s).m.regs.di + 26)).toNat = _
    rw [word_toNat (by rw [hm]; show (s.m.regs.di + 26).toNat + 1 < _; omega), hm]
    show littleEndian s.m.mem (linear s.m.ds (s.m.regs.di + 26)) 2 = _
    rw [hseg.ds, linear_zero, hoff]
  · show (compareName s).reads ++ [linear (compareName s).m.ds ((compareName s).m.regs.di + 26),
      linear (compareName s).m.ds ((compareName s).m.regs.di + 26 + 1)] = _
    rw [hreads, hm]
    show _ ++ [linear s.m.ds (s.m.regs.di + 26), linear s.m.ds (s.m.regs.di + 26 + 1)] = _
    rw [hseg.ds, linear_zero, linear_zero, hoff, hoff', List.append_assoc]
  · refine (hin.mono ⟨Nat.le_refl _, Nat.le_refl _⟩ (by omega)).append fun a ha => ?_
    rcases List.mem_pair.1 ha with rfl | rfl
    · exact .inr (by omega)
    · exact .inr (by omega)

/-- What a record without the name leaves. -/
structure Passed (m m' : Machine) : Prop where
  mem : m'.mem = m.mem
  seg : FlatSegments m'
  si : m'.regs.si = m.regs.si
  di : m'.regs.di.toNat = m.regs.di.toNat + 32

theorem nextRecord_passed (hseg : FlatSegments s.m) (hsi : s.m.regs.si.toNat + 11 ≤ 2 ^ 16)
    (hdi : s.m.regs.di.toNat + 64 ≤ 2 ^ 16) : Passed s.m (nextRecord (compareName s)).m := by
  obtain ⟨cx, -, hm, -⟩ := compareName_spec hseg hsi (by omega)
  have hnext : (nextRecord (compareName s)).m =
      { s.m with regs.cx := cx, regs.di := s.m.regs.di + 32, regs.bx := s.m.regs.bx + 1 } := by
    unfold nextRecord
    simp only [hm]
  rw [hnext]
  exact ⟨rfl, ⟨hseg.ds, hseg.es⟩, rfl, off_add s.m.regs.di (i := 32) (by omega)⟩

/-- The record at DI does not have the name, and the search goes on with the next one. -/
theorem ends_next {r : Except (Stop × Searching) Searching} (hseg : FlatSegments s.m)
    (hsi : s.m.regs.si.toNat + 11 ≤ 2 ^ 16) (hdi : s.m.regs.di.toNat + 64 ≤ 2 ^ 16)
    (hzf : (compareName s).zf = false) (h : Ends k (nextRecord (compareName s)) r) : Ends (k + 1) s r := by
  obtain ⟨cx, reads, -, hname, hreads, hin⟩ := compareName_spec hseg hsi (by omega)
  obtain ⟨hmem, -, hsi', hdi'⟩ := nextRecord_passed hseg hsi hdi
  have hfirst : ¬RecordIs s.m 0 := by
    intro hrecord
    rw [hname.2 hrecord] at hzf
    exact absurd hzf (by decide)
  have hat : ∀ i, s.m.regs.di.toNat + 32 + 32 * i = s.m.regs.di.toNat + 32 * (i + 1) := fun i => by omega
  have hrecord : ∀ i, RecordIs (nextRecord (compareName s)).m i ↔ RecordIs s.m (i + 1) := by
    intro i
    unfold RecordIs
    rw [hsi', hmem, hdi', hat]
  have hread : ∀ s', ReadsRecords k (nextRecord (compareName s)) s' → ReadsRecords (k + 1) s s' := by
    rintro s' ⟨reads', hreads', hin'⟩
    rw [hsi', hdi'] at hin'
    refine ⟨reads ++ reads', ?_, (hin.mono ⟨Nat.le_refl _, Nat.le_refl _⟩ (by omega)).append
      (hin'.mono ⟨Nat.le_refl _, Nat.le_refl _⟩ (by omega))⟩
    rw [hreads', ← List.append_assoc, ← hreads]
    rfl
  cases h with
  | found lt record first cluster reads =>
    refine .found (Nat.succ_lt_succ lt) ((hrecord _).1 record) (fun j hj => ?_) ?_ (hread _ reads)
    · cases j with
      | zero => exact hfirst
      | succ j => exact mt (hrecord j).2 (first j (Nat.lt_of_succ_lt_succ hj))
    · rw [cluster, hmem, hdi', hat]
  | notFound records reads =>
    refine .notFound (fun i hi => ?_) (hread _ reads)
    cases i with
    | zero => exact hfirst
    | succ i => exact mt (hrecord i).2 (records i (Nat.lt_of_succ_lt_succ hi))

/-- The last record does not have the name. -/
theorem ends_notFound (texts : Texts) (hseg : FlatSegments s.m) (hsi : s.m.regs.si.toNat + 11 ≤ 2 ^ 16)
    (hdi : s.m.regs.di.toNat + 32 ≤ 2 ^ 16) (hzf : (compareName s).zf = false) :
    Ends 1 s (.error (.halted, fileNotFound texts (nextRecord (compareName s)))) := by
  obtain ⟨cx, reads, hm, hname, hreads, hin⟩ := compareName_spec hseg hsi (by omega)
  refine .notFound (fun i hi => ?_) ⟨reads, hreads, hin.mono ⟨Nat.le_refl _, Nat.le_refl _⟩ (by omega)⟩
  obtain rfl := Nat.lt_one_iff.1 hi
  intro hrecord
  rw [hname.2 hrecord] at hzf
  exact absurd hzf (by decide)

/-- The induction is on the records left; BX is the number of those searched. -/
theorem searchFile_run (texts : Texts) : ∀ (k : Nat) (s : Searching), FlatSegments s.m → s.m.regs.si.toNat + 11 ≤ 2 ^ 16 →
    s.m.regs.di.toNat + 32 * (k + 1) ≤ 2 ^ 16 → s.m.regs.bx.toNat + (k + 1) = 224 →
    ∃ r, (∀ n, k + 1 ≤ n → searchFile dirBpb texts n s = some r) ∧ Ends (k + 1) s r
  | k, s, hseg, hsi, hdi, hbx => by
    obtain ⟨cx, -, hm, -⟩ := compareName_spec hseg hsi (by omega)
    have hbx' : (nextRecord (compareName s)).m.regs.bx.toNat = s.m.regs.bx.toNat + 1 := by
      show ((compareName s).m.regs.bx + 1).toNat = _
      rw [hm]
      exact off_add s.m.regs.bx (i := 1) (by omega)
    have hslt := slt_iff (x := (nextRecord (compareName s)).m.regs.bx) (y := dirBpb.dirEntriesCount) (by omega)
      (by decide)
    rw [hbx', show dirBpb.dirEntriesCount.toNat = 224 from rfl] at hslt
    cases hzf : (compareName s).zf with
    | true =>
      refine ⟨_, fun n hn => ?_, ends_found texts hseg hsi (by omega) hzf (Nat.succ_pos k)⟩
      obtain ⟨n, rfl⟩ := Nat.exists_eq_add_of_le' (Nat.le_trans (Nat.le_add_left 1 k) hn)
      unfold searchFile
      exact if_pos hzf
    | false =>
      have hstep : ∀ n, searchFile dirBpb texts (n + 1) s =
          if (nextRecord (compareName s)).m.regs.bx.slt dirBpb.dirEntriesCount then
            searchFile dirBpb texts n (nextRecord (compareName s))
          else some (.error (.halted, fileNotFound texts (nextRecord (compareName s)))) := by
        intro n
        rw [searchFile.eq_def]
        simp only [hzf, Bool.false_eq_true, if_false]
      cases k with
      | zero =>
        refine ⟨_, fun n hn => ?_, ends_notFound texts hseg hsi (by omega) hzf⟩
        obtain ⟨n, rfl⟩ := Nat.exists_eq_add_of_le' hn
        rw [hstep, if_neg (mt hslt.1 (by omega))]
      | succ k =>
        obtain ⟨-, hseg', hsi', hdi'⟩ := nextRecord_passed hseg hsi (by omega)
        obtain ⟨r, hrun, hends⟩ := searchFile_run texts k (nextRecord (compareName s)) hseg' (by rw [hsi']; exact hsi)
          (by omega) (by omega)
        refine ⟨r, fun n hn => ?_, ends_next hseg hsi (by omega) hzf hends⟩
        obtain ⟨n, rfl⟩ := Nat.exists_eq_add_of_le' (Nat.le_trans (Nat.le_add_left 1 _) hn)
        rw [hstep, if_pos (hslt.2 (by omega))]
        exact hrun n (by omega)

/-- The state in which a search ends. -/
def ending : Except (Stop × Searching) Searching → Searching
  | .ok s => s
  | .error (_, s) => s

/-- For every name at SI and every content of the 224 records at DI, a search with BX = 0 ends. It returns
the word at offset 26 of the first record with the name in AX, it halts exactly when there is none, and it
reads nothing but the name and the records. -/
theorem search_file_first (texts : Texts) {s : Searching} (hseg : FlatSegments s.m) (hbx : s.m.regs.bx = 0)
    (hsi : s.m.regs.si.toNat + 11 ≤ 2 ^ 16) (hdi : s.m.regs.di.toNat + 32 * 224 ≤ 2 ^ 16) :
    ∃ r, (∀ n, 224 ≤ n → searchFile dirBpb texts n s = some r) ∧
      (∀ i < 224, RecordIs s.m i → (∀ j < i, ¬RecordIs s.m j) → ∃ s', r = .ok s' ∧
        s'.m.regs.ax.toNat = littleEndian s.m.mem (s.m.regs.di.toNat + 32 * i + 26) 2) ∧
      ((∃ s', r = .error (.halted, s')) ↔ ∀ i < 224, ¬RecordIs s.m i) ∧ ReadsRecords 224 s (ending r) := by
  obtain ⟨r, hrun, hends⟩ := searchFile_run texts 223 s hseg hsi hdi (by rw [hbx]; rfl)
  refine ⟨r, hrun, ?_⟩
  cases hends with
  | @found i s' lt record first cluster reads =>
    refine ⟨fun i' hi' hrecord' hfirst' => ⟨s', rfl, ?_⟩, iff_of_false nofun fun h => h i lt record, reads⟩
    have hsame : i' = i := by
      rcases Nat.lt_trichotomy i' i with hlt | heq | hgt
      · exact absurd hrecord' (first i' hlt)
      · exact heq
      · exact absurd record (hfirst' i hgt)
    rw [cluster, hsame]
  | @notFound s' records reads =>
    exact ⟨fun i hi hrecord => absurd hrecord (records i hi), iff_of_true ⟨s', rfl⟩ records, reads⟩

/-- An empty name, which the second record has and the first does not. -/
def secondRecord : Searching where
  m := ⟨⟨0, 0, 0, 0, 0x7D00, 0x7E00⟩, 0, 0, false, fun k => if k = 0x7E00 then 1 else 0, [], []⟩
  zf := false
  reads := []

theorem search_file_first_second : ∃ r, (∀ n, 224 ≤ n → searchFile dirBpb ⟨0x7D80, 0x7D90⟩ n secondRecord = some r) ∧
    (∀ i < 224, RecordIs secondRecord.m i → (∀ j < i, ¬RecordIs secondRecord.m j) → ∃ s', r = .ok s' ∧
      s'.m.regs.ax.toNat = littleEndian secondRecord.m.mem (0x7E00 + 32 * i + 26) 2) ∧
    ((∃ s', r = .error (.halted, s')) ↔ ∀ i < 224, ¬RecordIs secondRecord.m i) ∧
    ReadsRecords 224 secondRecord (ending r) :=
  search_file_first ⟨0x7D80, 0x7D90⟩ (s := secondRecord) ⟨rfl, rfl⟩ rfl (by decide) (by decide)

end SnakeOS.Boot.Stage0
