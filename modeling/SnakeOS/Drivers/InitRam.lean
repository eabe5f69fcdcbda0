/-
drivers/init_ram.c: the kernel prints the memory map that stage1 has left in memory. Left out are the struct and the
variable that `print_ram_map` begins with: they are no C, and nothing reads them.
-/
import SnakeOS.Lib.Loop
import SnakeOS.Boot.E820
import SnakeOS.Kernel.Exception
import SnakeOS.Kernel.Itoa

namespace SnakeOS.Drivers

open C CLoop Boot Kernel Mem Term

/-! ## `print_ram_map` -/

/-- The body of the loop. -/
def printRamEntry (i : Nat) (e : RamEntry) (con : Console) : Except Fault Console := do
  let con ← kprint (Byte.text "Entry %d:") [.int i] con
  let con ← kprint (Byte.text " Base = %x") [.uint (e.base &&& 0xFFFFFFFF)] con
  let con ← kprint (Byte.text " Length = %x") [.uint (e.length &&& 0xFFFFFFFF)] con
  kprint (Byte.text " Type = %d\n") [.int (toInt32 e.type)] con

def printRamMap (mem : Nat → UInt8) (con : Console) : Except Fault Console := do
  let con ← kprint (Byte.text "Entries count: %d\n") [.int (ramEntries mem)] con
  forUpM 0 (ramEntries mem) (fun i con => printRamEntry i (readRamEntry mem (0x86000 + 20 * i)) con) con

/-! ## What is printed -/

/-- The line of an entry. -/
def entryLine (i : Nat) (e : RamEntry) : List UInt8 :=
  Byte.text "Entry " ++ itoaDec i ++ Byte.text ": Base = " ++ itoaHex (e.base % 2 ^ 32) ++ Byte.text " Length = " ++
    itoaHex (e.length % 2 ^ 32) ++ Byte.text " Type = " ++ itoaDec (toInt32 e.type) ++ Byte.text "\n"

/-- The lines of the entries from number `i` on. -/
def entryLines (i : Nat) : List RamEntry → List UInt8
  | [] => []
  | e :: es => entryLine i e ++ entryLines (i + 1) es

def mapText (es : List RamEntry) : List UInt8 :=
  Byte.text "Entries count: " ++ itoaDec es.length ++ Byte.text "\n" ++ entryLines 0 es

theorem and_low (n : Nat) : n &&& 0xFFFFFFFF = n % 2 ^ 32 := Nat.and_two_pow_sub_one_eq_mod n 32

theorem kprint_int {fmt before after : List UInt8} (hnul : ∀ c ∈ fmt, c ≠ 0) (htaken : taken fmt = [.int])
    (hitems : .percent ∉ items fmt) (htext : ∀ v, expand (items fmt) [.int v] = before ++ itoaDec v ++ after) (v : Int)
    (con : Console) : kprint fmt [.int v] con = .ok (putcs (before ++ itoaDec v ++ after) con) := by
  rw [@kprint_taken fmt [.int v] hnul htaken hitems, htext]

theorem kprint_uint {fmt before : List UInt8} (hnul : ∀ c ∈ fmt, c ≠ 0) (htaken : taken fmt = [.uint])
    (hitems : .percent ∉ items fmt) (htext : ∀ v, expand (items fmt) [.uint v] = before ++ (itoaHex v ++ [])) (v : Nat)
    (con : Console) : kprint fmt [.uint v] con = .ok (putcs (before ++ itoaHex v) con) := by
  rw [@kprint_taken fmt [.uint v] hnul htaken hitems, htext, List.append_nil]

theorem printRamEntry_eq (i : Nat) (e : RamEntry) (con : Console) :
    printRamEntry i e con = .ok (putcs (entryLine i e) con) := by
  have hindex := @kprint_int (Byte.text "Entry %d:") (Byte.text "Entry ") (Byte.text ":")
    (Byte.ne_zero_of_all (by decide)) (by decide) (by decide) (fun _ => rfl) i
  have hbase := @kprint_uint (Byte.text " Base = %x") (Byte.text " Base = ") (Byte.ne_zero_of_all (by decide))
    (by decide) (by decide) (fun _ => rfl) (e.base % 2 ^ 32)
  have hlength := @kprint_uint (Byte.text " Length = %x") (Byte.text " Length = ") (Byte.ne_zero_of_all (by decide))
    (by decide) (by decide) (fun _ => rfl) (e.length % 2 ^ 32)
  have htype := @kprint_int (Byte.text " Type = %d\n") (Byte.text " Type = ") (Byte.text "\n")
    (Byte.ne_zero_of_all (by decide)) (by decide) (by decide) (fun _ => rfl) (toInt32 e.type)
  have hcolon : Byte.text ": Base = " = Byte.text ":" ++ Byte.text " Base = " := rfl
  unfold printRamEntry entryLine
  rw [and_low, and_low, hindex, ok_bind, hbase, ok_bind, hlength, ok_bind, htype, hcolon]
  simp only [putcs_append]

/-- The lines of a map in memory, read entry by entry. -/
theorem entryLines_read (mem : Nat → UInt8) : ∀ n i : Nat,
    entryLines i ((List.range' i n).map fun k => readRamEntry mem (0x86000 + 20 * k)) =
      ((List.range' i n).map fun k => entryLine k (readRamEntry mem (0x86000 + 20 * k))).flatten
  | 0, _ => rfl
  | n + 1, i => by
    simp only [List.range'_succ, List.map_cons, entryLines, List.flatten_cons, entryLines_read mem n (i + 1)]

/-- `print_ram_map` prints the count and the entries that are in memory, for every memory. -/
theorem printRamMap_eq (mem : Nat → UInt8) (con : Console) :
    printRamMap mem con = .ok (putcs (mapText (ramMap mem)) con) := by
  have hcount := @kprint_int (Byte.text "Entries count: %d\n") (Byte.text "Entries count: ") (Byte.text "\n")
    (Byte.ne_zero_of_all (by decide)) (by decide) (by decide) (fun _ => rfl) (ramEntries mem)
  let line (k : Nat) : List UInt8 := entryLine k (readRamEntry mem (0x86000 + 20 * k))
  have hloop : ∀ con, ∃ con', forUpM 0 (ramEntries mem)
      (fun i con => printRamEntry i (readRamEntry mem (0x86000 + 20 * i)) con) con = .ok con' ∧
        con' = putcs ((List.range' 0 (ramEntries mem)).map line).flatten con := by
    intro con
    refine forUpM_inv (fun i con' => con' = putcs ((List.range' 0 i).map line).flatten con) (Nat.zero_le _) ?_ rfl
    rintro i con' - - rfl
    refine ⟨_, printRamEntry_eq .., ?_⟩
    rw [List.range'_1_concat, List.map_append, List.flatten_append, putcs_append, Nat.zero_add]
    simp [line]
  have hmap : ramMap mem = (List.range' 0 (ramEntries mem)).map fun k => readRamEntry mem (0x86000 + 20 * k) := by
    unfold ramMap
    rw [List.range_eq_range']
  have hlen : (ramMap mem).length = ramEntries mem := by simp [hmap]
  unfold printRamMap mapText
  rw [hcount, ok_bind, hlen]
  obtain ⟨con', hrun, rfl⟩ := hloop
    (putcs (Byte.text "Entries count: " ++ itoaDec (ramEntries mem) ++ Byte.text "\n") con)
  rw [hrun, hmap, entryLines_read]
  simp only [putcs_append, line]

/-! ## What can be read off the screen -/

/-- The fields of an entry as they are printed. -/
def shownFields (e : RamEntry) : Nat × Nat × Int := (e.base % 2 ^ 32, e.length % 2 ^ 32, toInt32 e.type)

/-- A text up to a mark that it does not contain. -/
theorem split_mark {α : Type} {d : α} : ∀ {xs ys r s : List α}, d ∉ xs → d ∉ ys → xs ++ d :: r = ys ++ d :: s →
    xs = ys ∧ r = s
  | [], [], _, _, _, _, h => ⟨rfl, (List.cons.inj h).2⟩
  | [], y :: ys, _, _, _, hy, h => absurd (List.mem_cons.2 (.inl (List.cons.inj h).1)) hy
  | x :: xs, [], _, _, hx, _, h => absurd (List.mem_cons.2 (.inl (List.cons.inj h).1.symm)) hx
  | x :: xs, y :: ys, r, s, hx, hy, h => by
    obtain ⟨rfl, htail⟩ := List.cons.inj h
    obtain ⟨rfl, hrest⟩ := split_mark (fun hm => hx (List.mem_cons_of_mem _ hm))
      (fun hm => hy (List.mem_cons_of_mem _ hm)) htail
    exact ⟨rfl, hrest⟩

/-- A character that no number is written with. -/
def IsMark (c : UInt8) : Prop := c = 0x20 ∨ c = 0x0A ∨ c = 0x3A

theorem not_mem_itoaDec {v : Int} (h1 : -2 ^ 31 ≤ v) (h2 : v < 2 ^ 31) {c : UInt8} (hc : IsMark c) : c ∉ itoaDec v := by
  have hdigit : ¬Decimal.IsDigit c ∧ c ≠ 0x2D ∧ c ≠ 0x30 := by
    rcases hc with rfl | rfl | rfl
    · decide
    · decide
    · decide
  intro hmem
  by_cases hmin : v = -2 ^ 31
  · rw [hmin, itoaDec_min] at hmem
    exact hdigit.2.1 (List.mem_singleton.1 hmem)
  · rcases (itoaDec_canonical (lt_of_le_of_ne h1 (Ne.symm hmin)) h2).1 with h | h | ⟨ds, h, hplain⟩
    · rw [h] at hmem
      exact hdigit.2.2 (List.mem_singleton.1 hmem)
    · exact hdigit.1 (h.digits c hmem)
    · rw [h] at hmem
      rcases List.mem_cons.1 hmem with rfl | hmem
      · exact hdigit.2.1 rfl
      · exact hdigit.1 (hplain.digits c hmem)

theorem not_mem_itoaHex (v : Nat) {c : UInt8} (hc : IsMark c) : c ∉ itoaHex v := by
  have hdigit : ¬Hex.IsDigit c ∧ c ≠ 0x78 ∧ c ≠ 0x30 := by
    rcases hc with rfl | rfl | rfl
    · decide
    · decide
    · decide
  intro hmem
  by_cases h0 : v = 0
  · rw [h0] at hmem
    exact hdigit.2.2 (List.mem_singleton.1 hmem)
  · rw [itoaHex_eq h0] at hmem
    rcases List.mem_append.1 hmem with hmem | hmem
    · rcases List.mem_cons.1 hmem with rfl | hmem
      · exact hdigit.2.2 rfl
      · exact hdigit.2.1 (List.mem_singleton.1 hmem)
    · exact hdigit.1 ((Hex.plain_numeral h0).digits c hmem)

/-- Two values of `int` with the same text are the same. -/
theorem itoaDec_inj {v w : Int} (hv : -2 ^ 31 ≤ v ∧ v < 2 ^ 31) (hw : -2 ^ 31 ≤ w ∧ w < 2 ^ 31)
    (h : itoaDec v = itoaDec w) : v = w := by
  by_cases hvmin : v = -2 ^ 31
  · by_cases hwmin : w = -2 ^ 31
    · rw [hvmin, hwmin]
    · have hcan := (itoaDec_canonical (lt_of_le_of_ne hw.1 (Ne.symm hwmin)) hw.2).1
      rw [← h, hvmin, itoaDec_min] at hcan
      exact absurd hcan not_canonical_minus
  · have hcan := itoaDec_canonical (lt_of_le_of_ne hv.1 (Ne.symm hvmin)) hv.2
    by_cases hwmin : w = -2 ^ 31
    · have hcan := hcan.1
      rw [h, hwmin, itoaDec_min] at hcan
      exact absurd hcan not_canonical_minus
    · rw [← hcan.2, h]
      exact (itoaDec_canonical (lt_of_le_of_ne hw.1 (Ne.symm hwmin)) hw.2).2

theorem toInt32_range (x : Int) : -2 ^ 31 ≤ toInt32 x ∧ toInt32 x < 2 ^ 31 := by
  unfold toInt32
  have hlow := Int.le_bmod (x := x) (m := 2 ^ 32) (by decide)
  have hhigh := Int.bmod_lt (x := x) (m := 2 ^ 32) (by decide)
  omega

/-- A line determines what is printed of its entry, whatever follows it. -/
theorem entryLine_inj {i j : Nat} (hi : i < 2 ^ 31) (hj : j < 2 ^ 31) {e f : RamEntry} {r s : List UInt8}
    (h : entryLine i e ++ r = entryLine j f ++ s) : shownFields e = shownFields f ∧ r = s := by
  have hcolon : Byte.text ": Base = " = 0x3A :: Byte.text " Base = " := rfl
  have hlength : Byte.text " Length = " = 0x20 :: Byte.text "Length = " := rfl
  have htype : Byte.text " Type = " = 0x20 :: Byte.text "Type = " := rfl
  have hend : Byte.text "\n" = 0x0A :: [] := rfl
  unfold entryLine at h
  simp only [List.append_assoc, hcolon, hlength, htype, hend, List.cons_append] at h
  have h := List.append_cancel_left h
  obtain ⟨-, h⟩ := split_mark (not_mem_itoaDec (by omega) (by omega) (.inr (.inr rfl)))
    (not_mem_itoaDec (by omega) (by omega) (.inr (.inr rfl))) h
  obtain ⟨hbase, h⟩ := split_mark (not_mem_itoaHex _ (.inl rfl)) (not_mem_itoaHex _ (.inl rfl))
    (List.append_cancel_left h)
  obtain ⟨hlen, h⟩ := split_mark (not_mem_itoaHex _ (.inl rfl)) (not_mem_itoaHex _ (.inl rfl))
    (List.append_cancel_left h)
  obtain ⟨hty, h⟩ := split_mark (not_mem_itoaDec (toInt32_range _).1 (toInt32_range _).2 (.inr (.inl rfl)))
    (not_mem_itoaDec (toInt32_range _).1 (toInt32_range _).2 (.inr (.inl rfl))) (List.append_cancel_left h)
  unfold shownFields
  rw [itoaHex_injective hbase, itoaHex_injective hlen, itoaDec_inj (toInt32_range _) (toInt32_range _) hty]
  exact ⟨rfl, h⟩

theorem entryLines_inj : ∀ {es fs : List RamEntry} {i : Nat}, i + es.length < 2 ^ 31 → es.length = fs.length →
    entryLines i es = entryLines i fs → es.map shownFields = fs.map shownFields
  | [], [], _, _, _, _ => rfl
  | e :: es, f :: fs, i, hlt, hlen, h => by
    simp only [List.length_cons] at hlt hlen
    obtain ⟨hfields, htail⟩ := entryLine_inj (by omega) (by omega) h
    have ih := @entryLines_inj es fs (i + 1) (by omega) (by omega) htail
    rw [List.map_cons, List.map_cons, hfields, ih]

/-- The text of a map shows how many entries it has, and of each the type and the low halves of base and length. -/
theorem mapText_inj {es fs : List RamEntry} (hes : es.length < 2 ^ 31) (hfs : fs.length < 2 ^ 31) :
    mapText es = mapText fs ↔ es.map shownFields = fs.map shownFields := by
  have hend : Byte.text "\n" = 0x0A :: [] := rfl
  constructor
  · intro h
    unfold mapText at h
    simp only [List.append_assoc, hend, List.cons_append, List.nil_append] at h
    obtain ⟨hcount, hlines⟩ := split_mark (not_mem_itoaDec (by omega) (by omega) (.inr (.inl rfl)))
      (not_mem_itoaDec (by omega) (by omega) (.inr (.inl rfl))) (List.append_cancel_left h)
    have hlen := itoaDec_inj ⟨by omega, by omega⟩ ⟨by omega, by omega⟩ hcount
    exact entryLines_inj (by omega) (by omega) hlines
  · intro h
    have hlen : es.length = fs.length := by simpa using congrArg List.length h
    have hlines : ∀ (es fs : List RamEntry) (i : Nat), es.map shownFields = fs.map shownFields →
        entryLines i es = entryLines i fs := by
      intro es
      induction es with
      | nil =>
        intro fs i h
        rw [List.map_eq_nil_iff.1 h.symm]
      | cons e es ih =>
        intro fs i h
        cases fs with
        | nil => cases h
        | cons f fs =>
          obtain ⟨hfields, htail⟩ := List.cons.inj h
          simp only [shownFields, Prod.mk.injEq] at hfields
          obtain ⟨hbase, hlength, htype⟩ := hfields
          simp only [entryLines, entryLine, hbase, hlength, htype, ih fs (i + 1) htail]
    unfold mapText
    rw [hlen, hlines es fs 0 h]

/-! ## From the BIOS to the screen -/

/-- The kernel finds the count and the entries as `get_memory_map` left them. -/
def SameMap (count : Nat) (mem mem' : Nat → UInt8) : Prop :=
  ∀ a, 0x85FFD ≤ a → a < 0x86000 + 20 * count → mem' a = mem a

theorem ramMap_same {mem mem' : Nat → UInt8} (h : SameMap (ramEntries mem) mem mem') : ramMap mem' = ramMap mem := by
  have hcount : ramEntries mem' = ramEntries mem :=
    littleEndian_congr fun i hi => h (0x85FFD + i) (by omega) (by omega)
  unfold ramMap
  rw [hcount]
  refine List.map_congr_left fun i hi => ?_
  have hi := List.mem_range.1 hi
  exact readRamEntry_congr fun j hj => h (0x86000 + 20 * i + j) (by omega) (by omega)

/-- What `get_memory_map` leaves for the kernel to read. -/
theorem enterStage1_map (bios : Report) (m : Machine) : ∃ m', enterStage1 bios m = some m' ∧
    ramEntries m'.mem = bios.count.toNat ∧
    (CountRight bios → ramMap m'.mem = bios.ranges.map Descriptor.entry) := by
  obtain ⟨m', hrun, hstores, hmem⟩ := enterStage1_spec bios m
  refine ⟨m', hrun, ?_, fun hright => ((mapRight_iff hstores hmem).2 hright).view⟩
  rw [hmem]
  exact littleEndian_blitWord ..

theorem ramMap_length (mem : Nat → UInt8) : (ramMap mem).length = ramEntries mem := by
  unfold ramMap
  rw [List.length_map, List.length_range]

/-- A text that shows another number of entries than were reported is another text. -/
theorem countRight_of_text {bios : Report} {mem : Nat → UInt8} (hcount : ramEntries mem = bios.count.toNat)
    (hlen : bios.ranges.length ≤ 2048) (htext : mapText (ramMap mem) = mapText (bios.ranges.map Descriptor.entry)) :
    CountRight bios := by
  have hlt := bios.count.isLt
  have hmap := ramMap_length mem
  have hfields := (mapText_inj (by omega) (by rw [List.length_map]; omega)).1 htext
  have hsame := congrArg List.length hfields
  rw [List.length_map, List.length_map, List.length_map, hmap, hcount] at hsame
  exact (countRight_iff bios).2 ⟨hlen, hsame⟩

/-- Whatever the BIOS reports and whatever memory holds before: `get_memory_map` returns, and once the kernel runs
with the map still in memory, `print_ram_map` prints a text from which the number of entries, their types and the low
halves of their bases and lengths can be read. It is the text of the reported ranges when the count is right, and, for
as many ranges as there is room for, only then. -/
theorem memory_map_printed (bios : Report) (m : Machine) : ∃ m', enterStage1 bios m = some m' ∧
    ∀ mem, SameMap (ramEntries m'.mem) m'.mem mem → ∃ text, (∀ con, printRamMap mem con = .ok (putcs text con)) ∧
      (∀ es : List RamEntry, es.length < 2 ^ 31 →
        (text = mapText es ↔ (ramMap mem).map shownFields = es.map shownFields)) ∧
      (CountRight bios → text = mapText (bios.ranges.map Descriptor.entry)) ∧
      (bios.ranges.length ≤ 2048 → text = mapText (bios.ranges.map Descriptor.entry) → CountRight bios) := by
  obtain ⟨m', hrun, hcount, hright⟩ := enterStage1_map bios m
  refine ⟨m', hrun, fun mem hsame => ⟨mapText (ramMap mem), printRamMap_eq mem, ?_, ?_, ?_⟩⟩
  · intro es hes
    have hlt := bios.count.isLt
    refine mapText_inj ?_ hes
    rw [ramMap_same hsame, ramMap_length, hcount]
    omega
  · intro hcountRight
    rw [ramMap_same hsame, hright hcountRight]
  · intro hlen htext
    rw [ramMap_same hsame] at htext
    exact countRight_of_text hcount hlen htext

end SnakeOS.Drivers
