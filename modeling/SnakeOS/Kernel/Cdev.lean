/-
drivers/cdev.c: the registry of character devices, for device addresses `P` and tables of operations
`O`, and its refinement of a map from names to devices that keeps the order of registration.
-/
import SnakeOS.Kernel.Util
import SnakeOS.Lib.Byte
import SnakeOS.Lib.OrderedMap
import SnakeOS.Lib.Run

namespace SnakeOS.Kernel

open C

/-! ## The registry -/

abbrev MAX_CDEVS : Nat := 16

abbrev K_OK : Int := 0
abbrev K_EINVAL : Int := -1
abbrev K_ENOSPC : Int := -2
abbrev K_EEXIST : Int := -3

structure Cdev (O : Type) where
  name : Option CString
  ops : Option O

variable {P O : Type}

/-- The static variables. -/
structure Registry (P : Type) where
  cdevTable : Vector (Option P) MAX_CDEVS
  cdevCount : Nat

def Registry.boot : Registry P := ⟨Vector.replicate MAX_CDEVS none, 0⟩

/-- The loop over the table, from the index `i` on: the first device with the name. -/
def cdevScan (mem : P → Cdev O) (name : CString) (s : Registry P) : Nat → Nat → Except Fault (Option P)
  | 0, _ => .ok none
  | n + 1, i => do
    let dev ← deref (← load s.cdevTable i)
    let stored ← deref (mem dev).name
    if (← strcmp stored.bytes name.bytes) = 0 then return some dev
    else cdevScan mem name s n (i + 1)

/-- The value returned and the registry after `cdev_register`. -/
def cdevRegister (mem : P → Cdev O) (dev : Option P) (s : Registry P) : Except Fault (Int × Registry P) :=
  match dev with
  | none => .ok (K_EINVAL, s)
  | some dev =>
    match (mem dev).name, (mem dev).ops with
    | some name, some _ =>
      if s.cdevCount ≥ MAX_CDEVS then .ok (K_ENOSPC, s)
      else do
        match ← cdevScan mem name s s.cdevCount 0 with
        | some _ => return (K_EEXIST, s)
        | none =>
          let cdevTable ← store s.cdevTable s.cdevCount (some dev)
          return (K_OK, { s with cdevTable, cdevCount := s.cdevCount + 1 })
    | _, _ => .ok (K_EINVAL, s)

def cdevGet (mem : P → Cdev O) (name : Option CString) (s : Registry P) : Except Fault (Option P) :=
  match name with
  | none => .ok none
  | some name => cdevScan mem name s s.cdevCount 0

/-! ## The map of names -/

/-- The devices by name, in the order of registration. -/
abbrev Names (P : Type) := OrderedMap (List UInt8) P MAX_CDEVS

/-- The name and the address of a device that can be registered. -/
def requested (mem : P → Cdev O) (dev : Option P) : Option (List UInt8 × P) :=
  dev.bind fun dev =>
    match (mem dev).name, (mem dev).ops with
    | some name, some _ => some (name.text, dev)
    | _, _ => none

/-- Registration on the map. -/
def Names.register (req : Option (List UInt8 × P)) (m : Names P) : Int × Names P :=
  match req with
  | none => (K_EINVAL, m)
  | some (name, dev) =>
    if h : m.entries.length < MAX_CDEVS then
      if hk : name ∈ m.keys then (K_EEXIST, m) else (K_OK, m.append name dev hk h)
    else (K_ENOSPC, m)

/-- The table holds the devices of the map, in its order. -/
structure Registry.Holds (s : Registry P) (m : Names P) : Prop where
  count : s.cdevCount = m.entries.length
  table : ∀ i (h : i < m.entries.length), load s.cdevTable i = .ok (some m.entries[i].2)

/-- The devices of the map have their names in memory. -/
def Named (mem : P → Cdev O) (m : Names P) : Prop :=
  ∀ e ∈ m.entries, ∃ name, (mem e.2).name = some name ∧ name.text = e.1

/-! ## One call -/

/-- The loop finds what is first in the rest of the map. -/
theorem cdevScan_spec {mem : P → Cdev O} {s : Registry P} {m : Names P} (hs : s.Holds m) (hm : Named mem m)
    (name : CString) : ∀ n i, i + n = m.entries.length →
      cdevScan mem name s n i = .ok (((m.entries.drop i).find? (·.1 = name.text)).map Prod.snd) := by
  intro n
  induction n with
  | zero =>
    intro i hi
    rw [List.drop_of_length_le (by omega)]
    rfl
  | succ n ih =>
    intro i hi
    have hlt : i < m.entries.length := by omega
    obtain ⟨stored, hstored, htext⟩ := hm m.entries[i] (List.getElem_mem hlt)
    obtain ⟨ret, hret, hzero⟩ := strcmp_spec stored.cstr_bytes name.cstr_bytes
    rw [htext] at hzero
    rw [List.drop_eq_getElem_cons hlt, List.find?_cons]
    simp only [cdevScan, hs.table i hlt, deref, hstored, hret, ok_bind, hzero]
    split
    · rename_i heq
      rw [decide_eq_true heq]
      rfl
    · rename_i hne
      rw [decide_eq_false hne]
      exact ih (i + 1) (by omega)

theorem cdevGet_spec {mem : P → Cdev O} {s : Registry P} {m : Names P} (hs : s.Holds m) (hm : Named mem m)
    (name : Option CString) : cdevGet mem name s = .ok (name.bind fun name => m.get name.text) := by
  cases name with
  | none => rfl
  | some name =>
    show cdevScan mem name s s.cdevCount 0 = _
    rw [cdevScan_spec hs hm name _ 0 (by rw [hs.count]; omega), List.drop_zero]
    rfl

/-- A new device goes to the end of the table. -/
theorem Registry.Holds.append {s : Registry P} {m : Names P} (hs : s.Holds m) {name : List UInt8} {dev : P}
    (hk : name ∉ m.keys) (h : m.entries.length < MAX_CDEVS) :
    ∃ cdevTable, store s.cdevTable s.cdevCount (some dev) = .ok cdevTable ∧
      Registry.Holds ⟨cdevTable, s.cdevCount + 1⟩ (m.append name dev hk h) := by
  obtain ⟨cdevTable, hstore⟩ : ∃ cdevTable, store s.cdevTable s.cdevCount (some dev) = .ok cdevTable :=
    ⟨_, store_ok (hs.count ▸ h)⟩
  have hentries : (m.append name dev hk h).entries = m.entries ++ [(name, dev)] := rfl
  refine ⟨cdevTable, hstore, ?_, ?_⟩
  · rw [hentries, List.length_append, ← hs.count]
    rfl
  · intro i hi
    simp only [hentries, List.length_append, List.length_singleton] at hi
    simp only [hentries]
    rcases Nat.lt_succ_iff_lt_or_eq.1 hi with hlt | rfl
    · rw [load_store_ne hstore (by have := hs.count; omega), List.getElem_append_left hlt]
      exact hs.table i hlt
    · rw [List.getElem_concat_length rfl, ← hs.count]
      exact load_store hstore

theorem cdevRegister_spec {mem : P → Cdev O} {s : Registry P} {m : Names P} (hs : s.Holds m)
    (hm : Named mem m) (dev : Option P) :
    ∃ s', cdevRegister mem dev s = .ok ((m.register (requested mem dev)).1, s') ∧
      s'.Holds (m.register (requested mem dev)).2 ∧ ((m.register (requested mem dev)).1 ≠ K_OK → s' = s) := by
  have hfail : ∀ ret, cdevRegister mem dev s = .ok (ret, s) → m.register (requested mem dev) = (ret, m) →
      ∃ s', cdevRegister mem dev s = .ok ((m.register (requested mem dev)).1, s') ∧
        s'.Holds (m.register (requested mem dev)).2 ∧
        ((m.register (requested mem dev)).1 ≠ K_OK → s' = s) := by
    intro ret hrun hreg
    rw [hreg]
    exact ⟨s, hrun, hs, fun _ => rfl⟩
  cases dev with
  | none => exact hfail K_EINVAL rfl rfl
  | some dev =>
    cases hname : (mem dev).name with
    | none => exact hfail K_EINVAL (by simp [cdevRegister, hname]) (by simp [requested, hname, Names.register])
    | some name =>
      cases hops : (mem dev).ops with
      | none =>
        exact hfail K_EINVAL (by simp [cdevRegister, hname, hops])
          (by simp [requested, hname, hops, Names.register])
      | some ops =>
        have hreq : requested mem (some dev) = some (name.text, dev) := by simp [requested, hname, hops]
        have hscan := cdevScan_spec hs hm name s.cdevCount 0 (by rw [hs.count]; omega)
        rw [List.drop_zero] at hscan
        by_cases hfull : m.entries.length < MAX_CDEVS
        · have hcount : ¬s.cdevCount ≥ MAX_CDEVS := by rw [hs.count]; omega
          by_cases hk : name.text ∈ m.keys
          · obtain ⟨found, hfound⟩ : ∃ found, m.get name.text = some found := by
              rw [← Option.ne_none_iff_exists']
              exact fun h => (m.get_eq_none_iff _).1 h hk
            refine hfail K_EEXIST ?_ (by rw [hreq, Names.register, dif_pos hfull, dif_pos hk])
            unfold OrderedMap.get at hfound
            simp only [cdevRegister, hname, hops, if_neg hcount, hscan, hfound, ok_bind]
            rfl
          · have hfound := (m.get_eq_none_iff _).2 hk
            unfold OrderedMap.get at hfound
            obtain ⟨cdevTable, hstore, hholds⟩ := @Registry.Holds.append P s m hs name.text dev hk hfull
            rw [hreq, Names.register, dif_pos hfull, dif_neg hk]
            refine ⟨_, ?_, hholds, fun h => absurd rfl h⟩
            simp only [cdevRegister, hname, hops, if_neg hcount, hscan, hfound, ok_bind, hstore]
            rfl
        · have hcount : s.cdevCount ≥ MAX_CDEVS := by rw [hs.count]; omega
          exact hfail K_ENOSPC (by simp only [cdevRegister, hname, hops, if_pos hcount])
            (by rw [hreq, Names.register, dif_neg hfull])

/-! ## Histories -/

/-- A call of `cdev_register`, with the memory it finds. -/
structure Registration (P O : Type) where
  mem : P → Cdev O
  dev : Option P

/-- The device of a call still has its name in a later memory. -/
def Registration.Keeps (c : Registration P O) (mem : P → Cdev O) : Prop :=
  ∀ dev name, c.dev = some dev → (c.mem dev).name = some name →
    ∃ name', (mem dev).name = some name' ∧ name'.text = name.text

/-- The values returned and the registry after a list of calls. -/
def registerAll (calls : List (Registration P O)) (s : Registry P) : Except Fault (List Int × Registry P) :=
  calls.foldlM (fun (rets, s) c => do
    let (ret, s) ← cdevRegister c.mem c.dev s
    return (rets ++ [ret], s)) ([], s)

/-- The values returned and the map after the same calls on the map. -/
def namesAll (calls : List (Registration P O)) : List Int × Names P :=
  calls.foldl (fun (rets, m) c =>
    let (ret, m) := m.register (requested c.mem c.dev)
    (rets ++ [ret], m)) ([], OrderedMap.empty)

theorem namesAll_snoc (calls : List (Registration P O)) (c : Registration P O) :
    namesAll (calls ++ [c]) =
      ((namesAll calls).1 ++ [((namesAll calls).2.register (requested c.mem c.dev)).1],
        ((namesAll calls).2.register (requested c.mem c.dev)).2) := by
  unfold namesAll
  rw [List.foldl_append]
  rfl

/-- What a registration adds to the map is its own request. -/
theorem Names.register_entries {m : Names P} {req : Option (List UInt8 × P)} {e : List UInt8 × P}
    (h : e ∈ (m.register req).2.entries) : e ∈ m.entries ∨ req = some e := by
  unfold Names.register at h
  split at h
  · exact Or.inl h
  · split at h
    · split at h
      · exact Or.inl h
      · rcases List.mem_append.1 h with h | h
        · exact Or.inl h
        · exact Or.inr (congrArg some (List.mem_singleton.1 h).symm)
    · exact Or.inl h

/-- Memories that keep the names of the calls have the names of the map. -/
theorem named_namesAll (calls : List (Registration P O)) {mem : P → Cdev O} (hmem : ∀ c ∈ calls, c.Keeps mem) :
    Named mem (namesAll calls).2 := by
  induction calls using List.reverseRecOn with
  | nil => exact fun e he => absurd he List.not_mem_nil
  | append_singleton calls c ih =>
    intro e he
    rw [namesAll_snoc] at he
    rcases Names.register_entries he with he | hreq
    · exact ih (fun c hc => hmem c (by simp [hc])) e he
    · unfold requested at hreq
      obtain ⟨dev, hdev, hreq⟩ := Option.bind_eq_some_iff.1 hreq
      split at hreq
      · rename_i name ops hname hops
        obtain rfl := Option.some.inj hreq
        exact hmem c (by simp) dev name hdev hname
      · cases hreq

theorem registry_boot_holds : Registry.boot.Holds (OrderedMap.empty : Names P) :=
  ⟨rfl, fun i h => absurd h (Nat.not_lt_zero i)⟩

theorem registerAll_spec (calls : List (Registration P O)) (h : calls.Pairwise fun c c' => c.Keeps c'.mem) :
    ∃ s, registerAll calls Registry.boot = .ok ((namesAll calls).1, s) ∧ s.Holds (namesAll calls).2 := by
  induction calls using List.reverseRecOn with
  | nil => exact ⟨Registry.boot, rfl, registry_boot_holds⟩
  | append_singleton calls c ih =>
    obtain ⟨hcalls, -, hlast⟩ := List.pairwise_append.1 h
    obtain ⟨s, hrun, hs⟩ := ih hcalls
    have hm := named_namesAll calls fun c' hc' => hlast c' hc' c (List.mem_singleton_self c)
    obtain ⟨s', hrun', hs', -⟩ := cdevRegister_spec hs hm c.dev
    rw [namesAll_snoc]
    refine ⟨s', ?_, hs'⟩
    unfold registerAll at hrun ⊢
    rw [Run.foldlM_snoc hrun c]
    simp only [hrun', ok_bind, pure_eq_ok]

/-! ## The law -/

/-- Whatever is registered, as long as the names of devices are kept once a call has seen them: the
registry holds the devices of the map and returned what registration on the map returns, a call
that fails changes nothing, and `cdev_get` is the map's lookup. -/
theorem cdev_refines_names (calls : List (Registration P O)) (h : calls.Pairwise fun c c' => c.Keeps c'.mem) :
    ∃ s, registerAll calls Registry.boot = .ok ((namesAll calls).1, s) ∧ s.Holds (namesAll calls).2 ∧
      ∀ mem : P → Cdev O, (∀ c ∈ calls, c.Keeps mem) → Named mem (namesAll calls).2 ∧
        (∀ dev, ∃ s', cdevRegister mem dev s =
            .ok (((namesAll calls).2.register (requested mem dev)).1, s') ∧
          (((namesAll calls).2.register (requested mem dev)).1 ≠ K_OK → s' = s)) ∧
        ∀ name, cdevGet mem name s = .ok (name.bind fun name => (namesAll calls).2.get name.text) := by
  obtain ⟨s, hrun, hs⟩ := registerAll_spec calls h
  refine ⟨s, hrun, hs, fun mem hmem => ?_⟩
  have hm := named_namesAll calls hmem
  refine ⟨hm, fun dev => ?_, cdevGet_spec hs hm⟩
  obtain ⟨s', hrun', -, hfail⟩ := cdevRegister_spec hs hm dev
  exact ⟨s', hrun', hfail⟩

/-- A device `true` with the name `kbd` and a device `false` without a name. -/
def keyboardOnly (dev : Bool) : Cdev Unit :=
  ⟨if dev then some ⟨Byte.text "kbd" ++ [0], by decide⟩ else none, some ()⟩

theorem cdev_refines_names_keyboard : ∃ s,
    registerAll [⟨keyboardOnly, some true⟩, ⟨keyboardOnly, some false⟩, ⟨keyboardOnly, some true⟩] Registry.boot =
      .ok ([K_OK, K_EINVAL, K_EEXIST], s) ∧
    cdevGet keyboardOnly (keyboardOnly true).name s = .ok (some true) := by
  have hkept : ∀ dev, (⟨keyboardOnly, dev⟩ : Registration Bool Unit).Keeps keyboardOnly :=
    fun _ _ name _ hname => ⟨name, hname, rfl⟩
  obtain ⟨s, hrun, -, hget⟩ := cdev_refines_names
    [⟨keyboardOnly, some true⟩, ⟨keyboardOnly, some false⟩, ⟨keyboardOnly, some true⟩] (by simp [hkept])
  refine ⟨s, hrun, ?_⟩
  rw [(hget keyboardOnly (by simp [hkept])).2.2]
  rfl

end SnakeOS.Kernel
