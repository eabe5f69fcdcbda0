/-
Maps of bounded size that remember the order of insertion: the keys are distinct, and a new key
goes to the end.
-/
import Mathlib.Data.List.Nodup

/-- A map from `K` to `V` with at most `cap` entries, the oldest first. -/
structure OrderedMap (K V : Type) (cap : Nat) where
  entries : List (K × V)
  nodup : (entries.map Prod.fst).Nodup
  bounded : entries.length ≤ cap

namespace OrderedMap

variable {K V : Type} {cap : Nat}

def keys (m : OrderedMap K V cap) : List K := m.entries.map Prod.fst

def empty : OrderedMap K V cap := ⟨[], List.nodup_nil, Nat.zero_le _⟩

/-- The map with a new key at the end. -/
def append (m : OrderedMap K V cap) (k : K) (v : V) (hk : k ∉ m.keys) (h : m.entries.length < cap) :
    OrderedMap K V cap where
  entries := m.entries ++ [(k, v)]
  nodup := by
    rw [List.map_append]
    exact List.nodup_append'.2 ⟨m.nodup, List.nodup_singleton _, by simpa [keys] using hk⟩
  bounded := by
    rw [List.length_append]
    exact h

def get [DecidableEq K] (m : OrderedMap K V cap) (k : K) : Option V :=
  (m.entries.find? (·.1 = k)).map Prod.snd

theorem get_eq_none_iff [DecidableEq K] (m : OrderedMap K V cap) (k : K) : m.get k = none ↔ k ∉ m.keys := by
  simp only [get, keys, Option.map_eq_none_iff, List.find?_eq_none, decide_eq_true_eq, List.mem_map, not_exists,
    not_and]

end OrderedMap
