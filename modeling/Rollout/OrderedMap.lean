import Mathlib.Data.List.Nodup
import Mathlib.Logic.Function.Basic

/-! Maps that remember the order in which their keys were added. `OrderedMap` carries in its type that
no key is there twice and that just the keys have values; what its operations do is said of the
entries, in their order (`entries_append`, `entries_modify`, `entries_erase`). -/

namespace Rollout

universe u v

/-- The keys in the order in which they were added, and what is under each. -/
structure OrderedMap (κ : Type u) (ν : Type v) where
  keys : List κ
  get? : κ → Option ν
  nodup : keys.Nodup
  mem_keys : ∀ {k}, k ∈ keys ↔ (get? k).isSome

namespace OrderedMap

variable {κ : Type u} {ν : Type v}

def empty : OrderedMap κ ν where
  keys := []
  get? _ := none
  nodup := List.nodup_nil
  mem_keys := by simp

/-- The keys with their values, in order. -/
def entries (m : OrderedMap κ ν) : List (κ × ν) :=
  m.keys.filterMap fun k => (m.get? k).map (k, ·)

theorem map_fst_entries (m : OrderedMap κ ν) : m.entries.map (·.1) = m.keys := by
  rw [entries, List.map_filterMap]
  conv_rhs => rw [← List.filterMap_some (l := m.keys)]
  apply List.filterMap_congr
  intro k hk
  obtain ⟨v, hv⟩ := Option.isSome_iff_exists.1 (m.mem_keys.1 hk)
  rw [hv]
  rfl

variable [DecidableEq κ]

/-- A new key comes behind the others. -/
def append (m : OrderedMap κ ν) (k : κ) (v : ν) (hnew : k ∉ m.keys) : OrderedMap κ ν where
  keys := m.keys ++ [k]
  get? := Function.update m.get? k (some v)
  nodup := List.concat_eq_append ▸ m.nodup.concat hnew
  mem_keys {j} := by
    by_cases hj : j = k
    · simp [hj]
    · simp [hj, m.mem_keys]

/-- Changes what is under a key, where it is. -/
def modify (m : OrderedMap κ ν) (k : κ) (f : ν → ν) : OrderedMap κ ν where
  keys := m.keys
  get? := Function.update m.get? k ((m.get? k).map f)
  nodup := m.nodup
  mem_keys {j} := by
    by_cases hj : j = k
    · simp [hj, m.mem_keys]
    · simp [hj, m.mem_keys]

def erase (m : OrderedMap κ ν) (k : κ) : OrderedMap κ ν where
  keys := m.keys.filter (· ≠ k)
  get? := Function.update m.get? k none
  nodup := m.nodup.filter _
  mem_keys {j} := by
    by_cases hj : j = k
    · simp [hj]
    · simp [hj, m.mem_keys]

theorem entries_append (m : OrderedMap κ ν) (k : κ) (v : ν) (hnew : k ∉ m.keys) :
    (m.append k v hnew).entries = m.entries ++ [(k, v)] := by
  rw [entries, append, List.filterMap_append]
  congr 1
  · apply List.filterMap_congr
    intro j hj
    have hne : j ≠ k := ne_of_mem_of_not_mem hj hnew
    simp only [Function.update_of_ne hne]
  · simp

theorem entries_modify (m : OrderedMap κ ν) (k : κ) (f : ν → ν) :
    (m.modify k f).entries = m.entries.map fun p => if p.1 = k then (p.1, f p.2) else p := by
  rw [entries, entries, modify, List.map_filterMap]
  apply List.filterMap_congr
  intro j _
  by_cases hj : j = k
  · subst hj
    simp [Function.comp_def]
  · simp [hj, Function.comp_def]

theorem entries_erase (m : OrderedMap κ ν) (k : κ) :
    (m.erase k).entries = m.entries.filter (·.1 ≠ k) := by
  rw [entries, entries, erase, List.filterMap_filter, List.filter_filterMap]
  apply List.filterMap_congr
  intro j _
  by_cases hj : j = k
  · subst hj
    cases m.get? j <;> simp [Option.filter]
  · cases hget : m.get? j <;> simp [hj, hget, Option.filter]

end OrderedMap

end Rollout
