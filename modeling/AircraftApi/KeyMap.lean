/-
AircraftApi/KeyMap.lean

Finite maps with an unindexed value type, as the in-memory hash maps of a
program are: Mathlib's association lists, together with the two things a
bounded cache does to one and Mathlib does not have, dropping the entries
whose value fails a test and counting the keys.
-/
import Mathlib.Data.List.AList
import Mathlib.Tactic.Common

/-- A finite map from `κ` to `ν`. -/
abbrev KeyMap (κ ν : Type*) := AList fun _ : κ => ν

namespace KeyMap

variable {κ ν : Type*}

/-- The number of keys. -/
def size (m : KeyMap κ ν) : ℕ := m.keys.length

/-- Keeps the entries whose value passes the test. -/
def retain (m : KeyMap κ ν) (p : ν → Bool) : KeyMap κ ν where
  entries := m.entries.filter fun e => p e.2
  nodupKeys := m.nodupKeys.sublist List.filter_sublist

theorem size_retain_le (m : KeyMap κ ν) (p : ν → Bool) :
    size (retain m p) ≤ size m := by
  simpa [size, AList.keys, List.keys, retain] using
    List.length_filter_le (fun e : (_ : κ) × ν => p e.2) m.entries

variable [DecidableEq κ]

theorem lookup_retain (m : KeyMap κ ν) (p : ν → Bool) (k : κ) :
    (retain m p).lookup k = (m.lookup k).filter p := by
  ext v
  rw [← Option.mem_def, ← Option.mem_def, Option.mem_filter_iff,
    AList.mem_lookup_iff, AList.mem_lookup_iff]
  simp [retain]

/-- Nothing is dropped exactly when every value passes. -/
theorem size_retain_eq_iff {m : KeyMap κ ν} {p : ν → Bool} :
    size (retain m p) = size m ↔ ∀ k v, m.lookup k = some v → p v := by
  have hlength : size (retain m p) = size m ↔ ∀ e ∈ m.entries, p e.2 := by
    simp only [size, AList.keys, List.keys, retain, List.length_map]
    exact List.length_filter_eq_length_iff (p := fun e : (_ : κ) × ν => p e.2) (l := m.entries)
  rw [hlength]
  constructor
  · intro hall k v hlookup
    exact hall ⟨k, v⟩ (AList.mem_lookup_iff.mp hlookup)
  · rintro hall ⟨k, v⟩ hentry
    exact hall k v (AList.mem_lookup_iff.mpr hentry)

theorem size_insert_of_mem (m : KeyMap κ ν) {k : κ} (v : ν) (h : k ∈ m) :
    size (m.insert k v) = size m := by
  have hpos : 0 < m.keys.length := List.length_pos_of_mem h
  rw [size, AList.keys_insert, List.length_cons, List.length_erase_of_mem h, size]
  omega

theorem size_insert_of_notMem (m : KeyMap κ ν) {k : κ} (v : ν) (h : k ∉ m) :
    size (m.insert k v) = size m + 1 := by
  rw [size, AList.keys_insert, List.length_cons, List.erase_of_not_mem h, size]

end KeyMap
