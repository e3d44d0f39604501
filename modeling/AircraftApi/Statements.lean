/-
AircraftApi/Statements.lean

Statements of a transaction: what each may refuse, and
`INSERT ... ON CONFLICT (key) DO UPDATE ... RETURNING id` on a table that is a
list of rows, a row's id its place in the list.

The row that is stored under the key is merged with the proposed one and stays
where it is; a key that is not stored is appended.

    require p refusal        the statement goes through only if `p` holds
    lookup key table k       the row stored under the key
    written                  the row an upsert leaves under its key
    upsert                   the table after it, and the id of that row

A merge is to keep the key of the stored row (`KeepsKey`): then the keys stay
unique, the key finds what was written, and every other row is left alone.
-/
import Mathlib.Data.List.Nodup

namespace Statements

/-! ### Refusals -/

section

variable {ε α β : Type}

/-- A check that refuses. -/
def require (p : Prop) [Decidable p] (refusal : ε) : Except ε Unit :=
  if p then .ok () else .error refusal

theorem ok_of_bind {first : Except ε α} {next : α → Except ε β} {b : β}
    (h : (first >>= next) = .ok b) : ∃ a, first = .ok a ∧ next a = .ok b := by
  rcases first with error | a
  · cases h
  · exact ⟨a, rfl, h⟩

theorem error_of_bind {first : Except ε α} {next : α → Except ε β} {error : ε}
    (h : (first >>= next) = .error error) :
    first = .error error ∨ ∃ a, first = .ok a ∧ next a = .error error := by
  rcases first with refusal | a
  · cases h
    exact .inl rfl
  · exact .inr ⟨a, rfl, h⟩

variable {p : Prop} [Decidable p] {refusal error : ε}

@[simp] theorem require_eq_ok : require p refusal = .ok () ↔ p := by
  unfold require
  split_ifs with h <;> simp [h]

@[simp] theorem require_eq_error : require p refusal = .error error ↔ ¬ p ∧ refusal = error := by
  unfold require
  split_ifs with h <;> simp [h]

end

/-! ### Upserts -/

variable {α κ : Type*} [DecidableEq κ] (key : α → κ) (merge : α → α → α)

/-- The row stored under a key. -/
def lookup (table : List α) (k : κ) : Option α := table.find? fun stored => key stored = k

/-- The row an upsert leaves under its key. -/
def written (table : List α) (row : α) : α :=
  match lookup key table (key row) with
  | some stored => merge stored row
  | none => row

/-- The row is merged into the one with its key, or added; its number comes with the
table. -/
def upsert (table : List α) (row : α) : List α × ℕ :=
  match table.findIdx? fun stored => key stored = key row with
  | some id => (table.modify id (merge · row), id)
  | none => (table ++ [row], table.length)

/-- A merge leaves the key of the stored row. -/
def KeepsKey : Prop := ∀ stored row, key stored = key row → key (merge stored row) = key stored

section

variable {key merge} {table : List α} {row stored : α} {k : κ}

theorem written_of_lookup (h : lookup key table (key row) = some stored) :
    written key merge table row = merge stored row := by
  rw [written, h]

theorem written_of_new (h : lookup key table (key row) = none) :
    written key merge table row = row := by
  rw [written, h]

theorem lookup_eq_none : lookup key table k = none ↔ ∀ stored ∈ table, key stored ≠ k := by
  simp [lookup]

theorem lookup_mem (h : lookup key table k = some stored) : stored ∈ table ∧ key stored = k :=
  ⟨List.mem_of_find?_eq_some h, by simpa using List.find?_some h⟩

/-- With unique keys a row is found under its key. -/
theorem lookup_of_mem (hnodup : (table.map key).Nodup) (h : stored ∈ table) :
    lookup key table (key stored) = some stored := by
  rcases hfound : lookup key table (key stored) with - | other
  · exact absurd rfl (lookup_eq_none.mp hfound stored h)
  · obtain ⟨hmem, hkey⟩ := lookup_mem hfound
    rw [List.inj_on_of_nodup_map hnodup hmem h hkey]

/-- With unique keys the rows of a key are the one that is found, if one is. -/
theorem filter_key (hnodup : (table.map key).Nodup) (k : κ) :
    (table.filter fun stored => key stored = k) = (lookup key table k).toList := by
  induction table with
  | nil => rfl
  | cons first rest ih =>
      obtain ⟨hfirst, hrest⟩ := List.nodup_cons.mp hnodup
      by_cases hkey : key first = k
      · have hnone : (rest.filter fun stored => key stored = k) = [] := by
          rw [List.filter_eq_nil_iff]
          intro stored hstored hsame
          refine hfirst (List.mem_map.mpr ⟨stored, hstored, ?_⟩)
          rw [of_decide_eq_true hsame, hkey]
        rw [List.filter_cons_of_pos (by simpa using hkey), hnone, lookup,
          List.find?_cons_of_pos (by simpa using hkey)]
        rfl
      · rw [List.filter_cons_of_neg (by simpa using hkey), ih hrest, lookup, lookup,
          List.find?_cons_of_neg (by simpa using hkey)]

variable (key merge) in
/-- The two ways of an upsert: the key is stored, or it is new. -/
theorem upsert_cases (table : List α) (row : α) :
    (∃ id stored, table[id]? = some stored ∧ key stored = key row ∧
      lookup key table (key row) = some stored ∧
      upsert key merge table row = (table.set id (merge stored row), id)) ∨
    (lookup key table (key row) = none ∧
      upsert key merge table row = (table ++ [row], table.length)) := by
  rcases hid : table.findIdx? fun stored => key stored = key row with - | id
  · right
    refine ⟨?_, by rw [upsert, hid]⟩
    rw [lookup_eq_none]
    simpa using List.findIdx?_eq_none_iff.mp hid
  · left
    obtain ⟨hlt, hkey, hfirst⟩ := List.findIdx?_eq_some_iff_getElem.mp hid
    refine ⟨id, table[id], List.getElem?_eq_getElem hlt, of_decide_eq_true hkey, ?_, ?_⟩
    · rw [lookup, List.find?_eq_some_iff_getElem]
      exact ⟨hkey, id, hlt, rfl, fun j hj => by simpa using hfirst j hj⟩
    · rw [upsert, hid]
      refine Prod.ext ?_ rfl
      show table.modify id (merge · row) = table.set id (merge table[id] row)
      rw [List.modify_eq_set_getElem?, List.getElem?_eq_getElem hlt]
      rfl

/-- The id an upsert returns is the one of the row it wrote. -/
theorem getElem?_upsert (key : α → κ) (merge : α → α → α) (table : List α) (row : α) :
    (upsert key merge table row).1[(upsert key merge table row).2]?
      = some (written key merge table row) := by
  rcases upsert_cases key merge table row with ⟨id, stored, hid, -, hfound, heq⟩ | ⟨hfound, heq⟩
  · rw [heq, written, hfound, List.getElem?_set_self (List.getElem?_eq_some_iff.mp hid).1]
  · rw [heq, written, hfound]
    exact List.getElem?_concat_length

theorem lt_length_upsert (key : α → κ) (merge : α → α → α) (table : List α) (row : α) :
    (upsert key merge table row).2 < (upsert key merge table row).1.length :=
  (List.getElem?_eq_some_iff.mp (getElem?_upsert key merge table row)).1

theorem length_le_upsert (key : α → κ) (merge : α → α → α) (table : List α) (row : α) :
    table.length ≤ (upsert key merge table row).1.length := by
  rcases upsert_cases key merge table row with ⟨id, stored, -, -, -, heq⟩ | ⟨-, heq⟩
  · rw [heq]
    exact Nat.le_of_eq List.length_set.symm
  · rw [heq, List.length_append]
    exact Nat.le_add_right _ _

/-- A row of another key stays. -/
theorem getElem?_upsert_of_ne {i : ℕ} (h : table[i]? = some stored) (hne : key stored ≠ key row) :
    (upsert key merge table row).1[i]? = some stored := by
  rcases upsert_cases key merge table row with ⟨id, old, hid, hkey, -, heq⟩ | ⟨-, heq⟩
  · have hi : id ≠ i := by
      rintro rfl
      rw [hid, Option.some.injEq] at h
      exact hne (h ▸ hkey)
    rw [heq, List.getElem?_set_ne hi, h]
  · rw [heq, List.getElem?_append_left (List.getElem?_eq_some_iff.mp h).1, h]

/-- A row of another key was there. -/
theorem getElem?_of_upsert_ne (hkeeps : KeepsKey key merge) {i : ℕ}
    (h : (upsert key merge table row).1[i]? = some stored) (hne : key stored ≠ key row) :
    table[i]? = some stored := by
  rcases upsert_cases key merge table row with ⟨id, old, hid, hkey, -, heq⟩ | ⟨-, heq⟩
  · rw [heq, List.getElem?_set] at h
    split_ifs at h with hi hlt
    · rw [← Option.some.inj h, hkeeps old row hkey] at hne
      exact absurd hkey hne
    · exact h
  · rw [heq, List.getElem?_append] at h
    split_ifs at h with hlt
    · exact h
    · exact absurd (congrArg key (List.mem_singleton.mp (List.mem_of_getElem? h))) hne

theorem mem_upsert (h : stored ∈ (upsert key merge table row).1) :
    stored = written key merge table row ∨ stored ∈ table := by
  rcases upsert_cases key merge table row with ⟨id, old, -, -, hfound, heq⟩ | ⟨hfound, heq⟩
  · rw [heq] at h
    rw [written, hfound]
    exact (List.mem_or_eq_of_mem_set h).symm
  · rw [heq, List.mem_append, List.mem_singleton] at h
    rw [written, hfound]
    exact h.symm

/-- What holds of the rows, of the proposed one and of a merge of the two holds
of the rows after an upsert. -/
theorem forall_mem_upsert {P : α → Prop} (h : ∀ stored ∈ table, P stored) (hrow : P row)
    (hmerge : ∀ stored ∈ table, key stored = key row → P stored → P (merge stored row)) :
    ∀ stored ∈ (upsert key merge table row).1, P stored := by
  intro stored hstored
  rcases mem_upsert hstored with rfl | hold
  · rcases hfound : lookup key table (key row) with - | old
    · rw [written, hfound]
      exact hrow
    · obtain ⟨hmem, hkey⟩ := lookup_mem hfound
      rw [written, hfound]
      exact hmerge old hmem hkey (h old hmem)
  · exact h stored hold

theorem written_mem (key : α → κ) (merge : α → α → α) (table : List α) (row : α) :
    written key merge table row ∈ (upsert key merge table row).1 :=
  List.mem_of_getElem? (getElem?_upsert key merge table row)

theorem key_written (h : KeepsKey key merge) (table : List α) (row : α) :
    key (written key merge table row) = key row := by
  rcases hfound : lookup key table (key row) with - | stored
  · rw [written, hfound]
  · have hkey := (lookup_mem hfound).2
    rw [written, hfound, h stored row hkey, hkey]

/-- A column that a new row keeps. -/
theorem map_set_of_eq {β : Type*} {column : α → β} {id : ℕ} {new : α} (h : table[id]? = some stored)
    (hsame : column new = column stored) :
    (table.set id new).map column = table.map column := by
  rw [List.map_set, hsame]
  refine List.ext_getElem? fun i => ?_
  rw [List.getElem?_set]
  split_ifs with hi hlt
  · rw [← hi, List.getElem?_map, h, Option.map_some]
  · rw [← hi, List.getElem?_eq_none (Nat.le_of_not_lt hlt)]
  · rfl

/-- The keys stay, and the proposed one is added if it is new. -/
theorem map_key_upsert (h : KeepsKey key merge) (table : List α) (row : α) :
    (upsert key merge table row).1.map key
      = if key row ∈ table.map key then table.map key else table.map key ++ [key row] := by
  rcases upsert_cases key merge table row with ⟨id, stored, hid, hkey, -, heq⟩ | ⟨hfound, heq⟩
  · have hmem : key row ∈ table.map key :=
      List.mem_map.mpr ⟨stored, List.mem_of_getElem? hid, hkey⟩
    rw [heq, if_pos hmem, map_set_of_eq hid (h stored row hkey)]
  · have hmem : key row ∉ table.map key := by
      rw [List.mem_map]
      rintro ⟨stored, hstored, hkey⟩
      exact lookup_eq_none.mp hfound stored hstored hkey
    rw [heq, if_neg hmem, List.map_append]
    rfl

theorem nodup_upsert (h : KeepsKey key merge) (hnodup : (table.map key).Nodup) :
    ((upsert key merge table row).1.map key).Nodup := by
  rw [map_key_upsert h]
  split_ifs with hmem
  · exact hnodup
  · rw [List.nodup_append]
    refine ⟨hnodup, List.nodup_singleton _, ?_⟩
    rintro k hk other hother rfl
    rw [List.mem_singleton.mp hother] at hk
    exact hmem hk

/-- The key finds the row written, every other key what it found before. -/
theorem lookup_upsert (h : KeepsKey key merge) (hnodup : (table.map key).Nodup) (k : κ) :
    lookup key (upsert key merge table row).1 k
      = if k = key row then some (written key merge table row) else lookup key table k := by
  split_ifs with hk
  · rw [hk, ← key_written h table row]
    exact lookup_of_mem (nodup_upsert h hnodup) (written_mem key merge table row)
  · rcases hfound : lookup key table k with - | stored
    · rw [lookup_eq_none] at hfound ⊢
      intro stored hstored
      rcases mem_upsert hstored with rfl | hold
      · rw [key_written h]
        exact Ne.symm hk
      · exact hfound stored hold
    · obtain ⟨hmem, hkey⟩ := lookup_mem hfound
      obtain ⟨i, hi⟩ := List.mem_iff_getElem?.mp hmem
      have hne : key stored ≠ key row := by
        rw [hkey]
        exact hk
      have hstays : (upsert key merge table row).1[i]? = some stored :=
        getElem?_upsert_of_ne hi hne
      rw [← hkey]
      exact lookup_of_mem (nodup_upsert h hnodup) (List.mem_of_getElem? hstays)

/-- With unique keys the id of an upsert is the one whose row has its key. -/
theorem upsert_id_iff (merge : α → α → α) (row : α) (hnodup : (table.map key).Nodup) {i : ℕ} (h : table[i]? = some stored) :
    i = (upsert key merge table row).2 ↔ key stored = key row := by
  rcases upsert_cases key merge table row with ⟨id, old, hid, hkey, -, heq⟩ | ⟨hfound, heq⟩
  · rw [heq]
    constructor
    · rintro rfl
      rw [hid, Option.some.injEq] at h
      exact h ▸ hkey
    · intro hsame
      refine (List.getElem?_inj ?_ hnodup).mp ?_
      · rw [List.length_map]
        exact (List.getElem?_eq_some_iff.mp h).1
      · rw [List.getElem?_map, List.getElem?_map, h, hid, Option.map_some, Option.map_some, hsame,
          hkey]
  · rw [heq]
    refine iff_of_false ?_ (lookup_eq_none.mp hfound stored (List.mem_of_getElem? h))
    exact Nat.ne_of_lt (List.getElem?_eq_some_iff.mp h).1

/-- With unique keys: the row of an id that was there is merged if it has the
key. -/
theorem getElem?_upsert_of (merge : α → α → α) (row : α) (hnodup : (table.map key).Nodup) {i : ℕ} (h : table[i]? = some stored) :
    (upsert key merge table row).1[i]?
      = some (if key stored = key row then merge stored row else stored) := by
  split_ifs with hkey
  · have hid : i = (upsert key merge table row).2 := (upsert_id_iff merge row hnodup h).mpr hkey
    have hfound : lookup key table (key row) = some stored := by
      rw [← hkey]
      exact lookup_of_mem hnodup (List.mem_of_getElem? h)
    rw [hid, getElem?_upsert, written_of_lookup hfound]
  · exact getElem?_upsert_of_ne h hkey

end

end Statements
