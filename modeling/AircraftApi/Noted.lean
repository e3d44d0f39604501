/-
AircraftApi/Noted.lean

Values with notes: a library for code that computes a value and appends
findings to a list it was handed.

`Noted ι α` is a value together with the notes taken while computing it, in
the order they were taken.  It is a monad: a later step sees the values of the
earlier ones and its notes come after theirs.  `collect` is the traversal a
`filter_map` with such a step makes.

Two rules carry what is said of the notes.  `notes_bind` splits the notes of a
sequence, and `Noted.All` is the property of a computation that all its notes
satisfy a predicate, closed under the monad's operations (`All.pure`,
`All.note`, `All.bind`, `All.collect`), so that a statement about every note of
a long computation is proved one step at a time.
-/
import Mathlib.Data.List.Basic

/-- A value and the notes taken while computing it. -/
structure Noted (ι : Type) (α : Type) where
  value : α
  notes : List ι

namespace Noted

variable {ι α β : Type}

instance : Monad (Noted ι) where
  pure a := ⟨a, []⟩
  bind x f := ⟨(f x.value).value, x.notes ++ (f x.value).notes⟩

/-- Takes one note. -/
def note (i : ι) : Noted ι Unit := ⟨(), [i]⟩

/-- A note and no value. -/
def fault (i : ι) : Noted ι (Option α) := ⟨none, [i]⟩

/-- Takes the note when the condition holds. -/
def noteIf (c : Bool) (i : ι) : Noted ι Unit := if c then note i else pure ()

/-- Runs a step on every element in order, keeping the values it yields. -/
def collect (f : α → Noted ι (Option β)) : List α → Noted ι (List β)
  | [] => pure []
  | a :: rest => do
    let first ← f a
    let others ← collect f rest
    pure (first.toList ++ others)

@[simp] theorem value_pure (a : α) : (pure a : Noted ι α).value = a := rfl

@[simp] theorem notes_pure (a : α) : (pure a : Noted ι α).notes = [] := rfl

@[simp] theorem value_bind (x : Noted ι α) (f : α → Noted ι β) :
    (x >>= f).value = (f x.value).value := rfl

@[simp] theorem notes_bind (x : Noted ι α) (f : α → Noted ι β) :
    (x >>= f).notes = x.notes ++ (f x.value).notes := rfl

@[simp] theorem notes_note (i : ι) : (note i).notes = [i] := rfl

theorem collect_nil (f : α → Noted ι (Option β)) : collect f [] = pure [] := rfl

theorem collect_cons (f : α → Noted ι (Option β)) (a : α) (rest : List α) :
    collect f (a :: rest)
      = f a >>= fun first => collect f rest >>= fun others => pure (first.toList ++ others) := rfl

theorem mem_collect_value {f : α → Noted ι (Option β)} {l : List α} {b : β} :
    b ∈ (collect f l).value ↔ ∃ a ∈ l, (f a).value = some b := by
  induction l with
  | nil => simp [collect_nil]
  | cons a rest ih => simp [collect_cons, ih]

/-- Elements no value comes from may be left out. -/
theorem collect_value_filter {f : α → Noted ι (Option β)} {keep : α → Bool}
    (h : ∀ a, keep a = false → (f a).value = none) {l : List α} :
    (collect f (l.filter keep)).value = (collect f l).value := by
  induction l with
  | nil => rfl
  | cons a rest ih =>
      rcases hkeep : keep a with - | -
      · simp [collect_cons, hkeep, ih, h a hkeep]
      · simp [collect_cons, hkeep, ih]

theorem collect_value_ne_nil {f : α → Noted ι (Option β)} {l : List α} :
    (collect f l).value ≠ [] ↔ ∃ a ∈ l, (f a).value ≠ none := by
  induction l with
  | nil => simp [collect_nil]
  | cons a rest ih =>
      rw [collect_cons, value_bind, value_bind, value_pure, List.exists_mem_cons_iff, ← ih]
      rcases (f a).value with - | b <;> simp

/-- Of a list in which one element is changed, the same values come exactly when the same
value comes from that element. -/
theorem collect_zipIdx_modify {f : α × ℕ → Noted ι (Option β)} {change : α → α} {l : List α}
    {i n : ℕ} {a : α} (h : l[i]? = some a) :
    (collect f ((l.modify i change).zipIdx n)).value = (collect f (l.zipIdx n)).value ↔
      (f (change a, n + i)).value = (f (a, n + i)).value := by
  induction l generalizing i n with
  | nil => simp at h
  | cons b rest ih =>
      cases i with
      | zero =>
          obtain rfl : b = a := by simpa using h
          rw [List.modify_zero_cons, List.zipIdx_cons, List.zipIdx_cons, collect_cons, collect_cons]
          simp only [value_bind, value_pure, List.append_left_inj, Nat.add_zero]
          rcases (f (change b, n)).value with - | x <;> rcases (f (b, n)).value with - | y <;> simp
      | succ i =>
          have hrest := ih (n := n + 1) (i := i) (by simpa using h)
          rw [List.modify_succ_cons, List.zipIdx_cons, List.zipIdx_cons, collect_cons, collect_cons]
          simp only [value_bind, value_pure, List.append_right_inj]
          rw [hrest, Nat.add_right_comm, Nat.add_assoc]

/-- Of steps that keep the key of the entry, the first value of a key is that of
the first entry. -/
theorem find?_collect {κ γ : Type} [DecidableEq κ] {f : κ × γ → Noted ι (Option β)} {key : β → κ}
    (hkey : ∀ a b, (f a).value = some b → key b = a.1) {l : List (κ × γ)} {k : κ} {c : γ} {b : β}
    (hlookup : l.lookup k = some c) (hb : (f (k, c)).value = some b) :
    (collect f l).value.find? (fun b => key b = k) = some b := by
  induction l with
  | nil => cases hlookup
  | cons a rest ih =>
      obtain ⟨k', c'⟩ := a
      rw [collect_cons, value_bind, value_bind, value_pure, List.find?_append]
      by_cases hk : k = k'
      · subst hk
        rw [List.lookup_cons_self, Option.some.injEq] at hlookup
        subst hlookup
        rw [hb]
        simp [hkey _ _ hb]
      · rw [List.lookup_cons, beq_false_of_ne hk] at hlookup
        rw [ih hlookup]
        rcases hfirst : (f (k', c')).value with - | first
        · rfl
        · have hne : key first ≠ k := by
            rw [hkey _ _ hfirst]
            exact Ne.symm hk
          simp [hne]

/-! ### A predicate of all notes -/

/-- Every note taken satisfies `P`. -/
def All (P : ι → Prop) (x : Noted ι α) : Prop := ∀ i ∈ x.notes, P i

namespace All

variable {P Q : ι → Prop}

theorem mono {x : Noted ι α} (hx : All P x) (h : ∀ i, P i → Q i) : All Q x :=
  fun i hi => h i (hx i hi)

theorem bind_iff {x : Noted ι α} {f : α → Noted ι β} :
    All P (x >>= f) ↔ All P x ∧ All P (f x.value) := by
  unfold All
  simp [or_imp, forall_and]

theorem pure (a : α) : All P (Pure.pure a : Noted ι α) := by
  intro i hi
  cases hi

theorem bind {x : Noted ι α} {f : α → Noted ι β} (hx : All P x)
    (hf : All P (f x.value)) : All P (x >>= f) :=
  bind_iff.mpr ⟨hx, hf⟩

theorem note {i : ι} (h : P i) : All P (Noted.note i) := by
  intro j hj
  rw [List.mem_singleton.mp hj]
  exact h

theorem fault {i : ι} (h : P i) : All P (Noted.fault i : Noted ι (Option α)) := by
  intro j hj
  rw [List.mem_singleton.mp hj]
  exact h

theorem noteIf {c : Bool} {i : ι} (h : c = true → P i) : All P (Noted.noteIf c i) := by
  cases c with
  | true => exact note (h rfl)
  | false => exact All.pure ()

theorem collect {f : α → Noted ι (Option β)} {l : List α}
    (h : ∀ a ∈ l, All P (f a)) : All P (Noted.collect f l) := by
  induction l with
  | nil => exact All.pure []
  | cons a rest ih =>
      have hrest := ih fun b hb => h b (List.mem_cons_of_mem _ hb)
      exact bind (h a List.mem_cons_self) (bind hrest (All.pure _))

variable [DecidablePred P]

theorem filter_eq_nil {x : Noted ι α} (hx : All (fun i => ¬ P i) x) :
    x.notes.filter (fun i => P i) = [] :=
  List.filter_eq_nil_iff.mpr fun i hi hP => hx i hi (of_decide_eq_true hP)

/-- A step with no note that counts may be left out. -/
theorem filter_bind {x : Noted ι α} {f : α → Noted ι β} (hx : All (fun i => ¬ P i) x) :
    (x >>= f).notes.filter (fun i => P i) = (f x.value).notes.filter fun i => P i := by
  rw [notes_bind, List.filter_append, filter_eq_nil hx, List.nil_append]

end All

/-! ### A note that satisfies a predicate -/

/-- Some note taken satisfies `P`. -/
def Any (P : ι → Prop) (x : Noted ι α) : Prop := ∃ i ∈ x.notes, P i

namespace Any

variable {P : ι → Prop}

@[simp] theorem bind_iff {x : Noted ι α} {f : α → Noted ι β} :
    Any P (x >>= f) ↔ Any P x ∨ Any P (f x.value) := by
  simp only [Any, notes_bind, List.mem_append, or_and_right, exists_or]

@[simp] theorem pure_iff {a : α} : Any P (Pure.pure a : Noted ι α) ↔ False := by
  simp [Any]

@[simp] theorem note_iff {i : ι} : Any P (Noted.note i) ↔ P i := by
  simp [Any]

@[simp] theorem fault_iff {i : ι} : Any P (Noted.fault i : Noted ι (Option α)) ↔ P i := by
  simp [Any, Noted.fault]

@[simp] theorem noteIf_iff {c : Bool} {i : ι} : Any P (Noted.noteIf c i) ↔ c = true ∧ P i := by
  cases c <;> simp [Noted.noteIf]

@[simp] theorem collect_iff {f : α → Noted ι (Option β)} {l : List α} :
    Any P (Noted.collect f l) ↔ ∃ a ∈ l, Any P (f a) := by
  induction l with
  | nil => simp [Noted.collect_nil]
  | cons a rest ih => simp [Noted.collect_cons, ih]

end Any

end Noted
