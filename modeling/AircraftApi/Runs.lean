/-
AircraftApi/Runs.lean

Runs of the elements of a list that satisfy a predicate.

A list is, in one way only, a run, then an element outside the predicate and the
next run, and so on: `weave first rest`, where the runs, empty ones included, are
maximal (`Maximal`).  `runs_induction` takes a list apart in this way.

    HasRun p n s     n or more consecutive elements of s satisfy p
    Clean p a b      no run goes from a into b

The lists between the separators of a list (`List.splitOn`) are the maximal runs of
elements that are no separator.
-/
import Mathlib

namespace Runs

variable {α : Type*}

/-- A run, and pairs of an element and the run after it. -/
def weave (first : List α) (rest : List (α × List α)) : List α :=
  first ++ rest.flatMap fun part => part.1 :: part.2

/-- A list cut into its maximal runs: the elements between them are none of a run. -/
structure Maximal (p : α → Bool) (first : List α) (rest : List (α × List α)) : Prop where
  first : ∀ a ∈ first, p a = true
  between : ∀ part ∈ rest, p part.1 = false
  runs : ∀ part ∈ rest, ∀ a ∈ part.2, p a = true

/-- A run of at least this length. -/
def HasRun (p : α → Bool) (n : ℕ) (s : List α) : Prop :=
  ∃ run, run <:+: s ∧ n ≤ run.length ∧ ∀ a ∈ run, p a = true

/-- No run goes from the one list into the other. -/
def Clean (p : α → Bool) (a b : List α) : Prop :=
  ∀ x ∈ a.getLast?, ∀ y ∈ b.head?, p x = false ∨ p y = false

variable {p : α → Bool} {n : ℕ} {s a b run : List α} {c : α}

/-- A list is one run, or a run and an element outside the predicate before a shorter
list. -/
theorem runs_induction {motive : List α → Prop}
    (last : ∀ run, (∀ a ∈ run, p a = true) → motive run)
    (step : ∀ run c rest, (∀ a ∈ run, p a = true) → p c = false → motive rest →
      motive (run ++ c :: rest)) : ∀ s, motive s := by
  have aux : ∀ s run, (∀ a ∈ run, p a = true) → motive (run ++ s) := by
    intro s
    induction s with
    | nil =>
        intro run hrun
        rw [List.append_nil]
        exact last run hrun
    | cons c s ih =>
        intro run hrun
        cases hc : p c
        · exact step run c s hrun hc (ih [] (by simp))
        · rw [← List.singleton_append, ← List.append_assoc]
          refine ih _ fun a ha => ?_
          rcases List.mem_append.mp ha with ha | ha
          · exact hrun a ha
          · rw [List.mem_singleton.mp ha, hc]
  exact fun s => aux s [] (by simp)

theorem weave_cons (first : List α) (c : α) (run : List α) (rest : List (α × List α)) :
    weave first ((c, run) :: rest) = first ++ c :: weave run rest := by
  simp [weave]

theorem Maximal.tail {first run : List α} {rest : List (α × List α)}
    (h : Maximal p first ((c, run) :: rest)) : Maximal p run rest where
  first := h.runs (c, run) List.mem_cons_self
  between part hpart := h.between part (List.mem_cons_of_mem _ hpart)
  runs part hpart := h.runs part (List.mem_cons_of_mem _ hpart)

theorem exists_maximal (p : α → Bool) (s : List α) :
    ∃ first rest, Maximal p first rest ∧ s = weave first rest := by
  induction s using runs_induction (p := p) with
  | last run hrun => exact ⟨run, [], ⟨hrun, by simp, by simp⟩, by simp [weave]⟩
  | step run c s hrun hc ih =>
      obtain ⟨first, rest, hmax, rfl⟩ := ih
      refine ⟨run, (c, first) :: rest, ⟨hrun, ?_, ?_⟩, (weave_cons _ _ _ _).symm⟩
      · exact List.forall_mem_cons.mpr ⟨hc, hmax.between⟩
      · exact List.forall_mem_cons.mpr ⟨hmax.first, hmax.runs⟩

/-! ### Runs of a length -/

theorem HasRun.mono (h : HasRun p n a) (hab : a <:+: b) : HasRun p n b := by
  obtain ⟨run, hrun, hlength, hall⟩ := h
  exact ⟨run, hrun.trans hab, hlength, hall⟩

theorem HasRun.le_length (h : HasRun p n s) : n ≤ s.length := by
  obtain ⟨run, hrun, hlength, -⟩ := h
  exact hlength.trans hrun.length_le

theorem hasRun_of_all (hrun : ∀ a ∈ run, p a = true) : HasRun p n run ↔ n ≤ run.length :=
  ⟨HasRun.le_length, fun h => ⟨run, List.infix_rfl, h, hrun⟩⟩

/-- What does not hold the element in the middle is on one of its sides. -/
theorem infix_side (h : run <:+: a ++ c :: b) (hne : run ≠ []) (hc : c ∉ run) :
    run <:+: a ∨ run <:+: b := by
  obtain ⟨before, after, h⟩ := h
  rw [List.append_assoc] at h
  rcases List.append_eq_append_iff.mp h with ⟨x, rfl, hx⟩ | ⟨x, rfl, hx⟩
  · -- the run begins in `a`
    rcases List.append_eq_append_iff.mp hx with ⟨y, rfl, -⟩ | ⟨y, rfl, hy⟩
    · exact .inl ⟨before, y, by simp⟩
    · rcases y with - | ⟨d, y⟩
      · exact .inl ⟨before, [], by simp⟩
      · obtain ⟨rfl, -⟩ := List.cons.inj hy
        exact absurd (by simp) hc
  · rcases x with - | ⟨d, x⟩
    · rcases run with - | ⟨d, run⟩
      · exact absurd rfl hne
      · obtain ⟨rfl, -⟩ := List.cons.inj hx
        exact absurd List.mem_cons_self hc
    · obtain ⟨-, rfl⟩ := List.cons.inj hx
      exact .inr ⟨x, after, by simp⟩

theorem hasRun_append_cons (hn : 0 < n) (hc : p c = false) :
    HasRun p n (a ++ c :: b) ↔ HasRun p n a ∨ HasRun p n b := by
  constructor
  · rintro ⟨run, hrun, hlength, hall⟩
    have hne : run ≠ [] := List.ne_nil_of_length_pos (hn.trans_le hlength)
    have hmem : c ∉ run := fun h => by simp [hall c h] at hc
    rcases infix_side hrun hne hmem with h | h
    · exact .inl ⟨run, h, hlength, hall⟩
    · exact .inr ⟨run, h, hlength, hall⟩
  · rintro (h | h)
    · exact h.mono (List.prefix_append _ _).isInfix
    · exact h.mono ((List.suffix_cons c b).isInfix.trans (List.suffix_append _ _).isInfix)

/-! ### Clean joints -/

theorem clean_nil_left : Clean p [] b := by simp [Clean]

theorem clean_nil_right : Clean p a [] := by simp [Clean]

theorem clean_cons_right (hc : p c = false) : Clean p a (c :: b) := by simp [Clean, hc]

theorem clean_append_cons (hc : p c = false) :
    Clean p (a ++ c :: run) b ↔ Clean p run b := by
  rcases run.eq_nil_or_concat with rfl | ⟨run, d, rfl⟩
  · simp [Clean, hc]
  · have hlast : (a ++ c :: (run ++ [d])).getLast? = some d := by
      rw [← List.cons_append, ← List.append_assoc, List.getLast?_append]
      simp
    simp [Clean, hlast]

/-! ### The first of its kind -/

section

variable {q : α → Prop} {a' b' : List α} {x x' : α}

theorem exists_first (h : ∃ x ∈ s, q x) : ∃ a x b, s = a ++ x :: b ∧ q x ∧ ∀ y ∈ a, ¬ q y := by
  induction s with
  | nil =>
      obtain ⟨x, hx, -⟩ := h
      cases hx
  | cons y s ih =>
      by_cases hy : q y
      · exact ⟨[], y, s, rfl, hy, by simp⟩
      · obtain ⟨x, hx, hqx⟩ := h
        have hs : x ∈ s := (List.mem_cons.mp hx).resolve_left fun heq => hy (heq ▸ hqx)
        obtain ⟨a, z, b, rfl, hz, ha⟩ := ih ⟨x, hs, hqx⟩
        exact ⟨y :: a, z, b, rfl, hz, List.forall_mem_cons.mpr ⟨hy, ha⟩⟩

/-- A list has one first element of its kind. -/
theorem first_unique (h : a ++ x :: b = a' ++ x' :: b') (ha : ∀ y ∈ a, ¬ q y) (hx : q x)
    (ha' : ∀ y ∈ a', ¬ q y) (hx' : q x') : a = a' ∧ x = x' ∧ b = b' := by
  induction a generalizing a' with
  | nil =>
      rcases a' with - | ⟨y, a'⟩
      · exact ⟨rfl, List.cons.inj h⟩
      · rw [List.nil_append, List.cons_append, List.cons.injEq] at h
        exact absurd (h.1 ▸ hx) (ha' y List.mem_cons_self)
  | cons z a ih =>
      obtain ⟨hz, ha⟩ := List.forall_mem_cons.mp ha
      rcases a' with - | ⟨y, a'⟩
      · rw [List.nil_append, List.cons_append, List.cons.injEq] at h
        exact absurd (h.1 ▸ hx') hz
      · rw [List.cons_append, List.cons_append, List.cons.injEq] at h
        obtain ⟨rfl, hrest⟩ := h
        obtain ⟨rfl, hxb⟩ := ih hrest ha (List.forall_mem_cons.mp ha').2
        exact ⟨rfl, hxb⟩

/-- What stands before the first of its kind, where nothing in `a` is of that kind. -/
theorem first_behind (h : a ++ b = a' ++ x' :: b') (ha : ∀ y ∈ a, ¬ q y) (hx' : q x') :
    ∃ c, a' = a ++ c ∧ b = c ++ x' :: b' := by
  induction a generalizing a' with
  | nil => exact ⟨a', rfl, h⟩
  | cons z a ih =>
      obtain ⟨hz, ha⟩ := List.forall_mem_cons.mp ha
      rcases a' with - | ⟨y, a'⟩
      · rw [List.nil_append, List.cons_append, List.cons.injEq] at h
        exact absurd (h.1 ▸ hx') hz
      · rw [List.cons_append, List.cons_append, List.cons.injEq] at h
        obtain ⟨rfl, hrest⟩ := h
        obtain ⟨c, rfl, hb⟩ := ih hrest ha
        exact ⟨c, rfl, hb⟩

end

/-! ### Between separators -/

section

variable {β : Type*} {lists : List (List α)} {sep : α}

theorem mem_intercalate (h : a ∈ lists) (hc : c ∈ a) : c ∈ [sep].intercalate lists := by
  induction lists with
  | nil => cases h
  | cons first rest ih =>
      rcases rest with - | ⟨second, rest⟩
      · rw [List.mem_singleton.mp h] at hc
        rwa [List.intercalate_singleton]
      · rw [List.intercalate_cons_cons, List.mem_append, List.mem_append]
        rcases List.mem_cons.mp h with rfl | h
        · exact .inl (.inl hc)
        · exact .inr (ih h)

theorem forall_mem_intercalate {q : α → Prop} (hsep : q sep) (h : ∀ a ∈ lists, ∀ c ∈ a, q c) :
    ∀ c ∈ [sep].intercalate lists, q c := by
  induction lists with
  | nil => simp
  | cons first rest ih =>
      obtain ⟨hfirst, hrest⟩ := List.forall_mem_cons.mp h
      rcases rest with - | ⟨second, rest⟩
      · rwa [List.intercalate_singleton]
      · intro c hc
        rw [List.intercalate_cons_cons, List.mem_append, List.mem_append,
          List.mem_singleton] at hc
        rcases hc with (hc | rfl) | hc
        · exact hfirst c hc
        · exact hsep
        · exact ih hrest c hc

theorem map_intercalate (f : α → β) : ([sep].intercalate lists).map f
    = [f sep].intercalate (lists.map (List.map f)) := by
  induction lists with
  | nil => rfl
  | cons first rest ih =>
      rcases rest with - | ⟨second, rest⟩
      · simp
      · rw [List.intercalate_cons_cons, List.map_append, List.map_append, ih]
        simp [List.intercalate_cons_cons]

variable [DecidableEq α]

/-- A joined list is split into what its parts are split into. -/
theorem splitOn_intercalate (h : lists ≠ []) : ([sep].intercalate lists).splitOn sep
    = lists.flatMap fun part => part.splitOn sep := by
  induction lists with
  | nil => exact absurd rfl h
  | cons first rest ih =>
      rcases rest with - | ⟨second, rest⟩
      · simp
      · rw [List.intercalate_cons_cons, List.append_assoc, List.singleton_append,
          List.splitOn_append_cons_self, ih (List.cons_ne_nil _ _)]
        rfl

theorem length_splitOn (sep : α) (s : List α) : (s.splitOn sep).length = 1 + s.count sep := by
  induction s using runs_induction (p := fun c => c != sep) with
  | last run hrun =>
      have hnot : sep ∉ run := fun h => by simpa using hrun sep h
      rw [List.splitOn_eq_singleton hnot, List.count_eq_zero_of_not_mem hnot]
      rfl
  | step run c rest hrun hc ih =>
      have hnot : sep ∉ run := fun h => by simpa using hrun sep h
      obtain rfl : c = sep := by simpa using hc
      rw [List.splitOn_append_cons_self_of_not_mem hnot, List.length_cons, ih, List.count_append,
        List.count_eq_zero_of_not_mem hnot, List.count_cons_self]
      omega

/-- A part of a list with a tail that is not split ends with the tail, or stands between
separators, the first of which may be the one before the list. -/
theorem splitOn_append_cases (hb : sep ∉ b) (h : a ∈ (s ++ b).splitOn sep) :
    (∃ w, a = w ++ b ∧ w ⊆ s) ∨ sep :: (a ++ [sep]) <:+: sep :: s := by
  induction s using runs_induction (p := fun c => c != sep) with
  | last run hrun =>
      have hnot : sep ∉ run := fun h => by simpa using hrun sep h
      rw [List.splitOn_eq_singleton (by simp [hnot, hb]), List.mem_singleton] at h
      exact .inl ⟨run, h, List.Subset.refl run⟩
  | step run c rest hrun hc ih =>
      have hnot : sep ∉ run := fun h => by simpa using hrun sep h
      obtain rfl : c = sep := by simpa using hc
      rw [List.append_assoc, List.cons_append, List.splitOn_append_cons_self_of_not_mem hnot,
        List.mem_cons] at h
      rcases h with rfl | h
      · exact .inr ⟨[], rest, by simp⟩
      · rcases ih h with ⟨w, hw, hsub⟩ | hbetween
        · exact .inl ⟨w, hw, fun d hd => by simp [hsub hd]⟩
        · refine .inr (hbetween.trans ?_)
          exact (List.suffix_append (c :: run) (c :: rest)).isInfix

end

end Runs
