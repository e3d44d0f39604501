/-
AircraftApi/RunLedgerSafety.lean

The safety of the run ledger: in every state some interleaving reaches, the
run is SUCCEEDED exactly when one attempt is, success is final, at most one
attempt is IMPORTING, and the attempt numbers are `1 … n`.

The invariant is in three parts.  `RowInv` speaks of the tables alone,
`ProcInv` of the processes and the lock alone, and `Inv` adds the two links
between them: an open import transaction has an IMPORTING attempt, and nobody
holds the lock of a SUCCEEDED run.  Each action then moves one process
(`ProcInv.move`, `ProcInv.start`) and rewrites the rows by one of the
statements of the model, each with its own lemma.
-/
import AircraftApi.RunLedger
import Mathlib.Data.List.Basic
import Mathlib.Data.List.Nodup

namespace AircraftApi

namespace RunLedger

open Transition

variable {ι : Type*}

/-! ### Statements on the attempts -/

/-- The attempt is under way. -/
def Attempt.isImporting (r : Attempt) : Bool := r.status = .importing

/-- The attempt succeeded. -/
def Attempt.isSucceeded (r : Attempt) : Bool := r.status = .succeeded

variable {attempts : List Attempt} {r : Attempt} {a n : ℕ}

/-- The keys of the attempts: numbers in order, ids distinct and used up. -/
structure KeyInv (attempts : List Attempt) (nextId : ℕ) : Prop where
  numbers : attempts.map Attempt.number = List.range' 1 attempts.length
  ids : (attempts.map Attempt.id).Nodup
  fresh : ∀ r ∈ attempts, r.id < nextId

theorem nextNumber_of_numbers
    (h : attempts.map Attempt.number = List.range' 1 attempts.length) :
    nextNumber attempts = attempts.length + 1 := by
  rw [nextNumber, h]
  rcases hn : attempts.length with - | n
  · rfl
  · have hmax : (List.range' 1 (n + 1)).max? = some (n + 1) := by
      rw [List.max?_eq_some_iff]
      constructor
      · exact List.mem_range'_1.mpr ⟨by omega, by omega⟩
      · intro b hb
        simp only [List.mem_range'_1] at hb
        omega
    rw [hmax]
    rfl

/-- A statement that rewrites rows under their keys. -/
theorem KeyInv.map (h : KeyInv attempts n) (g : Attempt → Attempt)
    (hid : ∀ r, (g r).id = r.id) (hnumber : ∀ r, (g r).number = r.number) :
    KeyInv (attempts.map g) n where
  numbers := by
    rw [List.map_map, List.length_map, ← h.numbers]
    exact List.map_congr_left fun r _ => hnumber r
  ids := by
    rw [List.map_map]
    exact (List.map_congr_left fun r _ => hid r) ▸ h.ids
  fresh := by
    intro x hx
    obtain ⟨r, hr, rfl⟩ := List.mem_map.mp hx
    exact hid r ▸ h.fresh r hr

/-- A statement that inserts the next attempt. -/
theorem KeyInv.append (h : KeyInv attempts n) (hid : r.id = n)
    (hnumber : r.number = attempts.length + 1) : KeyInv (attempts ++ [r]) (n + 1) where
  numbers := by
    rw [List.map_append, h.numbers, List.length_append, List.length_singleton,
      List.range'_concat]
    simp [hnumber, Nat.add_comm]
  ids := by
    rw [List.map_append, List.nodup_append]
    refine ⟨h.ids, List.nodup_singleton _, ?_⟩
    intro x hx y hy hxy
    obtain ⟨r', hr', rfl⟩ := List.mem_map.mp hx
    have := h.fresh r' hr'
    simp only [List.map_cons, List.map_nil, List.mem_singleton] at hy
    omega
  fresh := by
    intro x hx
    rcases List.mem_append.mp hx with hx | hx
    · exact Nat.lt_succ_of_lt (h.fresh x hx)
    · obtain rfl := List.mem_singleton.mp hx
      omega

theorem KeyInv.updateAttempt (h : KeyInv attempts n) (guard : Attempt → Bool)
    (f : Attempt → Attempt) (hid : ∀ r, (f r).id = r.id)
    (hnumber : ∀ r, (f r).number = r.number) :
    KeyInv (updateAttempt a guard f attempts) n := by
  apply h.map
  · intro r
    split
    · exact hid r
    · rfl
  · intro r
    split
    · exact hnumber r
    · rfl

theorem KeyInv.terminateImporting (h : KeyInv attempts n) :
    KeyInv (terminateImporting attempts) n := by
  apply h.map
  · intro r
    split <;> rfl
  · intro r
    split <;> rfl

/-- An update by id rewrites one row and leaves the rest. -/
theorem updateAttempt_split (guard : Attempt → Bool) (f : Attempt → Attempt)
    (hids : (attempts.map Attempt.id).Nodup) (hr : r ∈ attempts) (hguard : guard r) :
    ∃ l₁ l₂, attempts = l₁ ++ r :: l₂ ∧
      updateAttempt r.id guard f attempts = l₁ ++ f r :: l₂ := by
  obtain ⟨l₁, l₂, rfl⟩ := List.append_of_mem hr
  refine ⟨l₁, l₂, rfl, ?_⟩
  have hother : ∀ l, (∀ x ∈ l, x.id ≠ r.id) → updateAttempt r.id guard f l = l := by
    intro l hl
    refine (List.map_congr_left fun x hx => ?_).trans (List.map_id l)
    exact if_neg fun h => hl x hx h.1
  rw [List.map_append, List.map_cons, List.nodup_append, List.nodup_cons] at hids
  obtain ⟨-, ⟨hr₂, -⟩, hr₁⟩ := hids
  have h₁ := hother l₁ fun x hx => hr₁ _ (List.mem_map_of_mem hx) _ List.mem_cons_self
  have h₂ := hother l₂ fun x hx heq => hr₂ (heq ▸ List.mem_map_of_mem hx)
  rw [updateAttempt] at h₁ h₂ ⊢
  rw [List.map_append, List.map_cons, h₁, h₂, if_pos ⟨rfl, hguard⟩]

/-- After a start's sweep nothing is IMPORTING. -/
theorem countP_importing_terminateImporting :
    (terminateImporting attempts).countP Attempt.isImporting = 0 := by
  rw [List.countP_eq_zero]
  intro r hr
  obtain ⟨r', -, rfl⟩ := List.mem_map.mp hr
  split
  · simp [Attempt.isImporting, Attempt.terminate]
  · simpa [Attempt.isImporting] using ‹_›

theorem countP_succeeded_terminateImporting :
    (terminateImporting attempts).countP Attempt.isSucceeded
      = attempts.countP Attempt.isSucceeded := by
  rw [terminateImporting, List.countP_map]
  apply List.countP_congr
  intro r _
  show Attempt.isSucceeded (if r.status = .importing then r.terminate else r) ↔ _
  split
  · rename_i h
    simp [Attempt.isSucceeded, Attempt.terminate, h]
  · rfl

section Fail

variable {code message : String}

/-- The rows after the second update of `mark_failed`. -/
abbrev failAttempt (a : ℕ) (code message : String) (attempts : List Attempt) :
    List Attempt :=
  updateAttempt a (fun r => r.status ≠ .succeeded) (.fail code message) attempts

theorem countP_succeeded_failAttempt :
    (failAttempt a code message attempts).countP Attempt.isSucceeded
      = attempts.countP Attempt.isSucceeded := by
  rw [failAttempt, updateAttempt, List.countP_map]
  apply List.countP_congr
  intro r _
  show Attempt.isSucceeded (if _ then _ else r) ↔ _
  split
  · rename_i h
    have hne : r.status ≠ .succeeded := by simpa using h.2
    simp [Attempt.isSucceeded, Attempt.fail, hne]
  · rfl

theorem countP_importing_failAttempt_le :
    (failAttempt a code message attempts).countP Attempt.isImporting
      ≤ attempts.countP Attempt.isImporting := by
  rw [failAttempt, updateAttempt, List.countP_map]
  apply List.countP_mono_left
  intro r _ h
  change Attempt.isImporting (if _ then _ else r) = true at h
  split at h
  · simp [Attempt.isImporting, Attempt.fail] at h
  · exact h

end Fail

/-! ### Statements on the run row -/

theorem not_succeeded_restartRun (counts : Counts) (run : Option Run) :
    ¬ Succeeded (some (restartRun counts run)) := by
  rcases run with - | r <;> simp [Succeeded, restartRun]

theorem succeeded_map_succeedRun {run : Option Run} (counts : Counts) (h : run ≠ none) :
    Succeeded (run.map (succeedRun counts)) := by
  rcases run with - | r
  · exact absurd rfl h
  · exact ⟨_, rfl, rfl⟩

theorem succeeded_map_failRun (code message : String) (run : Option Run) :
    Succeeded (run.map (failRun code message)) ↔ Succeeded run := by
  rcases run with - | r
  · rfl
  · by_cases h : r.status = .succeeded <;> simp [Succeeded, failRun, h]

theorem succeeded_invalidateRun (code message : String) (run : Option Run) :
    Succeeded (some (invalidateRun code message run)) ↔ Succeeded run := by
  rcases run with - | r
  · simp [Succeeded, invalidateRun]
  · by_cases h : r.status = .succeeded <;> simp [Succeeded, invalidateRun, h]

/-! ### The invariant of the rows -/

/-- What the run row and the attempts satisfy on their own. -/
structure RowInv (run : Option Run) (attempts : List Attempt) (nextId : ℕ) : Prop where
  keys : KeyInv attempts nextId
  hasRun : attempts ≠ [] → run ≠ none
  oneImporting : attempts.countP Attempt.isImporting ≤ 1
  oneSucceeded : Succeeded run → attempts.countP Attempt.isSucceeded = 1
  noneSucceeded : ¬ Succeeded run → attempts.countP Attempt.isSucceeded = 0

namespace RowInv

variable {run : Option Run}

theorem init : RowInv none [] 1 where
  keys := ⟨rfl, List.nodup_nil, by simp⟩
  hasRun := fun h => absurd rfl h
  oneImporting := by simp
  oneSucceeded := fun h => by simp [Succeeded] at h
  noneSucceeded := fun _ => rfl

/-- `start_import`'s audit transaction. -/
theorem start (h : RowInv run attempts n) (counts : Counts) (hrun : ¬ Succeeded run)
    (hid : r.id = n) (hnumber : r.number = nextNumber attempts)
    (hstatus : r.status = .importing) :
    RowInv (some (restartRun counts run)) (terminateImporting attempts ++ [r]) (n + 1) where
  keys := by
    apply h.keys.terminateImporting.append hid
    rw [hnumber, nextNumber_of_numbers h.keys.numbers, terminateImporting, List.length_map]
  hasRun := fun _ => by simp
  oneImporting := by
    rw [List.countP_append, countP_importing_terminateImporting]
    simp [Attempt.isImporting, hstatus]
  oneSucceeded := fun hs => absurd hs (not_succeeded_restartRun counts run)
  noneSucceeded := fun _ => by
    rw [List.countP_append, countP_succeeded_terminateImporting, h.noneSucceeded hrun]
    simp [Attempt.isSucceeded, hstatus]

/-- The commit of an import whose attempt is IMPORTING. -/
theorem commit (h : RowInv run attempts n) (counts : Counts)
    (hrun : ¬ Succeeded run) (hr : r ∈ attempts) (hstatus : r.status = .importing) :
    RowInv (run.map (succeedRun counts))
      (updateAttempt r.id (fun _ => true) (.succeed counts) attempts) n := by
  have hsome : run ≠ none := h.hasRun (List.ne_nil_of_mem hr)
  have hkeys := h.keys.updateAttempt (a := r.id) (fun _ => true) (.succeed counts)
    (fun _ => rfl) (fun _ => rfl)
  obtain ⟨l₁, l₂, hsplit, hupdate⟩ := updateAttempt_split (fun _ => true)
    (.succeed counts) h.keys.ids hr rfl
  have hone := h.oneImporting
  have hnone := h.noneSucceeded hrun
  rw [hsplit] at hone hnone
  refine ⟨hkeys, fun _ => by simpa using hsome, ?_, fun _ => ?_, fun hno => ?_⟩
  · rw [hupdate]
    simp [Attempt.isImporting, Attempt.succeed, hstatus] at hone ⊢
    omega
  · rw [hupdate]
    simp only [List.countP_append, List.countP_cons, Attempt.isSucceeded] at hnone ⊢
    simp only [Attempt.succeed, decide_true, if_true] at hnone ⊢
    omega
  · exact absurd (succeeded_map_succeedRun counts hsome) hno

/-- `mark_failed`. -/
theorem fail (h : RowInv run attempts n) (a : ℕ) (code message : String) :
    RowInv (run.map (failRun code message)) (failAttempt a code message attempts) n where
  keys := h.keys.updateAttempt _ _ (fun _ => rfl) (fun _ => rfl)
  hasRun := by
    intro hne
    have hne' : attempts ≠ [] := by
      rintro rfl
      exact hne rfl
    simpa using h.hasRun hne'
  oneImporting := Nat.le_trans countP_importing_failAttempt_le h.oneImporting
  oneSucceeded := fun hs => by
    rw [countP_succeeded_failAttempt]
    exact h.oneSucceeded ((succeeded_map_failRun code message run).mp hs)
  noneSucceeded := fun hs => by
    rw [countP_succeeded_failAttempt]
    exact h.noneSucceeded fun hs' => hs ((succeeded_map_failRun code message run).mpr hs')

/-- `record_validation_failure`. -/
theorem invalidate (h : RowInv run attempts n) (code message : String)
    (hid : r.id = n) (hnumber : r.number = nextNumber attempts)
    (hstatus : r.status = .validationFailed) :
    RowInv (some (invalidateRun code message run)) (attempts ++ [r]) (n + 1) where
  keys := by
    apply h.keys.append hid
    rw [hnumber, nextNumber_of_numbers h.keys.numbers]
  hasRun := fun _ => by simp
  oneImporting := by
    simpa [List.countP_append, Attempt.isImporting, hstatus] using h.oneImporting
  oneSucceeded := fun hs => by
    simpa [List.countP_append, Attempt.isSucceeded, hstatus] using
      h.oneSucceeded ((succeeded_invalidateRun code message run).mp hs)
  noneSucceeded := fun hs => by
    have hrun : ¬ Succeeded run := fun hs' =>
      hs ((succeeded_invalidateRun code message run).mpr hs')
    simpa [List.countP_append, Attempt.isSucceeded, hstatus] using h.noneSucceeded hrun

end RowInv

/-! ### The invariant of the processes -/

/-- What the processes and the lock satisfy on their own. -/
structure ProcInv (procs : ι → Proc) (lock : Option ι) (nextId : ℕ) : Prop where
  holds : ∀ p, (procs p).holdsLock ↔ lock = some p
  known : ∀ p a, (procs p).attempt? = some a → a < nextId
  distinct : ∀ p p' a, (procs p).attempt? = some a → (procs p').attempt? = some a → p = p'
  latest : ∀ p a, (procs p).inFlight? = some a →
    ∀ p' b, (procs p').attempt? = some b → b ≤ a

theorem Proc.attempt?_of_inFlight? {q : Proc} {a : ℕ} (h : q.inFlight? = some a) :
    q.attempt? = some a := by
  cases q with
  | importing b => exact h
  | marked b c => exact h
  | idle => cases h
  | starting => cases h
  | failed b => cases h

theorem Proc.holdsLock_of_inFlight? {q : Proc} {a : ℕ} (h : q.inFlight? = some a) :
    q.holdsLock := by
  cases q with
  | importing b => trivial
  | marked b c => trivial
  | idle => cases h
  | starting => cases h
  | failed b => cases h

namespace ProcInv

variable {procs : ι → Proc} {lock lock' : Option ι} {p : ι} {q : Proc}

theorem init : ProcInv (fun _ : ι => Proc.idle) none 1 where
  holds := fun p => by simp [Proc.holdsLock]
  known := fun p a h => by cases h
  distinct := fun p p' a h => by cases h
  latest := fun p a h => by cases h

theorem mono (h : ProcInv procs lock n) {n' : ℕ} (hn : n ≤ n') : ProcInv procs lock n' :=
  { h with known := fun p a ha => Nat.lt_of_lt_of_le (h.known p a ha) hn }

/-- Only the holder of the lock is in flight. -/
theorem eq_of_inFlight? (h : ProcInv procs lock n) {p' : ι}
    (hp : (procs p).holdsLock) (hp' : (procs p').inFlight? = some a) : p' = p := by
  have h₁ := (h.holds p).mp hp
  have h₂ := (h.holds p').mp (Proc.holdsLock_of_inFlight? hp')
  exact Option.some.inj (h₂.symm.trans h₁)

variable [DecidableEq ι]

/-- A process moves on with the attempt it has, or drops it. -/
theorem move (h : ProcInv procs lock n)
    (hattempt : ∀ a, q.attempt? = some a → (procs p).attempt? = some a)
    (hflight : ∀ a, q.inFlight? = some a → (procs p).inFlight? = some a)
    (hlock : q.holdsLock ↔ lock' = some p)
    (hothers : ∀ p', p' ≠ p → (lock = some p' ↔ lock' = some p')) :
    ProcInv (Function.update procs p q) lock' n := by
  -- who has an attempt behind the step had it before
  have hback : ∀ p' a, (Function.update procs p q p').attempt? = some a →
      (procs p').attempt? = some a := by
    intro p' a ha
    by_cases hp : p' = p
    · subst hp
      rw [Function.update_self] at ha
      exact hattempt a ha
    · rwa [Function.update_of_ne hp] at ha
  have hfly : ∀ p' a, (Function.update procs p q p').inFlight? = some a →
      (procs p').inFlight? = some a := by
    intro p' a ha
    by_cases hp : p' = p
    · subst hp
      rw [Function.update_self] at ha
      exact hflight a ha
    · rwa [Function.update_of_ne hp] at ha
  refine ⟨fun p' => ?_, fun p' a ha => h.known p' a (hback p' a ha), ?_, ?_⟩
  · by_cases hp : p' = p
    · subst hp
      rw [Function.update_self]
      exact hlock
    · rw [Function.update_of_ne hp, h.holds]
      exact hothers p' hp
  · exact fun p₁ p₂ a h₁ h₂ => h.distinct p₁ p₂ a (hback p₁ a h₁) (hback p₂ a h₂)
  · exact fun p₁ a h₁ p₂ b h₂ => h.latest p₁ a (hfly p₁ a h₁) p₂ b (hback p₂ b h₂)

/-- A process that holds the lock is given the next attempt. -/
theorem start (h : ProcInv procs lock n) (hp : lock = some p) :
    ProcInv (Function.update procs p (.importing n)) lock (n + 1) := by
  have hattempt : ∀ p' a, (Function.update procs p (.importing n) p').attempt? = some a →
      p' = p ∧ a = n ∨ p' ≠ p ∧ (procs p').attempt? = some a := by
    intro p' a ha
    by_cases hp' : p' = p
    · subst hp'
      rw [Function.update_self] at ha
      exact .inl ⟨rfl, (Option.some.inj ha).symm⟩
    · rw [Function.update_of_ne hp'] at ha
      exact .inr ⟨hp', ha⟩
  refine ⟨fun p' => ?_, fun p' a ha => ?_, fun p₁ p₂ a h₁ h₂ => ?_, fun p₁ a h₁ p₂ b h₂ => ?_⟩
  · by_cases hp' : p' = p
    · subst hp'
      rw [Function.update_self]
      simp [Proc.holdsLock, hp]
    · rw [Function.update_of_ne hp', h.holds]
  · rcases hattempt p' a ha with ⟨-, rfl⟩ | ⟨-, ha⟩
    · exact Nat.lt_succ_self _
    · exact Nat.lt_succ_of_lt (h.known p' a ha)
  · rcases hattempt p₁ a h₁ with ⟨rfl, rfl⟩ | ⟨-, h₁'⟩
    · rcases hattempt p₂ _ h₂ with ⟨rfl, -⟩ | ⟨-, h₂⟩
      · rfl
      · exact absurd (h.known p₂ _ h₂) (Nat.lt_irrefl _)
    · rcases hattempt p₂ a h₂ with ⟨rfl, rfl⟩ | ⟨-, h₂⟩
      · exact absurd (h.known p₁ _ h₁') (Nat.lt_irrefl _)
      · exact h.distinct p₁ p₂ a h₁' h₂
  · -- whoever is in flight holds the lock, so it is the process that starts
    have hone : p₁ = p := by
      by_contra hne
      rw [Function.update_of_ne hne] at h₁
      have := (h.holds p₁).mp (Proc.holdsLock_of_inFlight? h₁)
      rw [hp] at this
      exact hne (Option.some.inj this).symm
    subst hone
    rw [Function.update_self] at h₁
    obtain rfl := Option.some.inj h₁
    rcases hattempt p₂ b h₂ with ⟨-, rfl⟩ | ⟨-, h₂⟩
    · exact Nat.le_refl _
    · exact Nat.le_of_lt (h.known p₂ b h₂)

end ProcInv

/-! ### The invariant of the ledger -/

/-- Rows and processes, and what ties them together. -/
structure Inv (s : State ι) : Prop where
  rows : RowInv s.run s.attempts s.nextId
  procs : ProcInv s.procs s.lock s.nextId
  importing : ∀ p a, (s.procs p).inFlight? = some a →
    ∃ r ∈ s.attempts, r.id = a ∧ r.status = .importing
  unlocked : s.lock ≠ none → ¬ Succeeded s.run

theorem inv_init : Inv (State.init : State ι) where
  rows := .init
  procs := .init
  importing := fun p a h => by cases h
  unlocked := fun h => absurd rfl h

theorem startAnswer_proceeds {s : State ι} (h : startAnswer s = .proceeds) :
    s.lock = none ∧ ¬ Succeeded s.run := by
  unfold startAnswer at h
  split at h
  · cases h
  · rename_i hlock
    refine ⟨by simpa using hlock, ?_⟩
    rintro ⟨r, hr, hstatus⟩
    rw [successfulReport, Option.mem_def.mp hr] at h
    simp only [hstatus, if_true] at h
    split at h <;> cases h

variable [DecidableEq ι] {s s' : State ι} {p : ι}

/-- A step of one process leaves the others in flight as they were. -/
theorem inFlight?_of_update {q : Proc} (hq : q.inFlight? = none) {p' : ι}
    (h : (Function.update s.procs p q p').inFlight? = some a) :
    p' ≠ p ∧ (s.procs p').inFlight? = some a := by
  by_cases hp : p' = p
  · subst hp
    rw [Function.update_self, hq] at h
    cases h
  · rw [Function.update_of_ne hp] at h
    exact ⟨hp, h⟩

theorem inv_startImport (h : Inv s) (hs : startImport s p = some s') : Inv s' := by
  unfold startImport at hs
  split at hs
  · rename_i hp
    split at hs
    · rename_i hanswer
      obtain ⟨hlock, hrun⟩ := startAnswer_proceeds hanswer
      obtain rfl := Option.some.inj hs
      refine ⟨h.rows, ?_, fun p' a ha => ?_, fun _ => hrun⟩
      · apply h.procs.move (fun a ha => by cases ha) (fun a ha => by cases ha)
        · simp [Proc.holdsLock]
        · intro p' hp'
          simp [hlock, Ne.symm hp']
      · obtain ⟨-, ha⟩ := inFlight?_of_update rfl ha
        exact h.importing p' a ha
    · obtain rfl := Option.some.inj hs
      exact h
  · cases hs

theorem inv_auditStart {warnings : ℕ} (h : Inv s)
    (hs : auditStart s p warnings = some s') : Inv s' := by
  unfold auditStart at hs
  split at hs
  · rename_i hp
    obtain rfl := Option.some.inj hs
    have hlock : s.lock = some p := (h.procs.holds p).mp (by rw [hp]; trivial)
    have hrun : ¬ Succeeded s.run := h.unlocked (by simp [hlock])
    refine ⟨h.rows.start _ hrun rfl rfl rfl, h.procs.start hlock, fun p' a ha => ?_,
      fun _ => not_succeeded_restartRun _ _⟩
    by_cases hp' : p' = p
    · subst hp'
      change (Function.update s.procs p' (.importing s.nextId) p').inFlight? = some a at ha
      rw [Function.update_self] at ha
      exact ⟨_, List.mem_append_right _ List.mem_cons_self, Option.some.inj ha, rfl⟩
    · change (Function.update s.procs p (.importing s.nextId) p').inFlight? = some a at ha
      rw [Function.update_of_ne hp'] at ha
      exact absurd (h.procs.eq_of_inFlight? (by rw [hp]; trivial) ha) hp'
  · cases hs

theorem inv_markSucceeded {report : Counts} (h : Inv s)
    (hs : markSucceeded s p report = some s') : Inv s' := by
  unfold markSucceeded at hs
  split at hs
  · rename_i a hp
    obtain rfl := Option.some.inj hs
    have hflight : (s.procs p).inFlight? = some a := by rw [hp]; rfl
    refine ⟨h.rows, ?_, fun p' b hb => ?_, h.unlocked⟩
    · refine h.procs.move (fun b hb => ?_) (fun b hb => ?_) ?_ (fun p' _ => Iff.rfl)
      · rw [hp]
        exact hb
      · rw [hp]
        exact hb
      · show Proc.holdsLock _ ↔ s.lock = some p
        rw [← h.procs.holds, hp]
        rfl
    · by_cases hp' : p' = p
      · subst hp'
        change (Function.update s.procs p' (.marked a report) p').inFlight? = some b at hb
        rw [Function.update_self] at hb
        obtain rfl := Option.some.inj hb
        exact h.importing p' a hflight
      · change (Function.update s.procs p (.marked a report) p').inFlight? = some b at hb
        rw [Function.update_of_ne hp'] at hb
        exact h.importing p' b hb
  · cases hs

/-- The end of an import transaction: the lock is given back. -/
theorem procInv_release {q : Proc} (h : Inv s) (hlock : (s.procs p).holdsLock)
    (hattempt : ∀ a, q.attempt? = some a → (s.procs p).attempt? = some a)
    (hflight : q.inFlight? = none) (hq : ¬ q.holdsLock) :
    ProcInv (Function.update s.procs p q) none s.nextId := by
  have hp := (h.procs.holds p).mp hlock
  apply h.procs.move hattempt
  · intro a ha
    rw [hflight] at ha
    cases ha
  · simp [hq]
  · intro p' hp'
    simp [hp, Ne.symm hp']

theorem inv_commit {acknowledged : Bool} (h : Inv s)
    (hs : commit s p acknowledged = some s') : Inv s' := by
  unfold commit at hs
  split at hs
  · rename_i a report hp
    obtain rfl := Option.some.inj hs
    have hholds : (s.procs p).holdsLock := by rw [hp]; trivial
    have hlock := (h.procs.holds p).mp hholds
    obtain ⟨r, hr, rfl, hstatus⟩ := h.importing p a (by rw [hp]; rfl)
    have hidle : ∀ q : Proc, (q = if acknowledged then .idle else .failed r.id) →
        q.inFlight? = none ∧ ¬ q.holdsLock ∧
          ∀ b, q.attempt? = some b → (s.procs p).attempt? = some b := by
      rintro q rfl
      cases acknowledged with
      | true => exact ⟨rfl, id, fun b hb => by cases hb⟩
      | false => exact ⟨rfl, id, fun b hb => by rw [hp]; exact hb⟩
    obtain ⟨hflight, hfree, hattempt⟩ := hidle _ rfl
    refine ⟨h.rows.commit report (h.unlocked (by simp [hlock])) hr hstatus,
      procInv_release h hholds hattempt hflight hfree, fun p' b hb => ?_,
      fun hne => absurd rfl hne⟩
    obtain ⟨hp', hb⟩ := inFlight?_of_update hflight hb
    exact absurd (h.procs.eq_of_inFlight? hholds hb) hp'
  · cases hs

theorem inv_rollback (h : Inv s) (hs : rollback s p = some s') : Inv s' := by
  have hend : ∀ a, (s.procs p).inFlight? = some a →
      Inv { s.move p (.failed a) with lock := none } := by
    intro a ha
    have hholds := Proc.holdsLock_of_inFlight? ha
    refine ⟨h.rows, procInv_release h hholds (fun b hb => ?_) rfl id, fun p' b hb => ?_,
      fun hne => absurd rfl hne⟩
    · rw [Proc.attempt?_of_inFlight? ha]
      exact hb
    · obtain ⟨-, hb⟩ := inFlight?_of_update rfl hb
      exact h.importing p' b hb
  unfold rollback at hs
  split at hs
  · rename_i a hp
    obtain rfl := Option.some.inj hs
    exact hend a (by rw [hp]; rfl)
  · rename_i a report hp
    obtain rfl := Option.some.inj hs
    exact hend a (by rw [hp]; rfl)
  · cases hs

/-- Failing another attempt leaves an IMPORTING one. -/
theorem mem_failAttempt {code message : String} (hr : r ∈ attempts) (hne : r.id ≠ a) :
    r ∈ failAttempt a code message attempts :=
  List.mem_map.mpr ⟨r, hr, if_neg fun h => hne h.1⟩

theorem inv_markFailed {code message : String} (h : Inv s)
    (hs : markFailed s p code message = some s') : Inv s' := by
  unfold markFailed at hs
  split at hs
  · rename_i a hp
    split at hs
    · cases hs
    · obtain rfl := Option.some.inj hs
      refine ⟨h.rows.fail a code message, ?_, fun p' b hb => ?_, fun hlock hrun => ?_⟩
      · refine h.procs.move (fun b hb => by cases hb) (fun b hb => by cases hb) ?_
          (fun p' _ => Iff.rfl)
        show Proc.holdsLock _ ↔ s.lock = some p
        rw [← h.procs.holds, hp]
        rfl
      · obtain ⟨hp', hb'⟩ := inFlight?_of_update rfl hb
        obtain ⟨r, hr, hid, hstatus⟩ := h.importing p' b hb'
        refine ⟨r, mem_failAttempt hr ?_, hid, hstatus⟩
        -- two processes never share an attempt
        intro hsame
        apply hp'
        apply h.procs.distinct p' p a _ (by rw [hp]; rfl)
        rw [← hsame, hid]
        exact Proc.attempt?_of_inFlight? hb'
      · exact h.unlocked hlock ((succeeded_map_failRun code message s.run).mp hrun)
  · cases hs

omit [DecidableEq ι] in
theorem inv_recordValidationFailure {code message : String} (h : Inv s)
    (hs : recordValidationFailure s code message = some s') : Inv s' := by
  unfold recordValidationFailure at hs
  split at hs
  · cases hs
  · rename_i hlock
    have hlock : s.lock = none := by simpa using hlock
    obtain rfl := Option.some.inj hs
    refine ⟨h.rows.invalidate code message rfl rfl rfl, h.procs.mono (Nat.le_succ _),
      fun p' b hb => ?_, fun hne => absurd hlock hne⟩
    have := (h.procs.holds p').mp (Proc.holdsLock_of_inFlight? hb)
    rw [hlock] at this
    cases this

theorem inv_crash (h : Inv s) : Inv (crash s p) := by
  refine ⟨h.rows, ?_, fun p' b hb => ?_, fun hne => ?_⟩
  · refine h.procs.move (fun b hb => by cases hb) (fun b hb => by cases hb) ?_ fun p' hp' => ?_
    · by_cases hlock : s.lock = some p <;> simp [crash, Proc.holdsLock, hlock]
    · by_cases hlock : s.lock = some p <;> simp [crash, hlock, Ne.symm hp']
  · obtain ⟨-, hb⟩ := inFlight?_of_update rfl hb
    exact h.importing p' b hb
  · apply h.unlocked
    intro hnone
    exact hne (by simp [crash, hnone])

theorem inv_step {act : Action ι} (h : Inv s) (hs : step s act = some s') : Inv s' := by
  cases act with
  | startImport p => exact inv_startImport h hs
  | auditStart p warnings => exact inv_auditStart h hs
  | markSucceeded p report => exact inv_markSucceeded h hs
  | commit p acknowledged => exact inv_commit h hs
  | rollback p => exact inv_rollback h hs
  | markFailed p code message => exact inv_markFailed h hs
  | recordValidationFailure code message => exact inv_recordValidationFailure h hs
  | crash p =>
      obtain rfl := Option.some.inj hs
      exact inv_crash h

theorem inv_of_reachable (hs : ledger.Reachable s) : Inv s :=
  hs.invariant (fun h => h ▸ inv_init) inv_step

/-! ### Success is final -/

/-- The attempt `a` is in the table and SUCCEEDED. -/
def AttemptSucceeded (a : ℕ) (attempts : List Attempt) : Prop :=
  ∃ r ∈ attempts, r.id = a ∧ r.status = .succeeded

theorem attemptSucceeded_map {g : Attempt → Attempt} (hid : ∀ r, (g r).id = r.id)
    (hstatus : ∀ r, r.status = .succeeded → (g r).status = .succeeded)
    (h : AttemptSucceeded a attempts) : AttemptSucceeded a (attempts.map g) := by
  obtain ⟨r, hr, rfl, hsucceeded⟩ := h
  exact ⟨g r, List.mem_map_of_mem hr, hid r, hstatus r hsucceeded⟩

theorem attemptSucceeded_append (h : AttemptSucceeded a attempts) :
    AttemptSucceeded a (attempts ++ [r]) := by
  obtain ⟨r', hr', hid, hstatus⟩ := h
  exact ⟨r', List.mem_append_left _ hr', hid, hstatus⟩

/-- Nobody is in flight after the step who was not before. -/
def NoneTakesOff (s s' : State ι) : Prop :=
  ∀ q b, (s'.procs q).inFlight? = some b → (s.procs q).inFlight? = some b

/-- **What a step writes**: most leave the tables alone; the others write
what one of the four transactions writes, where its guard lets it. -/
inductive Writes (s s' : State ι) : Action ι → Prop
  | nothing {act} : s'.run = s.run → s'.attempts = s.attempts → NoneTakesOff s s' →
      Writes s s' act
  | start {p warnings} (counts : Counts) (r : Attempt) : s.procs p = .starting →
      s'.run = some (restartRun counts s.run) →
      s'.attempts = terminateImporting s.attempts ++ [r] →
      Writes s s' (.auditStart p warnings)
  | commit {p acknowledged} (a : ℕ) (report : Counts) : s.procs p = .marked a report →
      s'.run = s.run.map (succeedRun report) →
      s'.attempts = updateAttempt a (fun _ => true) (.succeed report) s.attempts →
      s'.lock = none → Writes s s' (.commit p acknowledged)
  | fail {p code message} (a : ℕ) : s.procs p = .failed a →
      s'.run = s.run.map (failRun code message) →
      s'.attempts = failAttempt a code message s.attempts → NoneTakesOff s s' →
      Writes s s' (.markFailed p code message)
  | invalidate {code message} (r : Attempt) : s.lock = none →
      s'.run = some (invalidateRun code message s.run) →
      s'.attempts = s.attempts ++ [r] → NoneTakesOff s s' →
      Writes s s' (.recordValidationFailure code message)

theorem noneTakesOff_of_update {q : Proc} (hq : q.inFlight? = none)
    (hs' : s'.procs = Function.update s.procs p q) : NoneTakesOff s s' := by
  intro p' b hb
  rw [hs'] at hb
  exact (inFlight?_of_update hq hb).2

theorem step_writes {act : Action ι} (hs : step s act = some s') : Writes s s' act := by
  cases act with
  | startImport p =>
      simp only [step, startImport] at hs
      split at hs
      · split at hs
        · obtain rfl := Option.some.inj hs
          -- the lock is taken; the rows are written later
          exact .nothing rfl rfl (noneTakesOff_of_update rfl rfl)
        · obtain rfl := Option.some.inj hs
          exact .nothing rfl rfl fun _ _ => id
      · cases hs
  | auditStart p warnings =>
      simp only [step, auditStart] at hs
      split at hs
      · rename_i hp
        obtain rfl := Option.some.inj hs
        exact .start _ _ hp rfl rfl
      · cases hs
  | markSucceeded p report =>
      simp only [step, markSucceeded] at hs
      split at hs
      · rename_i a hp
        obtain rfl := Option.some.inj hs
        -- marked in its own transaction, which nobody sees yet
        refine .nothing rfl rfl fun q b hb => ?_
        by_cases hq : q = p
        · subst hq
          simp only [State.move, Function.update_self] at hb
          rw [hp]
          exact hb
        · simp only [State.move, Function.update_of_ne hq] at hb
          exact hb
      · cases hs
  | commit p acknowledged =>
      simp only [step, commit] at hs
      split at hs
      · rename_i a report hp
        obtain rfl := Option.some.inj hs
        exact .commit a report hp rfl rfl rfl
      · cases hs
  | rollback p =>
      simp only [step, rollback] at hs
      split at hs
      · obtain rfl := Option.some.inj hs
        exact .nothing rfl rfl (noneTakesOff_of_update rfl rfl)
      · obtain rfl := Option.some.inj hs
        exact .nothing rfl rfl (noneTakesOff_of_update rfl rfl)
      · cases hs
  | markFailed p code message =>
      simp only [step, markFailed] at hs
      split at hs
      · rename_i a hp
        split at hs
        · cases hs
        · obtain rfl := Option.some.inj hs
          -- the audit of a failure leaves a run alone that has succeeded meanwhile
          exact .fail a hp rfl rfl (noneTakesOff_of_update rfl rfl)
      · cases hs
  | recordValidationFailure code message =>
      simp only [step, recordValidationFailure] at hs
      split at hs
      · cases hs
      · rename_i hlock
        obtain rfl := Option.some.inj hs
        exact .invalidate _ (by simpa using hlock) rfl rfl fun _ _ => id
  | crash p =>
      obtain rfl := Option.some.inj hs
      exact .nothing rfl rfl (noneTakesOff_of_update rfl rfl)

omit [DecidableEq ι] in
/-- No statement takes SUCCEEDED away from an attempt. -/
theorem attemptSucceeded_of_writes {act : Action ι} (hw : Writes s s' act)
    (h : AttemptSucceeded a s.attempts) : AttemptSucceeded a s'.attempts := by
  cases hw with
  | nothing _ hattempts _ =>
      rw [hattempts]
      exact h
  | start counts r _ _ hattempts =>
      rw [hattempts]
      -- a new start ends attempts left importing, none that succeeded
      apply attemptSucceeded_append
      apply attemptSucceeded_map _ _ h
      · intro r
        split <;> rfl
      · intro r hr
        simp [hr]
  | commit b report _ _ hattempts _ =>
      rw [hattempts]
      apply attemptSucceeded_map _ _ h
      · intro r
        split <;> rfl
      · intro r hr
        split
        · rfl
        · exact hr
  | fail b _ _ hattempts _ =>
      rw [hattempts]
      apply attemptSucceeded_map _ _ h
      · intro r
        split <;> rfl
      · intro r hr
        -- a failed attempt keeps a success recorded before
        simp [hr]
  | invalidate r _ _ hattempts _ =>
      rw [hattempts]
      exact attemptSucceeded_append h

omit [DecidableEq ι] in
/-- Nor from the run row: whoever could overwrite it holds the lock, and
nobody holds the lock of a SUCCEEDED run. -/
theorem succeeded_of_writes {act : Action ι} (h : Inv s) (hw : Writes s s' act)
    (hrun : Succeeded s.run) : Succeeded s'.run := by
  have hfree : ∀ q, ¬ (s.procs q).holdsLock := fun q hq =>
    h.unlocked (by simp [(h.procs.holds q).mp hq]) hrun
  cases hw with
  | nothing hs' _ _ => rwa [hs']
  | start counts r hp _ _ => exact absurd (by rw [hp]; trivial) (hfree _)
  | commit b report hp _ _ _ => exact absurd (by rw [hp]; trivial) (hfree _)
  | fail b _ hs' _ _ =>
      rw [hs']
      exact (succeeded_map_failRun _ _ s.run).mpr hrun
  | invalidate r _ hs' _ _ =>
      rw [hs']
      exact (succeeded_invalidateRun _ _ s.run).mpr hrun

/-! ### Run-ledger safety -/

theorem length_filter_succeeded (attempts : List Attempt) :
    (attempts.filter fun r => r.status = .succeeded).length
      = attempts.countP Attempt.isSucceeded :=
  (List.countP_eq_length_filter ..).symm

omit [DecidableEq ι] in
/-- The run is SUCCEEDED exactly when one attempt is. -/
theorem succeeded_iff (h : Inv s) :
    Succeeded s.run ↔ (s.attempts.filter fun r => r.status = .succeeded).length = 1 := by
  rw [length_filter_succeeded]
  constructor
  · exact h.rows.oneSucceeded
  · intro hone
    by_contra hno
    rw [h.rows.noneSucceeded hno] at hone
    cases hone

/-- A start that finds the run SUCCEEDED reports its successful attempt and
leaves the ledger as it is. -/
theorem startImport_of_succeeded (h : Inv s) (hrun : Succeeded s.run) (p : ι) :
    (∃ r ∈ s.attempts, ∃ counts, r.status = .succeeded ∧
      startAnswer s = .alreadySucceeded r.id counts) ∧
    (∀ t, step s (.startImport p) = some t → t = s) ∧
    ∀ warnings, step s (.auditStart p warnings) = none := by
  -- an import that succeeded has given its lock back
  have hlock : s.lock = none := by
    by_contra hne
    exact h.unlocked hne hrun
  have hanswer : ∃ r ∈ s.attempts, ∃ counts, r.status = .succeeded ∧
      startAnswer s = .alreadySucceeded r.id counts := by
    obtain ⟨run, hsome, hstatus⟩ := hrun
    have hone := h.rows.oneSucceeded ⟨run, hsome, hstatus⟩
    rw [← length_filter_succeeded] at hone
    obtain ⟨r, hr⟩ := List.length_eq_one_iff.mp hone
    have hmem : r ∈ s.attempts.filter fun r => r.status = .succeeded := by simp [hr]
    obtain ⟨hin, hsucceeded⟩ := List.mem_filter.mp hmem
    refine ⟨r, hin, run.counts, of_decide_eq_true hsucceeded, ?_⟩
    simp [startAnswer, hlock, successfulReport, Option.mem_def.mp hsome, hstatus, hr]
  refine ⟨hanswer, fun t ht => ?_, fun warnings => ?_⟩
  · obtain ⟨r, -, counts, -, hreport⟩ := hanswer
    simp only [step, startImport] at ht
    split at ht
    · rw [hreport] at ht
      exact (Option.some.inj ht).symm
    · cases ht
  · simp only [step, auditStart]
    split
    · rename_i hp
      have := (h.procs.holds p).mp (by rw [hp]; trivial)
      rw [hlock] at this
      cases this
    · rfl

/-- **Run-ledger safety**: every state of every interleaving. -/
theorem run_ledger_safety (hs : ledger.Reachable s) :
    (Succeeded s.run ↔ (s.attempts.filter fun r => r.status = .succeeded).length = 1) ∧
    (∀ t, ledger.Steps s t →
      (Succeeded s.run → Succeeded t.run) ∧
      (∀ a, AttemptSucceeded a s.attempts → ∀ r ∈ t.attempts, r.id = a →
        r.status = .succeeded) ∧
      (Succeeded s.run → ∀ p,
        (∃ r ∈ t.attempts, ∃ counts, r.status = .succeeded ∧
          startAnswer t = .alreadySucceeded r.id counts) ∧
        (∀ u, step t (.startImport p) = some u → u = t) ∧
        ∀ warnings, step t (.auditStart p warnings) = none)) ∧
    (s.attempts.filter fun r => r.status = .importing).length ≤ 1 ∧
    s.attempts.map Attempt.number = List.range' 1 s.attempts.length := by
  have hinv := inv_of_reachable hs
  refine ⟨succeeded_iff hinv, fun t hst => ?_, ?_, hinv.rows.keys.numbers⟩
  · have ht := inv_of_reachable (hs.steps hst)
    have hrun : Succeeded s.run → Succeeded t.run :=
      hs.stable (P := fun u => Succeeded u.run)
        (fun hu hstep => succeeded_of_writes (inv_of_reachable hu) (step_writes hstep)) hst
    refine ⟨hrun, fun a ha r hr hid => ?_, fun h => startImport_of_succeeded ht (hrun h)⟩
    have hlater : AttemptSucceeded a t.attempts :=
      hs.stable (P := fun u => AttemptSucceeded a u.attempts)
        (fun _ hstep => attemptSucceeded_of_writes (step_writes hstep)) hst ha
    obtain ⟨r', hr', hid', hstatus⟩ := hlater
    rwa [List.inj_on_of_nodup_map ht.rows.keys.ids hr hr' (hid.trans hid'.symm)]
  · have hone := hinv.rows.oneImporting
    rwa [List.countP_eq_length_filter] at hone

/-- A run whose first attempt fails and whose second succeeds. -/
def retriedRun : State ℕ :=
  (exec step .init [.startImport 0, .auditStart 0 0, .rollback 0, .markFailed 0 "E" "m",
    .startImport 1, .auditStart 1 0, .markSucceeded 1 ⟨1, 1, 0, 0⟩, .commit 1 true]).getD .init

theorem retriedRun_reachable : ledger.Reachable retriedRun :=
  reachable_of_exec [.startImport 0, .auditStart 0 0, .rollback 0,
    .markFailed 0 "E" "m", .startImport 1, .auditStart 1 0,
    .markSucceeded 1 ⟨1, 1, 0, 0⟩, .commit 1 true] rfl

theorem run_ledger_safety_retriedRun :
    Succeeded retriedRun.run ∧ retriedRun.attempts.map Attempt.number = [1, 2] :=
  ⟨(run_ledger_safety retriedRun_reachable).1.mpr (by decide),
    (run_ledger_safety retriedRun_reachable).2.2.2⟩

end RunLedger

end AircraftApi
