/-
AircraftApi/StaleAudit.lean

The failure audit of an import that was rolled back.  `mark_failed` runs after
the advisory lock is given back, so a retry can be under way when it commits;
its guard `status <> 'SUCCEEDED'` then lets it through, and `mark_succeeded`
never clears what it wrote.  `stale_audit_survives_success` is such a run: it
ends SUCCEEDED with the first attempt's failure code.

The condition is on the order of the steps: no audit of an earlier attempt
commits while a later one is in flight (`AuditsInTime`).  In the runs that
meet it the run row of an import in flight is IMPORTING and free of failures
(`Clean`), which is what its commit turns into SUCCEEDED; and a step that
breaks it does overwrite that row, so the condition is exact.
-/
import AircraftApi.RunLedgerSafety

namespace AircraftApi

namespace RunLedger

open Transition

variable {ι : Type*}

/-! ### The condition -/

/-- Some attempt after `a` is in flight. -/
def LaterInFlight (s : State ι) (a : ℕ) : Prop :=
  ∃ p b, (s.procs p).inFlight? = some b ∧ a < b

/-- An audit commits while no later attempt is in flight. -/
def AuditsInTime (s : State ι) : Action ι → Prop
  | .markFailed p _ _ => ∀ a, s.procs p = .failed a → ¬ LaterInFlight s a
  | _ => True

/-- The failure columns are empty. -/
def Run.NoFailure (r : Run) : Prop := r.failureCode = none ∧ r.failureMessage = none

/-- An import in flight has a fresh run row, and success shows no failure. -/
structure Clean (s : State ι) : Prop where
  inFlight : ∀ p a, (s.procs p).inFlight? = some a →
    ∃ r, s.run = some r ∧ r.status = .importing ∧ r.NoFailure
  succeeded : ∀ r ∈ s.run, r.status = .succeeded → r.NoFailure

theorem clean_init : Clean (State.init : State ι) where
  inFlight := fun p a h => by cases h
  succeeded := fun r h => by cases h

/-! ### Steps -/

theorem restartRun_importing (counts : Counts) (run : Option Run) :
    (restartRun counts run).status = .importing ∧ (restartRun counts run).NoFailure := by
  rcases run with - | r <;> exact ⟨rfl, rfl, rfl⟩

theorem map_failRun_of_succeeded {run : Option Run} (h : Succeeded run)
    (code message : String) : run.map (failRun code message) = run := by
  obtain ⟨r, hr, hstatus⟩ := h
  rw [Option.mem_def.mp hr]
  simp [failRun, hstatus]

theorem succeeded_failRun {code message : String} {r : Run}
    (h : (failRun code message r).status = .succeeded) : failRun code message r = r := by
  unfold failRun at h ⊢
  split at h
  · rw [if_pos ‹_›]
  · cases h

theorem succeeded_invalidateRun_eq {code message : String} {run : Option Run}
    (h : (invalidateRun code message run).status = .succeeded) :
    run = some (invalidateRun code message run) := by
  rcases run with - | r
  · cases h
  · simp only [invalidateRun] at h ⊢
    split at h
    · rw [if_pos ‹_›]
    · cases h

variable [DecidableEq ι] {s s' : State ι} {p : ι} {a : ℕ}

omit [DecidableEq ι] in
/-- An audit in time finds no import in flight at all. -/
theorem not_inFlight_of_inTime (h : Inv s) (hp : s.procs p = .failed a)
    (hin : ¬ LaterInFlight s a) (q : ι) (b : ℕ) : (s.procs q).inFlight? ≠ some b := by
  intro hb
  have hattempt : (s.procs p).attempt? = some a := by rw [hp]; rfl
  have hle := h.procs.latest q b hb p a hattempt
  have heq : a = b := Nat.le_antisymm hle (Nat.not_lt.mp fun hlt => hin ⟨q, b, hb, hlt⟩)
  subst heq
  obtain rfl := h.procs.distinct q p a (Proc.attempt?_of_inFlight? hb) hattempt
  rw [hp] at hb
  cases hb

theorem clean_step {act : Action ι} (h : Inv s) (hc : Clean s) (hg : AuditsInTime s act)
    (hs : step s act = some s') : Clean s' := by
  have h' := inv_step h hs
  cases step_writes hs with
  | nothing hrun _ hoff =>
      refine ⟨fun q b hb => ?_, ?_⟩
      · rw [hrun]
        exact hc.inFlight q b (hoff q b hb)
      · rw [hrun]
        exact hc.succeeded
  | start counts r _ hrun _ =>
      -- the start's upsert makes the row anew
      obtain ⟨hstatus, hfailure⟩ := restartRun_importing counts s.run
      refine ⟨fun q b _ => ⟨_, hrun, hstatus, hfailure⟩, fun r hr _ => ?_⟩
      rw [hrun] at hr
      obtain rfl := Option.some.inj hr
      exact hfailure
  | commit a report hp hrun _ hlock =>
      -- the commit turns the clean row of its import into SUCCEEDED
      obtain ⟨r, hr, -, hfailure⟩ := hc.inFlight _ a (by rw [hp]; rfl)
      refine ⟨fun q b hb => ?_, fun r' hr' _ => ?_⟩
      · have := (h'.procs.holds q).mp (Proc.holdsLock_of_inFlight? hb)
        rw [hlock] at this
        cases this
      · rw [hrun, hr] at hr'
        obtain rfl := Option.some.inj hr'
        exact hfailure
  | fail a hp hrun _ hoff =>
      refine ⟨fun q b hb => ?_, fun r' hr' hstatus => ?_⟩
      · exact absurd (hoff q b hb) (not_inFlight_of_inTime h hp (hg a hp) q b)
      · rw [hrun] at hr'
        obtain ⟨r, hr, rfl⟩ := Option.map_eq_some_iff.mp (Option.mem_def.mp hr')
        have hsame := succeeded_failRun hstatus
        rw [hsame] at hstatus ⊢
        exact hc.succeeded r hr hstatus
  | invalidate r hlock hrun _ hoff =>
      refine ⟨fun q b hb => ?_, fun r' hr' hstatus => ?_⟩
      · have := (h.procs.holds q).mp (Proc.holdsLock_of_inFlight? (hoff q b hb))
        rw [hlock] at this
        cases this
      · rw [hrun] at hr'
        obtain rfl := Option.some.inj hr'
        exact hc.succeeded _ (succeeded_invalidateRun_eq hstatus) hstatus

/-- The runs whose audits all commit in time. -/
theorem clean_of_reachable (hs : (ledger.guard AuditsInTime).Reachable s) :
    Inv s ∧ Clean s := by
  induction hs with
  | init hs => exact hs ▸ ⟨inv_init, clean_init⟩
  | step _ hst ih => exact ⟨inv_step ih.1 hst.2, clean_step ih.1 ih.2 hst.1 hst.2⟩

/-! ### The audit of an earlier attempt -/

/-- A later attempt is in flight, or has succeeded. -/
def Overtaken (s : State ι) (a : ℕ) : Prop :=
  LaterInFlight s a ∨ ∃ r ∈ s.attempts, a < r.id ∧ r.status = .succeeded

omit [DecidableEq ι] in
theorem succeeded_of_attempt (h : Inv s) {r : Attempt} (hr : r ∈ s.attempts)
    (hstatus : r.status = .succeeded) : Succeeded s.run := by
  by_contra hno
  have hnone := List.countP_eq_zero.mp (h.rows.noneSucceeded hno) r hr
  simp [Attempt.isSucceeded, hstatus] at hnone

/-- **The audit of a rolled-back import**: in a run whose audits so far came
in time, one more leaves the run row of an overtaken attempt alone exactly
when it comes in time itself; and a SUCCEEDED run shows no failure. -/
theorem audit_harmless_iff_inTime (hs : (ledger.guard AuditsInTime).Reachable s) :
    (∀ p a code message s', s.procs p = .failed a →
      step s (.markFailed p code message) = some s' →
      (AuditsInTime s (.markFailed p code message) ↔
        (Overtaken s a → s'.run = s.run))) ∧
    ∀ r ∈ s.run, r.status = .succeeded → r.NoFailure := by
  obtain ⟨hinv, hclean⟩ := clean_of_reachable hs
  refine ⟨fun p a code message s' hp hstep => ?_, hclean.succeeded⟩
  have hrun : s'.run = s.run.map (failRun code message) := by
    cases step_writes hstep with
    | nothing _ _ _ =>
        simp only [step, markFailed, hp] at hstep
        split at hstep
        · cases hstep
        · obtain rfl := Option.some.inj hstep
          rfl
    | fail b _ hrun _ _ => exact hrun
  constructor
  · rintro hin (hlater | ⟨r, hr, -, hstatus⟩)
    · exact absurd hlater (hin a hp)
    · rw [hrun]
      exact map_failRun_of_succeeded (succeeded_of_attempt hinv hr hstatus) code message
  · intro hsame b hb hlater
    obtain rfl : b = a := by
      rw [hp] at hb
      exact (Proc.failed.inj hb).symm
    have heq := hsame (.inl hlater)
    -- the row of an import in flight is IMPORTING, and the audit makes it FAILED
    obtain ⟨q, c, hc, -⟩ := hlater
    obtain ⟨r, hr, hstatus, -⟩ := hclean.inFlight q c hc
    rw [hrun, hr] at heq
    have := congrArg Run.status (Option.some.inj heq)
    simp [failRun, hstatus] at this

/-- A first import, rolled back and not yet audited. -/
def rolledBack : State ℕ :=
  (exec step .init [.startImport 0, .auditStart 0 0, .rollback 0]).getD .init

theorem rolledBack_reachable : (ledger.guard AuditsInTime).Reachable rolledBack := by
  refine reachable_guard_of_exec [.startImport 0, .auditStart 0 0, .rollback 0] ?_ rfl
  simp [AuditsInTime]

/-- Its audit, with nothing else under way. -/
theorem audit_harmless_rolledBack :
    AuditsInTime rolledBack (.markFailed 0 "E" "m") ↔
      (Overtaken rolledBack 1 →
        ((step rolledBack (.markFailed 0 "E" "m")).getD rolledBack).run = rolledBack.run) :=
  (audit_harmless_iff_inTime rolledBack_reachable).1 0 1 "E" "m" _ rfl rfl

/-! ### An audit out of time -/

/-- The second attempt starts before the first one's audit, and succeeds. -/
def overtakenAudit : List (Action ℕ) :=
  [.startImport 0, .auditStart 0 0, .rollback 0, .startImport 1, .auditStart 1 0,
    .markFailed 0 "PERSISTENCE" "connection reset", .markSucceeded 1 ⟨1, 1, 0, 0⟩,
    .commit 1 true]

/-- The run ends SUCCEEDED with the failure of its first attempt. -/
theorem stale_audit_survives_success :
    ¬ ∀ s : State ℕ, ledger.Reachable s →
      (∀ p a code message s', s.procs p = .failed a →
        step s (.markFailed p code message) = some s' → Overtaken s a → s'.run = s.run) ∧
      ∀ r ∈ s.run, r.status = .succeeded → r.NoFailure := by
  intro hclaim
  obtain ⟨s, hs, r, hr, hstatus, hcode⟩ : ∃ s, exec step State.init overtakenAudit = some s ∧
      ∃ r, s.run = some r ∧ r.status = .succeeded ∧ r.failureCode = some "PERSISTENCE" :=
    ⟨_, rfl, _, rfl, rfl, rfl⟩
  have hno := (hclaim s (reachable_of_exec _ hs)).2 r hr hstatus
  rw [hno.1] at hcode
  cases hcode

end RunLedger

end AircraftApi
