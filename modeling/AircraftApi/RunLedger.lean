/-
AircraftApi/RunLedger.lean

The ledger of one ingest run (one source, content hash, parser name and
version) under any number of import processes: the run row, its attempts, and
the advisory transaction lock.

Design.  A process runs `IngestionService::import`; its program counter is a
`Proc`.  Each `Action` is one committed transaction, one statement whose
effect another process can see or be blocked by, or a crash:

    startImport         take the lock, or answer Busy or AlreadySucceeded
    auditStart          the durable audit transaction of `start_import`
    markSucceeded       the two updates, uncommitted, rows locked
    commit, rollback    the end of the import's transaction, lock released
    markFailed          the separate audit transaction after a rollback
    recordValidationFailure    the preflight's own audit transaction
    crash               the process dies, its transaction is rolled back

A commit can take effect and still report an error to the process, which then
audits a failure of a run that has succeeded; `commit p false` is that step.

A start that is answered AlreadySucceeded, and a validation failure, hold the lock over the
statements of a transaction of their own.  Each is one action, not split into its
statements, so the Busy another process is answered meanwhile is not a step here.

The ledger has one identity, so keys other than the attempts' are left out,
as are the timestamps.  This file is the model; `RunLedgerSafety` and
`StaleAudit` hold its invariants.
-/
import AircraftApi.Transition
import Mathlib.Logic.Function.Basic

namespace AircraftApi

namespace RunLedger

/-! ### Rows -/

/-- The status of a run. -/
inductive RunStatus
  | received | importing | succeeded | validationFailed | failed
  deriving DecidableEq

/-- The status of an attempt. -/
inductive AttemptStatus
  | importing | succeeded | validationFailed | failed
  deriving DecidableEq

/-- The counters an `ImportReport` carries into the ledger. -/
structure Counts where
  staged : ℕ
  promoted : ℕ
  flagged : ℕ
  warnings : ℕ
  deriving DecidableEq

/-- Nothing staged yet. -/
def Counts.zero : Counts := ⟨0, 0, 0, 0⟩

/-- A row of `ingest_runs`. -/
structure Run where
  status : RunStatus
  failureCode : Option String
  failureMessage : Option String
  counts : Counts
  deriving DecidableEq

/-- A row of `ingest_run_attempts`. -/
structure Attempt where
  id : ℕ
  number : ℕ
  status : AttemptStatus
  failureCode : Option String
  failureMessage : Option String
  counts : Counts
  deriving DecidableEq

/-- The run row exists and is SUCCEEDED. -/
def Succeeded (run : Option Run) : Prop := ∃ r ∈ run, r.status = .succeeded

/-! ### Processes and the state -/

/-- Where a process stands in `IngestionService::import`. -/
inductive Proc
  | idle
  | starting
  | importing (attempt : ℕ)
  | marked (attempt : ℕ) (report : Counts)
  | failed (attempt : ℕ)
  deriving DecidableEq

/-- The attempt a process was given. -/
def Proc.attempt? : Proc → Option ℕ
  | importing a => some a
  | marked a _ => some a
  | failed a => some a
  | _ => none

/-- The attempt whose import transaction is still open. -/
def Proc.inFlight? : Proc → Option ℕ
  | importing a => some a
  | marked a _ => some a
  | _ => none

/-- The process' transaction holds the advisory lock. -/
def Proc.holdsLock : Proc → Prop
  | starting => True
  | importing _ => True
  | marked _ _ => True
  | _ => False

/-- The committed rows, the processes, and who holds the advisory lock. -/
structure State (ι : Type*) where
  run : Option Run
  attempts : List Attempt
  nextId : ℕ
  procs : ι → Proc
  lock : Option ι

variable {ι : Type*}

/-- Nothing imported yet. -/
def State.init : State ι := ⟨none, [], 1, fun _ => .idle, none⟩

/-! ### Statements -/

/-- `COALESCE(MAX(attempt_number), 0) + 1`. -/
def nextNumber (attempts : List Attempt) : ℕ :=
  (attempts.map Attempt.number).max?.getD 0 + 1

/-- `UPDATE … WHERE id = $1`, for a row the guard lets through. -/
def updateAttempt (a : ℕ) (guard : Attempt → Bool) (f : Attempt → Attempt)
    (attempts : List Attempt) : List Attempt :=
  attempts.map fun r => if r.id = a ∧ guard r then f r else r

/-- What `start_import` writes over an attempt left IMPORTING. -/
def Attempt.terminate (r : Attempt) : Attempt :=
  { r with
    status := .failed
    failureCode := some "PROCESS_TERMINATED"
    failureMessage := some
      "superseded by a later attempt after the previous process ended without finalizing" }

/-- Attempts left importing are ended. -/
def terminateImporting (attempts : List Attempt) : List Attempt :=
  attempts.map fun r => if r.status = .importing then r.terminate else r

/-- The attempt succeeded. -/
def Attempt.succeed (counts : Counts) (r : Attempt) : Attempt :=
  { r with status := .succeeded, counts := counts }

/-- The attempt failed. -/
def Attempt.fail (code message : String) (r : Attempt) : Attempt :=
  { r with status := .failed, failureCode := some code, failureMessage := some message }

/-- What the upsert of `start_import` leaves in the run row. -/
def restartRun (counts : Counts) : Option Run → Run
  | none => ⟨.importing, none, none, counts⟩
  | some r => { r with status := .importing, failureCode := none, failureMessage := none }

/-- The run row after `mark_succeeded`, which leaves the failure columns. -/
def succeedRun (counts : Counts) (r : Run) : Run :=
  { r with status := .succeeded, counts := counts }

/-- `UPDATE ingest_runs … WHERE status <> 'SUCCEEDED'` of `mark_failed`. -/
def failRun (code message : String) (r : Run) : Run :=
  if r.status = .succeeded then r
  else { r with status := .failed, failureCode := some code, failureMessage := some message }

/-- What the upsert of `record_validation_failure` leaves in the run row. -/
def invalidateRun (code message : String) : Option Run → Run
  | none => ⟨.validationFailed, some code, some message, .zero⟩
  | some r =>
      if r.status = .succeeded then r
      else { r with
        status := .validationFailed
        failureCode := some code
        failureMessage := some message }

/-! ### Actions -/

/-- A statement of a process, or what happens to it. -/
inductive Action (ι : Type*)
  | startImport (p : ι)
  | auditStart (p : ι) (warnings : ℕ)
  | markSucceeded (p : ι) (report : Counts)
  | commit (p : ι) (acknowledged : Bool)
  | rollback (p : ι)
  | markFailed (p : ι) (code message : String)
  | recordValidationFailure (code message : String)
  | crash (p : ι)

/-- What `start_import` finds under the lock. -/
inductive StartAnswer
  | busy
  | alreadySucceeded (attempt : ℕ) (counts : Counts)
  | invariantBroken
  | proceeds
  deriving DecidableEq

/-- `successful_report`, run once the lock is granted: the report of the run
and its latest SUCCEEDED attempt. -/
def successfulReport (s : State ι) : StartAnswer :=
  match s.run with
  | none => .proceeds
  | some r =>
      if r.status = .succeeded then
        match (s.attempts.filter fun a => a.status = .succeeded).getLast? with
        | some a => .alreadySucceeded a.id r.counts
        | none => .invariantBroken
      else .proceeds

/-- What a `start_import` called now answers. -/
def startAnswer (s : State ι) : StartAnswer :=
  if s.lock.isSome then .busy else successfulReport s

variable [DecidableEq ι]

/-- Moves a process. -/
def State.move (s : State ι) (p : ι) (q : Proc) : State ι :=
  { s with procs := Function.update s.procs p q }

/-- Only a start that neither finds the lock taken nor the run done keeps
the lock; the others roll their transaction back. -/
def startImport (s : State ι) (p : ι) : Option (State ι) :=
  match s.procs p with
  | .idle =>
      match startAnswer s with
      | .proceeds => some { s.move p .starting with lock := some p }
      | _ => some s
  | _ => none

/-- The attempt is recorded in a transaction of its own. -/
def auditStart (s : State ι) (p : ι) (warnings : ℕ) : Option (State ι) :=
  match s.procs p with
  | .starting => some
      { s.move p (.importing s.nextId) with
        run := some (restartRun { Counts.zero with warnings := warnings } s.run)
        attempts := terminateImporting s.attempts ++
          [⟨s.nextId, nextNumber s.attempts, .importing, none, none, .zero⟩]
        nextId := s.nextId + 1 }
  | _ => none

/-- The updates stay invisible to others until the commit. -/
def markSucceeded (s : State ι) (p : ι) (report : Counts) : Option (State ι) :=
  match s.procs p with
  | .importing a => some (s.move p (.marked a report))
  | _ => none

/-- The import commits; the process may not learn of it. -/
def commit (s : State ι) (p : ι) (acknowledged : Bool) : Option (State ι) :=
  match s.procs p with
  | .marked a report => some
      { s.move p (if acknowledged then .idle else .failed a) with
        run := s.run.map (succeedRun report)
        attempts := updateAttempt a (fun _ => true) (.succeed report) s.attempts
        lock := none }
  | _ => none

/-- The import is given up, and so is the lock. -/
def rollback (s : State ι) (p : ι) : Option (State ι) :=
  match s.procs p with
  | .importing a => some { s.move p (.failed a) with lock := none }
  | .marked a _ => some { s.move p (.failed a) with lock := none }
  | _ => none

/-- An uncommitted `mark_succeeded` holds the run row. -/
def rowLocked (s : State ι) : Bool :=
  match s.lock.map s.procs with
  | some (.marked _ _) => true
  | _ => false

/-- Waits while the run row is locked. -/
def markFailed (s : State ι) (p : ι) (code message : String) : Option (State ι) :=
  match s.procs p with
  | .failed a =>
      if rowLocked s then none
      else some
        { s.move p .idle with
          run := s.run.map (failRun code message)
          attempts := updateAttempt a (fun r => r.status ≠ .succeeded) (.fail code message)
            s.attempts }
  | _ => none

/-- Waits for the advisory lock, and gives it back by its own commit. -/
def recordValidationFailure (s : State ι) (code message : String) : Option (State ι) :=
  if s.lock.isSome then none
  else some
    { s with
      run := some (invalidateRun code message s.run)
      attempts := s.attempts ++ [⟨s.nextId, nextNumber s.attempts, .validationFailed,
        some code, some message, .zero⟩]
      nextId := s.nextId + 1 }

/-- The process is gone, and so is its lock. -/
def crash (s : State ι) (p : ι) : State ι :=
  { s.move p .idle with lock := if s.lock = some p then none else s.lock }

/-- One step of the ledger, if the action is enabled. -/
def step (s : State ι) : Action ι → Option (State ι)
  | .startImport p => startImport s p
  | .auditStart p warnings => auditStart s p warnings
  | .markSucceeded p report => markSucceeded s p report
  | .commit p acknowledged => commit s p acknowledged
  | .rollback p => rollback s p
  | .markFailed p code message => markFailed s p code message
  | .recordValidationFailure code message => recordValidationFailure s code message
  | .crash p => some (crash s p)

/-- The ledger of one run and its processes. -/
def ledger : Transition.System (State ι) (Action ι) := .ofStep .init step

end RunLedger

end AircraftApi
