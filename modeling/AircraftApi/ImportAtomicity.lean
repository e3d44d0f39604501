/-
AircraftApi/ImportAtomicity.lean

An import is all or nothing, and audited: for every stream and every store
that may fail at any call, in any combination with a failing rollback and a
failing audit.

The statements are about the list of calls the service made.  `consumeLoop`
stops at its first failure, so in its calls nothing follows one
(`StopsAtFailure`); when it ends well the calls are those of a clean pass
(`stageCalls`) and the stream held records only.  The rest of the import adds
one of four endings, each a short list, and the six promises are read off the
whole.
-/
import AircraftApi.ImportService

namespace AircraftApi

namespace ImportService

/-! ### Events -/

/-- The answer was an error, or the record delivered carries one. -/
def Event.IsFailure : Event → Prop
  | next (.error _) => True
  | next (.ok none) => False
  | next (.ok (some record)) => record.firstError ≠ none
  | stage _ answer => ∀ outcome, answer ≠ .ok outcome
  | refresh answer => answer ≠ .ok ()
  | markSucceeded _ answer => answer ≠ .ok ()
  | commit answer => answer ≠ .ok ()
  | rollback answer => answer ≠ .ok ()
  | markFailed _ _ _ _ answer => answer ≠ .ok ()

/-- The call stages a record. -/
def Event.isStage : Event → Bool
  | stage _ _ => true
  | _ => false

/-- The call commits. -/
def Event.isCommit : Event → Bool
  | commit _ => true
  | _ => false

/-- The call rolls back. -/
def Event.isRollback : Event → Bool
  | rollback _ => true
  | _ => false

/-- The call audits a failure. -/
def Event.isMarkFailed : Event → Bool
  | markFailed _ _ _ _ _ => true
  | _ => false

/-- Only the stream and the unit of work's staging and refresh are involved. -/
def Event.Consumes : Event → Prop
  | next _ => True
  | stage record _ => record.firstError = none
  | refresh _ => True
  | _ => False

/-- Nothing follows a failure. -/
def StopsAtFailure (calls : List Event) : Prop := calls.Pairwise fun e _ => ¬ e.IsFailure

/-- The records staged, with their outcomes. -/
abbrev Staged := List (PreparedAircraftRecord × RecordOutcome)

/-- The calls of a pass without failures. -/
def stageCalls : Staged → List Event
  | [] => [.next (.ok none)]
  | (record, outcome) :: staged =>
      .next (.ok (some record)) :: .stage record (.ok outcome) :: stageCalls staged

/-- What the loop carries after these records. -/
def Progress.after (progress : Progress) (staged : Staged) : Progress :=
  staged.foldl (fun progress x => (progress.hash x.1).stage x.2) progress

/-- Everything `consume_records` checks of a stream it has staged. -/
structure Consumed (sha256 : List UInt8 → List UInt8) (request : ImportRequest)
    (stream : RecordStream) (staged : Staged) : Prop where
  all : stream = staged.map fun x => .ok x.1
  loadable : ∀ x ∈ staged, x.1.firstError = none
  count : staged.length = request.preflight.recordCount
  keys : hexDigest (sha256 (staged.flatMap fun x => keyBytes x.1))
    = request.preflight.recordKeysSha256
  warnings : (staged.map fun x => x.2.warningCount).sum = request.preflight.warningCount

/-! ### What the loop carries -/

theorem after_count (progress : Progress) (staged : Staged) :
    (progress.after staged).count = progress.count + staged.length := by
  induction staged generalizing progress with
  | nil => rfl
  | cons x staged ih =>
      show (Progress.after _ staged).count = _
      rw [ih]
      simp only [Progress.stage, Progress.hash, List.length_cons]
      omega

theorem after_recordKeys (progress : Progress) (staged : Staged) :
    (progress.after staged).recordKeys
      = progress.recordKeys ++ staged.flatMap fun x => keyBytes x.1 := by
  induction staged generalizing progress with
  | nil => simp [Progress.after]
  | cons x staged ih =>
      show (Progress.after _ staged).recordKeys = _
      rw [ih]
      simp [Progress.stage, Progress.hash]

theorem after_warningCount (progress : Progress) (staged : Staged) :
    (progress.after staged).report.warningCount
      = progress.report.warningCount + (staged.map fun x => x.2.warningCount).sum := by
  induction staged generalizing progress with
  | nil => rfl
  | cons x staged ih =>
      show (Progress.after _ staged).report.warningCount = _
      rw [ih]
      simp only [Progress.stage, Progress.hash, List.map_cons, List.sum_cons]
      omega

/-! ### The loop -/

variable {σ : Type*} {sha256 : List UInt8 → List UInt8} {store : Store σ}
variable {request : ImportRequest} {stream : RecordStream} {env env' : σ}
variable {calls : List Event} {runId attemptId : ℤ}

/-- **The loop**: it stops at its first failure, stages no record that carries
an error, and ends well only after a clean pass over the whole stream. -/
theorem consumeLoop_spec {progress : Progress} {result : Except ImportError Progress}
    (h : consumeLoop store stream progress env = (result, env', calls)) :
    StopsAtFailure calls ∧ (∀ e ∈ calls, e.Consumes) ∧
    ∀ last, result = .ok last → ∃ staged : Staged,
      stream = staged.map (fun x => .ok x.1) ∧ (∀ x ∈ staged, x.1.firstError = none) ∧
      calls = stageCalls staged ∧ last = progress.after staged := by
  induction stream generalizing progress env calls with
  | nil =>
      obtain ⟨rfl, rfl, rfl⟩ := by simpa [consumeLoop] using h
      refine ⟨List.pairwise_singleton _ _, by simp [Event.Consumes], ?_⟩
      rintro last hlast
      obtain rfl := Except.ok.inj hlast
      exact ⟨[], rfl, by simp, rfl, rfl⟩
  | cons item stream ih =>
      cases item with
      | error error =>
          obtain ⟨rfl, rfl, rfl⟩ := by simpa [consumeLoop] using h
          exact ⟨List.pairwise_singleton _ _, by simp [Event.Consumes], by simp⟩
      | ok record =>
          simp only [consumeLoop] at h
          split at h
          · rename_i issue hissue
            obtain ⟨rfl, rfl, rfl⟩ := by simpa using h
            exact ⟨List.pairwise_singleton _ _, by simp [Event.Consumes], by simp⟩
          · rename_i hclean
            split at h
            · obtain ⟨rfl, rfl, rfl⟩ := by simpa using h
              refine ⟨?_, by simp [Event.Consumes, hclean], by simp⟩
              simp [StopsAtFailure, Event.IsFailure, hclean]
            · rename_i outcome env₁ _
              obtain ⟨rfl, rfl, rfl⟩ := by simpa using h
              obtain ⟨hstops, hconsumes, hend⟩ := ih rfl
              refine ⟨?_, ?_, ?_⟩
              · -- neither the record nor its staging is a failure
                simp [StopsAtFailure, Event.IsFailure, hclean] at hstops ⊢
                exact hstops
              · simpa [Event.Consumes, hclean] using hconsumes
              · intro last hlast
                obtain ⟨staged, rfl, hloadable, hcalls, rfl⟩ := hend last hlast
                refine ⟨(record, outcome) :: staged, rfl, ?_, ?_, rfl⟩
                · simpa [hclean] using hloadable
                · rw [hcalls]
                  rfl

/-! ### Consuming the whole stream -/

theorem checkConsistency_ok {progress : Progress}
    (h : checkConsistency sha256 request progress = .ok ()) :
    progress.count = request.preflight.recordCount ∧
    hexDigest (sha256 progress.recordKeys) = request.preflight.recordKeysSha256 ∧
    progress.report.warningCount = request.preflight.warningCount := by
  unfold checkConsistency at h
  split at h
  · cases h
  · split at h
    · cases h
    · split at h
      · cases h
      · exact ⟨not_not.mp ‹_›, not_not.mp ‹_›, not_not.mp ‹_›⟩

theorem not_isFailure_of_mem_stageCalls {staged : Staged}
    (h : ∀ x ∈ staged, x.1.firstError = none) : ∀ e ∈ stageCalls staged, ¬ e.IsFailure := by
  induction staged with
  | nil => simp [stageCalls, Event.IsFailure]
  | cons x staged ih =>
      obtain ⟨hx, hstaged⟩ := List.forall_mem_cons.mp h
      simp only [stageCalls, List.forall_mem_cons]
      exact ⟨by simp [Event.IsFailure, hx], by simp [Event.IsFailure], ih hstaged⟩

theorem stopsAtFailure_append {l₁ l₂ : List Event} (h₁ : ∀ e ∈ l₁, ¬ e.IsFailure)
    (h₂ : StopsAtFailure l₂) : StopsAtFailure (l₁ ++ l₂) := by
  refine List.pairwise_append.mpr ⟨?_, h₂, fun e he _ _ => h₁ e he⟩
  exact List.pairwise_iff_forall_sublist.mpr fun hs =>
    h₁ _ (hs.subset List.mem_cons_self)

/-- `consume_records` ends well only if the whole stream was staged, agreed
with the preflight, and the views were rebuilt. -/
theorem consumeRecords_spec {result : Except ImportError ImportReport}
    (h : consumeRecords sha256 store request stream runId attemptId env
      = (result, env', calls)) :
    StopsAtFailure calls ∧ (∀ e ∈ calls, e.Consumes) ∧
    ∀ report, result = .ok report → ∃ staged, Consumed sha256 request stream staged ∧
      calls = stageCalls staged ++ [.refresh (.ok ())] := by
  unfold consumeRecords at h
  split at h
  · -- the loop failed, and nothing came behind it
    rename_i error env₁ calls₁ hloop
    obtain ⟨rfl, rfl, rfl⟩ := by simpa using h
    obtain ⟨hstops, hconsumes, -⟩ := consumeLoop_spec hloop
    exact ⟨hstops, hconsumes, by simp⟩
  · rename_i progress env₁ calls₁ hloop
    obtain ⟨hstops, hconsumes, hend⟩ := consumeLoop_spec hloop
    obtain ⟨staged, hall, hloadable, rfl, rfl⟩ := hend progress rfl
    -- all records are staged and loadable; the totals are compared next
    have hclean := not_isFailure_of_mem_stageCalls hloadable
    split at h
    · obtain ⟨rfl, rfl, rfl⟩ := by simpa using h
      exact ⟨hstops, hconsumes, by simp⟩
    · -- the totals agree, and the read model is refreshed
      rename_i hcheck
      have hrefresh : ∀ answer, StopsAtFailure (stageCalls staged ++ [.refresh answer]) :=
        fun answer => stopsAtFailure_append hclean (List.pairwise_singleton _ _)
      have hrefresh' : ∀ answer, ∀ e ∈ stageCalls staged ++ [.refresh answer], e.Consumes := by
        intro answer e he
        rcases List.mem_append.mp he with he | he
        · exact hconsumes e he
        · obtain rfl := List.mem_singleton.mp he
          trivial
      split at h
      · obtain ⟨rfl, rfl, rfl⟩ := by simpa using h
        exact ⟨hrefresh _, hrefresh' _, by simp⟩
      · obtain ⟨rfl, rfl, rfl⟩ := by simpa using h
        refine ⟨hrefresh _, hrefresh' _, fun report _ => ⟨staged, ?_, rfl⟩⟩
        obtain ⟨hcount, hkeys, hwarnings⟩ := checkConsistency_ok hcheck
        rw [after_count] at hcount
        rw [after_recordKeys] at hkeys
        rw [after_warningCount] at hwarnings
        exact ⟨hall, hloadable, by simpa using hcount, by simpa using hkeys,
          by simpa [startReport] using hwarnings⟩

/-! ### The four endings -/

/-- How an import can end once its stream was consumed. -/
inductive Ending (sha256 : List UInt8 → List UInt8) (request : ImportRequest)
    (stream : RecordStream) : Except ImportError ImportReport → List Event → Prop
  | done {staged report} : Consumed sha256 request stream staged →
      Ending sha256 request stream (.ok report) (stageCalls staged ++
        [.refresh (.ok ()), .markSucceeded report (.ok ()), .commit (.ok ())])
  | rolledBack {calls error answer runId attemptId code message audit} :
      StopsAtFailure calls → (∀ e ∈ calls, e.Consumes) →
      Ending sha256 request stream (.error error) (calls ++
        [.rollback answer, .markFailed runId attemptId code message audit])
  | notMarked {staged report error error' answer runId attemptId code message audit} :
      Consumed sha256 request stream staged →
      Ending sha256 request stream (.error error) (stageCalls staged ++
        [.refresh (.ok ()), .markSucceeded report (.error error'), .rollback answer,
          .markFailed runId attemptId code message audit])
  | notCommitted {staged report error error' runId attemptId code message audit} :
      Consumed sha256 request stream staged →
      Ending sha256 request stream (.error error) (stageCalls staged ++
        [.refresh (.ok ()), .markSucceeded report (.ok ()), .commit (.error error'),
          .markFailed runId attemptId code message audit])

theorem importReady_ending {result : Except ImportError ImportReport}
    (h : importReady sha256 store request stream runId attemptId env = (result, env', calls)) :
    Ending sha256 request stream result calls := by
  unfold importReady at h
  split at h
  · rename_i error env₁ calls₁ hconsume
    obtain ⟨hstops, hconsumes, -⟩ := consumeRecords_spec hconsume
    obtain ⟨rfl, -, rfl⟩ := by simpa using h
    exact .rolledBack hstops hconsumes
  · rename_i report env₁ calls₁ hconsume
    obtain ⟨-, -, hend⟩ := consumeRecords_spec hconsume
    obtain ⟨staged, hconsumed, rfl⟩ := hend report rfl
    split at h
    · obtain ⟨rfl, -, rfl⟩ := by simpa using h
      exact .notMarked hconsumed
    · split at h
      · obtain ⟨rfl, -, rfl⟩ := by simpa using h
        exact .notCommitted hconsumed
      · obtain ⟨rfl, -, rfl⟩ := by simpa using h
        exact .done hconsumed

/-! ### What every ending promises -/

/-- The promises of an import, about its result and its calls. -/
structure AllOrNothing (sha256 : List UInt8 → List UInt8) (request : ImportRequest)
    (stream : RecordStream) (result : Except ImportError ImportReport)
    (calls : List Event) : Prop where
  /-- Ok only after a complete, consistent pass that was marked and committed. -/
  ok : ∀ report, result = .ok report → ∃ staged, Consumed sha256 request stream staged ∧
    calls = stageCalls staged ++
      [.refresh (.ok ()), .markSucceeded report (.ok ()), .commit (.ok ())]
  /-- Nothing is committed or staged after a failure. -/
  afterFailure : calls.Pairwise fun e e' =>
    e.IsFailure → e'.isCommit = false ∧ e'.isStage = false
  /-- Nor committed when a comparison with the preflight fails. -/
  commitChecked : ∀ e ∈ calls, e.isCommit → ∃ staged, Consumed sha256 request stream staged
  staged : ∀ record answer, .stage record answer ∈ calls →
    ∀ issue ∈ record.issues, issue.severity ≠ .error
  oneEnd : calls.countP Event.isCommit + calls.countP Event.isRollback = 1
  audited : calls.countP Event.isMarkFailed =
    match result with
    | .ok _ => 0
    | .error _ => 1

theorem Event.Consumes.silent {e : Event} (h : e.Consumes) :
    e.isCommit = false ∧ e.isRollback = false ∧ e.isMarkFailed = false := by
  cases e with
  | next answer => exact ⟨rfl, rfl, rfl⟩
  | stage record answer => exact ⟨rfl, rfl, rfl⟩
  | refresh answer => exact ⟨rfl, rfl, rfl⟩
  | markSucceeded report answer => cases h
  | commit answer => cases h
  | rollback answer => cases h
  | markFailed runId attemptId code message answer => cases h

theorem consumes_of_mem_stageCalls {staged : Staged}
    (h : ∀ x ∈ staged, x.1.firstError = none) : ∀ e ∈ stageCalls staged, e.Consumes := by
  induction staged with
  | nil => simp [stageCalls, Event.Consumes]
  | cons x staged ih =>
      obtain ⟨hx, hstaged⟩ := List.forall_mem_cons.mp h
      simp only [stageCalls, List.forall_mem_cons]
      exact ⟨trivial, hx, ih hstaged⟩

section Consuming

variable (hconsumes : ∀ e ∈ calls, e.Consumes)
include hconsumes

/-- Consuming neither ends the transaction nor audits. -/
theorem countP_of_consumes :
    calls.countP Event.isCommit = 0 ∧ calls.countP Event.isRollback = 0 ∧
      calls.countP Event.isMarkFailed = 0 := by
  refine ⟨?_, ?_, ?_⟩ <;> rw [List.countP_eq_zero] <;> intro e he
  · simp [(hconsumes e he).silent.1]
  · simp [(hconsumes e he).silent.2.1]
  · simp [(hconsumes e he).silent.2.2]

theorem staged_of_consumes {record : PreparedAircraftRecord}
    {answer : Except PersistenceError RecordOutcome} (h : .stage record answer ∈ calls) :
    ∀ issue ∈ record.issues, issue.severity ≠ .error := by
  intro issue hissue herror
  have hnone : record.firstError = none := hconsumes _ h
  have := List.find?_eq_none.mp hnone issue hissue
  simp [herror] at this

end Consuming

/-- An ending whose tail neither commits nor stages. -/
theorem afterFailure_of_stops {tail : List Event} (hstops : StopsAtFailure calls)
    (htail : ∀ e ∈ tail, e.isCommit = false ∧ e.isStage = false) :
    (calls ++ tail).Pairwise fun e e' =>
      e.IsFailure → e'.isCommit = false ∧ e'.isStage = false := by
  refine List.pairwise_append.mpr ⟨hstops.imp fun h he => absurd he h, ?_, ?_⟩
  · exact List.pairwise_iff_forall_sublist.mpr fun hs _ =>
      htail _ (hs.subset (List.mem_cons_of_mem _ List.mem_cons_self))
  · exact fun _ _ e' he' _ => htail e' he'

/-- An ending after a clean pass. -/
theorem afterFailure_of_clean {tail : List Event} (hclean : ∀ e ∈ calls, ¬ e.IsFailure)
    (htail : tail.Pairwise fun e e' =>
      e.IsFailure → e'.isCommit = false ∧ e'.isStage = false) :
    (calls ++ tail).Pairwise fun e e' =>
      e.IsFailure → e'.isCommit = false ∧ e'.isStage = false := by
  refine List.pairwise_append.mpr ⟨?_, htail, fun e he _ _ hfail => absurd hfail (hclean e he)⟩
  exact List.pairwise_iff_forall_sublist.mpr fun hs hfail =>
    absurd hfail (hclean _ (hs.subset List.mem_cons_self))

theorem Ending.allOrNothing {result : Except ImportError ImportReport}
    (h : Ending sha256 request stream result calls) :
    AllOrNothing sha256 request stream result calls := by
  cases h with
  | @done staged report hconsumed =>
      -- it committed, once and at the end
      have hconsumes := consumes_of_mem_stageCalls hconsumed.loadable
      obtain ⟨hcommit, hrollback, haudit⟩ := countP_of_consumes hconsumes
      refine ⟨?_, ?_, fun _ _ _ => ⟨staged, hconsumed⟩, fun record answer hs => ?_, ?_, ?_⟩
      · rintro report' hreport
        obtain rfl := Except.ok.inj hreport
        exact ⟨staged, hconsumed, rfl⟩
      · apply afterFailure_of_clean (not_isFailure_of_mem_stageCalls hconsumed.loadable)
        simp [Event.IsFailure]
      · exact staged_of_consumes hconsumes (by simpa using hs)
      · rw [List.countP_append, List.countP_append, hcommit, hrollback]
        rfl
      · rw [List.countP_append, haudit]
        rfl
  | @rolledBack calls error answer runId attemptId code message audit hstops hconsumes =>
      -- it failed before the commit: one rollback, one audit, nothing staged behind
      obtain ⟨hcommit, hrollback, haudit⟩ := countP_of_consumes hconsumes
      refine ⟨by simp, ?_, fun e he hc => ?_, fun record answer hs => ?_, ?_, ?_⟩
      · apply afterFailure_of_stops hstops
        simp [Event.isCommit, Event.isStage]
      · rcases List.mem_append.mp he with he | he
        · rw [(hconsumes e he).silent.1] at hc
          cases hc
        · simp only [List.mem_cons, List.not_mem_nil, or_false] at he
          rcases he with rfl | rfl <;> cases hc
      · exact staged_of_consumes hconsumes (by simpa using hs)
      · rw [List.countP_append, List.countP_append, hcommit, hrollback]
        rfl
      · rw [List.countP_append, haudit]
        rfl
  | @notMarked staged report error error' answer runId attemptId code message audit hconsumed =>
      -- the run could not be marked
      have hconsumes := consumes_of_mem_stageCalls hconsumed.loadable
      obtain ⟨hcommit, hrollback, haudit⟩ := countP_of_consumes hconsumes
      refine ⟨by simp, ?_, fun _ _ _ => ⟨staged, hconsumed⟩, fun record answer hs => ?_, ?_, ?_⟩
      · apply afterFailure_of_clean (not_isFailure_of_mem_stageCalls hconsumed.loadable)
        simp [Event.isCommit, Event.isStage]
      · exact staged_of_consumes hconsumes (by simpa using hs)
      · rw [List.countP_append, List.countP_append, hcommit, hrollback]
        rfl
      · rw [List.countP_append, haudit]
        rfl
  | @notCommitted staged report error error' runId attemptId code message audit hconsumed =>
      -- the commit itself failed
      have hconsumes := consumes_of_mem_stageCalls hconsumed.loadable
      obtain ⟨hcommit, hrollback, haudit⟩ := countP_of_consumes hconsumes
      refine ⟨by simp, ?_, fun _ _ _ => ⟨staged, hconsumed⟩, fun record answer hs => ?_, ?_, ?_⟩
      · apply afterFailure_of_clean (not_isFailure_of_mem_stageCalls hconsumed.loadable)
        simp [Event.isCommit, Event.isStage, Event.IsFailure]
      · exact staged_of_consumes hconsumes (by simpa using hs)
      · rw [List.countP_append, List.countP_append, hcommit, hrollback]
        rfl
      · rw [List.countP_append, haudit]
        rfl

/-- **All or nothing, and audited**: for every stream and every store, whatever
fails. -/
theorem import_all_or_nothing (sha256 : List UInt8 → List UInt8) (store : Store σ)
    (request : ImportRequest) (stream : RecordStream) (env : σ)
    (hready : ∃ runId attemptId, (store.startImport request env).1 = .ok (.ready runId attemptId)) :
    AllOrNothing sha256 request stream
      (importRecords sha256 store request stream env).1
      (importRecords sha256 store request stream env).2.2 := by
  obtain ⟨runId, attemptId, hstart⟩ := hready
  unfold importRecords
  split
  · simp_all
  · simp_all
  · simp_all
  · exact (importReady_ending rfl).allOrNothing

/-! ### A store that loses its connection -/

/-- The store's connection breaks. -/
def connectionLost : PersistenceError := .database "08006" "connection failure"

/-- Everything after the start fails. -/
def lostStore : Store Unit where
  startImport := fun _ env => (.ok (.ready 1 1), env)
  stageAndPromote := fun _ env => (.error connectionLost, env)
  refreshReadModels := fun env => (.error connectionLost, env)
  markSucceeded := fun _ env => (.error connectionLost, env)
  commit := fun env => (.error connectionLost, env)
  rollback := fun env => (.error connectionLost, env)
  markFailed := fun _ _ _ _ env => (.error connectionLost, env)

def emptyRequest : ImportRequest where
  source := ⟨"planephd", "PlanePHD", none, "planephd-json", "1.8.0"⟩
  artifact := ⟨"", 2, "aircraft.json"⟩
  preflight := ⟨1, 0, ""⟩

/-- A stream that breaks off after a parse error, over the lost connection:
rolled back and audited, though both calls fail. -/
theorem import_all_or_nothing_lostStore :
    AllOrNothing (fun bytes => bytes) emptyRequest [.error (.invalid "INVALID_JSON" "eof")]
      (importRecords (fun bytes => bytes) lostStore emptyRequest
        [.error (.invalid "INVALID_JSON" "eof")] ()).1
      (importRecords (fun bytes => bytes) lostStore emptyRequest
        [.error (.invalid "INVALID_JSON" "eof")] ()).2.2 :=
  import_all_or_nothing _ lostStore emptyRequest _ () ⟨1, 1, rfl⟩

end ImportService

end AircraftApi
