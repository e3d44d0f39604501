/-
AircraftApi/ImportService.lean

`IngestionService::import`: one pass over a record stream inside one unit of
work, with the failure audit after it.

The store and the unit of work are whatever they are: functions on a state of
their own that may fail at any call (`Store`).  The service returns its result,
their state, and the calls it made in order, each with its answer (`Event`);
what the service promises is a statement about that list.  `consumeLoop`
recurses over the stream, so a run ends with it.  The counters are naturals: a
count beyond `u64` panics in the code, and a panic aborts the process.

The hash is a parameter.  Feeding it piece by piece is feeding it the pieces
joined, so the loop carries the bytes and hashes at the end.
-/
import AircraftApi.Ingestion
import Mathlib.Data.List.Basic

namespace AircraftApi

/-! ### The store -/

/-- What the store answers to the start of an import. -/
inductive ImportStart
  | alreadySucceeded (report : ImportReport)
  | busy
  | ready (runId attemptId : ℤ)

/-- The `IngestionStore` and the unit of work it hands out, over a state `σ`. -/
structure Store (σ : Type*) where
  startImport : ImportRequest → σ → Except PersistenceError ImportStart × σ
  stageAndPromote : PreparedAircraftRecord → σ → Except PersistenceError RecordOutcome × σ
  refreshReadModels : σ → Except PersistenceError Unit × σ
  markSucceeded : ImportReport → σ → Except PersistenceError Unit × σ
  commit : σ → Except PersistenceError Unit × σ
  rollback : σ → Except PersistenceError Unit × σ
  markFailed : ℤ → ℤ → String → String → σ → Except PersistenceError Unit × σ

/-- What `next_record` delivers, until it delivers the end. -/
abbrev RecordStream := List (Except PreparedInputError PreparedAircraftRecord)

namespace ImportService

/-- A call the service made after `start_import`, and its answer. -/
inductive Event
  | next (answer : Except PreparedInputError (Option PreparedAircraftRecord))
  | stage (record : PreparedAircraftRecord) (answer : Except PersistenceError RecordOutcome)
  | refresh (answer : Except PersistenceError Unit)
  | markSucceeded (report : ImportReport) (answer : Except PersistenceError Unit)
  | commit (answer : Except PersistenceError Unit)
  | rollback (answer : Except PersistenceError Unit)
  | markFailed (runId attemptId : ℤ) (code message : String)
      (answer : Except PersistenceError Unit)

/-- A result, the store's state after it, and the calls it took. -/
abbrev Ran (σ α : Type*) := α × σ × List Event

/-! ### Consuming the stream -/

/-- The bytes a record adds to the key digest. -/
def keyBytes (record : PreparedAircraftRecord) : List UInt8 :=
  record.sourceRecordKey.toUTF8.data.toList ++ [0]

/-- What the loop of `consume_records` carries. -/
structure Progress where
  count : ℕ
  recordKeys : List UInt8
  report : ImportReport

/-- The counters after one staged record. -/
def Progress.stage (progress : Progress) (outcome : RecordOutcome) : Progress :=
  { progress with
    count := progress.count + 1
    report := { progress.report with
      stagedRecords := progress.report.stagedRecords + (if outcome.staged then 1 else 0)
      promotedRecords := progress.report.promotedRecords + 1
      flaggedRecords := progress.report.flaggedRecords +
        (match outcome.disposition with
          | .promoted => 0
          | .flagged => 1)
      warningCount := progress.report.warningCount + outcome.warningCount } }

/-- The record's key is counted. -/
def Progress.hash (progress : Progress) (record : PreparedAircraftRecord) : Progress :=
  { progress with recordKeys := progress.recordKeys ++ keyBytes record }

/-- Two lowercase hexadecimal digits, `{byte:02x}`. -/
def hexByte (byte : UInt8) : List Char :=
  let digits := Nat.toDigits 16 byte.toNat
  List.replicate (2 - digits.length) '0' ++ digits

/-- `aircraft_app`'s `hex_digest`. -/
def hexDigest (bytes : List UInt8) : String := String.ofList (bytes.flatMap hexByte)

variable {σ : Type*} (sha256 : List UInt8 → List UInt8) (store : Store σ)

/-- The `while let` of `consume_records`. -/
def consumeLoop : RecordStream → Progress → σ → Ran σ (Except ImportError Progress)
  | [], progress, env => (.ok progress, env, [.next (.ok none)])
  | .error error :: _, _, env => (.error (.input error), env, [.next (.error error)])
  | .ok record :: rest, progress, env =>
      match record.firstError with
      | some issue =>
          (.error (.input (.invalid issue.code issue.message)), env,
            [.next (.ok (some record))])
      | none =>
          match store.stageAndPromote record env with
          | (.error error, env) =>
              (.error (.persistence error), env,
                [.next (.ok (some record)), .stage record (.error error)])
          | (.ok outcome, env) =>
              let (result, env, calls) :=
                consumeLoop rest ((progress.hash record).stage outcome) env
              (result, env, .next (.ok (some record)) :: .stage record (.ok outcome) :: calls)

/-- The report `consume_records` starts with. -/
def startReport (request : ImportRequest) (runId attemptId : ℤ) : ImportReport where
  schemaVersion := reportSchemaVersion
  runId := runId
  attemptId := attemptId
  status := .succeeded
  contentSha256 := request.artifact.contentSha256
  stagedRecords := 0
  promotedRecords := 0
  flaggedRecords := 0
  warningCount := 0
  alreadyImported := false

/-- The three comparisons with the preflight summary, in order. -/
def checkConsistency (request : ImportRequest) (progress : Progress) :
    Except ImportError Unit :=
  if progress.count ≠ request.preflight.recordCount then
    .error (.parserConsistency request.preflight.recordCount progress.count)
  else if hexDigest (sha256 progress.recordKeys) ≠ request.preflight.recordKeysSha256 then
    .error .parserRecordKeysMismatch
  else if progress.report.warningCount ≠ request.preflight.warningCount then
    .error (.warningCountMismatch request.preflight.warningCount progress.report.warningCount)
  else .ok ()

/-- `consume_records`. -/
def consumeRecords (request : ImportRequest) (stream : RecordStream) (runId attemptId : ℤ)
    (env : σ) : Ran σ (Except ImportError ImportReport) :=
  match consumeLoop store stream ⟨0, [], startReport request runId attemptId⟩ env with
  | (.error error, env, calls) => (.error error, env, calls)
  | (.ok progress, env, calls) =>
      match checkConsistency sha256 request progress with
      | .error error => (.error error, env, calls)
      | .ok () =>
          match store.refreshReadModels env with
          | (.error error, env) =>
              (.error (.persistence error), env, calls ++ [.refresh (.error error)])
          | (.ok (), env) => (.ok progress.report, env, calls ++ [.refresh (.ok ())])

/-! ### The import -/

/-- `audit_failure`. -/
def auditFailure (runId attemptId : ℤ) (error : ImportError) (env : σ) : Ran σ Unit :=
  let message := sanitizeFailure error.message
  let (answer, env) := store.markFailed runId attemptId error.code message env
  ((), env, [.markFailed runId attemptId error.code message answer])

/-- `rollback_and_audit`. -/
def rollbackAndAudit (runId attemptId : ℤ) (error : ImportError) (env : σ) : Ran σ Unit :=
  let (answer, env) := store.rollback env
  let ((), env, calls) := auditFailure store runId attemptId error env
  ((), env, .rollback answer :: calls)

/-- `import` once the start was answered Ready. -/
def importReady (request : ImportRequest) (stream : RecordStream) (runId attemptId : ℤ)
    (env : σ) : Ran σ (Except ImportError ImportReport) :=
  match consumeRecords sha256 store request stream runId attemptId env with
  | (.error error, env, calls) =>
      let ((), env, audit) := rollbackAndAudit store runId attemptId error env
      (.error error, env, calls ++ audit)
  | (.ok report, env, calls) =>
      match store.markSucceeded report env with
      | (.error error, env) =>
          let ((), env, audit) :=
            rollbackAndAudit store runId attemptId (.persistence error) env
          (.error (.persistence error), env,
            calls ++ .markSucceeded report (.error error) :: audit)
      | (.ok (), env) =>
          match store.commit env with
          | (.error error, env) =>
              let ((), env, audit) :=
                auditFailure store runId attemptId (.persistence error) env
              (.error (.persistence error), env,
                calls ++ .markSucceeded report (.ok ()) :: .commit (.error error) :: audit)
          | (.ok (), env) =>
              (.ok report, env, calls ++ [.markSucceeded report (.ok ()), .commit (.ok ())])

/-- `IngestionService::import`. -/
def importRecords (request : ImportRequest) (stream : RecordStream) (env : σ) :
    Ran σ (Except ImportError ImportReport) :=
  match store.startImport request env with
  | (.error error, env) => (.error (.persistence error), env, [])
  | (.ok (.alreadySucceeded report), env) => (.ok report, env, [])
  | (.ok .busy, env) => (.error .alreadyRunning, env, [])
  | (.ok (.ready runId attemptId), env) =>
      importReady sha256 store request stream runId attemptId env

end ImportService

end AircraftApi
