/-
AircraftApi/ImportCommand.lean

`aircraft-ingest validate` and `aircraft-ingest import`, from the input to the exit code.

Both capture their input, reopen what they captured and run the preflight over it; the
second then reads the same file again, record by record (`PlanePhd.outcome_iff` is about the
thread that parses them).  What a command meets outside, its settings, the disk, the store
and the report file, is whatever it is (`Host`).  The captured file may fail to be read in
either pass; the JSON reader reports that like a document that breaks off there (`reading`).

    2 settings   3 input and files   4 document   5 busy   6 store   7 internal

An import of a document that passed its preflight and is read again ends in none of the
errors that blame the document (`import_faults`), whatever the store answers, so exit code 4
is the verdict of the preflight, or of a second reading that failed (`exit_four_iff`), and
`validate` gives the first (`validated_not_refused`).
-/
import AircraftApi.Artifact
import AircraftApi.ParserThread

namespace AircraftApi

namespace ImportCommand

open Artifact ImportService PlanePhd

/-! ### The command -/

/-- `SourceError`, the faults of the file and of the thread included. -/
inductive SourceFault
  | artifact (error : ArtifactError)
  | document (error : SourceError)
  | parserThread (source : String)

/-- The code a refused source is reported with. -/
def SourceFault.code : SourceFault → String
  | artifact _ => "INPUT_ARTIFACT_ERROR"
  | document error => error.code
  | parserThread _ => "PARSER_THREAD_ERROR"

/-- What it says. -/
def SourceFault.message : SourceFault → String
  | artifact error => error.message
  | document error => error.message
  | parserThread source => s!"could not start parser thread: {source}"

/-- `source_failure`. -/
def SourceFault.exitCode : SourceFault → ℕ
  | artifact _ => 3
  | document _ => 4
  | parserThread _ => 7

/-- `import_failure`. -/
def importFailure : ImportError → ℕ
  | .alreadyRunning => 5
  | .input _ => 4
  | .persistence _ => 6
  | .parserConsistency _ _ | .warningCountMismatch _ _ | .parserRecordKeysMismatch => 7

/-- What `write_report` fails with: the file, or the document. -/
inductive ReportFault
  | file
  | json

/-- The exit code of a report that could not be written. -/
def ReportFault.exitCode : ReportFault → ℕ
  | file => 3
  | json => 7

/-- What the command reads: standard input, or a file it may fail to open. -/
inductive Input
  | stdin (reads : Artifact.Reads)
  | path (fileName : Option String) (opened : Except String Artifact.Reads)

/-- What a command meets outside. -/
structure Host (σ : Type*) where
  /-- `max_input_bytes`, where the settings load. -/
  settings : Option UInt64
  file : TempFile
  reopenPreflight : Except String Unit
  reopenRecords : Except String Unit
  /-- Where a read of the captured file fails: behind so many records, with this error. -/
  preflightRead : Option (ℕ × String)
  recordsRead : Option (ℕ × String)
  spawn : Except String Unit
  connects : Bool
  store : Store σ
  recordValidationFailure : SourceDescriptor → ArtifactDescriptor → String → String → σ →
    Except PersistenceError Unit × σ
  report : ImportReport → Except ReportFault Unit

/-- How a command ends. -/
inductive Exit (α : Type*)
  | success (value : α)
  | failure (code : ℕ)
  deriving DecidableEq

/-- The end of an import: its exit, the store's state, the audit of a refused document,
and the calls of the service. -/
structure Ended (σ : Type*) where
  exit : Exit ImportReport
  env : σ
  audit : Option (String × String)
  calls : List Event

variable {σ : Type*} (crates : Crates) (deserialize : List UInt8 → Document) (host : Host σ)

/-- `PlanePhdAdapter::descriptor`. -/
def descriptor : SourceDescriptor where
  slug := "planephd"
  name := "PlanePHD"
  baseUrl := some "https://planephd.com"
  parserName := "planephd-json"
  parserVersion := "1.8.0"

/-- The artifact of the input. -/
def captureInput (maxBytes : UInt64) : Input → Except ArtifactError InputArtifact
  | .stdin reads => capture host.file maxBytes crates.sha256 reads "<stdin>"
  | .path fileName opened => capturePath host.file maxBytes crates.sha256 fileName opened

/-- What the JSON reader delivers where a read of the file may fail: the records up to
there, and an error like any other of it. -/
def reading (fault : Option (ℕ × String)) (bytes : List UInt8) : Document :=
  match fault with
  | none => deserialize bytes
  | some (records, message) => ⟨(deserialize bytes).entries.take records, .error message⟩

/-- `preflight`, on a file that has to be reopened. -/
def preflightArtifact (artifact : InputArtifact) : Except SourceFault PreflightSummary :=
  match host.reopenPreflight with
  | .error source => .error (.artifact (.temporaryFile source))
  | .ok () =>
      match preflight crates (reading deserialize host.preflightRead) artifact.contents with
      | .error error => .error (.document error)
      | .ok summary => .ok summary

/-- `open_records`, up to the spawned thread. -/
def openReader : Except SourceFault Unit :=
  match host.reopenRecords with
  | .error source => .error (.artifact (.temporaryFile source))
  | .ok () =>
      match host.spawn with
      | .error source => .error (.parserThread source)
      | .ok () => .ok ()

/-- `run` on `validate`. -/
def validateCommand (input : Input) : Exit PreflightSummary :=
  match host.settings with
  | none => .failure 2
  | some maxBytes =>
      match captureInput crates host maxBytes input with
      | .error _ => .failure 3
      | .ok artifact =>
          match preflightArtifact crates deserialize host artifact with
          | .error fault => .failure fault.exitCode
          | .ok summary => .success summary

/-- The import of an artifact that passed. -/
def importArtifact (artifact : InputArtifact) (summary : PreflightSummary) (env : σ) : Ended σ :=
  if host.connects then
    match openReader host with
    | .error fault => ⟨.failure fault.exitCode, env, none, []⟩
    | .ok () =>
        match importRecords crates.sha256 host.store ⟨descriptor, artifact.descriptor, summary⟩
            (openRecords crates (reading deserialize host.recordsRead) artifact.contents) env with
        | (.error error, env, calls) => ⟨.failure (importFailure error), env, none, calls⟩
        | (.ok report, env, calls) =>
            match host.report report with
            | .error fault => ⟨.failure fault.exitCode, env, none, calls⟩
            | .ok () => ⟨.success report, env, none, calls⟩
  else ⟨.failure 6, env, none, []⟩

/-- `run` on `import`. -/
def importCommand (input : Input) (env : σ) : Ended σ :=
  match host.settings with
  | none => ⟨.failure 2, env, none, []⟩
  | some maxBytes =>
      match captureInput crates host maxBytes input with
      | .error _ => ⟨.failure 3, env, none, []⟩
      | .ok artifact =>
          match preflightArtifact crates deserialize host artifact with
          | .error fault =>
              if host.connects then
                -- a failed audit is only printed
                let (_, env) := host.recordValidationFailure descriptor artifact.descriptor
                  fault.code fault.message env
                ⟨.failure fault.exitCode, env, some (fault.code, fault.message), []⟩
              else ⟨.failure fault.exitCode, env, none, []⟩
          | .ok summary => importArtifact crates deserialize host artifact summary env

/-! ### What an accepted document cannot fail with -/

section

variable {crates deserialize} {store : Store σ} {env env' : σ} {calls : List Event}

/-- The loop over records without errors fails where the store does. -/
theorem consumeLoop_clean {records : List PreparedAircraftRecord} {progress : Progress}
    {error : ImportError} (hclean : ∀ record ∈ records, record.firstError = none)
    (h : consumeLoop store (records.map .ok) progress env = (.error error, env', calls)) :
    ∃ fault, error = .persistence fault := by
  induction records generalizing progress env env' calls with
  | nil => cases h
  | cons record records ih =>
      obtain ⟨hrecord, hrecords⟩ := List.forall_mem_cons.mp hclean
      rw [List.map_cons, consumeLoop, hrecord] at h
      rcases hstage : store.stageAndPromote record env with ⟨fault | outcome, env₁⟩
      · simp only [hstage, Prod.mk.injEq, Except.error.injEq] at h
        exact ⟨fault, h.1.symm⟩
      · simp only [hstage, Prod.mk.injEq] at h
        obtain ⟨herror, -, -⟩ := h
        exact ih hrecords (Prod.ext herror rfl)

/-- The comparisons with the preflight of the same document: only the warnings, which the
store counts, can differ. -/
theorem checkConsistency_clean {bytes : List UInt8} {summary : PreflightSummary}
    (hpreflight : preflight crates deserialize bytes = .ok summary)
    {request : ImportRequest} (hrequest : request.preflight = summary) {staged : Staged}
    (hstaged : (recordsOf crates deserialize bytes).map Except.ok
      = staged.map fun x => (.ok x.1 : Except PreparedInputError PreparedAircraftRecord))
    {start : Progress} (hcount : start.count = 0) (hkeys : start.recordKeys = [])
    {error : ImportError}
    (h : checkConsistency crates.sha256 request (start.after staged) = .error error) :
    ∃ expected actual, error = .warningCountMismatch expected actual := by
  obtain ⟨-, -, hrecords, -, hdigest⟩ := preflight_ok crates deserialize hpreflight
  have hsame : recordsOf crates deserialize bytes = staged.map Prod.fst := by
    apply List.map_injective_iff.mpr (fun _ _ => Except.ok.inj)
    rw [List.map_map]
    exact hstaged
  have hn : (start.after staged).count = request.preflight.recordCount := by
    rw [after_count, hcount, hrequest, hrecords, hsame, List.length_map, Nat.zero_add]
  have hk : hexDigest (crates.sha256 (start.after staged).recordKeys)
      = request.preflight.recordKeysSha256 := by
    rw [after_recordKeys, hkeys, hexDigest_eq_hexDigestOf, hrequest, hdigest, hsame,
      List.flatMap_map]
    rfl
  rw [checkConsistency, if_neg (not_not.mpr hn), if_neg (not_not.mpr hk)] at h
  split_ifs at h
  exact ⟨_, _, (Except.error.inj h).symm⟩

/-- The errors that are nobody's fault but the store's, or another import's. -/
inductive StoreFault : ImportError → Prop
  | alreadyRunning : StoreFault .alreadyRunning
  | persistence (fault : PersistenceError) : StoreFault (.persistence fault)
  | warningCountMismatch (expected actual : ℕ) :
      StoreFault (.warningCountMismatch expected actual)

theorem consumeRecords_faults {bytes : List UInt8} {summary : PreflightSummary}
    (hpreflight : preflight crates deserialize bytes = .ok summary)
    {request : ImportRequest} (hrequest : request.preflight = summary) {runId attemptId : ℤ}
    {error : ImportError}
    (h : consumeRecords crates.sha256 store request (openRecords crates deserialize bytes)
      runId attemptId env = (.error error, env', calls)) : StoreFault error := by
  obtain ⟨houtcome, hclean, -⟩ := preflight_ok crates deserialize hpreflight
  rw [openRecords_of_ok crates deserialize houtcome, consumeRecords] at h
  split at h
  · rename_i fault env₁ calls₁ hloop
    obtain ⟨fault', rfl⟩ := consumeLoop_clean hclean hloop
    cases h
    exact .persistence fault'
  · rename_i progress env₁ calls₁ hloop
    obtain ⟨-, -, hend⟩ := consumeLoop_spec hloop
    obtain ⟨staged, hstaged, -, -, rfl⟩ := hend progress rfl
    split at h
    · rename_i fault hcheck
      obtain ⟨expected, actual, rfl⟩ :=
        checkConsistency_clean hpreflight hrequest hstaged rfl rfl hcheck
      cases h
      exact .warningCountMismatch expected actual
    · split at h
      · cases h
        exact .persistence _
      · cases h

/-- **Nothing is held against an accepted document**: whatever the store answers, an import
of it fails in the store, or finds another import under way. -/
theorem import_faults {bytes : List UInt8} {summary : PreflightSummary}
    (hpreflight : preflight crates deserialize bytes = .ok summary)
    {request : ImportRequest} (hrequest : request.preflight = summary) {error : ImportError}
    (h : importRecords crates.sha256 store request (openRecords crates deserialize bytes) env
      = (.error error, env', calls)) : StoreFault error := by
  rw [importRecords] at h
  split at h
  · cases h
    exact .persistence _
  · cases h
  · cases h
    exact .alreadyRunning
  · rw [importReady] at h
    split at h
    · rename_i fault env₁ calls₁ hconsume
      have hfault := consumeRecords_faults hpreflight hrequest hconsume
      cases h
      exact hfault
    · split at h
      · cases h
        exact .persistence _
      · split at h
        · cases h
          exact .persistence _
        · cases h

end

/-! ### The verdict of the preflight -/

/-- The settings load and the input is captured as this artifact. -/
def Captures (input : Input) (artifact : InputArtifact) : Prop :=
  ∃ maxBytes, host.settings = some maxBytes ∧
    captureInput crates host maxBytes input = .ok artifact

/-- The document of the input, captured and reopened, is refused by its preflight. -/
def Refuses (input : Input) (error : SourceError) : Prop :=
  ∃ artifact, Captures crates host input artifact ∧ host.reopenPreflight = .ok () ∧
    preflight crates (reading deserialize host.preflightRead) artifact.contents = .error error

/-- The document passed its preflight, and a read of the file failed in the second pass;
the import took that for an error of the document. -/
def Interrupted (input : Input) (env : σ) : Prop :=
  ∃ artifact summary error env' calls, Captures crates host input artifact ∧
    preflightArtifact crates deserialize host artifact = .ok summary ∧
    host.connects = true ∧ openReader host = .ok () ∧ host.recordsRead.isSome = true ∧
    importRecords crates.sha256 host.store ⟨descriptor, artifact.descriptor, summary⟩
      (openRecords crates (reading deserialize host.recordsRead) artifact.contents) env
      = (.error (.input error), env', calls)

section

variable {crates deserialize host} {input : Input} {env : σ}

theorem importFailure_eq_four {error : ImportError} :
    importFailure error = 4 ↔ ∃ input, error = .input input := by
  constructor
  · intro h
    cases error with
    | input input => exact ⟨input, rfl⟩
    | _ => exact absurd h (by simp [importFailure])
  · rintro ⟨input, rfl⟩
    rfl

theorem StoreFault.ne_input {error : ImportError} (h : StoreFault error)
    (input : PreparedInputError) : error ≠ .input input := by
  cases h <;> exact nofun

/-- A preflight that passes has read the whole file. -/
theorem preflight_reading {fault : Option (ℕ × String)} {bytes : List UInt8}
    {summary : PreflightSummary}
    (h : preflight crates (reading deserialize fault) bytes = .ok summary) :
    fault = none ∧ preflight crates deserialize bytes = .ok summary := by
  rcases fault with - | ⟨records, message⟩
  · exact ⟨rfl, h⟩
  · have houtcome := (preflight_ok crates (reading deserialize (some (records, message))) h).1
    cases houtcome

theorem preflightArtifact_ok {artifact : InputArtifact} {summary : PreflightSummary}
    (h : preflightArtifact crates deserialize host artifact = .ok summary) :
    host.preflightRead = none ∧ preflight crates deserialize artifact.contents = .ok summary := by
  rw [preflightArtifact] at h
  split at h
  · cases h
  · split at h
    · cases h
    · rename_i hpreflight
      cases h
      exact preflight_reading hpreflight

theorem preflightArtifact_document {artifact : InputArtifact} {fault : SourceFault}
    (h : preflightArtifact crates deserialize host artifact = .error fault) :
    fault.exitCode = 4 ↔ ∃ error, fault = .document error ∧ host.reopenPreflight = .ok () ∧
      preflight crates (reading deserialize host.preflightRead) artifact.contents
        = .error error := by
  rw [preflightArtifact] at h
  split at h
  · cases h
    refine ⟨fun hcode => absurd hcode (show (3 : ℕ) ≠ 4 by decide), ?_⟩
    rintro ⟨error, hfault, -⟩
    cases hfault
  · rename_i hreopen
    split at h
    · rename_i error hpreflight
      cases h
      exact ⟨fun _ => ⟨error, rfl, hreopen, hpreflight⟩, fun _ => rfl⟩
    · cases h

theorem openReader_ne_four {fault : SourceFault} (h : openReader host = .error fault) :
    fault.exitCode ≠ 4 := by
  rw [openReader] at h
  split at h
  · cases h
    show (3 : ℕ) ≠ 4
    decide
  · split at h
    · cases h
      show (7 : ℕ) ≠ 4
      decide
    · cases h

/-- The import of an accepted artifact ends with 4 where its second reading failed. -/
theorem importArtifact_four {artifact : InputArtifact} {summary : PreflightSummary}
    (h : preflight crates deserialize artifact.contents = .ok summary) :
    (importArtifact crates deserialize host artifact summary env).exit = .failure 4 ↔
      host.connects = true ∧ openReader host = .ok () ∧ host.recordsRead.isSome = true ∧
      ∃ error env' calls, importRecords crates.sha256 host.store
        ⟨descriptor, artifact.descriptor, summary⟩
        (openRecords crates (reading deserialize host.recordsRead) artifact.contents) env
        = (.error (.input error), env', calls) := by
  rw [importArtifact]
  by_cases hconnects : host.connects = true
  swap
  · rw [if_neg hconnects]
    exact iff_of_false (fun hexit => absurd (Exit.failure.inj hexit) (by decide))
      fun hright => hconnects hright.1
  rw [if_pos hconnects]
  rcases hopen : openReader host with fault | ⟨⟨⟩⟩
  · exact iff_of_false (fun hexit => openReader_ne_four hopen (Exit.failure.inj hexit))
      fun hright => nomatch hright.2.1
  rcases himport : importRecords crates.sha256 host.store ⟨descriptor, artifact.descriptor, summary⟩
    (openRecords crates (reading deserialize host.recordsRead) artifact.contents) env with
    ⟨error | report, env', calls⟩
  · dsimp only
    constructor
    · intro hexit
      obtain ⟨input, rfl⟩ := importFailure_eq_four.mp (Exit.failure.inj hexit)
      refine ⟨hconnects, rfl, ?_, input, env', calls, rfl⟩
      -- read to its end, the file would not have been held against the document
      rcases hread : host.recordsRead with - | fault
      · rw [hread] at himport
        exact absurd rfl ((import_faults h rfl himport).ne_input input)
      · rfl
    · rintro ⟨-, -, -, input, env₁, calls₁, heq⟩
      obtain rfl : error = .input input := Except.error.inj (Prod.mk.inj heq).1
      rfl
  · dsimp only
    refine iff_of_false ?_ ?_
    · split
      · rename_i fault hreport
        cases fault <;> exact fun hexit => absurd (Exit.failure.inj hexit) (by decide)
      · exact nofun
    · rintro ⟨-, -, -, input, env₁, calls₁, heq⟩
      cases heq

theorem Captures.unique {artifact artifact' : InputArtifact}
    (h : Captures crates host input artifact) (h' : Captures crates host input artifact') :
    artifact = artifact' := by
  obtain ⟨maxBytes, hsettings, hcapture⟩ := h
  obtain ⟨limit, hsettings', hcapture'⟩ := h'
  obtain rfl := Option.some.inj (hsettings.symm.trans hsettings')
  exact Except.ok.inj (hcapture.symm.trans hcapture')

/-- Of an input that is not captured, nothing is held against the document. -/
theorem exit_of_not_captured (h : ∀ artifact, ¬ Captures crates host input artifact) :
    (importCommand crates deserialize host input env).exit ≠ .failure 4 := by
  intro hexit
  rw [importCommand] at hexit
  split at hexit
  · exact absurd (Exit.failure.inj hexit) (by decide)
  · rename_i maxBytes hsettings
    split at hexit
    · exact absurd (Exit.failure.inj hexit) (by decide)
    · rename_i artifact hcapture
      exact h artifact ⟨maxBytes, hsettings, hcapture⟩

theorem exit_of_fault {artifact : InputArtifact} (h : Captures crates host input artifact)
    {fault : SourceFault}
    (hpreflight : preflightArtifact crates deserialize host artifact = .error fault) :
    (importCommand crates deserialize host input env).exit = .failure fault.exitCode := by
  obtain ⟨maxBytes, hsettings, hcapture⟩ := h
  simp only [importCommand, hsettings, hcapture, hpreflight]
  split_ifs <;> rfl

theorem importCommand_of_ok {artifact : InputArtifact} (h : Captures crates host input artifact)
    {summary : PreflightSummary}
    (hpreflight : preflightArtifact crates deserialize host artifact = .ok summary) :
    importCommand crates deserialize host input env
      = importArtifact crates deserialize host artifact summary env := by
  obtain ⟨maxBytes, hsettings, hcapture⟩ := h
  simp only [importCommand, hsettings, hcapture, hpreflight]

/-- The import of an artifact the preflight accepts, or refuses. -/
theorem importCommand_exit_four : (importCommand crates deserialize host input env).exit
      = .failure 4 ↔ (∃ error, Refuses crates deserialize host input error) ∨
        Interrupted crates deserialize host input env := by
  by_cases hcaptured : ∃ artifact, Captures crates host input artifact
  -- an input that is not captured exits with another code
  swap
  · refine iff_of_false (exit_of_not_captured fun artifact h => hcaptured ⟨artifact, h⟩) ?_
    rintro (⟨_, artifact, hcapture, -⟩ | ⟨artifact, _, _, _, _, hcapture, -⟩)
    · exact hcaptured ⟨artifact, hcapture⟩
    · exact hcaptured ⟨artifact, hcapture⟩
  obtain ⟨artifact, hcapture⟩ := hcaptured
  -- the preflight decides, and behind it the import
  rcases hpreflight : preflightArtifact crates deserialize host artifact with fault | summary
  · rw [exit_of_fault hcapture hpreflight]
    constructor
    · intro hcode
      obtain ⟨error, -, hreopen, hrefused⟩ :=
        (preflightArtifact_document hpreflight).mp (Exit.failure.inj hcode)
      exact .inl ⟨error, artifact, hcapture, hreopen, hrefused⟩
    · rintro (⟨error, other, hother, hreopen, hrefused⟩ |
        ⟨other, summary, _, _, _, hother, hpassed, -⟩)
      · obtain rfl := hother.unique hcapture
        refine congrArg _ ((preflightArtifact_document hpreflight).mpr
          ⟨error, ?_, hreopen, hrefused⟩)
        rw [preflightArtifact, hreopen, hrefused] at hpreflight
        exact (Except.error.inj hpreflight).symm
      · obtain rfl := hother.unique hcapture
        cases hpreflight.symm.trans hpassed
  · rw [importCommand_of_ok hcapture hpreflight,
      importArtifact_four (preflightArtifact_ok hpreflight).2]
    constructor
    · rintro ⟨hconnects, hopen, hread, error, env', calls, himport⟩
      exact .inr ⟨artifact, summary, error, env', calls, hcapture, hpreflight, hconnects, hopen,
        hread, himport⟩
    · rintro (⟨error, other, hother, hreopen, hrefused⟩ |
        ⟨other, passed, error, env', calls, hother, hpassed, hconnects, hopen, hread, himport⟩)
      · obtain rfl := hother.unique hcapture
        rw [preflightArtifact, hreopen, hrefused] at hpreflight
        cases hpreflight
      · obtain rfl := hother.unique hcapture
        obtain rfl := Except.ok.inj (hpreflight.symm.trans hpassed)
        exact ⟨hconnects, hopen, hread, error, env', calls, himport⟩

/-- A refused document is audited, where the store connects, and nothing else is called. -/
theorem importCommand_refused {error : SourceError}
    (h : Refuses crates deserialize host input error) (env : σ) :
    (importCommand crates deserialize host input env).calls = [] ∧
      (importCommand crates deserialize host input env).audit
        = if host.connects then some (error.code, error.message) else none := by
  obtain ⟨artifact, ⟨maxBytes, hsettings, hcapture⟩, hreopen, hrefused⟩ := h
  have hpreflight : preflightArtifact crates deserialize host artifact
      = .error (.document error) := by
    rw [preflightArtifact, hreopen, hrefused]
  simp only [importCommand, hsettings, hcapture, hpreflight]
  split_ifs
  · exact ⟨rfl, rfl⟩
  · exact ⟨rfl, rfl⟩

end

/-- A host where nothing fails. -/
def soundHost : Host Unit where
  settings := some 1024
  file := .sound
  reopenPreflight := .ok ()
  reopenRecords := .ok ()
  preflightRead := none
  recordsRead := none
  spawn := .ok ()
  connects := true
  store := steadyStore
  recordValidationFailure _ _ _ _ env := (.ok (), env)
  report _ := .ok ()

/-- **Exit code 4 is the preflight's**: an import ends with it where the captured document
is refused, and then the service is not called, and the refusal is audited where the store
can be reached.  Behind a preflight that passes, whatever the store answers, it ends with it
only where the captured file could not be read a second time. -/
theorem exit_four_iff (input : Input) (env : σ) :
    ((importCommand crates deserialize host input env).exit = .failure 4 ↔
      (∃ error, Refuses crates deserialize host input error) ∨
        Interrupted crates deserialize host input env) ∧
    ∀ error, Refuses crates deserialize host input error →
      (importCommand crates deserialize host input env).calls = [] ∧
      (importCommand crates deserialize host input env).audit
        = if host.connects then some (error.code, error.message) else none :=
  ⟨importCommand_exit_four, fun _ hrefuses => importCommand_refused hrefuses env⟩

/-- A host that cannot read its captured file behind the first record. -/
def unreadableHost : Host Unit :=
  { soundHost with preflightRead := some (1, "Input/output error (os error 5)") }

theorem exit_four_iff_unreadable :
    (importCommand fleetCrates fleetDocument unreadableHost (.stdin [.ok fleetBytes]) ()).exit
        = .failure 4 ∧
      (importCommand fleetCrates fleetDocument unreadableHost (.stdin [.ok fleetBytes]) ()).audit
        = some ("INVALID_JSON",
            "invalid PlanePHD JSON: Input/output error (os error 5)") := by
  have h := exit_four_iff fleetCrates fleetDocument unreadableHost (.stdin [.ok fleetBytes]) ()
  have hrefuses : Refuses fleetCrates fleetDocument unreadableHost (.stdin [.ok fleetBytes])
      (.json "Input/output error (os error 5)") := by
    have hcaptured : captureInput fleetCrates unreadableHost 1024 (.stdin [.ok fleetBytes])
        = .ok (Artifact.artifactOf fleetCrates.sha256 "<stdin>"
            (Artifact.delivered [.ok fleetBytes]).1) := by
      show Artifact.capture .sound 1024 fleetCrates.sha256 [.ok fleetBytes] "<stdin>" = _
      rw [Artifact.capture_sound, if_neg (by decide +kernel)]
      rfl
    exact ⟨_, ⟨1024, rfl, hcaptured⟩, rfl, by decide +kernel⟩
  exact ⟨h.1.mpr (.inl ⟨_, hrefuses⟩), (h.2 _ hrefuses).2⟩

/-- The bytes of an input, before its end. -/
def Input.bytes : Input → List UInt8
  | .stdin reads => (delivered reads).1
  | .path _ (.ok reads) => (delivered reads).1
  | .path _ (.error _) => []

theorem captureInput_contents {maxBytes : UInt64} {input : Input} {artifact : InputArtifact}
    (h : captureInput crates host maxBytes input = .ok artifact) :
    artifact.contents = input.bytes := by
  cases input with
  | stdin reads => rw [(capture_ok h).1]; rfl
  | path fileName opened =>
      cases opened with
      | error source => cases h
      | ok reads => rw [(capture_ok h).1]; rfl

/-- **A document `validate` accepts is not refused by `import`**: not on another host that
can read what it captured, not under another limit, and however the two readings of the
input were split. -/
theorem validated_not_refused {τ : Type*} {host : Host σ} {input input' : Input}
    {summary : PreflightSummary}
    (h : validateCommand crates deserialize host input = .success summary)
    (hbytes : input'.bytes = input.bytes) {host' : Host τ} (hpreflight : host'.preflightRead = none)
    (hrecords : host'.recordsRead = none) (env : τ) :
    (importCommand crates deserialize host' input' env).exit ≠ .failure 4 := by
  intro hexit
  rcases importCommand_exit_four.mp hexit with
    ⟨error, artifact, ⟨maxBytes, -, hcapture⟩, -, hrefused⟩ |
    ⟨_, _, _, _, _, -, -, -, -, hread, -⟩
  · rw [hpreflight, captureInput_contents _ _ hcapture, hbytes] at hrefused
    rw [validateCommand] at h
    split at h
    · cases h
    · split at h
      · cases h
      · rename_i artifact' hcapture'
        split at h
        · cases h
        · rename_i summary' hpassed
          have haccepted := (preflightArtifact_ok hpassed).2
          rw [captureInput_contents _ _ hcapture'] at haccepted
          cases hrefused.symm.trans haccepted
  · rw [hrecords] at hread
    cases hread

/-- Validated from the standard input in one read, imported from a file in two. -/
theorem validated_not_refused_fleet :
    (importCommand fleetCrates fleetDocument soundHost
      (.path (some "fleet.json") (.ok [.ok (fleetBytes.take 3), .ok (fleetBytes.drop 3)]))
      ()).exit ≠ .failure 4 :=
  validated_not_refused fleetCrates fleetDocument
    (show validateCommand fleetCrates fleetDocument soundHost (.stdin [.ok fleetBytes])
      = .success fleetSummary by decide +kernel) (by decide +kernel) rfl rfl ()

end ImportCommand

end AircraftApi
