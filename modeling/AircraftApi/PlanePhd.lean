/-
AircraftApi/PlanePhd.lean

`PlanePhdAdapter`: the preflight pass and the record stream, two readings of
one artifact, and why the import that follows agrees with the preflight.

Both passes run `parse_records` over the same bytes.  What `serde_json` makes
of them is a parameter: the entries it hands to the callback, in document
order, and how the document ends.  The preflight folds the records into a
`Tally`; the stream is the same records with the parse error, if there was one,
at its end.

The preflight answers with a summary only if its list of errors is empty, and
an issue of Error severity is always added to a list that is still empty
(`Tally.errors_add`), so no record of the stream carries one.  The rest is
bookkeeping: the application counts, hashes and sums the same records.  The two
hexadecimal encoders agree on every byte (`hexByte_eq_hexPair`).
-/
import AircraftApi.ImportAtomicity
import AircraftApi.Normalization

namespace AircraftApi

open ImportService

namespace PlanePhd

/-- What the JSON reader delivers of a byte string: the entries of the two
nested maps in document order, and whether the document ended well. -/
structure Document where
  entries : List (String × String × Json)
  outcome : Except String Unit

/-- Why a document is refused. -/
inductive SourceError
  | json (message : String)
  | emptyDocument
  | validation (issues : List IngestIssue)
  deriving DecidableEq

/-- The code of the refusal. -/
def SourceError.code : SourceError → String
  | json _ => "INVALID_JSON"
  | emptyDocument => "EMPTY_DOCUMENT"
  | validation _ => "VALIDATION_FAILED"

/-- What the refusal says. -/
def SourceError.message : SourceError → String
  | json message => s!"invalid PlanePHD JSON: {message}"
  | emptyDocument => "PlanePHD document contains no aircraft records"
  | validation _ => "PlanePHD validation failed"

variable (crates : Crates) (deserialize : List UInt8 → Document)

/-- `parse_records`: the callback on every record of the bytes, in order.  A
callback of the source fails only when nobody listens any more. -/
def parseRecords {S : Type} (callback : S → PreparedAircraftRecord → S) (init : S)
    (bytes : List UInt8) : S × Except SourceError Unit :=
  let document := deserialize bytes
  let state := document.entries.foldl (fun state entry =>
    callback state (normalizeRecord crates entry.1 entry.2.1 entry.2.2)) init
  match document.outcome with
  | .ok () => (state, .ok ())
  | .error message => (state, .error (.json message))

/-! ### Preflight -/

/-- What the callback of `preflight` accumulates. -/
structure Tally where
  recordCount : ℕ
  warningCount : ℕ
  errors : List IngestIssue
  sourceKeys : List String
  recordKeys : List UInt8

/-- Nothing counted yet. -/
def Tally.start : Tally := ⟨0, 0, [], [], []⟩

/-- Two records have one key. -/
def duplicateKey (key : String) : IngestIssue where
  code := "DUPLICATE_SOURCE_RECORD_KEY"
  severity := .error
  fieldPath := "$"
  message := s!"duplicate source record key {key}"
  rawValue := none

/-- The issues of Error severity a record carries. -/
def errorsOf (record : PreparedAircraftRecord) : List IngestIssue :=
  record.issues.filter fun issue => issue.severity = .error

/-- One more record is counted; of the Errors only the first hundred are kept. -/
def Tally.add (tally : Tally) (record : PreparedAircraftRecord) : Tally :=
  let remaining := 100 - tally.errors.length
  let errors := tally.errors ++ (errorsOf record).take remaining
  let key := record.sourceRecordKey
  let seen := tally.sourceKeys.contains key
  { recordCount := tally.recordCount + 1
    warningCount := tally.warningCount + record.warnings
    errors := if seen && errors.length < 100 then errors ++ [duplicateKey key] else errors
    sourceKeys := if seen then tally.sourceKeys else key :: tally.sourceKeys
    recordKeys := tally.recordKeys ++ keyBytes record }

/-- `preflight`. -/
def preflight (bytes : List UInt8) : Except SourceError PreflightSummary :=
  match parseRecords crates deserialize Tally.add Tally.start bytes with
  | (_, .error error) => .error error
  | (tally, .ok ()) =>
      if tally.recordCount = 0 then .error .emptyDocument
      else if tally.errors ≠ [] then .error (.validation tally.errors)
      else .ok
        { recordCount := tally.recordCount
          warningCount := tally.warningCount
          recordKeysSha256 := hexDigestOf (crates.sha256 tally.recordKeys) }

/-! ### The stream -/

/-- `open_records`: what the channel delivers. -/
def openRecords (bytes : List UInt8) : RecordStream :=
  match parseRecords crates deserialize (fun sent record => sent ++ [Except.ok record]) []
      bytes with
  | (sent, .ok ()) => sent
  | (sent, .error error) => sent ++ [.error (.invalid error.code error.message)]

/-- The records of an artifact. -/
def recordsOf (bytes : List UInt8) : List PreparedAircraftRecord :=
  (deserialize bytes).entries.map fun entry => normalizeRecord crates entry.1 entry.2.1 entry.2.2

theorem parseRecords_eq {S : Type} (callback : S → PreparedAircraftRecord → S) (init : S)
    (bytes : List UInt8) :
    parseRecords crates deserialize callback init bytes
      = ((recordsOf crates deserialize bytes).foldl callback init,
          match (deserialize bytes).outcome with
          | .ok () => .ok ()
          | .error message => .error (.json message)) := by
  unfold parseRecords recordsOf
  rw [List.foldl_map]
  dsimp only
  split <;> rfl

theorem openRecords_of_ok {bytes : List UInt8} (h : (deserialize bytes).outcome = .ok ()) :
    openRecords crates deserialize bytes = (recordsOf crates deserialize bytes).map .ok := by
  have hsent : ∀ (records : List PreparedAircraftRecord) (sent : RecordStream),
      records.foldl (fun sent record => sent ++ [Except.ok record]) sent
        = sent ++ records.map .ok := by
    intro records
    induction records with
    | nil => simp
    | cons record records ih =>
        intro sent
        rw [List.foldl_cons, ih]
        simp
  unfold openRecords
  rw [parseRecords_eq, h]
  exact hsent _ []

/-! ### What the preflight establishes -/

theorem Tally.errors_add {tally : Tally} {record : PreparedAircraftRecord}
    (h : (tally.add record).errors = []) :
    tally.errors = [] ∧ record.firstError = none := by
  have hnil : tally.errors ++ (errorsOf record).take (100 - tally.errors.length) = [] := by
    unfold Tally.add at h
    dsimp only at h
    split at h
    · exact absurd h (List.append_ne_nil_of_right_ne_nil _ (List.cons_ne_nil _ _))
    · exact h
  obtain ⟨htally, htake⟩ := List.append_eq_nil_iff.mp hnil
  refine ⟨htally, ?_⟩
  -- the list was empty, so there was room for an error
  rw [htally] at htake
  have herrors : errorsOf record = [] := by
    rcases List.take_eq_nil_iff.mp htake with h | h
    · cases h
    · exact h
  unfold PreparedAircraftRecord.firstError
  rw [List.find?_eq_none]
  exact List.filter_eq_nil_iff.mp herrors

/-- The tally after some records, when it holds no error. -/
theorem Tally.foldl_add {records : List PreparedAircraftRecord} {tally : Tally}
    (h : (records.foldl Tally.add tally).errors = []) :
    tally.errors = [] ∧ (∀ record ∈ records, record.firstError = none) ∧
    (records.foldl Tally.add tally).recordCount = tally.recordCount + records.length ∧
    (records.foldl Tally.add tally).warningCount
      = tally.warningCount + (records.map (·.warnings)).sum ∧
    (records.foldl Tally.add tally).recordKeys
      = tally.recordKeys ++ records.flatMap keyBytes := by
  induction records generalizing tally with
  | nil => simpa using h
  | cons record records ih =>
      obtain ⟨herrors, hrecords, hcount, hwarnings, hkeys⟩ := ih h
      obtain ⟨htally, hrecord⟩ := Tally.errors_add herrors
      refine ⟨htally, List.forall_mem_cons.mpr ⟨hrecord, hrecords⟩, ?_, ?_, ?_⟩
      · rw [List.foldl_cons, hcount, List.length_cons]
        show tally.recordCount + 1 + _ = _
        omega
      · rw [List.foldl_cons, hwarnings, List.map_cons, List.sum_cons]
        show tally.warningCount + record.warnings + _ = _
        omega
      · rw [List.foldl_cons, hkeys, List.flatMap_cons]
        show tally.recordKeys ++ keyBytes record ++ _ = _
        rw [List.append_assoc]

/-- **The preflight**: it answers only for a well-formed document whose records
carry no error, and its summary counts and hashes those records. -/
theorem preflight_ok {bytes : List UInt8} {summary : PreflightSummary}
    (h : preflight crates deserialize bytes = .ok summary) :
    let records := recordsOf crates deserialize bytes
    (deserialize bytes).outcome = .ok () ∧
    (∀ record ∈ records, record.firstError = none) ∧
    summary.recordCount = records.length ∧
    summary.warningCount = (records.map (·.warnings)).sum ∧
    summary.recordKeysSha256 = hexDigestOf (crates.sha256 (records.flatMap keyBytes)) := by
  intro records
  unfold preflight at h
  rw [parseRecords_eq] at h
  rcases houtcome : (deserialize bytes).outcome with message | ⟨⟨⟩⟩
  · rw [houtcome] at h
    cases h
  · rw [houtcome] at h
    dsimp only at h
    split at h
    · cases h
    · split at h
      · cases h
      · rename_i herrors
        obtain ⟨-, hrecords, hcount, hwarnings, hkeys⟩ :=
          Tally.foldl_add (not_not.mp herrors)
        cases h
        refine ⟨rfl, hrecords, ?_, ?_, ?_⟩
        · exact hcount.trans (Nat.zero_add _)
        · exact hwarnings.trans (Nat.zero_add _)
        · exact congrArg (fun keys => hexDigestOf (crates.sha256 keys)) hkeys

/-! ### The two encoders -/

theorem hexByte_eq_hexPair (byte : UInt8) : hexByte byte = hexPair byte := by
  have h : ∀ n : Fin 256, hexByte (UInt8.ofNat n) = hexPair (UInt8.ofNat n) := by
    decide +kernel
  have hbyte := h ⟨byte.toNat, byte.toNat_lt⟩
  rwa [UInt8.ofNat_toNat] at hbyte

theorem hexDigest_eq_hexDigestOf (bytes : List UInt8) : hexDigest bytes = hexDigestOf bytes := by
  unfold hexDigest hexDigestOf
  rw [funext hexByte_eq_hexPair]

/-! ### A unit of work that does not fail -/

/-- The outcome `SqlxIngestionUnitOfWork::stage_and_promote` reports. -/
def sqlxOutcome (record : PreparedAircraftRecord) : RecordOutcome where
  staged := true
  disposition := if record.warnings > 0 then .flagged else .promoted
  warningCount := record.warnings

/-- A unit of work that never fails and reports what the SQL one reports. -/
structure Reliable {σ : Type*} (store : Store σ) : Prop where
  stages : ∀ record env, ∃ env', store.stageAndPromote record env
    = (.ok (sqlxOutcome record), env')
  refreshes : ∀ env, ∃ env', store.refreshReadModels env = (.ok (), env')

/-- Records with the outcomes they are reported with. -/
def staging (records : List PreparedAircraftRecord) : Staged :=
  records.map fun record => (record, sqlxOutcome record)

theorem staging_warnings (records : List PreparedAircraftRecord) :
    ((staging records).map fun x => x.2.warningCount).sum = (records.map (·.warnings)).sum := by
  unfold staging
  rw [List.map_map]
  rfl

theorem after_staging (progress : Progress) (records : List PreparedAircraftRecord) :
    let report := (progress.after (staging records)).report
    report.stagedRecords = progress.report.stagedRecords + records.length ∧
    report.promotedRecords = progress.report.promotedRecords + records.length ∧
    report.flaggedRecords
      = progress.report.flaggedRecords + records.countP fun record => record.warnings > 0 := by
  induction records generalizing progress with
  | nil => exact ⟨rfl, rfl, rfl⟩
  | cons record records ih =>
      obtain ⟨hstaged, hpromoted, hflagged⟩ :=
        ih ((progress.hash record).stage (sqlxOutcome record))
      refine ⟨?_, ?_, ?_⟩
      · refine hstaged.trans ?_
        show progress.report.stagedRecords + 1 + _ = _
        rw [List.length_cons]
        omega
      · refine hpromoted.trans ?_
        show progress.report.promotedRecords + 1 + _ = _
        rw [List.length_cons]
        omega
      · refine hflagged.trans ?_
        rw [List.countP_cons]
        by_cases hw : record.warnings > 0 <;>
          simp [Progress.stage, Progress.hash, sqlxOutcome, hw]
        omega

variable {crates deserialize}

theorem consumeLoop_reliable {σ : Type*} {store : Store σ} (hstore : Reliable store)
    {records : List PreparedAircraftRecord} (hclean : ∀ record ∈ records, record.firstError = none)
    (progress : Progress) (env : σ) :
    ∃ env', consumeLoop store (records.map .ok) progress env
      = (.ok (progress.after (staging records)), env', stageCalls (staging records)) := by
  induction records generalizing progress env with
  | nil => exact ⟨env, rfl⟩
  | cons record records ih =>
      obtain ⟨hrecord, hrecords⟩ := List.forall_mem_cons.mp hclean
      obtain ⟨env₁, hstage⟩ := hstore.stages record env
      obtain ⟨env₂, hloop⟩ :=
        ih hrecords ((progress.hash record).stage (sqlxOutcome record)) env₁
      refine ⟨env₂, ?_⟩
      simp only [List.map_cons, consumeLoop, hrecord, hstage, hloop]
      rfl

/-- **The passes agree**: when the preflight answers with a summary, the import
of the records streamed from the same bytes, by a unit of work that does not
fail, reports as many staged and promoted records and as many warnings as the
summary counts, and as many flagged records as carry a warning; it stages
exactly the streamed records, in order, and ends in none of the errors of
`consume_records`. -/
theorem preflight_agrees_with_import {bytes : List UInt8} {summary : PreflightSummary}
    (h : preflight crates deserialize bytes = .ok summary) {σ : Type*} {store : Store σ}
    (hstore : Reliable store) (request : ImportRequest) (hrequest : request.preflight = summary)
    (runId attemptId : ℤ) (env : σ) :
    ∃ report env', consumeRecords crates.sha256 store request
        (openRecords crates deserialize bytes) runId attemptId env
      = (.ok report, env',
          stageCalls (staging (recordsOf crates deserialize bytes)) ++ [.refresh (.ok ())]) ∧
      report.stagedRecords = summary.recordCount ∧
      report.promotedRecords = summary.recordCount ∧
      report.flaggedRecords
        = (recordsOf crates deserialize bytes).countP (fun record => record.warnings > 0) ∧
      report.warningCount = summary.warningCount := by
  obtain ⟨houtcome, hclean, hcount, hwarnings, hkeys⟩ := preflight_ok crates deserialize h
  rw [openRecords_of_ok crates deserialize houtcome]
  -- both passes read the same records
  generalize recordsOf crates deserialize bytes = records at *
  set start : Progress := ⟨0, [], startReport request runId attemptId⟩ with hstart
  obtain ⟨env₁, hloop⟩ := consumeLoop_reliable hstore hclean start env
  obtain ⟨env₂, hrefresh⟩ := hstore.refreshes env₁
  have hlast : (start.after (staging records)).report.warningCount = summary.warningCount := by
    rw [after_warningCount, staging_warnings, hwarnings]
    exact Nat.zero_add _
  -- so the totals compared are those counted before
  have hcheck : checkConsistency crates.sha256 request (start.after (staging records))
      = .ok () := by
    have hn : (start.after (staging records)).count = request.preflight.recordCount := by
      rw [after_count, hrequest, hcount]
      simp [hstart, staging]
    have hk : hexDigest (crates.sha256 (start.after (staging records)).recordKeys)
        = request.preflight.recordKeysSha256 := by
      rw [after_recordKeys, hexDigest_eq_hexDigestOf, hrequest, hkeys]
      simp [hstart, staging, List.flatMap_map]
    unfold checkConsistency
    rw [if_neg (not_not.mpr hn), if_neg (not_not.mpr hk),
      if_neg (not_not.mpr (hlast.trans (congrArg _ hrequest.symm)))]
  obtain ⟨hstaged, hpromoted, hflagged⟩ := after_staging start records
  refine ⟨(start.after (staging records)).report, env₂, ?_, ?_, ?_, ?_, hlast⟩
  · unfold consumeRecords
    rw [hloop]
    dsimp only
    rw [hcheck]
    dsimp only
    rw [hrefresh]
  · rw [hstaged, hcount]
    exact Nat.zero_add _
  · rw [hpromoted, hcount]
    exact Nat.zero_add _
  · rw [hflagged]
    exact Nat.zero_add _

/-! ### Three records -/

/-- The document `{"Cessna":{"172":{"performance":{"best_cruise_speed":"122 KTAS"}},`
`"182":{"colour":"red"}},"Piper":{"PA-28":{"performance":{"cruise_speed":"fast"}}}}`. -/
def fleetBytes : List UInt8 :=
  ("\x7b\"Cessna\":\x7b\"172\":\x7b\"performance\":\x7b\"best_cruise_speed\":\"122 KTAS\"\x7d\x7d," ++
    "\"182\":\x7b\"colour\":\"red\"\x7d\x7d,\"Piper\":\x7b\"PA-28\":\x7b\"performance\":" ++
    "\x7b\"cruise_speed\":\"fast\"\x7d\x7d\x7d\x7d").toUTF8.data.toList

def fleetDocument (_ : List UInt8) : Document where
  entries := [("Cessna", "172", .object [("performance",
        .object [("best_cruise_speed", .string "122 KTAS")])]),
      ("Cessna", "182", .object [("colour", .string "red")]),
      ("Piper", "PA-28", .object [("performance", .object [("cruise_speed", .string "fast")])])]
  outcome := .ok ()

/-- SHA-256 on the texts hashed for this document: those of its keys, the document, and the
list of the keys. -/
def fleetSha256 (bytes : List UInt8) : List UInt8 :=
  if bytes.drop 9 = "Cessna\x00172".toUTF8.data.toList then
    [132, 112, 109, 50, 111, 235, 148, 49, 242, 21, 45, 254, 219, 90, 104, 205, 122, 95, 69,
      89, 69, 126, 206, 138, 151, 153, 100, 219, 148, 59, 86, 188]
  else if bytes.drop 9 = "Cessna\x00182".toUTF8.data.toList then
    [138, 199, 241, 56, 36, 189, 210, 83, 208, 235, 208, 4, 168, 84, 80, 254, 31, 146, 47, 162,
      249, 42, 89, 230, 200, 93, 104, 6, 10, 4, 148, 62]
  else if bytes.drop 9 = "Piper\x00PA-28".toUTF8.data.toList then
    [20, 27, 109, 114, 202, 14, 205, 179, 249, 219, 223, 210, 69, 119, 153, 201, 104, 60, 158,
      129, 123, 43, 82, 212, 28, 143, 194, 96, 32, 58, 220, 5]
  else if bytes.length = 148 then
    [140, 189, 135, 212, 217, 149, 173, 193, 99, 4, 18, 86, 89, 36, 116, 76, 58, 41, 234, 198,
      192, 12, 192, 93, 238, 188, 32, 48, 37, 2, 94, 43]
  else
    [190, 41, 86, 174, 234, 229, 35, 145, 37, 110, 119, 190, 21, 125, 129, 190, 76, 234, 195,
      82, 225, 249, 39, 232, 223, 112, 87, 35, 139, 184, 217, 107]

def fleetCrates : Crates := ⟨fleetSha256, fun _ => none, fun _ _ => none⟩

def fleetSummary : PreflightSummary where
  recordCount := 3
  warningCount := 4
  recordKeysSha256 := "be2956aeeae52391256e77be157d81be4ceac352e1f927e8df7057238bb8d96b"

/-- A store every call of which succeeds. -/
def steadyStore : Store Unit where
  startImport _ env := (.ok (.ready 1 1), env)
  stageAndPromote record env := (.ok (sqlxOutcome record), env)
  refreshReadModels env := (.ok (), env)
  markSucceeded _ env := (.ok (), env)
  commit env := (.ok (), env)
  rollback env := (.ok (), env)
  markFailed _ _ _ _ env := (.ok (), env)

theorem steadyStore_reliable : Reliable steadyStore where
  stages _ env := ⟨env, rfl⟩
  refreshes env := ⟨env, rfl⟩

def fleetRequest : ImportRequest where
  source := ⟨"planephd", "PlanePHD", some "https://planephd.com", "planephd-json", "1.8.0"⟩
  artifact := ⟨"8cbd87d4d995adc1630412565924744c3a29eac6c00cc05deebc203025025e2b", 148,
    "fleet.json"⟩
  preflight := fleetSummary

theorem preflight_fleet :
    preflight fleetCrates fleetDocument fleetBytes = .ok fleetSummary := by
  decide +kernel

theorem preflight_agrees_with_import_fleet :
    ∃ report env', consumeRecords fleetSha256 steadyStore fleetRequest
        (openRecords fleetCrates fleetDocument fleetBytes) 1 1 ()
      = (.ok report, env', stageCalls (staging (recordsOf fleetCrates fleetDocument
          fleetBytes)) ++ [.refresh (.ok ())]) ∧
      report.stagedRecords = 3 ∧ report.promotedRecords = 3 ∧ report.flaggedRecords = 2 ∧
      report.warningCount = 4 := by
  obtain ⟨report, env', hrun, hstaged, hpromoted, hflagged, hwarnings⟩ :=
    preflight_agrees_with_import preflight_fleet steadyStore_reliable fleetRequest rfl 1 1 ()
  have hcount : (recordsOf fleetCrates fleetDocument fleetBytes).countP
      (fun record => record.warnings > 0) = 2 := by decide +kernel
  exact ⟨report, env', hrun, hstaged, hpromoted, hflagged.trans hcount, hwarnings⟩

end PlanePhd

end AircraftApi
