/-
AircraftApi/Ingestion.lean

The data the ingestion layers exchange: JSON values as `serde_json` holds
them, and the prepared record `aircraft_app::ingestion` defines.

Machine integers are `ℤ` and `ℕ`; the parsers that produce them carry the
bounds.  A JSON object lists its members in key order, each key once, as the
map behind `serde_json::Value` does.  A JSON number that is not an integer is
kept as the text it is displayed by, the only thing the pipeline reads of it.
-/
import Mathlib

namespace AircraftApi

/-! ### JSON -/

/-- The character of a decimal digit. -/
def digitChar (d : Fin 10) : Char := Char.ofNat (48 + d.val)

/-- The sign an exponent is displayed with: none, or one of the two. -/
inductive ExponentSign
  | absent | plus | minus
  deriving DecidableEq

/-- How the sign of an exponent is written. -/
def ExponentSign.text : ExponentSign → String
  | absent => ""
  | plus => "+"
  | minus => "-"

/-- An exponent as it is displayed behind its `e`. -/
structure ExponentText where
  sign : ExponentSign
  digits : List (Fin 10)
  digits_ne : digits ≠ []
  deriving DecidableEq

/-- The exponent as it is displayed. -/
def ExponentText.text (e : ExponentText) : String :=
  "e" ++ e.sign.text ++ String.ofList (e.digits.map digitChar)

/-- How a finite `f64` is displayed: a sign, digits, an optional fraction and an
optional exponent, which `serde_json` prints for the large floats as `1e+16` and
for the small ones as `1e-7`.  The type holds every text of this form, so
nothing depends on which floats are printed with an exponent. -/
structure FloatText where
  negative : Bool
  whole : List (Fin 10)
  fraction : Option (List (Fin 10))
  exponent : Option ExponentText
  whole_ne : whole ≠ []
  fraction_ne : fraction ≠ some []
  deriving DecidableEq

/-- The number as it is displayed: sign, digits, fraction and exponent. -/
def FloatText.text (f : FloatText) : String :=
  (if f.negative then "-" else "") ++ String.ofList (f.whole.map digitChar) ++
    (match f.fraction with
      | none => ""
      | some ds => "." ++ String.ofList (ds.map digitChar)) ++
    match f.exponent with
      | none => ""
      | some e => e.text

/-- A number of a document: an integer of 64 bits, with or without a sign, or a float by
its text. -/
inductive JsonNumber
  | integer (n : ℤ) (bounds : -2 ^ 63 ≤ n ∧ n < 2 ^ 64)
  | float (f : FloatText)
  deriving DecidableEq

/-- `Number::to_string`. -/
def JsonNumber.text : JsonNumber → String
  | integer n _ => toString n
  | float f => f.text

/-- `serde_json::Value`. -/
inductive Json
  | null
  | bool (b : Bool)
  | number (n : JsonNumber)
  | string (s : String)
  | array (items : List Json)
  | object (members : List (String × Json))

/-- The members of an object value. -/
abbrev JsonObject := List (String × Json)

namespace Json

/-- `Map::get`. -/
def get (object : JsonObject) (field : String) : Option Json := object.lookup field

/-- The members of an object. -/
def asObject : Json → Option JsonObject
  | object members => some members
  | _ => none

/-- The items of an array. -/
def asArray : Json → Option (List Json)
  | array items => some items
  | _ => none

end Json

/-- What is looked up is an entry of the list. -/
theorem mem_of_lookup {β : Type} {entries : List (String × β)} {key : String} {value : β}
    (h : entries.lookup key = some value) : (key, value) ∈ entries := by
  obtain ⟨before, after, rfl, -⟩ := List.lookup_eq_some_iff.mp h
  simp

/-! ### Requests and reports -/

/-- Who delivered the artifact, and which parser reads it. -/
structure SourceDescriptor where
  slug : String
  name : String
  baseUrl : Option String
  parserName : String
  parserVersion : String
  deriving DecidableEq

/-- What was captured: its digest, its size and a locator that may be shown. -/
structure ArtifactDescriptor where
  contentSha256 : String
  byteLength : ℕ
  displayLocator : String
  deriving DecidableEq

/-- What the first pass over the artifact found, for the second one to agree with. -/
structure PreflightSummary where
  recordCount : ℕ
  warningCount : ℕ
  recordKeysSha256 : String
  deriving DecidableEq

/-- What the service is asked to take in. -/
structure ImportRequest where
  source : SourceDescriptor
  artifact : ArtifactDescriptor
  preflight : PreflightSummary
  deriving DecidableEq

/-- How far a run has come. -/
inductive ImportStatus
  | received | importing | succeeded | validationFailed | failed
  deriving DecidableEq

/-- What the service answers of a run. -/
structure ImportReport where
  schemaVersion : ℕ
  runId : ℤ
  attemptId : ℤ
  status : ImportStatus
  contentSha256 : String
  stagedRecords : ℕ
  promotedRecords : ℕ
  flaggedRecords : ℕ
  warningCount : ℕ
  alreadyImported : Bool
  deriving DecidableEq

/-- The version of the report's layout. -/
def reportSchemaVersion : ℕ := 2

/-! ### The prepared record -/

/-- Who the aircraft is: its two names, and what the page says of it. -/
structure AircraftIdentityInput where
  manufacturerName : String
  aircraftName : String
  sourceLink : Option String := none
  pageUrl : Option String := none
  title : Option String := none
  description : Option String := none

/-- What the record says of the variant's years and crew. -/
structure LifecycleInput where
  variantType : Option String := none
  landingGear : Option String := none
  serviceStatus : Option String := none
  productionStartYear : Option ℤ := none
  productionEndYear : Option ℤ := none
  isInProduction : Option Bool := none
  passengerCapacity : Option ℤ := none
  crewCount : Option ℤ := none

/-- A measurement as it was read: its text, and the number, unit and code found in it. -/
structure MeasurementInput where
  sourceField : String
  metricCode : Option String
  rawValue : String
  numericValue : Option String
  rawUnit : Option String
  unitCode : Option String

/-- What the record says of the engine. -/
structure PropulsionInput where
  category : Option String := none
  manufacturer : Option String := none
  model : Option String := none
  horsepower : Option String := none
  thrustNewtons : Option String := none
  engineCount : Option ℤ := none
  tboHours : Option ℤ := none
  tboYears : Option ℤ := none

/-- What the record says of the market. -/
structure ValuationInput where
  papiPriceEstimate : Option String := none
  forSaleCount : Option ℤ := none

/-- A cost as it was read: its text, and the code and number found for it. -/
structure CostItemInput where
  sourceKey : String
  rawValue : String
  mappedCode : Option String
  numericValue : Option String
  isAggregate : Bool
  isNumeric : Bool

/-- What the record says of an image, by its place in the list. -/
structure ImageMetadataInput where
  arrayPosition : ℕ
  hrefRaw : String
  hrefResolved : Option String
  title : Option String
  holder : Option String
  dimensionsRaw : Option String
  widthPx : Option ℤ
  heightPx : Option ℤ
  isPrimary : Bool

/-- Where the record comes from. -/
structure ProvenanceInput where
  sourceSystemKey : String
  sourceUrl : Option String
  sourcePath : Option String
  confidence : ℚ

/-- An Error keeps the record back, a warning does not. -/
inductive IssueSeverity
  | warning | error
  deriving DecidableEq

/-- Something found wrong with a field of the record. -/
structure IngestIssue where
  code : String
  severity : IssueSeverity
  fieldPath : String
  message : String
  rawValue : Option String
  deriving DecidableEq

/-- All that was read of one aircraft, with the issues found on the way and the document
itself. -/
structure PreparedAircraftRecord where
  sourceRecordKey : String
  identity : AircraftIdentityInput
  lifecycle : LifecycleInput
  performance : List MeasurementInput
  weights : List MeasurementInput
  propulsion : PropulsionInput
  valuation : ValuationInput
  operatingCosts : List CostItemInput
  images : List ImageMetadataInput
  provenance : ProvenanceInput
  issues : List IngestIssue
  rawDocument : Json

/-- How many of a record's issues are warnings. -/
def PreparedAircraftRecord.warnings (record : PreparedAircraftRecord) : ℕ :=
  (record.issues.filter fun issue => issue.severity = .warning).length

/-- The first issue of Error severity, if the record has one. -/
def PreparedAircraftRecord.firstError (record : PreparedAircraftRecord) :
    Option IngestIssue :=
  record.issues.find? fun issue => issue.severity = .error

/-! ### Outcomes and errors -/

/-- What became of a staged record. -/
inductive RecordDisposition
  | promoted | flagged
  deriving DecidableEq

/-- What the store answers of a record. -/
structure RecordOutcome where
  staged : Bool
  disposition : RecordDisposition
  warningCount : ℕ
  deriving DecidableEq

/-- Why the parser stopped. -/
inductive PreparedInputError
  | invalid (code message : String)
  deriving DecidableEq

/-- The code of the parser's error, as it gave it. -/
def PreparedInputError.code : PreparedInputError → String
  | invalid code _ => code

/-- The code and what it says. -/
def PreparedInputError.message : PreparedInputError → String
  | invalid code message => s!"{code}: {message}"

/-- Why the store failed: the database refused, or an invariant of its own broke. -/
inductive PersistenceError
  | database (code message : String)
  | invariant (message : String)
  deriving DecidableEq

/-- A broken invariant has a code of its own. -/
def PersistenceError.code : PersistenceError → String
  | database code _ => code
  | invariant _ => "PERSISTENCE_INVARIANT"

/-- What a failure of the store says. -/
def PersistenceError.message : PersistenceError → String
  | database code message => s!"{code}: {message}"
  | invariant message => s!"ingestion invariant failed: {message}"

/-- Why an import ended without success. The last three are a second pass that does not
agree with the first. -/
inductive ImportError
  | alreadyRunning
  | input (error : PreparedInputError)
  | persistence (error : PersistenceError)
  | parserConsistency (expected actual : ℕ)
  | warningCountMismatch (expected actual : ℕ)
  | parserRecordKeysMismatch
  deriving DecidableEq

/-- The code a report shows. -/
def ImportError.code : ImportError → String
  | alreadyRunning => "IMPORT_ALREADY_RUNNING"
  | input error => error.code
  | persistence error => error.code
  | parserConsistency _ _ => "PARSER_RECORD_COUNT_MISMATCH"
  | warningCountMismatch _ _ => "PARSER_WARNING_COUNT_MISMATCH"
  | parserRecordKeysMismatch => "PARSER_RECORD_KEYS_MISMATCH"

/-- What the error says. -/
def ImportError.message : ImportError → String
  | alreadyRunning => "an identical import is already running"
  | input error => error.message
  | persistence error => error.message
  | parserConsistency expected actual =>
      s!"preflight contained {expected} records but import produced {actual}"
  | warningCountMismatch expected actual =>
      s!"preflight contained {expected} warnings but import produced {actual}"
  | parserRecordKeysMismatch => "preflight and import produced different source-record keys"

/-- `char::is_control`: the Unicode category Cc. -/
def isControl (c : Char) : Bool := c.toNat < 32 ∨ 127 ≤ c.toNat ∧ c.toNat < 160

/-- What `sanitize_failure` keeps of an error's text. -/
def sanitizeFailure (message : String) : String :=
  String.ofList ((message.toList.filter fun c => !isControl c).take 1000)

end AircraftApi
