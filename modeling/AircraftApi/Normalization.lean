/-
AircraftApi/Normalization.lean

`aircraft_ingest::normalization`: from a manufacturer key, an aircraft key and
a JSON value to a prepared record and the issues found on the way.

The functions of the source that push to `issues: &mut Vec<IngestIssue>` take
notes here (`Checked`), in the order the source pushes them.  The hash and the
URL type come from other packages and are parameters (`Crates`).

For the values, the reader below needs one lemma for each field reader: what it
returns is what the parsers make of `valueText` (`scalar_value`,
`numeric_value`, `numericInteger_value`, `integer_value`).  For the issues, the
readers of single fields only warn; an Error is raised for a value that is not
an object, for a name of white space, and for years `ProductionYears::new`
refuses.
-/
import AircraftApi.FieldParsers
import AircraftApi.Noted

namespace AircraftApi

/-! ### Displaying JSON -/

/-- The escape `serde_json` writes for a character of a string. -/
def escapeChar (c : Char) : List Char :=
  match c with
  | '"' => ['\\', '"']
  | '\\' => ['\\', '\\']
  | '\n' => ['\\', 'n']
  | '\r' => ['\\', 'r']
  | '\t' => ['\\', 't']
  | c =>
    if c.toNat = 8 then ['\\', 'b']
    else if c.toNat = 12 then ['\\', 'f']
    else if c.toNat < 32 then
      let digits := Nat.toDigits 16 c.toNat
      ['\\', 'u'] ++ List.replicate (4 - digits.length) '0' ++ digits
    else [c]

/-- A string as it is displayed, between quotes. -/
def renderString (s : String) : List Char :=
  '"' :: s.toList.flatMap escapeChar ++ ['"']

mutual

/-- `Value::to_string`. -/
def Json.render : Json → List Char
  | .null => "null".toList
  | .bool b => (toString b).toList
  | .number n => n.text.toList
  | .string s => renderString s
  | .array items => '[' :: renderItems items ++ [']']
  | .object members => '\x7b' :: renderMembers members ++ ['\x7d']

/-- The items of an array, commas between them. -/
def renderItems : List Json → List Char
  | [] => []
  | [item] => item.render
  | item :: rest => item.render ++ ',' :: renderItems rest

/-- The members of an object, in the order they stand. -/
def renderMembers : List (String × Json) → List Char
  | [] => []
  | [(key, value)] => renderString key ++ ':' :: value.render
  | (key, value) :: rest =>
      renderString key ++ ':' :: value.render ++ ',' :: renderMembers rest

end

/-! ### Issues -/

/-- An issue on a path. Of the value only the first characters are kept, and no control
character. -/
def issue (code : String) (severity : IssueSeverity) (path message : String)
    (raw : Option Json) : IngestIssue where
  code := code
  severity := severity
  fieldPath := path
  message := message
  rawValue := raw.map fun value =>
    String.ofList ((value.render.filter fun c => !isControl c).take 256)

/-- An issue that does not keep the record back. -/
def warning (code path message : String) (raw : Option Json) : IngestIssue :=
  issue code .warning path message raw

/-- A computation that may push issues. -/
abbrev Checked := Noted IngestIssue

/-- The value, or the issue that says it is missing. -/
def orFault {α : Type} (value : Option α) (found : IngestIssue) : Checked (Option α) :=
  match value with
  | some a => pure (some a)
  | none => Noted.fault found

@[simp] theorem orFault_value {α : Type} (value : Option α) (found : IngestIssue) :
    (orFault value found).value = value := by
  rcases value with - | a <;> rfl

/-! ### Reading one field -/

/-- A member that is to be an object; none and null are no fault. -/
def nested (object : JsonObject) (field : String) : Checked (Option JsonObject) :=
  match Json.get object field with
  | none | some .null => pure none
  | some (.object members) => pure (some members)
  | some value =>
      Noted.fault (warning "FIELD_NOT_OBJECT" field "nested field must be an object" value)

/-- The text of a scalar: a string unless it says that there is no value, a number or a
boolean as it is displayed. -/
def scalar (value : Option Json) (field : String) : Checked (Option String) :=
  match value with
  | none | some .null => pure none
  | some (.string text) => pure (parseSentinel text)
  | some (.number n) => pure (some n.text)
  | some (.bool b) => pure (some (toString b))
  | some value =>
      Noted.fault (warning "FIELD_NOT_SCALAR" field "field must be a scalar value" value)

/-- A member that is to be an integer as it stands. -/
def integer (parse : List Char → Option ℤ) (object : JsonObject) (field : String) :
    Checked (Option ℤ) := do
  match ← scalar (Json.get object field) field with
  | none => pure none
  | some text =>
      orFault (parse text.toList) (warning "INVALID_INTEGER_FIELD" field
        "field is not an integer" (Json.get object field))

/-- The number a scalar begins with. -/
def numeric (value : Option Json) (field : String) : Checked (Option String) := do
  match ← scalar value field with
  | none => pure none
  | some raw =>
      orFault (parseNumeric raw) (warning "INVALID_NUMERIC_FIELD" field
        "field has no valid numeric prefix" value)

/-- The number a scalar begins with, where it is to be an integer. -/
def numericInteger (parse : List Char → Option ℤ) (value : Option Json) (field : String) :
    Checked (Option ℤ) := do
  match ← numeric value field with
  | none => pure none
  | some parsed =>
      orFault (parse parsed.toList) (warning "INVALID_INTEGER_FIELD" field
        "numeric field is not an integer in the supported range" value)

/-- The spellings of a boolean. -/
def booleanText (text : String) : Option Bool :=
  let lowered := String.ofList (Text.lower (Text.trim text.toList))
  if lowered ∈ ["true", "yes", "1"] then some true
  else if lowered ∈ ["false", "no", "0"] then some false
  else none

/-- A member that is to be a boolean, or one of the words for it. -/
def boolean (object : JsonObject) (field : String) : Checked (Option Bool) :=
  let invalid := warning "INVALID_BOOLEAN_FIELD" field "field is not a boolean"
    (Json.get object field)
  match Json.get object field with
  | none => pure none
  | some (.bool b) => pure (some b)
  | some (.string text) => orFault (booleanText text) invalid
  | some _ => Noted.fault invalid

/-- The years the name spells, or a warning that it seems to spell some. -/
def productionRange (aircraft : String) : Checked ProductionRange :=
  match parsedProductionRange aircraft with
  | .ok range => pure range
  | .error what => do
      Noted.note (warning "UNPARSEABLE_PRODUCTION_RANGE" "$.<aircraft>" what none)
      pure (none, none, none)

/-- A parsed URL, as far as the adapter reads it. -/
structure Url where
  scheme : String
  text : String

/-- What the pipeline uses of other packages: SHA-256, and the URL type's
parser and resolution of a reference. -/
structure Crates where
  sha256 : List UInt8 → List UInt8
  parseUrl : String → Option Url
  joinUrl : Url → String → Option Url

variable (crates : Crates)

/-- The `http` or `https` URL a text stands for, read as a reference to the
source's site when it is not a URL of its own. -/
def resolvedUrl (raw : String) : Option String :=
  let parsed := (crates.parseUrl raw).or
    ((crates.parseUrl "https://planephd.com/").bind fun base => crates.joinUrl base raw)
  (parsed.filter fun url => url.scheme = "http" ∨ url.scheme = "https").map Url.text

/-- The URL of a text, or a warning. -/
def normalizedUrl (raw field : String) : Checked (Option String) :=
  orFault (resolvedUrl crates raw) (warning "INVALID_URL" field
    "URL is invalid or uses an unsupported scheme" (some (.string raw)))

/-! ### Measurements -/

/-- The unit cannot express the metric. -/
def isMisfit (metricCode unit : Option String) : Bool :=
  metricCode.any fun metric => unit.any fun code => !unitFitsMetric metric code

/-- The number has a minus sign. -/
def isNegative (parsed : String) : Bool := parsed.toList.head? = some '-'

/-- What is kept of a measurement.  A unit of the wrong dimension and a
negative number are demoted to evidence. -/
def preparedMeasurement (mapping : String → Option String) (field rawValue : String) :
    MeasurementInput :=
  let unit := (parseUnit rawValue).bind unitCode
  { sourceField := field
    metricCode := mapping field
    rawValue := rawValue
    numericValue := (parseNumeric rawValue).filter fun parsed => !isNegative parsed
    rawUnit := parseUnit rawValue
    unitCode := if isMisfit (mapping field) unit then none else unit }

/-- The entries of `performance` that state the engines. -/
def isEngineEntry (path field : String) : Bool :=
  path = "performance" ∧ (field = "horsepower" ∨ field = "thrust")

/-- One entry of the `performance` or `weights` object. -/
def measurement (path : String) (mapping : String → Option String) (field : String)
    (value : Json) : Checked (Option MeasurementInput) := do
  if isEngineEntry path field then return none
  let fieldPath := s!"{path}.{field}"
  let warn (code message : String) := warning code fieldPath message (some value)
  match ← scalar (some value) fieldPath with
  | none => return none
  | some rawValue =>
    let numericValue := parseNumeric rawValue
    let rawUnit := parseUnit rawValue
    let unit := rawUnit.bind unitCode
    let metricCode := mapping field
    Noted.noteIf metricCode.isNone
      (warn "UNMAPPED_MEASUREMENT_FIELD" "measurement is preserved as a pending assertion")
    Noted.noteIf numericValue.isNone
      (warn "MEASUREMENT_PARSE_FAILURE" "measurement has no parseable numeric prefix")
    Noted.noteIf (rawUnit.isSome && unit.isNone)
      (warn "UNKNOWN_MEASUREMENT_UNIT" "unit is not mapped and will not be canonicalized")
    Noted.noteIf (metricCode.isSome && numericValue.isSome && rawUnit.isNone)
      (warn "MISSING_MEASUREMENT_UNIT" "measurement has no unit and will not be canonicalized")
    Noted.noteIf (isMisfit metricCode unit) (warn "INCOMPATIBLE_MEASUREMENT_UNIT"
      "unit does not measure this metric and will not be canonicalized")
    Noted.noteIf (numericValue.any isNegative)
      (warn "NEGATIVE_MEASUREMENT" "measurement is negative and will not be canonicalized")
    return some (preparedMeasurement mapping field rawValue)

/-- The measurements of a section, one for every member that has a value; the engine entry
of the performance is none. -/
def measurements (object : Option JsonObject) (path : String)
    (mapping : String → Option String) : Checked (List MeasurementInput) :=
  match object with
  | none => pure []
  | some members =>
      Noted.collect (fun entry => measurement path mapping entry.1 entry.2) members

/-! ### Costs -/

/-- What is kept of a cost. -/
def preparedCost (key raw : String) : CostItemInput where
  sourceKey := key
  rawValue := raw
  mappedCode := (costCode key).1
  numericValue := if (costCode key).2.1 then parseNumeric raw else none
  isAggregate := (costCode key).2.2
  isNumeric := (costCode key).2.1

/-- The cost under a key. A key without a code and a code without a number are each
reported. -/
def costItem (key : String) (value : Json) : Checked (Option CostItemInput) := do
  let path := s!"ownership_costs.{key}"
  match ← scalar (some value) path with
  | none => return none
  | some raw =>
    let cost := preparedCost key raw
    -- An unmapped key reports the key only: its value is not yet a finding.
    Noted.noteIf cost.mappedCode.isNone (warning "UNMAPPED_COST_KEY" path
      ("no cost item type matches this key; the cost is preserved for curation " ++
        "and excluded from canonical totals") (some value))
    Noted.noteIf (cost.mappedCode.isSome && cost.isNumeric && cost.numericValue.isNone)
      (warning "UNPARSEABLE_COST_VALUE" path
        ("the key is mapped but its value is not a number; the cost is preserved " ++
          "for curation and excluded from canonical totals") (some value))
    return some cost

/-- The costs of the section. -/
def costItems (object : Option JsonObject) : Checked (List CostItemInput) :=
  match object with
  | none => pure []
  | some members => Noted.collect (fun entry => costItem entry.1 entry.2) members

/-! ### Images -/

/-- The path of an image, by its place in the list. -/
def imagePath (position : ℕ) : String := s!"images[{position}]"

/-- What is kept of an image. -/
def preparedImage (object : JsonObject) (position : ℕ) (href : String) : ImageMetadataInput :=
  let dimensions := (Json.get object "dimensions").bind valueText
  let parsed := dimensions.bind dimensionsPx
  { arrayPosition := position
    hrefRaw := href
    hrefResolved := resolvedUrl crates href
    title := (Json.get object "title").bind valueText
    holder := (Json.get object "holder").bind valueText
    dimensionsRaw := dimensions
    widthPx := parsed.map Prod.fst
    heightPx := parsed.map Prod.snd
    isPrimary := false }

/-- The image at a place of the list: an object with a link, at a place the column can
hold. -/
def imageItem (image : Json) (position : ℕ) : Checked (Option ImageMetadataInput) := do
  let path := imagePath position
  match image.asObject with
  | none =>
      Noted.fault (warning "IMAGE_NOT_OBJECT" path "image metadata must be an object" image)
  | some object =>
    match (Json.get object "href").bind valueText with
    | none =>
        Noted.fault (warning "IMAGE_HREF_MISSING" s!"{path}.href"
          "image metadata has no usable href" (Json.get object "href"))
    | some href =>
      if position < 2 ^ 15 then
        let prepared := preparedImage crates object position href
        Noted.noteIf (prepared.dimensionsRaw.isSome && prepared.widthPx.isNone)
          (warning "INVALID_IMAGE_DIMENSIONS" s!"{path}.dimensions" "expected WxH dimensions"
            (Json.get object "dimensions"))
        let _ ← normalizedUrl crates href s!"{path}.href"
        return some prepared
      else
        Noted.fault (warning "IMAGE_POSITION_OUT_OF_RANGE" path
          "image position exceeds the supported range" none)

/-- The first image kept leads the record. -/
def markPrimary : List ImageMetadataInput → List ImageMetadataInput
  | [] => []
  | first :: rest => { first with isPrimary := true } :: rest

/-- The images of the list; the first one kept leads. -/
def imageItems (value : Option Json) : Checked (List ImageMetadataInput) :=
  match value with
  | none => pure []
  | some value =>
    match value.asArray with
    | none => do
        Noted.note (warning "IMAGES_NOT_ARRAY" "images" "images metadata is not an array" value)
        pure []
    | some images => do
        let items ← Noted.collect (fun entry => imageItem crates entry.1 entry.2) images.zipIdx
        pure (markPrimary items)

/-! ### The record -/

/-- The members of a record that are read. -/
def knownFields : List String :=
  ["manufacturer_name", "aircraft_name", "source_link", "page_url", "title", "description",
    "papi_price_estimate", "for_sale_count", "start_year", "end_year", "in_production",
    "performance", "weights", "ownership_costs", "engine", "images"]

/-- The table of digits of `artifact::hex_digest`. -/
def hexTable : List Char := "0123456789abcdef".toList

/-- The digits of `byte >> 4` and `byte & 0x0f`. -/
def hexPair (byte : UInt8) : List Char :=
  [hexTable.getD (byte.toNat / 16) '0', hexTable.getD (byte.toNat % 16) '0']

/-- `artifact::hex_digest`. -/
def hexDigestOf (bytes : List UInt8) : String := String.ofList (bytes.flatMap hexPair)

/-- The key of a record: the digest of the adapter's name and both names, NUL between
them. -/
def sourceRecordKey (manufacturer aircraft : String) : String :=
  hexDigestOf (crates.sha256 ("planephd".toUTF8.data.toList ++ [0] ++
    manufacturer.toUTF8.data.toList ++ [0] ++ aircraft.toUTF8.data.toList))

/-- `Confidence::SCRAPED_SOURCE`. -/
def scrapedSourceConfidence : ℚ := 1 / 5

/-- A name without the white space around it. -/
def trimmed (name : String) : String := String.ofList (Text.trim name.toList)

/-- The record of a value that is no object. -/
def emptyRecord (manufacturer aircraft : String) (raw : Json) (issues : List IngestIssue) :
    PreparedAircraftRecord where
  sourceRecordKey := sourceRecordKey crates manufacturer aircraft
  identity := { manufacturerName := trimmed manufacturer, aircraftName := trimmed aircraft }
  lifecycle := {}
  performance := []
  weights := []
  propulsion := {}
  valuation := {}
  operatingCosts := []
  images := []
  provenance :=
    { sourceSystemKey := sourceRecordKey crates manufacturer aircraft
      sourceUrl := none
      sourcePath := none
      confidence := scrapedSourceConfidence }
  issues := issues
  rawDocument := raw

/-- An optional step on an optional object. -/
def onObject {α : Type} (object : Option JsonObject)
    (step : JsonObject → Checked (Option α)) : Checked (Option α) :=
  match object with
  | none => pure none
  | some members => step members

/-- An Error for a name that is only white space. -/
def checkName (name code path message : String) : Checked Unit :=
  Noted.noteIf (Text.trim name.toList).isEmpty (issue code .error path message none)

/-- A warning for every member nobody reads. -/
def checkFields (object : JsonObject) : Checked Unit := do
  let _ ← Noted.collect (β := Unit) (fun entry => do
    Noted.noteIf (!knownFields.contains entry.1) (warning "UNSUPPORTED_RECORD_FIELD" entry.1
      "field is preserved in raw JSON but is not promoted" (some entry.2))
    pure none) object
  pure ()

/-- An Error for years that `ProductionYears::new` refuses. -/
def checkYears (start close : Option ℤ) : Checked Unit :=
  match ProductionYears.new start close with
  | .ok _ => pure ()
  | .error error =>
      Noted.note (issue "INVALID_PRODUCTION_YEARS" .error "production_years" error.message none)

/-- The URL of the page, if it is one. -/
def pageUrl (object : JsonObject) : Checked (Option String) := do
  match ← scalar (Json.get object "page_url") "page_url" with
  | none => pure none
  | some value => normalizedUrl crates value "page_url"

/-- The text that states how many engines there are. -/
def engineCountText (performance : JsonObject) : Option String :=
  ((Json.get performance "horsepower").or (Json.get performance "thrust")).bind valueText

/-- `normalize_record` on an object, without the issues, which are its notes. -/
def normalizeObject (manufacturer aircraft : String) (raw : Json) (object : JsonObject) :
    Checked PreparedAircraftRecord := do
  checkName manufacturer "MANUFACTURER_NAME_EMPTY" "$.<manufacturer>"
    "manufacturer key must not be empty"
  checkName aircraft "AIRCRAFT_NAME_EMPTY" "$.<manufacturer>.<aircraft>"
    "aircraft key must not be empty"
  checkFields object
  let description ← scalar (Json.get object "description") "description"
  let prose := description.map fun text => Text.lower text.toList
  -- A feed that states the years outranks one that spells them in the name.
  let named ← productionRange aircraft
  let inProduction := (← boolean object "in_production").or named.2.2
  let start := (← integer Text.parseI16 object "start_year").or named.1
  let close := (← integer Text.parseI16 object "end_year").or named.2.1
  checkYears start close
  let people := (description.map occupants).getD (none, none)
  let perfObject ← nested object "performance"
  let weightObject ← nested object "weights"
  let engine ← nested object "engine"
  let costs ← nested object "ownership_costs"
  let performance ← measurements perfObject "performance" perfCode
  let weights ← measurements weightObject "weights" weightCode
  let sourceLink ← scalar (Json.get object "source_link") "source_link"
  let pageUrl ← pageUrl crates object
  let horsepower ← onObject engine fun value =>
    numeric (Json.get value "horsepower") "engine.horsepower"
  let thrust ← onObject engine fun value =>
    numeric (Json.get value "thrust") "engine.thrust"
  let engineCount := (perfObject.bind engineCountText).bind parseEngineCount
  let title ← scalar (Json.get object "title") "title"
  let engineManufacturer ← onObject engine fun value =>
    scalar (Json.get value "manufacturer") "engine.manufacturer"
  let engineModel ← onObject engine fun value =>
    scalar (Json.get value "model") "engine.model"
  let tboHours ← onObject engine fun value =>
    numericInteger Text.parseI32 (Json.get value "overhaul_ht") "engine.overhaul_ht"
  let tboYears ← onObject engine fun value =>
    numericInteger Text.parseI32 (Json.get value "years_before_overhaul")
      "engine.years_before_overhaul"
  let price ← numeric (Json.get object "papi_price_estimate") "papi_price_estimate"
  let forSale ← numericInteger Text.parseI32 (Json.get object "for_sale_count")
    "for_sale_count"
  let operatingCosts ← costItems costs
  let images ← imageItems crates (Json.get object "images")
  return {
    sourceRecordKey := sourceRecordKey crates manufacturer aircraft
    identity :=
      { manufacturerName := trimmed manufacturer
        aircraftName := trimmed aircraft
        sourceLink := sourceLink
        pageUrl := pageUrl
        title := title
        description := description }
    lifecycle :=
      { variantType := variantType start
        landingGear := prose.bind landingGearType
        serviceStatus := serviceStatus inProduction
        productionStartYear := start
        productionEndYear := close
        isInProduction := inProduction
        passengerCapacity := people.1
        crewCount := people.2 }
    performance := performance
    weights := weights
    propulsion :=
      { category := prose.bind propulsionCategory
        manufacturer := engineManufacturer
        model := engineModel
        horsepower := horsepower
        thrustNewtons := thrust
        engineCount := engineCount
        tboHours := tboHours
        tboYears := tboYears }
    valuation := { papiPriceEstimate := price, forSaleCount := forSale }
    operatingCosts := operatingCosts
    images := images
    provenance :=
      { sourceSystemKey := sourceRecordKey crates manufacturer aircraft
        sourceUrl := pageUrl
        sourcePath := sourceLink
        confidence := scrapedSourceConfidence }
    issues := []
    rawDocument := raw }

/-- The record of a value under its two names, with every issue on the way. -/
def normalizeRecord (manufacturer aircraft : String) (raw : Json) : PreparedAircraftRecord :=
  match raw.asObject with
  | none =>
      emptyRecord crates manufacturer aircraft raw
        [issue "RECORD_NOT_OBJECT" .error "$" "aircraft record must be a JSON object" (some raw)]
  | some object =>
      let checked := normalizeObject crates manufacturer aircraft raw object
      { checked.value with issues := checked.notes }

end AircraftApi
