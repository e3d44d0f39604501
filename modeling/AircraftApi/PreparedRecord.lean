/-
AircraftApi/PreparedRecord.lean

What `normalize_record` makes of an object, field by field, and when it raises
an Error.

A field of the record is what the parsers make of the texts of the object
(`textAt`, `numericAt`, `integerAt`, `sectionAt`): one lemma for each reader,
and from them one for each part of the record.

Every issue a reader pushes is a warning whose texts are fixed but for the path
(`Plain`).  So the Errors are those of the names and of the years, and
`admitted_iff` says exactly which objects raise none.
-/
import AircraftApi.Normalization
import AircraftApi.Schema

namespace AircraftApi

/-! ### What the readers return -/

/-- The text of a member. -/
def textAt (object : JsonObject) (field : String) : Option String :=
  (Json.get object field).bind valueText

/-- The number a member states, as text. -/
def numericAt (object : JsonObject) (field : String) : Option String :=
  (textAt object field).bind parseNumeric

/-- The integer a numeric member states. -/
def integerAt (object : JsonObject) (field : String) : Option ℤ :=
  (numericAt object field).bind fun text => Text.parseI32 text.toList

/-- A member that is an object. -/
def sectionAt (object : JsonObject) (field : String) : Option JsonObject :=
  (Json.get object field).bind Json.asObject

theorem Json.asObject_eq_some {value : Json} {members : JsonObject} :
    value.asObject = some members ↔ value = .object members := by
  cases value <;> simp [Json.asObject]

@[simp] theorem scalar_value (value : Option Json) (field : String) :
    (scalar value field).value = value.bind valueText := by
  rcases value with - | (_ | _ | _ | _ | _ | _) <;> rfl

@[simp] theorem nested_value (object : JsonObject) (field : String) :
    (nested object field).value = sectionAt object field := by
  unfold nested sectionAt
  rcases Json.get object field with - | (_ | _ | _ | _ | _ | _) <;> rfl

@[simp] theorem integer_value (parse : List Char → Option ℤ) (object : JsonObject)
    (field : String) :
    (integer parse object field).value
      = (textAt object field).bind fun text => parse text.toList := by
  unfold integer textAt
  rw [Noted.value_bind, scalar_value]
  rcases (Json.get object field).bind valueText with - | text
  · rfl
  · exact orFault_value _ _

@[simp] theorem numeric_value (value : Option Json) (field : String) :
    (numeric value field).value = (value.bind valueText).bind parseNumeric := by
  unfold numeric
  rw [Noted.value_bind, scalar_value]
  rcases value.bind valueText with - | raw
  · rfl
  · exact orFault_value _ _

@[simp] theorem numericInteger_value (parse : List Char → Option ℤ) (value : Option Json)
    (field : String) :
    (numericInteger parse value field).value
      = ((value.bind valueText).bind parseNumeric).bind fun text => parse text.toList := by
  unfold numericInteger
  rw [Noted.value_bind, numeric_value]
  rcases (value.bind valueText).bind parseNumeric with - | parsed
  · rfl
  · exact orFault_value _ _

@[simp] theorem onObject_value {α : Type} (object : Option JsonObject)
    (step : JsonObject → Checked (Option α)) :
    (onObject object step).value = object.bind fun members => (step members).value := by
  rcases object with - | members <;> rfl

theorem measurement_value (path : String) (mapping : String → Option String) (field : String)
    (value : Json) :
    (measurement path mapping field value).value
      = if isEngineEntry path field then none
        else (valueText value).map (preparedMeasurement mapping field) := by
  unfold measurement
  split
  · rfl
  · rw [Noted.value_bind, scalar_value, Option.bind_some]
    rcases valueText value with - | raw <;> rfl

theorem costItem_value (key : String) (value : Json) :
    (costItem key value).value = (valueText value).map (preparedCost key) := by
  unfold costItem
  rw [Noted.value_bind, scalar_value, Option.bind_some]
  rcases valueText value with - | raw <;> rfl

/-- A measurement of the record comes from an entry of its section. -/
theorem mem_measurements {object : Option JsonObject} {path : String}
    {mapping : String → Option String} {m : MeasurementInput} :
    m ∈ (measurements object path mapping).value ↔
      ∃ members ∈ object, ∃ entry ∈ members, isEngineEntry path entry.1 = false ∧
        ∃ raw ∈ valueText entry.2, preparedMeasurement mapping entry.1 raw = m := by
  rcases object with - | members
  · simp [measurements]
  · simp only [measurements, Noted.mem_collect_value, measurement_value, Option.mem_some_iff,
      exists_eq_left']
    refine exists_congr fun entry => and_congr_right fun _ => ?_
    rcases isEngineEntry path entry.1 with - | -
    · simp
    · simp

/-- A cost of the record comes from an entry of its section. -/
theorem mem_costItems {object : Option JsonObject} {item : CostItemInput} :
    item ∈ (costItems object).value ↔
      ∃ members ∈ object, ∃ entry ∈ members,
        ∃ raw ∈ valueText entry.2, preparedCost entry.1 raw = item := by
  rcases object with - | members
  · simp [costItems]
  · simp only [costItems, Noted.mem_collect_value, costItem_value, Option.mem_some_iff,
      exists_eq_left']
    simp

/-- An image of the record comes from an entry of the list, but for which one
leads. -/
theorem mem_imageItems {crates : Crates} {value : Option Json} {image : ImageMetadataInput}
    (h : image ∈ (imageItems crates value).value) :
    ∃ images, value = some (.array images) ∧ ∃ object position href,
      .object object ∈ images ∧ position < 2 ^ 15 ∧
      (Json.get object "href").bind valueText = some href ∧
      { image with isPrimary := false } = preparedImage crates object position href := by
  rcases value with - | value
  · cases h
  · unfold imageItems at h
    cases value with
    | array images =>
        refine ⟨images, rfl, ?_⟩
        -- marking the first image changes its flag only
        have hprimary : ∀ items : List ImageMetadataInput, image ∈ markPrimary items →
            ∃ item ∈ items, { image with isPrimary := false } = { item with isPrimary := false } := by
          rintro (- | ⟨first, rest⟩) hin
          · cases hin
          · rcases List.mem_cons.mp hin with rfl | hrest
            · exact ⟨first, List.mem_cons_self, rfl⟩
            · exact ⟨image, List.mem_cons_of_mem _ hrest, rfl⟩
        obtain ⟨item, hitem, heq⟩ := hprimary _ h
        obtain ⟨entry, hentry, hvalue⟩ := Noted.mem_collect_value.mp hitem
        have hin : entry.1 ∈ images := List.fst_mem_of_mem_zipIdx hentry
        unfold imageItem at hvalue
        dsimp only at hvalue
        -- an object, with a link, at a place the column holds
        split at hvalue
        · cases hvalue
        · rename_i object hobject
          split at hvalue
          · cases hvalue
          · rename_i href hhref
            split at hvalue
            · rename_i hposition
              cases Option.some.inj hvalue
              rw [Json.asObject_eq_some.mp hobject] at hin
              exact ⟨object, entry.2, href, hin, hposition, hhref, heq⟩
            · cases hvalue
    | _ => cases h

/-! ### The record -/

/-- The years and the state the name spells. -/
def namedRange (aircraft : String) : ProductionRange := (productionRange aircraft).value

/-- The first year of production: stated, or else of the name. -/
def statedStart (aircraft : String) (object : JsonObject) : Option ℤ :=
  ((textAt object "start_year").bind fun text => Text.parseI16 text.toList).or
    (namedRange aircraft).1

/-- The last year of production: stated, or else of the name. -/
def statedClose (aircraft : String) (object : JsonObject) : Option ℤ :=
  ((textAt object "end_year").bind fun text => Text.parseI16 text.toList).or
    (namedRange aircraft).2.1

/-- Whether it is still produced: stated, or else of the name. -/
def statedInProduction (aircraft : String) (object : JsonObject) : Option Bool :=
  (boolean object "in_production").value.or (namedRange aircraft).2.2

/-- The description in lower case. -/
def proseOf (object : JsonObject) : Option (List Char) :=
  (textAt object "description").map fun text => Text.lower text.toList

variable (crates : Crates) (manufacturer aircraft : String) (raw : Json) (object : JsonObject)

/-- The record of an object, in terms of the parsers. -/
def recordOf : PreparedAircraftRecord where
  sourceRecordKey := sourceRecordKey crates manufacturer aircraft
  identity :=
    { manufacturerName := trimmed manufacturer
      aircraftName := trimmed aircraft
      sourceLink := textAt object "source_link"
      pageUrl := (pageUrl crates object).value
      title := textAt object "title"
      description := textAt object "description" }
  lifecycle :=
    { variantType := variantType (statedStart aircraft object)
      landingGear := (proseOf object).bind landingGearType
      serviceStatus := serviceStatus (statedInProduction aircraft object)
      productionStartYear := statedStart aircraft object
      productionEndYear := statedClose aircraft object
      isInProduction := statedInProduction aircraft object
      passengerCapacity := (textAt object "description").bind fun text =>
        numberAfter text "seats up to "
      crewCount := (textAt object "description").bind fun text => numberAfter text "plus " }
  performance := (measurements (sectionAt object "performance") "performance" perfCode).value
  weights := (measurements (sectionAt object "weights") "weights" weightCode).value
  propulsion :=
    { category := (proseOf object).bind propulsionCategory
      manufacturer := (sectionAt object "engine").bind fun engine => textAt engine "manufacturer"
      model := (sectionAt object "engine").bind fun engine => textAt engine "model"
      horsepower := (sectionAt object "engine").bind fun engine => numericAt engine "horsepower"
      thrustNewtons := (sectionAt object "engine").bind fun engine => numericAt engine "thrust"
      engineCount := ((sectionAt object "performance").bind engineCountText).bind parseEngineCount
      tboHours := (sectionAt object "engine").bind fun engine => integerAt engine "overhaul_ht"
      tboYears := (sectionAt object "engine").bind fun engine =>
        integerAt engine "years_before_overhaul" }
  valuation :=
    { papiPriceEstimate := numericAt object "papi_price_estimate"
      forSaleCount := integerAt object "for_sale_count" }
  operatingCosts := (costItems (sectionAt object "ownership_costs")).value
  images := (imageItems crates (Json.get object "images")).value
  provenance :=
    { sourceSystemKey := sourceRecordKey crates manufacturer aircraft
      sourceUrl := (pageUrl crates object).value
      sourcePath := textAt object "source_link"
      confidence := scrapedSourceConfidence }
  issues := []
  rawDocument := raw

/-- **The value**: `normalize_record` computes the record of the object. -/
theorem normalizeObject_value :
    (normalizeObject crates manufacturer aircraft raw object).value
      = recordOf crates manufacturer aircraft raw object := by
  have hpeople : ∀ description : Option String,
      ((description.map occupants).getD (none, none))
        = (description.bind fun text => numberAfter text "seats up to ",
            description.bind fun text => numberAfter text "plus ") := by
    rintro (- | text) <;> rfl
  dsimp only [normalizeObject, Noted.value_bind, Noted.value_pure]
  simp only [scalar_value, nested_value, integer_value, numeric_value, numericInteger_value,
    onObject_value, hpeople]
  rfl

theorem normalizeRecord_object :
    normalizeRecord crates manufacturer aircraft (.object object)
      = { recordOf crates manufacturer aircraft (.object object) object with
          issues := (normalizeObject crates manufacturer aircraft (.object object) object).notes } := by
  rw [← normalizeObject_value]
  rfl

/-! ### Which issues are pushed -/

/-- A warning whose texts hold no NUL, but for the path, which satisfies `path`. -/
structure Plain (path : String → Prop) (found : IngestIssue) : Prop where
  severity : found.severity = .warning
  code : nulFree found.code = true
  message : nulFree found.message = true
  rawValue : ∀ text ∈ found.rawValue, nulFree text = true
  fieldPath : path found.fieldPath

@[simp] theorem nulFree_append (s t : String) : nulFree (s ++ t) = (nulFree s && nulFree t) := by
  simp [nulFree, Bool.not_or]

theorem nulFree_ofList {s : List Char} (h : '\x00' ∉ s) : nulFree (String.ofList s) = true := by
  simpa [nulFree] using h

/-- The displayed value of an issue holds no control character. -/
theorem nulFree_displayed (value : Json) :
    nulFree (String.ofList ((value.render.filter fun c => !isControl c).take 256)) = true := by
  refine nulFree_ofList fun hin => ?_
  have hkept := (List.mem_filter.mp (List.mem_of_mem_take hin)).2
  exact absurd hkept (by decide)

theorem plain_warning {path : String → Prop} {code field message : String} {raw : Option Json}
    (hcode : nulFree code = true) (hmessage : nulFree message = true) (hfield : path field) :
    Plain path (warning code field message raw) where
  severity := rfl
  code := hcode
  message := hmessage
  rawValue := by
    rintro text htext
    obtain ⟨value, -, rfl⟩ := Option.map_eq_some_iff.mp htext
    exact nulFree_displayed value
  fieldPath := hfield

/-- A plain issue of a reader, which leaves the production range to the reader of the name. -/
structure Reader (path : String → Prop) (found : IngestIssue) : Prop extends Plain path found where
  code_ne : found.code ≠ "UNPARSEABLE_PRODUCTION_RANGE"

/-- The case of two literals. -/
theorem reader_literal {path : String → Prop} {code message : List Char} {field : String}
    {raw : Option Json} (hcode : '\x00' ∉ code ∧
      String.ofList code ≠ "UNPARSEABLE_PRODUCTION_RANGE") (hmessage : '\x00' ∉ message)
    (hfield : path field) :
    Reader path (warning (String.ofList code) field (String.ofList message) raw) where
  toPlain := plain_warning (nulFree_ofList hcode.1) (nulFree_ofList hmessage) hfield
  code_ne := hcode.2

/-- All issues pushed are plain, with paths satisfying `path`. -/
abbrev Warns {α : Type} (path : String → Prop) (checked : Checked α) : Prop :=
  Noted.All (Plain path) checked

/-- And none of them is about a production range. -/
abbrev Reads {α : Type} (path : String → Prop) (checked : Checked α) : Prop :=
  Noted.All (Reader path) checked

theorem Reads.warns {α : Type} {path : String → Prop} {checked : Checked α}
    (h : Reads path checked) : Warns path checked := h.mono fun _ hfound => hfound.toPlain

namespace Reads

variable {path : String → Prop}

theorem orFault {α : Type} {value : Option α} {found : IngestIssue} (h : Reader path found) :
    Reads path (AircraftApi.orFault value found) := by
  rcases value with - | a
  · exact Noted.All.fault h
  · exact Noted.All.pure _

theorem nested (object : JsonObject) {field : String} (h : path field) :
    Reads path (AircraftApi.nested object field) := by
  unfold AircraftApi.nested
  split
  · exact Noted.All.pure _
  · exact Noted.All.pure _
  · exact Noted.All.pure _
  · exact Noted.All.fault (reader_literal (by decide) (by decide) h)

theorem scalar (value : Option Json) {field : String} (h : path field) :
    Reads path (AircraftApi.scalar value field) := by
  unfold AircraftApi.scalar
  split
  · exact Noted.All.pure _
  · exact Noted.All.pure _
  · exact Noted.All.pure _
  · exact Noted.All.pure _
  · exact Noted.All.pure _
  · exact Noted.All.fault (reader_literal (by decide) (by decide) h)

theorem integer (parse : List Char → Option ℤ) (object : JsonObject) {field : String}
    (h : path field) : Reads path (AircraftApi.integer parse object field) := by
  refine Noted.All.bind (scalar _ h) ?_
  split
  · exact Noted.All.pure _
  · exact orFault (reader_literal (by decide) (by decide) h)

theorem numeric (value : Option Json) {field : String} (h : path field) :
    Reads path (AircraftApi.numeric value field) := by
  refine Noted.All.bind (scalar _ h) ?_
  split
  · exact Noted.All.pure _
  · exact orFault (reader_literal (by decide) (by decide) h)

theorem numericInteger (parse : List Char → Option ℤ) (value : Option Json) {field : String}
    (h : path field) : Reads path (AircraftApi.numericInteger parse value field) := by
  refine Noted.All.bind (numeric _ h) ?_
  split
  · exact Noted.All.pure _
  · exact orFault (reader_literal (by decide) (by decide) h)

theorem boolean (object : JsonObject) {field : String} (h : path field) :
    Reads path (AircraftApi.boolean object field) := by
  have hinvalid : Reader path (warning "INVALID_BOOLEAN_FIELD" field "field is not a boolean"
      (Json.get object field)) := reader_literal (by decide) (by decide) h
  unfold AircraftApi.boolean
  dsimp only
  split
  · exact Noted.All.pure _
  · exact Noted.All.pure _
  · exact orFault hinvalid
  · exact Noted.All.fault hinvalid

theorem onObject {α : Type} {object : Option JsonObject}
    {step : JsonObject → Checked (Option α)} (h : ∀ members, Reads path (step members)) :
    Reads path (AircraftApi.onObject object step) := by
  rcases object with - | members
  · exact Noted.All.pure _
  · exact h members

theorem normalizedUrl (crates : Crates) (raw : String) {field : String} (h : path field) :
    Reads path (AircraftApi.normalizedUrl crates raw field) :=
  orFault (reader_literal (by decide) (by decide) h)

theorem pageUrl (crates : Crates) (object : JsonObject) (h : path "page_url") :
    Reads path (AircraftApi.pageUrl crates object) := by
  refine Noted.All.bind (scalar _ h) ?_
  split
  · exact Noted.All.pure _
  · exact normalizedUrl crates _ h

theorem noteIf {c : Bool} {found : IngestIssue} (h : Reader path found) :
    Reads path (Noted.noteIf c found) :=
  Noted.All.noteIf fun _ => h

theorem measurement {section_ : String} (mapping : String → Option String) {field : String}
    (value : Json) (h : path s!"{section_}.{field}") :
    Reads path (AircraftApi.measurement section_ mapping field value) := by
  unfold AircraftApi.measurement
  split
  · exact Noted.All.pure _
  · refine Noted.All.bind (scalar _ h) ?_
    split
    · exact Noted.All.pure _
    · refine Noted.All.bind (noteIf (reader_literal (by decide) (by decide) h)) ?_
      refine Noted.All.bind (noteIf (reader_literal (by decide) (by decide) h)) ?_
      refine Noted.All.bind (noteIf (reader_literal (by decide) (by decide) h)) ?_
      refine Noted.All.bind (noteIf (reader_literal (by decide) (by decide) h)) ?_
      refine Noted.All.bind (noteIf (reader_literal (by decide) (by decide) h)) ?_
      refine Noted.All.bind (noteIf (reader_literal (by decide) (by decide) h)) ?_
      exact Noted.All.pure _

theorem measurements {object : Option JsonObject} {section_ : String}
    (mapping : String → Option String)
    (h : ∀ members ∈ object, ∀ entry ∈ members, path s!"{section_}.{entry.1}") :
    Reads path (AircraftApi.measurements object section_ mapping) := by
  rcases object with - | members
  · exact Noted.All.pure _
  · exact Noted.All.collect fun entry hentry => measurement mapping _ (h members rfl entry hentry)

theorem costItem {key : String} (value : Json) (h : path s!"ownership_costs.{key}") :
    Reads path (AircraftApi.costItem key value) := by
  have hlong : ∀ {code s t : List Char}, '\x00' ∉ code ∧
      String.ofList code ≠ "UNPARSEABLE_PRODUCTION_RANGE" → '\x00' ∉ s → '\x00' ∉ t →
      Reader path (warning (String.ofList code) s!"ownership_costs.{key}"
        (String.ofList s ++ String.ofList t) (some value)) := by
    intro code s t hcode hs ht
    refine ⟨plain_warning (nulFree_ofList hcode.1) ?_ h, hcode.2⟩
    rw [nulFree_append, nulFree_ofList hs, nulFree_ofList ht]
    rfl
  unfold AircraftApi.costItem
  refine Noted.All.bind (scalar _ h) ?_
  split
  · exact Noted.All.pure _
  · refine Noted.All.bind (noteIf (hlong (by decide) (by decide) (by decide))) ?_
    refine Noted.All.bind (noteIf (hlong (by decide) (by decide) (by decide))) ?_
    exact Noted.All.pure _

theorem costItems {object : Option JsonObject}
    (h : ∀ members ∈ object, ∀ entry ∈ members, path s!"ownership_costs.{entry.1}") :
    Reads path (AircraftApi.costItems object) := by
  rcases object with - | members
  · exact Noted.All.pure _
  · exact Noted.All.collect fun entry hentry => costItem _ (h members rfl entry hentry)

theorem imageItem (crates : Crates) (image : Json) {position : ℕ}
    (h : path (imagePath position)) (hhref : path s!"{imagePath position}.href")
    (hdimensions : path s!"{imagePath position}.dimensions") :
    Reads path (AircraftApi.imageItem crates image position) := by
  unfold AircraftApi.imageItem
  dsimp only
  split
  · exact Noted.All.fault (reader_literal (by decide) (by decide) h)
  · split
    · exact Noted.All.fault (reader_literal (by decide) (by decide) hhref)
    · split
      · refine Noted.All.bind (noteIf (reader_literal (by decide) (by decide) hdimensions)) ?_
        exact Noted.All.bind (normalizedUrl crates _ hhref) (Noted.All.pure _)
      · exact Noted.All.fault (reader_literal (by decide) (by decide) h)

theorem imageItems (crates : Crates) (value : Option Json) (himages : path "images")
    (h : ∀ position, path (imagePath position) ∧ path s!"{imagePath position}.href" ∧
      path s!"{imagePath position}.dimensions") :
    Reads path (AircraftApi.imageItems crates value) := by
  unfold AircraftApi.imageItems
  split
  · exact Noted.All.pure _
  · split
    · exact Noted.All.bind
        (Noted.All.note (reader_literal (by decide) (by decide) himages)) (Noted.All.pure _)
    · refine Noted.All.bind (Noted.All.collect fun entry _ => ?_) (Noted.All.pure _)
      obtain ⟨hself, hhref, hdimensions⟩ := h entry.2
      exact imageItem crates _ hself hhref hdimensions

theorem checkFields {object : JsonObject} (h : ∀ entry ∈ object, path entry.1) :
    Reads path (AircraftApi.checkFields object) := by
  refine Noted.All.bind (Noted.All.collect fun entry hentry => ?_) (Noted.All.pure _)
  exact Noted.All.bind (noteIf (reader_literal (by decide) (by decide) (h entry hentry)))
    (Noted.All.pure _)

end Reads

/-- The reader of the name is the one that reports a range. -/
theorem warns_productionRange {path : String → Prop} (aircraft : String) (h : path "$.<aircraft>") :
    Warns path (productionRange aircraft) := by
  unfold productionRange
  split
  · exact Noted.All.pure _
  · rename_i what herror
    have hwhat : nulFree what = true := by
      unfold parsedProductionRange at herror
      dsimp only at herror
      repeat' split at herror
      all_goals cases herror
      · exact nulFree_ofList (by decide)
      · exact nulFree_ofList (by decide)
    exact Noted.All.bind
      (Noted.All.note (plain_warning (nulFree_ofList (by decide)) hwhat h)) (Noted.All.pure _)

/-! ### Which records are admitted -/

/-- Every path an issue of this object may have satisfies `path`: the texts
without NUL, among them all the fixed ones, and those made of the object's keys. -/
structure Paths (path : String → Prop) (object : JsonObject) : Prop where
  fixed : ∀ p, nulFree p = true → path p
  keys : ∀ entry ∈ object, path entry.1
  performance : ∀ members ∈ sectionAt object "performance", ∀ entry ∈ members,
    path s!"performance.{entry.1}"
  weights : ∀ members ∈ sectionAt object "weights", ∀ entry ∈ members,
    path s!"weights.{entry.1}"
  costs : ∀ members ∈ sectionAt object "ownership_costs", ∀ entry ∈ members,
    path s!"ownership_costs.{entry.1}"

theorem nulFree_toString_nat (n : ℕ) : nulFree (toString n) = true := by
  rw [Nat.toString_eq_ofList_toDigits]
  refine nulFree_ofList fun hin => ?_
  exact absurd (Nat.isDigit_of_mem_toDigits (by decide) (by decide) hin) (by decide)

theorem nulFree_imagePath (position : ℕ) : nulFree (imagePath position) = true := by
  show nulFree (_ ++ toString position ++ _) = true
  rw [nulFree_append, nulFree_append, nulFree_toString_nat]
  decide

variable {crates manufacturer aircraft raw object}

/-- The paths of the readers of single fields, but for the count. -/
def readerPaths : List String :=
  ["description", "$.<aircraft>", "in_production", "start_year", "end_year", "performance",
    "weights", "engine", "ownership_costs", "source_link", "page_url", "engine.horsepower",
    "engine.thrust", "title", "engine.manufacturer", "engine.model", "engine.overhaul_ht",
    "engine.years_before_overhaul", "papi_price_estimate"]

/-- The path is the list's, an image's, or one into an image. -/
def ImagesPath (path : String) : Prop :=
  path = "images" ∨ ∃ position, path = imagePath position ∨
    path = s!"{imagePath position}.href" ∨ path = s!"{imagePath position}.dimensions"

/-- The issues of the images are those of a reader, on paths of the images. -/
theorem images_all {P : IngestIssue → Prop} (h : ∀ found, Reader ImagesPath found → P found) :
    Noted.All P (imageItems crates (Json.get object "images")) := by
  refine Noted.All.mono (Reads.imageItems crates _ (.inl rfl) fun position => ?_) h
  exact ⟨.inr ⟨position, .inl rfl⟩, .inr ⟨position, .inr (.inl rfl)⟩,
    .inr ⟨position, .inr (.inr rfl)⟩⟩

/-- What a predicate must satisfy to hold of all issues of an object but those of the
production range: it holds of those of the names, keys, years, measurements, count, costs
and images, and of what a reader pushes on its path. -/
structure Covers (P : IngestIssue → Prop) (crates : Crates) (manufacturer aircraft : String)
    (object : JsonObject) : Prop where
  reader : ∀ path ∈ readerPaths, ∀ found, Reader (· = path) found → P found
  images : Noted.All P (imageItems crates (Json.get object "images"))
  maker : Noted.All P (checkName manufacturer "MANUFACTURER_NAME_EMPTY" "$.<manufacturer>"
    "manufacturer key must not be empty")
  name : Noted.All P (checkName aircraft "AIRCRAFT_NAME_EMPTY" "$.<manufacturer>.<aircraft>"
    "aircraft key must not be empty")
  keys : Noted.All P (checkFields object)
  years : Noted.All P (checkYears (statedStart aircraft object) (statedClose aircraft object))
  performance : Noted.All P (measurements (sectionAt object "performance") "performance" perfCode)
  weights : Noted.All P (measurements (sectionAt object "weights") "weights" weightCode)
  count : Noted.All P (numericInteger Text.parseI32 (Json.get object "for_sale_count")
    "for_sale_count")
  costs : Noted.All P (costItems (sectionAt object "ownership_costs"))

/-- **Every issue but one**: where none of the issues covered counts, those of an object that
count are those of the production range its name spells. -/
theorem normalizeObject_filter {P : IngestIssue → Prop} [DecidablePred P]
    (h : Covers (fun found => ¬ P found) crates manufacturer aircraft object) :
    (normalizeObject crates manufacturer aircraft raw object).notes.filter (fun found => P found)
      = (productionRange aircraft).notes.filter fun found => P found := by
  have hread : ∀ {α : Type} {checked : Checked α} (path : String), path ∈ readerPaths →
      Reads (· = path) checked → Noted.All (fun found => ¬ P found) checked :=
    fun path hpath hreads => hreads.mono (h.reader path hpath)
  unfold normalizeObject
  rw [Noted.All.filter_bind h.maker, Noted.All.filter_bind h.name,
    Noted.All.filter_bind h.keys,
    Noted.All.filter_bind (hread "description" (by decide) (Reads.scalar _ rfl)),
    Noted.notes_bind, List.filter_append]
  refine List.append_right_eq_self.mpr (Noted.All.filter_eq_nil ?_)
  -- behind the name's reader come the readers of the members, in the order of the source
  refine Noted.All.bind (hread "in_production" (by decide) (Reads.boolean _ rfl)) ?_
  refine Noted.All.bind (hread "start_year" (by decide) (Reads.integer _ _ rfl)) ?_
  refine Noted.All.bind (hread "end_year" (by decide) (Reads.integer _ _ rfl)) ?_
  refine Noted.All.bind (by rw [integer_value, integer_value]; exact h.years) ?_
  refine Noted.All.bind (hread "performance" (by decide) (Reads.nested _ rfl)) ?_
  refine Noted.All.bind (hread "weights" (by decide) (Reads.nested _ rfl)) ?_
  refine Noted.All.bind (hread "engine" (by decide) (Reads.nested _ rfl)) ?_
  refine Noted.All.bind (hread "ownership_costs" (by decide) (Reads.nested _ rfl)) ?_
  refine Noted.All.bind (by rw [nested_value]; exact h.performance) ?_
  refine Noted.All.bind (by rw [nested_value]; exact h.weights) ?_
  refine Noted.All.bind (hread "source_link" (by decide) (Reads.scalar _ rfl)) ?_
  refine Noted.All.bind (hread "page_url" (by decide) (Reads.pageUrl _ _ rfl)) ?_
  refine Noted.All.bind (hread "engine.horsepower" (by decide)
    (Reads.onObject fun _ => Reads.numeric _ rfl)) ?_
  refine Noted.All.bind (hread "engine.thrust" (by decide)
    (Reads.onObject fun _ => Reads.numeric _ rfl)) ?_
  refine Noted.All.bind (hread "title" (by decide) (Reads.scalar _ rfl)) ?_
  refine Noted.All.bind (hread "engine.manufacturer" (by decide)
    (Reads.onObject fun _ => Reads.scalar _ rfl)) ?_
  refine Noted.All.bind (hread "engine.model" (by decide)
    (Reads.onObject fun _ => Reads.scalar _ rfl)) ?_
  refine Noted.All.bind (hread "engine.overhaul_ht" (by decide)
    (Reads.onObject fun _ => Reads.numericInteger _ _ rfl)) ?_
  refine Noted.All.bind (hread "engine.years_before_overhaul" (by decide)
    (Reads.onObject fun _ => Reads.numericInteger _ _ rfl)) ?_
  refine Noted.All.bind (hread "papi_price_estimate" (by decide) (Reads.numeric _ rfl)) ?_
  refine Noted.All.bind h.count (Noted.All.bind (by rw [nested_value]; exact h.costs) ?_)
  exact Noted.All.bind h.images (Noted.All.pure _)

/-- **Every issue**: a predicate holds of all issues of an object when it holds of those
covered and of those of the production range. -/
theorem normalizeObject_all {P : IngestIssue → Prop}
    (h : Covers P crates manufacturer aircraft object)
    (hrange : Noted.All P (productionRange aircraft)) :
    Noted.All P (normalizeObject crates manufacturer aircraft raw object) := by
  classical
  intro found hfound
  by_contra hnot
  have hcovers : Covers (fun found => ¬ ¬ P found) crates manufacturer aircraft object := by
    simpa only [not_not] using h
  have hcounted : found ∈ (normalizeObject crates manufacturer aircraft raw object).notes.filter
      fun found => ¬ P found := List.mem_filter.mpr ⟨hfound, decide_eq_true hnot⟩
  rw [normalizeObject_filter hcovers] at hcounted
  exact hnot (hrange found (List.mem_filter.mp hcounted).1)

/-- Beyond the names and the years, an object raises warnings only. -/
theorem normalizeObject_warns {path : String → Prop} (h : Paths path object)
    (hmanufacturer : (Text.trim manufacturer.toList).isEmpty = false)
    (haircraft : (Text.trim aircraft.toList).isEmpty = false)
    (hyears : ProductionYears.fault (statedStart aircraft object) (statedClose aircraft object)
      = none) :
    Warns path (normalizeObject crates manufacturer aircraft raw object) := by
  -- a name that is not blank is not reported, nor are years in order
  have hname : ∀ {name code p message : String}, (Text.trim name.toList).isEmpty = false →
      Warns path (checkName name code p message) := by
    intro name code p message hblank
    unfold checkName
    rw [hblank]
    exact Noted.All.pure ()
  have hchecked : Warns path (checkYears (statedStart aircraft object)
      (statedClose aircraft object)) := by
    unfold checkYears ProductionYears.new
    split
    · exact Noted.All.pure ()
    · rename_i error herror
      split at herror
      · rename_i hfault
        rw [hyears] at hfault
        cases hfault
      · cases herror
  refine normalizeObject_all {
    reader := ?_
    images := ?_
    maker := hname hmanufacturer
    name := hname haircraft
    keys := (Reads.checkFields h.keys).warns
    years := hchecked
    performance := (Reads.measurements _ h.performance).warns
    weights := (Reads.measurements _ h.weights).warns
    count := (Reads.numericInteger _ _ (h.fixed _ (by decide))).warns
    costs := (Reads.costItems h.costs).warns } (warns_productionRange _ (h.fixed _ (by decide)))
  · intro p hp found hfound
    -- the path of a reader is one of the source, which holds no NUL
    have hfixed : ∀ q ∈ readerPaths, nulFree q = true := by decide
    exact { hfound with fieldPath := by rw [hfound.fieldPath]; exact h.fixed p (hfixed p hp) }
  · refine images_all fun found hfound => ?_
    refine { hfound with fieldPath := h.fixed _ ?_ }
    rcases hfound.fieldPath with hpath | ⟨position, hpath | hpath | hpath⟩
    · rw [hpath]
      decide
    · rw [hpath]
      -- the path of an image is made of its number
      exact nulFree_imagePath position
    · rw [hpath]
      show nulFree (imagePath position ++ ".href") = true
      rw [nulFree_append, nulFree_imagePath]
      exact nulFree_ofList (by decide)
    · rw [hpath]
      show nulFree (imagePath position ++ ".dimensions") = true
      rw [nulFree_append, nulFree_imagePath]
      exact nulFree_ofList (by decide)

/-- A record carries no error when all its issues are warnings. -/
theorem firstError_eq_none {record : PreparedAircraftRecord} :
    record.firstError = none ↔ ∀ found ∈ record.issues, found.severity = .warning := by
  unfold PreparedAircraftRecord.firstError
  rw [List.find?_eq_none]
  refine forall₂_congr fun found _ => ?_
  rcases found.severity with - | - <;> simp

/-- **Admission**: exactly the objects under two names that are not white space,
whose years `ProductionYears::new` takes, raise no Error. -/
theorem admitted_iff :
    (normalizeRecord crates manufacturer aircraft raw).firstError = none ↔
      ∃ object, raw = .object object ∧ (Text.trim manufacturer.toList).isEmpty = false ∧
        (Text.trim aircraft.toList).isEmpty = false ∧
        ProductionYears.fault (statedStart aircraft object) (statedClose aircraft object)
          = none := by
  rw [firstError_eq_none]
  constructor
  · intro h
    obtain ⟨object, rfl⟩ : ∃ object, raw = .object object := by
      cases raw with
      | object object => exact ⟨object, rfl⟩
      | _ => cases h _ (List.mem_singleton.mpr rfl)
    refine ⟨object, rfl, ?_⟩
    rw [normalizeRecord_object] at h
    have hall : Noted.All (fun found => found.severity = .warning)
        (normalizeObject crates manufacturer aircraft (.object object) object) := h
    -- a name without an Error is not blank
    have hblank : ∀ {name code p message : String},
        Noted.All (fun found => found.severity = .warning) (checkName name code p message) →
        (Text.trim name.toList).isEmpty = false := by
      intro name code p message hname
      unfold checkName at hname
      rcases hempty : (Text.trim name.toList).isEmpty with - | -
      · rfl
      · rw [hempty] at hname
        cases hname _ (List.mem_singleton.mpr rfl)
    simp only [normalizeObject, Noted.All.bind_iff, integer_value] at hall
    obtain ⟨hmanufacturer, haircraft, -, -, -, -, -, -, hyears, -⟩ := hall
    refine ⟨hblank hmanufacturer, hblank haircraft, ?_⟩
    rcases hfault : ProductionYears.fault (statedStart aircraft object)
      (statedClose aircraft object) with - | error
    · rfl
    · -- years with a fault would be reported as an Error
      have herror : ProductionYears.new (statedStart aircraft object)
          (statedClose aircraft object) = .error error := by
        unfold ProductionYears.new
        split
        · rename_i hsome
          rw [hfault] at hsome
          rw [Option.some.inj hsome]
        · rename_i hnone
          rw [hfault] at hnone
          cases hnone
      have hnote : Noted.All (fun found => found.severity = .warning)
          (checkYears (statedStart aircraft object) (statedClose aircraft object)) := hyears
      unfold checkYears at hnote
      rw [herror] at hnote
      cases hnote _ (List.mem_singleton.mpr rfl)
  · rintro ⟨object, rfl, hmanufacturer, haircraft, hyears⟩ found hfound
    have hpaths : Paths (fun _ => True) object := by
      constructor <;> intros <;> trivial
    rw [normalizeRecord_object] at hfound
    exact (normalizeObject_warns hpaths hmanufacturer haircraft hyears found hfound).severity

end AircraftApi
