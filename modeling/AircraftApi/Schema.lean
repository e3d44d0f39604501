/-
AircraftApi/Schema.lean

The constraints of the columns a prepared record is written to.

`Loadable` collects, table by table, the domains, checks, types and foreign
keys that the staging and promotion statements meet with values of the record:
year_value, slug_text, SMALLINT and INTEGER, NUMERIC casts and NUMERIC(p,s),
the CHECK constraints of variants, engine_variants, performance_metrics,
valuations and the cost tables, the seeded vocabularies, and no NUL character
in a text or a JSON value.

Constraints between rows (unique keys, the merge with a stored variant) are not
constraints on a value, and sizes the server refuses to store (index entries,
text search vectors) are not constraints of a column.
-/
import AircraftApi.Ingestion
import AircraftApi.Numeric
import AircraftApi.Slug

namespace AircraftApi

/-! ### NUL -/

/-- No NUL character. -/
def nulFree (text : String) : Bool := !text.toList.contains '\x00'

mutual

/-- No string or key of the value holds NUL. -/
def Json.nulFree : Json → Bool
  | .string text => AircraftApi.nulFree text
  | .array items => nulFreeItems items
  | .object members => nulFreeMembers members
  | _ => true

/-- The items hold no NUL. -/
def nulFreeItems : List Json → Bool
  | [] => true
  | item :: rest => item.nulFree && nulFreeItems rest

/-- Neither the keys nor the values hold a NUL. -/
def nulFreeMembers : List (String × Json) → Bool
  | [] => true
  | (key, value) :: rest => AircraftApi.nulFree key && value.nulFree && nulFreeMembers rest

end

namespace Schema

open Numeric (Fits Representable roundUnits)
open Slug (slugText slugify)

/-! ### Domains and types -/

/-- `aircraft_ref.year_value`. -/
def YearValue (year : ℤ) : Prop := 1900 ≤ year ∧ year ≤ 2100

/-- A number of a `smallint` column. -/
def Smallint (n : ℤ) : Prop := -2 ^ 15 ≤ n ∧ n ≤ 2 ^ 15 - 1

/-- A number of an `integer` column. -/
def Integer (n : ℤ) : Prop := -2 ^ 31 ≤ n ∧ n ≤ 2 ^ 31 - 1

/-- A literal a NUMERIC column with a check for no negative value takes. -/
def NonnegNumeric (text : String) : Prop := ∃ q, Numeric.cast text = some q ∧ 0 ≤ q

/-- A literal a NUMERIC(precision, scale) column with that check takes. -/
def Money (precision scale : ℕ) (text : String) : Prop :=
  ∃ q, Numeric.cast text = some q ∧ Fits precision scale q ∧ 0 ≤ roundUnits scale q

/-! ### Seeded vocabularies -/

/-- The codes seeded for the service status. -/
def serviceStatuses : List String :=
  ["IN_PRODUCTION", "LIMITED_PRODUCTION", "DISCONTINUED", "RETIRED", "EXPERIMENTAL", "ON_ORDER",
    "UNKNOWN"]

/-- The codes seeded for the variant type. -/
def variantTypes : List String :=
  ["PRODUCTION_STANDARD", "PROTOTYPE", "PRE_PRODUCTION", "EXPORT", "MILITARY_CONVERSION",
    "CIVIL_CONVERSION", "STC_CONVERSION", "SPECIAL_MISSION", "CLASSIC_SERIES"]

/-- The codes seeded for the landing gear. -/
def landingGearTypes : List String :=
  ["FIXED_TRICYCLE", "RETRACTABLE_TRICYCLE", "FIXED_TAILWHEEL", "RETRACTABLE_TAILWHEEL",
    "FIXED_UNSPECIFIED", "RETRACTABLE_UNSPECIFIED", "AMPHIBIOUS", "FLOATS", "SKIS", "SKIDS",
    "TAILSKID", "NONE_GLIDER"]

/-- The codes seeded for the propulsion. -/
def propulsionCategories : List String :=
  ["PISTON_RECIPROCATING", "PISTON_ROTARY", "TURBOPROP", "TURBOJET", "TURBOFAN_LOW_BPR",
    "TURBOFAN_HIGH_BPR", "TURBOSHAFT", "ELECTRIC", "HYBRID_ELECTRIC", "ROCKET", "NONE_GLIDER"]

/-- `cost_item_types`: the code, whether it is a fixed annual cost, and whether
it is a total. -/
def costItemTypes : List (String × Bool × Bool) :=
  [("ANNUAL_INSPECTION", true, false), ("INSURANCE", true, false),
    ("HANGAR_STORAGE", true, false), ("DEPRECIATION", true, false),
    ("WEATHER_SERVICE", true, false), ("PILOT_TRAINING", true, false),
    ("PILOT_SALARY", true, false), ("REFURBISHING", true, false),
    ("REGISTRATION_TAXES", true, false), ("FINANCING", true, false), ("FUEL", false, false),
    ("OIL", false, false), ("HOURLY_MAINTENANCE", false, false),
    ("UNSCHEDULED_MAINT", false, false), ("OVERHAUL_RESERVE", false, false),
    ("ENGINE_RESERVE", false, false), ("PROP_RESERVE", false, false),
    ("AVIONICS_RESERVE", false, false), ("LANDING_FEES", false, false),
    ("MISC_VARIABLE", false, false), ("TOTAL_COST_ANNUAL", false, true),
    ("TOTAL_FIXED_COST", false, true), ("TOTAL_VARIABLE_COST", false, true)]

/-- The rows of `measurement_units` the adapter's unit codes name: the code, the
canonical unit, and the factor to it. -/
def measurementUnits : List (String × String × ℚ) :=
  [("KNOTS", "KNOTS", 1), ("KIAS", "KNOTS", 1), ("KTAS", "KNOTS", 1), ("FT", "FT", 1),
    ("NM", "NM", 1), ("LBS", "LBS", 1), ("KG", "LBS", 22046226218 / 10000000000),
    ("US_GAL", "US_GAL", 1), ("GPH", "GPH", 1), ("PPH", "PPH", 1), ("HP", "HP", 1),
    ("KW", "HP", 13410220896 / 10000000000), ("LBF", "LBF", 1),
    ("NEWTONS", "LBF", 2248089431 / 10000000000), ("FPM", "FPM", 1), ("HRS", "HRS", 1)]

/-- The rows of `performance_metric_types` the adapter's codes name, with their
canonical units. -/
def performanceMetricTypes : List (String × String) :=
  [("SPEED_CRUISE_BEST", "KNOTS"), ("SPEED_STALL_CLEAN", "KNOTS"), ("CLIMB_RATE_SL", "FPM"),
    ("CLIMB_RATE_OEI", "FPM"), ("CEILING_SERVICE", "FT"), ("CEILING_OEI", "FT"),
    ("RANGE_NORMAL", "NM"), ("DIST_TO_GROUND_ROLL", "FT"), ("DIST_TO_50FT", "FT"),
    ("DIST_LDG_GROUND_ROLL", "FT"), ("DIST_LDG_50FT", "FT"), ("FUEL_BURN_CRUISE", "GPH")]

/-- The rows of `weight_metric_types` the adapter's codes name. -/
def weightMetricTypes : List (String × String) :=
  [("WEIGHT_EMPTY", "LBS"), ("WEIGHT_MTOW", "LBS"), ("WEIGHT_USEFUL_LOAD", "LBS"),
    ("WEIGHT_PAYLOAD", "LBS"), ("WEIGHT_PAYLOAD_FULL_FUEL", "LBS"),
    ("FUEL_CAPACITY_USABLE", "US_GAL"), ("FUEL_WEIGHT_MAX", "LBS")]

/-! ### Rows -/

/-- `staged_aircraft` and `staged_images`. -/
structure StagingLoadable (record : PreparedAircraftRecord) : Prop where
  start : ∀ year ∈ record.lifecycle.productionStartYear, Smallint year
  close : ∀ year ∈ record.lifecycle.productionEndYear, Smallint year
  images : ∀ image ∈ record.images, Smallint image.arrayPosition ∧
    (∀ width ∈ image.widthPx, Smallint width) ∧ ∀ height ∈ image.heightPx, Smallint height

/-- The slugs of `organizations`, `families`, `models` and `variants`. -/
structure SlugsLoadable (lower : Char → Char) (identity : AircraftIdentityInput) : Prop where
  organization : slugText (slugify lower identity.manufacturerName.toList) = true
  family : slugText (slugify lower (identity.manufacturerName.toList ++ "-family".toList)) = true
  model : slugText (slugify lower (identity.manufacturerName.toList ++ "-".toList ++
    identity.aircraftName.toList)) = true
  variant : slugText (slugify lower (identity.manufacturerName.toList ++ "-".toList ++
    identity.aircraftName.toList ++ "-v1".toList)) = true

/-- `aircraft_core.variants`. -/
structure VariantLoadable (record : PreparedAircraftRecord) : Prop where
  start : ∀ year ∈ record.lifecycle.productionStartYear, YearValue year
  close : ∀ year ∈ record.lifecycle.productionEndYear, YearValue year
  ordered : ∀ s ∈ record.lifecycle.productionStartYear,
    ∀ c ∈ record.lifecycle.productionEndYear, s ≤ c
  passengers : ∀ n ∈ record.lifecycle.passengerCapacity, Smallint n ∧ 0 ≤ n
  crew : ∀ n ∈ record.lifecycle.crewCount, Smallint n ∧ 0 ≤ n
  engineCount : ∀ n ∈ record.propulsion.engineCount, Smallint n ∧ 0 < n
  propulsion : ∀ code ∈ record.propulsion.category, code ∈ propulsionCategories
  serviceStatus : ∀ code ∈ record.lifecycle.serviceStatus, code ∈ serviceStatuses
  landingGear : ∀ code ∈ record.lifecycle.landingGear, code ∈ landingGearTypes
  variantType : ∀ code ∈ record.lifecycle.variantType, code ∈ variantTypes

/-- The text `promote_engine` makes the engine's slug of. -/
def engineName (manufacturer : Option String) (model : String) : List Char :=
  (manufacturer.getD "unknown").toList ++ "-".toList ++ model.toList

/-- The thrust columns: newtons as stated, and pounds-force derived from them. -/
def ThrustLoadable (text : String) : Prop :=
  ∃ q, Numeric.cast text = some q ∧ 0 ≤ q ∧ 0 ≤ roundUnits 2 (q * (224809 / 1000000))

/-- `aircraft_power.engine_variants`, written only for an engine with a model. -/
structure EngineLoadable (lower : Char → Char) (propulsion : PropulsionInput)
    (model : String) : Prop where
  slug : slugText (slugify lower (engineName propulsion.manufacturer model)) = true
  horsepower : ∀ text ∈ propulsion.horsepower, NonnegNumeric text
  thrust : ∀ text ∈ propulsion.thrustNewtons, ThrustLoadable text
  tboHours : ∀ n ∈ propulsion.tboHours, Integer n ∧ 0 < n
  tboYears : ∀ n ∈ propulsion.tboYears, Integer n ∧ 0 < n

/-- `canonical_value`: converted when the unit reaches the metric's canonical
unit, NULL otherwise. -/
def canonicalValue (types : List (String × String)) (metric unit : String) (q : ℚ) :
    Option ℚ :=
  match types.lookup metric, measurementUnits.lookup unit with
  | some canonical, some (reached, factor) => if reached = canonical then some (q * factor) else none
  | _, _ => none

/-- An assertion of a measurement, and its row of `performance_metrics` or
`weight_metrics` when metric, number and unit are known; the first table also
checks the canonical value. -/
structure MeasurementLoadable (types : List (String × String)) (check : ℚ → Prop)
    (m : MeasurementInput) : Prop where
  asserted : ∀ text ∈ m.numericValue, (Numeric.cast text).isSome = true
  metric : ∀ code ∈ m.metricCode, (types.lookup code).isSome = true
  unit : ∀ unit ∈ m.unitCode, (measurementUnits.lookup unit).isSome = true
  canonical : ∀ code ∈ m.metricCode, ∀ text ∈ m.numericValue, ∀ unit ∈ m.unitCode,
    ∀ q ∈ Numeric.cast text, ∀ value ∈ canonicalValue types code unit q,
      Representable value ∧ check value

/-- `aircraft_market.valuations`, written only with a price. -/
structure ValuationLoadable (valuation : ValuationInput) (price : String) : Prop where
  price : Money 14 2 price
  forSale : ∀ n ∈ valuation.forSaleCount, Integer n ∧ 0 ≤ n

/-- The column a cost goes to, by the row of its item type. -/
def CostColumn (type : Bool × Bool) (text : String) : Prop :=
  match type with
  -- a total of cost_snapshot_totals
  | (_, true) => Money 14 2 text
  -- amount_annual and amount_per_hour of cost_line_items
  | (true, false) => Money 12 2 text
  | (false, false) => Money 10 4 text

/-- The assertion of a cost, and its line item or total when it is mapped. -/
structure CostLoadable (item : CostItemInput) : Prop where
  asserted : ∀ text ∈ item.numericValue, (Numeric.cast text).isSome = true
  column : ∀ code ∈ item.mappedCode, ∀ text ∈ item.numericValue,
    ∃ type, costItemTypes.lookup code = some type ∧ type.2 = item.isAggregate ∧
      CostColumn type text

/-! ### Texts -/

/-- The texts of a measurement. -/
def measurementTexts (m : MeasurementInput) : List String :=
  [m.sourceField, m.rawValue] ++ m.numericValue.toList ++ m.rawUnit.toList

/-- The texts of a cost. -/
def costTexts (item : CostItemInput) : List String :=
  [item.sourceKey, item.rawValue] ++ item.numericValue.toList

/-- The texts of an image. -/
def imageTexts (image : ImageMetadataInput) : List String :=
  [image.hrefRaw] ++ image.hrefResolved.toList ++ image.title.toList ++ image.holder.toList ++
    image.dimensionsRaw.toList

/-- The texts of an issue. -/
def issueTexts (issue : IngestIssue) : List String :=
  [issue.code, issue.fieldPath, issue.message] ++ issue.rawValue.toList

/-- The texts of the identity. -/
def identityTexts (identity : AircraftIdentityInput) : List String :=
  [identity.manufacturerName, identity.aircraftName] ++ identity.sourceLink.toList ++
    identity.pageUrl.toList ++ identity.title.toList ++ identity.description.toList

/-- The texts of the engine. -/
def propulsionTexts (propulsion : PropulsionInput) : List String :=
  propulsion.manufacturer.toList ++ propulsion.model.toList ++ propulsion.horsepower.toList ++
    propulsion.thrustNewtons.toList

/-- The texts of the provenance. -/
def provenanceTexts (provenance : ProvenanceInput) : List String :=
  [provenance.sourceSystemKey] ++ provenance.sourceUrl.toList ++ provenance.sourcePath.toList

/-- Every text the record writes, to a TEXT column or as a string or key of a
JSON value.  The raw document is a JSON value of its own, and a code is held to
its vocabulary. -/
def recordTexts (record : PreparedAircraftRecord) : List String :=
  [record.sourceRecordKey] ++ identityTexts record.identity ++
    record.performance.flatMap measurementTexts ++ record.weights.flatMap measurementTexts ++
    propulsionTexts record.propulsion ++ record.valuation.papiPriceEstimate.toList ++
    record.operatingCosts.flatMap costTexts ++ record.images.flatMap imageTexts ++
    provenanceTexts record.provenance ++ record.issues.flatMap issueTexts

theorem identityTexts_subset (record : PreparedAircraftRecord) :
    identityTexts record.identity ⊆ recordTexts record := by
  intro text h
  unfold recordTexts
  iterate 8
    apply List.mem_append_left
  exact List.mem_append_right _ h

/-- Every value the record hands to staging and promotion satisfies the
constraints of its column. -/
structure Loadable (lower : Char → Char) (record : PreparedAircraftRecord) : Prop where
  texts : ∀ text ∈ recordTexts record, nulFree text = true
  document : record.rawDocument.nulFree = true
  staging : StagingLoadable record
  slugs : SlugsLoadable lower record.identity
  variant : VariantLoadable record
  performance : ∀ m ∈ record.performance,
    MeasurementLoadable performanceMetricTypes (fun value => 0 ≤ value) m
  weights : ∀ m ∈ record.weights, MeasurementLoadable weightMetricTypes (fun _ => True) m
  engine : ∀ model ∈ record.propulsion.model, EngineLoadable lower record.propulsion model
  valuation : ∀ price ∈ record.valuation.papiPriceEstimate,
    ValuationLoadable record.valuation price
  costs : ∀ item ∈ record.operatingCosts, CostLoadable item

end Schema

end AircraftApi
