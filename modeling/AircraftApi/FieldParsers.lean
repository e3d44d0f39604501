/-
AircraftApi/FieldParsers.lean

The parsers of `aircraft_ingest::normalization` that raise no issue: the
sentinel filter, the numeric prefix, units and their dimensions, the tables
from source fields to metric and cost codes, and the readings of the prose and
of the aircraft name.

A parser takes and returns text as the source does and works on the characters
in between.  A `match` of the source that only maps literals to codes is a
table here.
-/
import AircraftApi.Ingestion
import AircraftApi.Text
import Mathlib.Data.List.ReduceOption

namespace AircraftApi

/-! ### Scalars -/

/-- A text without the white space around it, unless it is one of the words for no value. -/
def parseSentinel (raw : String) : Option String :=
  let value := Text.trim raw.toList
  let lower := Text.lower value
  if value = [] ∨ "none".toList.isPrefixOf lower ∨
      lower ∈ ["n/a".toList, "-".toList, "--".toList] then none
  else some (String.ofList value)

/-- The text of a scalar value, and nothing of any other. -/
def valueText : Json → Option String
  | .string value => parseSentinel value
  | .number value => some value.text
  | .bool value => some (toString value)
  | _ => none

/-- A character the numeric prefix continues with. -/
def isNumeric (c : Char) : Bool := c.isDigit || c = '.'

/-- The numeric prefix of a text: an optional minus sign, digits and points. -/
def numericPrefix : List Char → List Char
  | '-' :: rest => '-' :: rest.takeWhile isNumeric
  | text => text.takeWhile isNumeric

/-- The text behind a minus sign. -/
def withoutSign : List Char → List Char
  | '-' :: rest => rest
  | text => text

/-- Whether an unsigned numeric prefix is a number: at most one point, and a
digit on one side of it. -/
def validUnsigned (unsigned : List Char) : Bool :=
  match unsigned.splitOn '.' with
  | [whole] => whole ≠ [] ∧ whole.all Char.isDigit
  | [whole, fraction] =>
      (whole ≠ [] ∨ fraction ≠ []) ∧ whole.all Char.isDigit ∧ fraction.all Char.isDigit
  | _ => false

/-- The number a text begins with, its dollar sign and commas left out. -/
def parseNumeric (raw : String) : Option String :=
  (parseSentinel raw).bind fun value =>
    let cleaned := (value.toList.dropWhile (· = '$')).filter (· ≠ ',')
    let output := numericPrefix cleaned
    if validUnsigned (withoutSign output) then some (String.ofList output) else none

/-! ### Units and metrics -/

/-- The last word of a text, its letters in upper case. -/
def parseUnit (raw : String) : Option String :=
  (parseSentinel raw).bind fun value =>
    (Text.lastWord value.toList).bind fun word =>
      match Text.strip (fun c => !c.isAlpha) word with
      | [] => none
      | token => some (String.ofList (Text.upper token))

/-- The units that have a code. -/
def unitCodes : List (String × String) :=
  [("KIAS", "KIAS"), ("KTAS", "KTAS"), ("KCAS", "KNOTS"), ("KT", "KNOTS"), ("KTS", "KNOTS"),
    ("KNOTS", "KNOTS"), ("NM", "NM"), ("FT", "FT"), ("FPM", "FPM"), ("GPH", "GPH"),
    ("LBS", "LBS"), ("LB", "LBS"), ("KG", "KG"), ("GAL", "US_GAL"), ("HP", "HP"),
    ("KW", "KW"), ("N", "NEWTONS"), ("LBF", "LBF"), ("HRS", "HRS"), ("HR", "HRS"),
    ("PPH", "PPH")]

/-- The code of a unit. -/
def unitCode (raw : String) : Option String := unitCodes.lookup raw

/-- What a unit measures. -/
inductive Dimension
  | speed | length | climbRate | fuelFlow | mass | volume | power | thrust | time
  deriving DecidableEq

/-- What a unit code measures. -/
def unitDimension : String → Option Dimension
  | "KIAS" | "KNOTS" | "KTAS" => some .speed
  | "NM" | "FT" => some .length
  | "FPM" => some .climbRate
  | "GPH" | "PPH" => some .fuelFlow
  | "LBS" | "KG" => some .mass
  | "US_GAL" => some .volume
  | "HP" | "KW" => some .power
  | "NEWTONS" | "LBF" => some .thrust
  | "HRS" => some .time
  | _ => none

/-- What a metric may be measured in; none is no rule. -/
def metricDimensions (metric : String) : List Dimension :=
  if metric ∈ ["SPEED_CRUISE_BEST", "SPEED_STALL_CLEAN"] then [.speed]
  else if metric ∈ ["RANGE_NORMAL", "CEILING_SERVICE", "CEILING_OEI", "DIST_TO_GROUND_ROLL",
      "DIST_TO_50FT", "DIST_LDG_GROUND_ROLL", "DIST_LDG_50FT"] then [.length]
  else if metric ∈ ["CLIMB_RATE_SL", "CLIMB_RATE_OEI"] then [.climbRate]
  else if metric = "FUEL_BURN_CRUISE" then [.fuelFlow]
  else if metric ∈ ["WEIGHT_EMPTY", "WEIGHT_MTOW", "WEIGHT_PAYLOAD", "WEIGHT_USEFUL_LOAD",
      "FUEL_WEIGHT_MAX", "WEIGHT_PAYLOAD_FULL_FUEL"] then [.mass]
  -- Usable fuel is quoted by volume or by weight.
  else if metric = "FUEL_CAPACITY_USABLE" then [.volume, .mass]
  else []

/-- The unit measures what the metric is, as far as that is known. -/
def unitFitsMetric (metric unit : String) : Bool :=
  match unitDimension unit with
  | none => true
  | some actual =>
      let expected := metricDimensions metric
      expected.isEmpty || expected.contains actual

/-- The performance fields that have a code. -/
def perfCodes : List (String × String) :=
  [("best_cruise_speed", "SPEED_CRUISE_BEST"), ("best_range_i", "RANGE_NORMAL"),
    ("ceiling", "CEILING_SERVICE"), ("fuel_burn", "FUEL_BURN_CRUISE"),
    ("fuel_burn_75", "FUEL_BURN_CRUISE"), ("rate_of_climb", "CLIMB_RATE_SL"),
    ("rate_of_climb_1_engine_out", "CLIMB_RATE_OEI"),
    ("ceiling_1_engine_out", "CEILING_OEI"), ("takeoff_distance", "DIST_TO_GROUND_ROLL"),
    ("takeoff_distance_over_50ft_obstacle", "DIST_TO_50FT"),
    ("landing_distance", "DIST_LDG_GROUND_ROLL"),
    ("landing_distance_over_50ft_obstacle", "DIST_LDG_50FT"),
    ("stall_speed", "SPEED_STALL_CLEAN")]

/-- The code of a performance field. -/
def perfCode (field : String) : Option String := perfCodes.lookup field

/-- The weight fields that have a code. -/
def weightCodes : List (String × String) :=
  [("empty_weight", "WEIGHT_EMPTY"), ("gross_weight", "WEIGHT_MTOW"),
    ("fuel_capacity", "FUEL_CAPACITY_USABLE"), ("maximum_payload", "WEIGHT_PAYLOAD"),
    ("useful_load", "WEIGHT_USEFUL_LOAD"), ("fuel_weight", "FUEL_WEIGHT_MAX"),
    ("payload_full_fuel", "WEIGHT_PAYLOAD_FULL_FUEL")]

/-- The code of a weight field. -/
def weightCode (field : String) : Option String := weightCodes.lookup field

/-! ### Cost keys -/

/-- The parts of a key that tell its cost code; the first one found counts. -/
def costMappings : List (String × String) :=
  [("miscellaneous", "MISC_VARIABLE"), ("inspection", "ANNUAL_INSPECTION"),
    ("insurance", "INSURANCE"), ("hangar", "HANGAR_STORAGE"), ("storage", "HANGAR_STORAGE"),
    ("depreciation", "DEPRECIATION"), ("weather", "WEATHER_SERVICE"),
    ("training", "PILOT_TRAINING"), ("refurbish", "REFURBISHING"),
    ("registration", "REGISTRATION_TAXES"), ("financ", "FINANCING"), ("fuel", "FUEL"),
    ("oil", "OIL"), ("avionics", "AVIONICS_RESERVE"), ("landing", "LANDING_FEES"),
    ("unscheduled", "UNSCHEDULED_MAINT"), ("maint", "HOURLY_MAINTENANCE")]

/-- The cost code of a key, whether its value is a number, and whether it is a
total. -/
def costCode (key : String) : Option String × Bool × Bool :=
  let key := Text.lower key.toList
  let has (part : String) : Bool := Text.contains part.toList key
  if has "total" && has "fixed" then (some "TOTAL_FIXED_COST", true, true)
  else if has "total" && has "variable" then (some "TOTAL_VARIABLE_COST", true, true)
  else if has "total" &&
      (has "annual" || has "yearly" || has "cost_per_year" || has "ownership") then
    (some "TOTAL_COST_ANNUAL", true, true)
  -- Before the table, whose "training" entry would claim pilot salaries.
  else if has "pilot_salary" then (some "PILOT_SALARY", true, false)
  else if has "engine" && ["reserve", "overhaul", "fund", "tbo"].any has then
    (some "ENGINE_RESERVE", true, false)
  else if has "prop" && ["reserve", "overhaul", "fund"].any has then
    (some "PROP_RESERVE", true, false)
  else match costMappings.find? fun mapping => has mapping.1 with
    | some (_, code) => (some code, true, false)
    -- Last, when no key of a specific part has claimed the reserve.
    | none =>
        if ["reserve", "overhaul"].any has then (some "OVERHAUL_RESERVE", true, false)
        else (none, true, false)

/-! ### Prose -/

/-- A record that states a first year is of the standard type. -/
def variantType : Option ℤ → Option String
  | some _ => some "PRODUCTION_STANDARD"
  | none => none

/-- The landing gear a description speaks of. -/
def landingGearType (lowered : List Char) : Option String :=
  let has (part : String) : Bool := Text.contains part.toList lowered
  let tricycle := has "tricycle"
  let tailwheel := has "tailwheel" || has "taildragger"
  if has "retractable" then
    some (if tricycle then "RETRACTABLE_TRICYCLE"
      else if tailwheel then "RETRACTABLE_TAILWHEEL" else "RETRACTABLE_UNSPECIFIED")
  else if has "fixed landing gear" then
    some (if tricycle then "FIXED_TRICYCLE"
      else if tailwheel then "FIXED_TAILWHEEL" else "FIXED_UNSPECIFIED")
  else none

/-- The service status of a variant. -/
def serviceStatus : Option Bool → Option String
  | some true => some "IN_PRODUCTION"
  | some false => some "DISCONTINUED"
  | none => none

/-- The propulsion a description speaks of. -/
def propulsionCategory (lowered : List Char) : Option String :=
  let has (part : String) : Bool := Text.contains part.toList lowered
  if has "piston" then some "PISTON_RECIPROCATING"
  else if has "turboprop" then some "TURBOPROP"
  else if has "turbojet" then some "TURBOJET"
  else none

/-- The number a text states right after a marker. -/
def numberAfter (value marker : String) : Option ℤ :=
  (Text.after marker.toList (Text.lower value.toList)).bind fun rest =>
    (Text.firstWord rest).bind Text.parseI16

/-- The seats and the crew a description speaks of. -/
def occupants (description : String) : Option ℤ × Option ℤ :=
  (numberAfter description "seats up to ", numberAfter description "plus ")

/-- The engines a text counts: `2 x` says so, another text speaks of one. -/
def parseEngineCount (raw : String) : Option ℤ :=
  (parseSentinel raw).bind fun text =>
    if Text.contains " x ".toList (Text.lower text.toList) then
      (Text.firstWord text.toList).bind Text.parseI16
    else some 1

/-- The width and height of an image. -/
def dimensionsPx (raw : String) : Option (ℤ × ℤ) :=
  (Text.splitOnce 'x' (Text.lower raw.toList)).bind fun parts =>
    (Text.parseI16 (Text.trim parts.1)).bind fun width =>
      (Text.parseI16 (Text.trim parts.2)).map fun height => (width, height)

/-! ### The aircraft name -/

/-- The production years of a name: start, end, and whether the range is open. -/
abbrev ProductionRange := Option ℤ × Option ℤ × Option Bool

/-- The text in the parentheses at the end. -/
def trailingParenthetical (text : List Char) : Option (List Char) :=
  (Text.stripSuffix ')' (Text.trimEnd text)).bind fun inner =>
    (Text.afterLast '(' inner).map Text.trim

/-- An error only for a parenthetical that opens like a range and is none. -/
def parsedProductionRange (aircraft : String) : Except String ProductionRange :=
  match trailingParenthetical aircraft.toList with
  | none => .ok (none, none, none)
  | some range =>
    match Text.splitOnce '-' range with
    | none => .ok (none, none, none)
    | some (startText, endText) =>
      let startText := Text.trim startText
      let endText := Text.trim endText
      if startText.head?.any Char.isDigit then
        match Text.parseI16 startText with
        | none => .error "aircraft name opens a production range that is not a year"
        | some start =>
          if Text.lower endText = "present".toList then .ok (some start, none, some true)
          else match Text.parseI16 endText with
            | none => .error "aircraft name closes a production range that is not a year"
            | some close => .ok (some start, some close, some false)
      else .ok (none, none, none)

example : parsedProductionRange "777-200ER (1997 - present)" =
    .ok (some 1997, none, some true) := by decide

/-! ### Production years -/

/-- Why two years are refused. -/
inductive ProductionYearsError
  | reversed (start close : ℤ)
  | yearOutOfRange (year : ℤ)
  deriving DecidableEq

/-- What the error says. -/
def ProductionYearsError.message : ProductionYearsError → String
  | reversed start close => s!"production end year {close} is earlier than start year {start}"
  | yearOutOfRange year => s!"year {year} is outside the supported aircraft-data range"

/-- Whether a year is inside the supported range. -/
def supportedYear (year : ℤ) : Prop := 1800 ≤ year ∧ year ≤ 2200

instance : DecidablePred supportedYear :=
  fun year => inferInstanceAs (Decidable (1800 ≤ year ∧ year ≤ 2200))

/-- `aircraft_domain`'s `ProductionYears`: years in range and in order. -/
structure ProductionYears where
  start : Option ℤ
  close : Option ℤ
  ordered : ∀ s ∈ start, ∀ c ∈ close, s ≤ c
  start_supported : ∀ s ∈ start, supportedYear s
  close_supported : ∀ c ∈ close, supportedYear c

namespace ProductionYears

/-- The first check of `ProductionYears::new` that fails. -/
def fault (start close : Option ℤ) : Option ProductionYearsError :=
  let reversed : Option ProductionYearsError :=
    match start, close with
    | some s, some c => if c < s then some (.reversed s c) else none
    | _, _ => none
  reversed.or ([start, close].reduceOption.findSome? fun year =>
    if supportedYear year then none else some (.yearOutOfRange year))

theorem fault_eq_none {start close : Option ℤ} :
    fault start close = none ↔
      (∀ s ∈ start, ∀ c ∈ close, s ≤ c) ∧ (∀ s ∈ start, supportedYear s) ∧
        ∀ c ∈ close, supportedYear c := by
  rcases start with - | s <;> rcases close with - | c <;>
    simp [fault, List.reduceOption]

/-- The years, unless there is something wrong with them. -/
def new (start close : Option ℤ) : Except ProductionYearsError ProductionYears :=
  match h : fault start close with
  | some error => .error error
  | none =>
      have checks := fault_eq_none.mp h
      .ok ⟨start, close, checks.1, checks.2.1, checks.2.2⟩

end ProductionYears

end AircraftApi
