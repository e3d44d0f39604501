/-
AircraftApi/Loadability.lean

Does admission by the preflight imply that the database takes the record?

It does not: the normalizer's ranges and the schema's differ, and
`admitted_not_loadable` is a record of 1894 that the preflight admits and the
year_value domain rejects.  `loadable_iff_withinSchema` says exactly which
admitted records load: those whose names and members satisfy `WithinSchema`.

What holds of every admitted record costs no condition and is proved on the
way: the order of the years and the machine types of all integers, the codes
(every code the adapter emits is seeded), the slugs of families and variants,
the sign of the measurements.  The condition asks for the rest.
-/
import AircraftApi.NulFree
import Mathlib.Tactic.NormNum

namespace AircraftApi

open Schema
open Slug (isSlugChar slugify slugText slugText_slugify)

/-! ### The condition -/

/-- A measurement that is no negative number: its literal is in the range of
NUMERIC, and so is the canonical value. -/
def MeasurementWithin (types : List (String × String)) (mapping : String → Option String)
    (field raw : String) : Prop :=
  ∀ text ∈ parseNumeric raw, isNegative text = false →
    (Numeric.cast text).isSome = true ∧
    ∀ metric ∈ mapping field, ∀ unit ∈ (parseUnit raw).bind unitCode,
      isMisfit (mapping field) (some unit) = false →
      ∀ q ∈ Numeric.cast text, ∀ value ∈ canonicalValue types metric unit q,
        Numeric.Representable value

/-- A cost that is a number: its literal is in range, and with a mapped key it
fits the column of the key's item type. -/
def CostWithin (key raw : String) : Prop :=
  ∀ text ∈ parseNumeric raw, (Numeric.cast text).isSome = true ∧
    ∀ code ∈ (costCode key).1, ∀ type ∈ costItemTypes.lookup code, CostColumn type text

/-- An engine with a model: a letter or digit in its name, no negative power or
thrust, and overhaul limits above zero. -/
structure EngineWithin (lower : Char → Char) (engine : JsonObject) (model : String) :
    Prop where
  name : ∃ c ∈ engineName (textAt engine "manufacturer") model, isSlugChar (lower c) = true
  horsepower : ∀ text ∈ numericAt engine "horsepower", NonnegNumeric text
  thrust : ∀ text ∈ numericAt engine "thrust", NonnegNumeric text
  overhaul : ∀ n ∈ integerAt engine "overhaul_ht", 0 < n
  years : ∀ n ∈ integerAt engine "years_before_overhaul", 0 < n

/-- What a record must state to load. -/
structure WithinSchema (lower : Char → Char) (manufacturer aircraft : String)
    (object : JsonObject) : Prop where
  manufacturerText : nulFree (trimmed manufacturer) = true
  aircraftText : nulFree (trimmed aircraft) = true
  document : nulFreeMembers object = true
  name : ∃ c ∈ Text.trim manufacturer.toList, isSlugChar (lower c) = true
  start : ∀ year ∈ statedStart aircraft object, YearValue year
  close : ∀ year ∈ statedClose aircraft object, YearValue year
  passengers : ∀ text ∈ textAt object "description",
    ∀ n ∈ numberAfter text "seats up to ", 0 ≤ n
  crew : ∀ text ∈ textAt object "description", ∀ n ∈ numberAfter text "plus ", 0 ≤ n
  engines : ∀ performance ∈ sectionAt object "performance",
    ∀ text ∈ engineCountText performance, ∀ n ∈ parseEngineCount text, 0 < n
  engine : ∀ engine ∈ sectionAt object "engine", ∀ model ∈ textAt engine "model",
    EngineWithin lower engine model
  price : ∀ price ∈ numericAt object "papi_price_estimate",
    Money 14 2 price ∧ ∀ n ∈ integerAt object "for_sale_count", 0 ≤ n
  performance : ∀ members ∈ sectionAt object "performance", ∀ entry ∈ members,
    isEngineEntry "performance" entry.1 = false → ∀ raw ∈ valueText entry.2,
      MeasurementWithin performanceMetricTypes perfCode entry.1 raw
  weights : ∀ members ∈ sectionAt object "weights", ∀ entry ∈ members,
    ∀ raw ∈ valueText entry.2, MeasurementWithin weightMetricTypes weightCode entry.1 raw
  costs : ∀ members ∈ sectionAt object "ownership_costs", ∀ entry ∈ members,
    ∀ raw ∈ valueText entry.2, CostWithin entry.1 raw

/-! ### The codes are seeded -/

theorem landingGearType_mem {prose : List Char} {code : String}
    (h : landingGearType prose = some code) : code ∈ landingGearTypes := by
  unfold landingGearType at h
  dsimp only at h
  split_ifs at h <;> cases h <;> simp [landingGearTypes]

theorem propulsionCategory_mem {prose : List Char} {code : String}
    (h : propulsionCategory prose = some code) : code ∈ propulsionCategories := by
  unfold propulsionCategory at h
  dsimp only at h
  split_ifs at h <;> cases h <;> simp [propulsionCategories]

theorem serviceStatus_mem {inProduction : Option Bool} {code : String}
    (h : serviceStatus inProduction = some code) : code ∈ serviceStatuses := by
  rcases inProduction with - | - | - <;> cases h <;> simp [serviceStatuses]

theorem variantType_mem {start : Option ℤ} {code : String}
    (h : variantType start = some code) : code ∈ variantTypes := by
  rcases start with - | year <;> cases h
  simp [variantTypes]

theorem unitCode_seeded {raw code : String} (h : unitCode raw = some code) :
    (measurementUnits.lookup code).isSome = true := by
  have hall : ∀ row ∈ unitCodes, (measurementUnits.lookup row.2).isSome = true := by
    decide
  exact hall _ (mem_of_lookup h)

theorem perfCode_seeded {field code : String} (h : perfCode field = some code) :
    (performanceMetricTypes.lookup code).isSome = true := by
  have hall : ∀ row ∈ perfCodes, (performanceMetricTypes.lookup row.2).isSome = true := by
    decide
  exact hall _ (mem_of_lookup h)

theorem weightCode_seeded {field code : String} (h : weightCode field = some code) :
    (weightMetricTypes.lookup code).isSome = true := by
  have hall : ∀ row ∈ weightCodes, (weightMetricTypes.lookup row.2).isSome = true := by
    decide
  exact hall _ (mem_of_lookup h)

/-- A row of `costCode`: its value is a number, and its code is seeded as the
total or the item the row says it is. -/
def SeededCost (row : Option String × Bool × Bool) : Prop :=
  row.2.1 = true ∧ ∀ code ∈ row.1, ∃ type, costItemTypes.lookup code = some type ∧
    type.2 = row.2.2

theorem SeededCost.of_lookup {code : String} {t : Bool × Bool}
    (h : costItemTypes.lookup code = some t) : SeededCost (some code, true, t.2) := by
  refine ⟨rfl, ?_⟩
  rintro code hcode
  cases hcode
  exact ⟨t, h, rfl⟩

/-- The adapter and the seed agree on which codes are totals. -/
theorem costCode_seeded (key : String) : SeededCost (costCode key) := by
  have hall : ∀ row ∈ costMappings, ∃ fixed, costItemTypes.lookup row.2 = some (fixed, false) := by
    decide
  unfold costCode
  dsimp only
  split
  · exact .of_lookup (t := (false, true)) rfl
  split
  · exact .of_lookup (t := (false, true)) rfl
  split
  · exact .of_lookup (t := (false, true)) rfl
  split
  · exact .of_lookup (t := (true, false)) rfl
  split
  · exact .of_lookup (t := (false, false)) rfl
  split
  · exact .of_lookup (t := (false, false)) rfl
  split
  · rename_i part code hfind
    obtain ⟨fixed, hfixed⟩ := hall _ (List.mem_of_find?_eq_some hfind)
    exact .of_lookup hfixed
  split
  · exact .of_lookup (t := (false, false)) rfl
  · exact ⟨rfl, by simp⟩

/-! ### The machine types hold -/

theorem parseI16_smallint {text : List Char} {n : ℤ} (h : Text.parseI16 text = some n) :
    Smallint n :=
  Text.parseInt_bounds h

theorem namedRange_smallint (aircraft : String) :
    (∀ year ∈ (namedRange aircraft).1, Smallint year) ∧
    ∀ year ∈ (namedRange aircraft).2.1, Smallint year := by
  unfold namedRange productionRange
  split
  · rename_i range hrange
    unfold parsedProductionRange at hrange
    dsimp only at hrange
    split at hrange
    · cases hrange
      simp
    · split at hrange
      · cases hrange
        simp
      · split at hrange
        · split at hrange
          · cases hrange
          · rename_i start hstart
            split at hrange
            · cases hrange
              simpa using parseI16_smallint hstart
            · split at hrange
              · cases hrange
              · rename_i close hclose
                cases hrange
                simpa using ⟨parseI16_smallint hstart, parseI16_smallint hclose⟩
        · cases hrange
          simp
  · simp

theorem stated_smallint (aircraft : String) (object : JsonObject) :
    (∀ year ∈ statedStart aircraft object, Smallint year) ∧
    ∀ year ∈ statedClose aircraft object, Smallint year := by
  obtain ⟨hstart, hclose⟩ := namedRange_smallint aircraft
  have hor : ∀ {field : String} {named : Option ℤ}, (∀ year ∈ named, Smallint year) →
      ∀ year ∈ ((textAt object field).bind fun text => Text.parseI16 text.toList).or named,
        Smallint year := by
    intro field named hnamed year hyear
    rcases Option.or_eq_some_iff.mp hyear with h | ⟨-, h⟩
    · obtain ⟨text, -, hparse⟩ := Option.bind_eq_some_iff.mp h
      exact parseI16_smallint hparse
    · exact hnamed year h
  exact ⟨hor hstart, hor hclose⟩

theorem numberAfter_smallint {text marker : String} {n : ℤ} (h : numberAfter text marker = some n) :
    Smallint n := by
  obtain ⟨rest, -, hrest⟩ := Option.bind_eq_some_iff.mp h
  obtain ⟨word, -, hword⟩ := Option.bind_eq_some_iff.mp hrest
  exact parseI16_smallint hword

theorem parseEngineCount_smallint {text : String} {n : ℤ} (h : parseEngineCount text = some n) :
    Smallint n := by
  obtain ⟨value, -, hvalue⟩ := Option.bind_eq_some_iff.mp h
  split at hvalue
  · obtain ⟨word, -, hword⟩ := Option.bind_eq_some_iff.mp hvalue
    exact parseI16_smallint hword
  · cases hvalue
    norm_num [Smallint]

theorem integerAt_integer {object : JsonObject} {field : String} {n : ℤ}
    (h : integerAt object field = some n) : Integer n := by
  obtain ⟨text, -, htext⟩ := Option.bind_eq_some_iff.mp h
  exact Text.parseInt_bounds htext

theorem dimensionsPx_smallint {text : String} {pair : ℤ × ℤ} (h : dimensionsPx text = some pair) :
    Smallint pair.1 ∧ Smallint pair.2 := by
  obtain ⟨parts, -, hparts⟩ := Option.bind_eq_some_iff.mp h
  obtain ⟨width, hwidth, hrest⟩ := Option.bind_eq_some_iff.mp hparts
  obtain ⟨height, hheight, rfl⟩ := Option.map_eq_some_iff.mp hrest
  exact ⟨parseI16_smallint hwidth, parseI16_smallint hheight⟩

/-! ### Row by row -/

section

variable {lower : Char → Char} {crates : Crates} {manufacturer aircraft : String}
variable {raw : Json} {object : JsonObject}

theorem stagingLoadable :
    StagingLoadable (recordOf crates manufacturer aircraft raw object) where
  start := (stated_smallint aircraft object).1
  close := (stated_smallint aircraft object).2
  images image himage := by
    obtain ⟨images, -, members, position, href, -, hposition, -, heq⟩ := mem_imageItems himage
    have hself : image.arrayPosition = position := congrArg ImageMetadataInput.arrayPosition heq
    have hwidth := congrArg ImageMetadataInput.widthPx heq
    have hheight := congrArg ImageMetadataInput.heightPx heq
    refine ⟨?_, ?_, ?_⟩
    · rw [hself, Smallint]
      omega
    · intro width hin
      obtain ⟨pair, hpair, rfl⟩ := Option.map_eq_some_iff.mp (hwidth.symm.trans hin)
      obtain ⟨text, -, htext⟩ := Option.bind_eq_some_iff.mp hpair
      exact (dimensionsPx_smallint htext).1
    · intro height hin
      obtain ⟨pair, hpair, rfl⟩ := Option.map_eq_some_iff.mp (hheight.symm.trans hin)
      obtain ⟨text, -, htext⟩ := Option.bind_eq_some_iff.mp hpair
      exact (dimensionsPx_smallint htext).2

/-- Only the organization's slug can fail: the others have letters of their own
or the organization's. -/
theorem slugsLoadable_iff (hlower : ∀ c, isSlugChar c = true → lower c = c)
    {identity : AircraftIdentityInput} :
    SlugsLoadable lower identity ↔
      ∃ c ∈ identity.manufacturerName.toList, isSlugChar (lower c) = true := by
  have hkept : ∀ {text : List Char} {c : Char}, c ∈ text → isSlugChar c = true →
      slugText (slugify lower text) = true := by
    intro text c hc hslug
    exact (slugText_slugify lower text).mpr ⟨c, hc, by rw [hlower c hslug, hslug]⟩
  constructor
  · intro h
    exact (slugText_slugify lower _).mp h.organization
  · rintro ⟨c, hc, hslug⟩
    refine ⟨(slugText_slugify lower _).mpr ⟨c, hc, hslug⟩, ?_, ?_, ?_⟩
    · exact hkept (List.mem_append_right _ (by decide : 'f' ∈ "-family".toList)) (by decide)
    · exact (slugText_slugify lower _).mpr
        ⟨c, List.mem_append_left _ (List.mem_append_left _ hc), hslug⟩
    · exact hkept (List.mem_append_right _ (by decide : 'v' ∈ "-v1".toList)) (by decide)

/-- A measurement is never stored negative, and its codes are seeded. -/
theorem measurementLoadable_iff {types : List (String × String)} {check : ℚ → Prop}
    {mapping : String → Option String}
    (hseeded : ∀ {field code}, mapping field = some code → (types.lookup code).isSome = true)
    (hcheck : ∀ {q}, 0 ≤ q → check q) {field text : String} :
    MeasurementLoadable types check (preparedMeasurement mapping field text) ↔
      MeasurementWithin types mapping field text := by
  have hnumber : ∀ {number : String},
      (preparedMeasurement mapping field text).numericValue = some number ↔
        parseNumeric text = some number ∧ isNegative number = false := by
    intro number
    show (parseNumeric text).filter _ = some number ↔ _
    simp [Option.filter_eq_some_iff]
  have hunit : ∀ {unit : String},
      (preparedMeasurement mapping field text).unitCode = some unit ↔
        (parseUnit text).bind unitCode = some unit ∧
          isMisfit (mapping field) (some unit) = false := by
    intro unit
    show (if isMisfit (mapping field) ((parseUnit text).bind unitCode) then none
      else (parseUnit text).bind unitCode) = some unit ↔ _
    rcases (parseUnit text).bind unitCode with - | known
    · simp
    · rcases hm : isMisfit (mapping field) (some known) with - | -
      · simp only [Bool.false_eq_true, if_false, Option.some.injEq]
        constructor
        · rintro rfl
          exact ⟨rfl, hm⟩
        · exact fun h => h.1
      · simp only [if_true, Option.some.injEq]
        constructor
        · intro h
          cases h
        · rintro ⟨rfl, h⟩
          rw [hm] at h
          cases h
  constructor
  · intro h number hparse hsign
    refine ⟨h.asserted _ (hnumber.mpr ⟨hparse, hsign⟩), ?_⟩
    intro metric hmetric unit hknown hfits q hq value hvalue
    exact (h.canonical metric hmetric number (hnumber.mpr ⟨hparse, hsign⟩) unit
      (hunit.mpr ⟨hknown, hfits⟩) q hq value hvalue).1
  · intro h
    refine ⟨?_, fun code hcode => hseeded hcode, ?_, ?_⟩
    · intro number hin
      obtain ⟨hparse, hsign⟩ := hnumber.mp hin
      exact (h number hparse hsign).1
    · intro unit hin
      obtain ⟨token, -, hcode⟩ := Option.bind_eq_some_iff.mp (hunit.mp hin).1
      exact unitCode_seeded hcode
    · intro metric hmetric number hin unit hunitIn q hq value hvalue
      obtain ⟨hparse, hsign⟩ := hnumber.mp hin
      obtain ⟨hknown, hfits⟩ := hunit.mp hunitIn
      refine ⟨(h number hparse hsign).2 metric hmetric unit hknown hfits q hq value hvalue, ?_⟩
      -- the factor to a canonical unit is positive
      have hq0 : 0 ≤ q := Numeric.cast_nonneg hq (by simpa [isNegative] using hsign)
      refine hcheck ?_
      unfold canonicalValue at hvalue
      split at hvalue
      · rename_i reached factor hfactor
        split at hvalue
        · cases hvalue
          have hall : ∀ row ∈ measurementUnits, 0 ≤ row.2.2 := by
            norm_num [measurementUnits]
          exact mul_nonneg hq0 (hall _ (mem_of_lookup hfactor))
        · cases hvalue
      · cases hvalue

theorem costLoadable_iff {key text : String} :
    CostLoadable (preparedCost key text) ↔ CostWithin key text := by
  obtain ⟨hnumeric, hseeded⟩ := costCode_seeded key
  have hnumber : (preparedCost key text).numericValue = parseNumeric text := if_pos hnumeric
  constructor
  · intro h number hparse
    rw [← hnumber] at hparse
    refine ⟨h.asserted _ hparse, ?_⟩
    intro code hcode type htype
    obtain ⟨type', htype', -, hcolumn⟩ := h.column code hcode number hparse
    cases htype'.symm.trans htype
    exact hcolumn
  · intro h
    refine ⟨?_, ?_⟩
    · intro number hin
      rw [hnumber] at hin
      exact (h number hin).1
    · intro code hcode number hin
      rw [hnumber] at hin
      obtain ⟨type, htype, htotal⟩ := hseeded code hcode
      exact ⟨type, htype, htotal, (h number hin).2 code hcode type htype⟩

/-- The derived thrust is no stricter than the stated one. -/
theorem thrustLoadable_iff {text : String} : ThrustLoadable text ↔ NonnegNumeric text := by
  constructor
  · rintro ⟨q, hq, hnonneg, -⟩
    exact ⟨q, hq, hnonneg⟩
  · rintro ⟨q, hq, hnonneg⟩
    refine ⟨q, hq, hnonneg, Numeric.roundUnits_nonneg ?_⟩
    exact mul_nonneg hnonneg (by norm_num)

/-- The engine is written from the engine section, when that names a model. -/
theorem engineLoadable_iff :
    (∀ model ∈ (recordOf crates manufacturer aircraft raw object).propulsion.model,
      EngineLoadable lower (recordOf crates manufacturer aircraft raw object).propulsion model) ↔
    ∀ engine ∈ sectionAt object "engine", ∀ model ∈ textAt engine "model",
      EngineWithin lower engine model := by
  rcases hsection : sectionAt object "engine" with - | engine
  · simp [recordOf, hsection]
  · have hpropulsion : ∀ model : String,
        EngineLoadable lower (recordOf crates manufacturer aircraft raw object).propulsion model ↔
          EngineWithin lower engine model := by
      intro model
      constructor
      · rintro ⟨hslug, hhorsepower, hthrust, hhours, hyears⟩
        simp only [recordOf, hsection, Option.bind_some] at hslug hhorsepower hthrust hhours hyears
        exact ⟨(slugText_slugify lower _).mp hslug, hhorsepower,
          fun text h => thrustLoadable_iff.mp (hthrust text h),
          fun n h => (hhours n h).2, fun n h => (hyears n h).2⟩
      · rintro ⟨hname, hhorsepower, hthrust, hhours, hyears⟩
        constructor <;> simp only [recordOf, hsection, Option.bind_some]
        · exact (slugText_slugify lower _).mpr hname
        · exact hhorsepower
        · exact fun text h => thrustLoadable_iff.mpr (hthrust text h)
        · exact fun n h => ⟨integerAt_integer h, hhours n h⟩
        · exact fun n h => ⟨integerAt_integer h, hyears n h⟩
    have hmodel : (recordOf crates manufacturer aircraft raw object).propulsion.model
        = textAt engine "model" := by
      simp only [recordOf, hsection, Option.bind_some]
    rw [hmodel]
    simp only [hpropulsion, Option.mem_some_iff, forall_eq']

theorem variantLoadable_iff
    (hyears : ProductionYears.fault (statedStart aircraft object) (statedClose aircraft object)
      = none) :
    VariantLoadable (recordOf crates manufacturer aircraft raw object) ↔
      (∀ year ∈ statedStart aircraft object, YearValue year) ∧
      (∀ year ∈ statedClose aircraft object, YearValue year) ∧
      (∀ text ∈ textAt object "description", ∀ n ∈ numberAfter text "seats up to ", 0 ≤ n) ∧
      (∀ text ∈ textAt object "description", ∀ n ∈ numberAfter text "plus ", 0 ≤ n) ∧
      ∀ performance ∈ sectionAt object "performance",
        ∀ text ∈ engineCountText performance, ∀ n ∈ parseEngineCount text, 0 < n := by
  constructor
  · intro h
    -- what the checks of the columns ask for is what the parsers do not promise
    refine ⟨h.start, h.close, ?_, ?_, ?_⟩
    · intro text htext n hn
      exact (h.passengers n (Option.bind_eq_some_iff.mpr ⟨text, htext, hn⟩)).2
    · intro text htext n hn
      exact (h.crew n (Option.bind_eq_some_iff.mpr ⟨text, htext, hn⟩)).2
    · intro performance hperformance text htext n hn
      refine (h.engineCount n (Option.bind_eq_some_iff.mpr ⟨text, ?_, hn⟩)).2
      exact Option.bind_eq_some_iff.mpr ⟨performance, hperformance, htext⟩
  · rintro ⟨hstart, hclose, hpassengers, hcrew, hengines⟩
    constructor
    · exact hstart
    · exact hclose
    · exact (ProductionYears.fault_eq_none.mp hyears).1
    · intro n hin
      obtain ⟨text, htext, hn⟩ := Option.bind_eq_some_iff.mp hin
      -- the parser has bounded the number
      exact ⟨numberAfter_smallint hn, hpassengers text htext n hn⟩
    · intro n hin
      obtain ⟨text, htext, hn⟩ := Option.bind_eq_some_iff.mp hin
      exact ⟨numberAfter_smallint hn, hcrew text htext n hn⟩
    · intro n hin
      obtain ⟨text, htext, hn⟩ := Option.bind_eq_some_iff.mp hin
      obtain ⟨performance, hperformance, hstated⟩ := Option.bind_eq_some_iff.mp htext
      exact ⟨parseEngineCount_smallint hn, hengines performance hperformance text hstated n hn⟩
    · intro code hcode
      obtain ⟨prose, -, hprose⟩ := Option.bind_eq_some_iff.mp hcode
      exact propulsionCategory_mem hprose
    · exact fun code hcode => serviceStatus_mem hcode
    · intro code hcode
      obtain ⟨prose, -, hprose⟩ := Option.bind_eq_some_iff.mp hcode
      exact landingGearType_mem hprose
    · exact fun code hcode => variantType_mem hcode

end

/-! ### Admission and loading -/

/-- The constraints of the columns other than texts. -/
structure ColumnsLoadable (lower : Char → Char) (record : PreparedAircraftRecord) : Prop where
  staging : StagingLoadable record
  slugs : SlugsLoadable lower record.identity
  variant : VariantLoadable record
  performance : ∀ m ∈ record.performance,
    MeasurementLoadable performanceMetricTypes (fun value => 0 ≤ value) m
  weights : ∀ m ∈ record.weights, MeasurementLoadable weightMetricTypes (fun _ => True) m
  engine : ∀ model ∈ record.propulsion.model, EngineLoadable lower record.propulsion model
  valuation : ∀ price ∈ record.valuation.papiPriceEstimate,
    ValuationLoadable record.valuation price
  costs : ∀ item ∈ record.operatingCosts, CostLoadable item

/-- The issues of a record are texts only. -/
theorem loadable_with_issues {lower : Char → Char} {record : PreparedAircraftRecord}
    {issues : List IngestIssue} :
    Loadable lower { record with issues := issues } ↔
      (∀ text ∈ recordTexts { record with issues := issues }, nulFree text = true) ∧
      record.rawDocument.nulFree = true ∧ ColumnsLoadable lower record := by
  constructor
  · rintro ⟨htexts, hdocument, hstaging, hslugs, hvariant, hperformance, hweights, hengine,
      hvaluation, hcosts⟩
    obtain ⟨s1, s2, s3⟩ := hstaging
    obtain ⟨v1, v2, v3, v4, v5, v6, v7, v8, v9, v10⟩ := hvariant
    exact ⟨htexts, hdocument, ⟨s1, s2, s3⟩, hslugs, ⟨v1, v2, v3, v4, v5, v6, v7, v8, v9, v10⟩,
      hperformance, hweights, hengine, hvaluation, hcosts⟩
  · rintro ⟨htexts, hdocument, hstaging, hslugs, hvariant, hperformance, hweights, hengine,
      hvaluation, hcosts⟩
    obtain ⟨s1, s2, s3⟩ := hstaging
    obtain ⟨v1, v2, v3, v4, v5, v6, v7, v8, v9, v10⟩ := hvariant
    exact ⟨htexts, hdocument, ⟨s1, s2, s3⟩, hslugs, ⟨v1, v2, v3, v4, v5, v6, v7, v8, v9, v10⟩,
      hperformance, hweights, hengine, hvaluation, hcosts⟩

section

variable {lower : Char → Char} {crates : Crates} {manufacturer aircraft : String}
variable {object : JsonObject}

/-- What the columns ask beyond NUL is what the condition asks beyond NUL. -/
theorem columnsLoadable_iff (hlower : ∀ c, isSlugChar c = true → lower c = c)
    (hmanufacturer : nulFree (trimmed manufacturer) = true)
    (haircraft : nulFree (trimmed aircraft) = true) (hobject : nulFreeMembers object = true)
    (hyears : ProductionYears.fault (statedStart aircraft object) (statedClose aircraft object)
      = none) :
    ColumnsLoadable lower (recordOf crates manufacturer aircraft (.object object) object) ↔
      WithinSchema lower manufacturer aircraft object := by
  -- the name stored is the one without the white space around it
  have hname : (recordOf crates manufacturer aircraft (.object object)
      object).identity.manufacturerName.toList = Text.trim manufacturer.toList := by
    show (trimmed manufacturer).toList = _
    exact String.toList_ofList
  constructor
  · intro h
    obtain ⟨hstart, hclose, hpassengers, hcrew, hengines⟩ := (variantLoadable_iff hyears).mp h.variant
    have hslugs := (slugsLoadable_iff hlower).mp h.slugs
    rw [hname] at hslugs
    refine ⟨hmanufacturer, haircraft, hobject, hslugs, hstart, hclose, hpassengers, hcrew, hengines,
      engineLoadable_iff.mp h.engine, ?_, ?_, ?_, ?_⟩
    · intro price hprice
      have hvaluation := h.valuation price hprice
      exact ⟨hvaluation.price, fun n hn => (hvaluation.forSale n hn).2⟩
    · intro members hmembers entry hentry hplain text htext
      -- every code the adapter knows is seeded for its table
      refine (measurementLoadable_iff perfCode_seeded id).mp (h.performance _ ?_)
      exact mem_measurements.mpr ⟨members, hmembers, entry, hentry, hplain, text, htext, rfl⟩
    · intro members hmembers entry hentry text htext
      refine (measurementLoadable_iff weightCode_seeded fun _ => trivial).mp (h.weights _ ?_)
      exact mem_measurements.mpr ⟨members, hmembers, entry, hentry, rfl, text, htext, rfl⟩
    · intro members hmembers entry hentry text htext
      refine costLoadable_iff.mp (h.costs _ ?_)
      exact mem_costItems.mpr ⟨members, hmembers, entry, hentry, text, htext, rfl⟩
  · intro h
    refine ⟨stagingLoadable, (slugsLoadable_iff hlower).mpr (by rw [hname]; exact h.name),
      (variantLoadable_iff hyears).mpr ⟨h.start, h.close, h.passengers, h.crew, h.engines⟩,
      ?_, ?_, engineLoadable_iff.mpr h.engine, ?_, ?_⟩
    · intro m hm
      obtain ⟨members, hmembers, entry, hentry, hplain, text, htext, rfl⟩ :=
        mem_measurements.mp hm
      exact (measurementLoadable_iff perfCode_seeded id).mpr
        (h.performance members hmembers entry hentry hplain text htext)
    · intro m hm
      obtain ⟨members, hmembers, entry, hentry, -, text, htext, rfl⟩ := mem_measurements.mp hm
      exact (measurementLoadable_iff weightCode_seeded fun _ => trivial).mpr
        (h.weights members hmembers entry hentry text htext)
    · intro price hprice
      obtain ⟨hmoney, hforSale⟩ := h.price price hprice
      exact ⟨hmoney, fun n hn => ⟨integerAt_integer hn, hforSale n hn⟩⟩
    · intro item hitem
      obtain ⟨members, hmembers, entry, hentry, text, htext, rfl⟩ := mem_costItems.mp hitem
      exact costLoadable_iff.mpr (h.costs members hmembers entry hentry text htext)

end

theorem loadable_object_iff {lower : Char → Char}
    (hlower : ∀ c, isSlugChar c = true → lower c = c) {crates : Crates}
    (hurls : UrlsNulFree crates) {manufacturer aircraft : String} {object : JsonObject}
    (hadmitted : (normalizeRecord crates manufacturer aircraft (.object object)).firstError
      = none) :
    Loadable lower (normalizeRecord crates manufacturer aircraft (.object object)) ↔
      WithinSchema lower manufacturer aircraft object := by
  obtain ⟨members, hmembers, -, -, hyears⟩ := admitted_iff.mp hadmitted
  cases hmembers
  -- the texts of the record come from the names and the object
  have htexts : nulFree (trimmed manufacturer) = true → nulFree (trimmed aircraft) = true →
      nulFreeMembers object = true → ∀ text ∈ recordTexts (normalizeRecord crates manufacturer
        aircraft (.object object)), nulFree text = true :=
    fun hmanufacturer haircraft hobject =>
      nulFree_recordTexts hobject hurls hmanufacturer haircraft hadmitted
  rw [normalizeRecord_object] at htexts ⊢
  rw [loadable_with_issues]
  constructor
  · rintro ⟨hall, hdocument, hcolumns⟩
    have hidentity := fun text htext => hall text (identityTexts_subset _ htext)
    -- and the other way: the names and the document are among the texts
    have hmanufacturer : nulFree (trimmed manufacturer) = true :=
      hidentity _ (List.mem_append_left _ (List.mem_append_left _ (List.mem_append_left _
        (List.mem_append_left _ List.mem_cons_self))))
    have haircraft : nulFree (trimmed aircraft) = true :=
      hidentity _ (List.mem_append_left _ (List.mem_append_left _ (List.mem_append_left _
        (List.mem_append_left _ (List.mem_cons_of_mem _ List.mem_cons_self)))))
    have hobject : nulFreeMembers object = true := by
      rw [← hdocument]
      show _ = (Json.object object).nulFree
      rw [Json.nulFree]
    exact (columnsLoadable_iff hlower hmanufacturer haircraft hobject hyears).mp hcolumns
  · intro h
    refine ⟨htexts h.manufacturerText h.aircraftText h.document, ?_,
      (columnsLoadable_iff hlower h.manufacturerText h.aircraftText h.document hyears).mpr h⟩
    show (Json.object object).nulFree = true
    rw [Json.nulFree]
    exact h.document

/-- **Loadability**: of the records the preflight admits, exactly those within
the schema hand only values to the database that their columns take. -/
theorem loadable_iff_withinSchema {lower : Char → Char}
    (hlower : ∀ c, isSlugChar c = true → lower c = c) {crates : Crates}
    (hurls : UrlsNulFree crates) (manufacturer aircraft : String) (raw : Json)
    (hadmitted : (normalizeRecord crates manufacturer aircraft raw).firstError = none) :
    Loadable lower (normalizeRecord crates manufacturer aircraft raw) ↔
      ∃ object, raw = .object object ∧ WithinSchema lower manufacturer aircraft object := by
  obtain ⟨object, rfl, -, -, -⟩ := admitted_iff.mp hadmitted
  rw [loadable_object_iff hlower hurls hadmitted]
  constructor
  · exact fun h => ⟨object, rfl, h⟩
  · rintro ⟨members, hmembers, h⟩
    cases hmembers
    exact h

/-! ### A record of 1894 -/

/-- The digest of the glider's key, and a URL package that reads no URL. -/
def gliderCrates : Crates where
  sha256 _ := [218, 49, 201, 212, 181, 28, 26, 217, 82, 23, 252, 118, 143, 147, 204, 34, 191, 134,
    98, 85, 128, 205, 189, 4, 57, 103, 183, 110, 171, 174, 129, 63]
  parseUrl _ := none
  joinUrl _ _ := none

theorem gliderCrates_nulFree : UrlsNulFree gliderCrates := by
  constructor <;> intros <;> contradiction

theorem toLower_slugChar (c : Char) (h : isSlugChar c = true) : c.toLower = c := by
  unfold Char.toLower
  split
  · rename_i hupper
    exfalso
    simp only [isSlugChar, Char.le_def, UInt32.le_iff_toNat_le, decide_eq_true_eq] at h hupper
    simp at h hupper
    omega
  · rfl

theorem glider_admitted : (normalizeRecord gliderCrates "Lilienthal"
    "Normalsegelapparat (1894 - 1897)" (.object [])).firstError = none := by
  decide +kernel

/-- **Admission is not loadability**: the preflight takes 1894 for a year, the
schema does not. -/
theorem admitted_not_loadable :
    ¬ ∀ manufacturer aircraft raw,
      (normalizeRecord gliderCrates manufacturer aircraft raw).firstError = none →
        Loadable Char.toLower (normalizeRecord gliderCrates manufacturer aircraft raw) := by
  intro h
  have hloadable := h _ _ _ glider_admitted
  have hstart : (normalizeRecord gliderCrates "Lilienthal" "Normalsegelapparat (1894 - 1897)"
      (.object [])).lifecycle.productionStartYear = some 1894 := by
    decide +kernel
  exact absurd (hloadable.variant.start 1894 hstart).1 (by decide)

theorem loadable_iff_withinSchema_glider :
    Loadable Char.toLower (normalizeRecord gliderCrates "Lilienthal"
      "Normalsegelapparat (1894 - 1897)" (.object [])) ↔
      ∃ object, Json.object [] = .object object ∧ WithinSchema Char.toLower "Lilienthal"
        "Normalsegelapparat (1894 - 1897)" object :=
  loadable_iff_withinSchema toLower_slugChar gliderCrates_nulFree _ _ _ glider_admitted

end AircraftApi
