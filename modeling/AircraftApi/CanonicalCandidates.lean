/-
AircraftApi/CanonicalCandidates.lean

What a measurement that curation may publish states.

A measurement with a metric, a number and a unit is a candidate (`Complete`).  The
tables of metrics and of units each name only what has a dimension, so the check
`unit_fits_metric` makes is never passed for want of one.  A measurement that is no
candidate keeps its text, and an issue names it.

The number of a candidate has at most one point and at least one digit, and the
point may stand at either end (`PlainDecimal`).  The decimals of the domain ask for
a digit on both sides of a point (`Measurement.IsDecimal`), and are not kept to.

    candidates_sound        both, of every measurement of every record
    bare_point_candidate    a candidate that is no decimal of the domain
-/
import AircraftApi.Decimals
import AircraftApi.IssuePaths
import AircraftApi.Numerals
import AircraftApi.UnitPairing

namespace AircraftApi

open Curation (Named)
open Numeric (Spelled numeral)

/-- The unit has a dimension the metric accepts. -/
def Measures (metric unit : String) : Prop :=
  ∃ dimension ∈ unitDimension unit, dimension ∈ metricDimensions metric

/-- Digits, with at most one point among them or at either end, and no sign. -/
def PlainDecimal (text : String) : Prop :=
  ∃ whole fraction, Spelled whole fraction ∧ text.toList = numeral false whole fraction

/-! ### The tables -/

/-- Every metric a key is mapped to is classified. -/
theorem metricDimensions_ne_nil {field metric : String}
    (h : perfCode field = some metric ∨ weightCode field = some metric) :
    metricDimensions metric ≠ [] := by
  have hperf : ∀ row ∈ perfCodes, metricDimensions row.2 ≠ [] := by decide
  have hweight : ∀ row ∈ weightCodes, metricDimensions row.2 ≠ [] := by decide
  rcases h with h | h
  · exact hperf _ (mem_of_lookup h)
  · exact hweight _ (mem_of_lookup h)

/-- Every unit a token is mapped to has a dimension. -/
theorem exists_dimension {token unit : String} (h : unitCode token = some unit) :
    ∃ dimension, unitDimension unit = some dimension := by
  have hall : ∀ row ∈ unitCodes, unitDimension row.2 ≠ none := by decide
  exact Option.ne_none_iff_exists'.mp (hall _ (mem_of_lookup h))

theorem measures_of_fits {field metric token unit : String}
    (hmetric : perfCode field = some metric ∨ weightCode field = some metric)
    (hunit : unitCode token = some unit) (hfits : unitFitsMetric metric unit = true) :
    Measures metric unit := by
  obtain ⟨dimension, hdimension⟩ := exists_dimension hunit
  refine ⟨dimension, hdimension, ?_⟩
  unfold unitFitsMetric at hfits
  rw [hdimension] at hfits
  dsimp only at hfits
  rcases Bool.or_eq_true_iff.mp hfits with hempty | hmem
  · exact absurd (List.isEmpty_iff.mp hempty) (metricDimensions_ne_nil hmetric)
  · simpa using hmem

/-! ### The numbers -/

/-- What `parse_numeric` accepts is a numeral. -/
theorem spelled_of_validUnsigned {text : List Char} (h : validUnsigned text = true) :
    ∃ whole fraction, Spelled whole fraction ∧ text = numeral false whole fraction := by
  have hjoin : ['.'].intercalate (text.splitOn '.') = text := List.intercalate_splitOn '.'
  unfold validUnsigned at h
  split at h
  · rename_i whole hsplit
    obtain ⟨hne, hwhole⟩ := of_decide_eq_true h
    refine ⟨whole, none, ⟨hwhole, ?_, .inl hne⟩, ?_⟩
    · rintro _ ⟨⟩
    · rw [← hjoin, hsplit]
      simp [numeral]
  · rename_i whole fraction hsplit
    obtain ⟨hne, hwhole, hfraction⟩ := of_decide_eq_true h
    refine ⟨whole, some fraction, ⟨hwhole, ?_, ?_⟩, ?_⟩
    · rintro _ ⟨⟩
      exact hfraction
    · exact hne.imp_right fun hne => ⟨fraction, rfl, hne⟩
    · rw [← hjoin, hsplit]
      simp [numeral, List.intercalate]
  · cases h

theorem withoutSign_of_unsigned {text : List Char} (h : text.head? ≠ some '-') :
    withoutSign text = text := by
  unfold withoutSign
  split
  · exact absurd rfl h
  · rfl

/-- A number that is not negative is a plain decimal. -/
theorem plainDecimal_of_parseNumeric {raw text : String} (h : parseNumeric raw = some text)
    (hsign : isNegative text = false) : PlainDecimal text := by
  unfold parseNumeric at h
  obtain ⟨value, -, hvalue⟩ := Option.bind_eq_some_iff.mp h
  dsimp only at hvalue
  split_ifs at hvalue with hvalid
  have htext := Option.some.inj hvalue
  have hhead : text.toList.head? ≠ some '-' := of_decide_eq_false hsign
  rw [← htext, String.toList_ofList] at hhead
  rw [withoutSign_of_unsigned hhead] at hvalid
  unfold PlainDecimal
  rw [← htext, String.toList_ofList]
  exact spelled_of_validUnsigned hvalid

/-! ### The measurements of a record -/

/-- The measurements of a record, each under the section it is from. -/
def emitted (record : PreparedAircraftRecord) : List (String × MeasurementInput) :=
  record.performance.map (Prod.mk "performance") ++ record.weights.map (Prod.mk "weights")

/-- The text of the measurement is the one its key has in the source. -/
def RawKept (raw : Json) (part : String) (m : MeasurementInput) : Prop :=
  ∃ object members value, raw = .object object ∧ sectionAt object part = some members ∧
    (m.sourceField, value) ∈ members ∧ valueText value = some m.rawValue

/-- What is asked of a measurement. -/
structure Sound (raw : Json) (record : PreparedAircraftRecord) (part : String)
    (m : MeasurementInput) : Prop where
  candidate : ∀ metric text unit, m.metricCode = some metric → m.numericValue = some text →
    m.unitCode = some unit → Measures metric unit ∧ PlainDecimal text
  withheld : m.metricCode = none ∨ m.numericValue = none ∨ m.unitCode = none →
    RawKept raw part m ∧ Named record (part ++ "." ++ m.sourceField)

theorem not_complete_iff {m : MeasurementInput} :
    ¬ Complete m ↔ m.metricCode = none ∨ m.numericValue = none ∨ m.unitCode = none := by
  have hparts : Complete m ↔
      m.metricCode.isSome = true ∧ m.numericValue.isSome = true ∧ m.unitCode.isSome = true :=
    ⟨fun h => ⟨h.metric, h.number, h.unit⟩, fun h => ⟨h.1, h.2.1, h.2.2⟩⟩
  rw [hparts]
  simp only [not_and_or, Bool.not_eq_true, Option.isSome_eq_false_iff, Option.isNone_iff_eq_none]

/-- A candidate states what its metric is measured in, and a plain decimal. -/
theorem candidate_sound {mapping : String → Option String} {field raw metric text unit : String}
    (hmapping : mapping field = some metric → perfCode field = some metric ∨
      weightCode field = some metric)
    (hmetric : (preparedMeasurement mapping field raw).metricCode = some metric)
    (htext : (preparedMeasurement mapping field raw).numericValue = some text)
    (hunit : (preparedMeasurement mapping field raw).unitCode = some unit) :
    Measures metric unit ∧ PlainDecimal text := by
  obtain ⟨hparse, hsign, hcode⟩ := parsed_of_emitted htext hunit
  obtain ⟨token, -, htoken⟩ := Option.bind_eq_some_iff.mp hcode
  have hmapped : mapping field = some metric := hmetric
  have hfits : isMisfit (some metric) (some unit) = false := by
    dsimp only [preparedMeasurement] at hunit
    split_ifs at hunit with hmisfit
    rwa [hmapped, hcode, Bool.not_eq_true] at hmisfit
  refine ⟨measures_of_fits (hmapping hmapped) htoken ?_, plainDecimal_of_parseNumeric hparse hsign⟩
  simpa [isMisfit] using hfits

variable {crates : Crates} {manufacturer aircraft : String}

theorem sound_of_entry {object members : JsonObject} {part : String}
    {mapping : String → Option String} {entry : String × Json} {text : String}
    {record : PreparedAircraftRecord} (hmembers : sectionAt object part = some members)
    (hentry : entry ∈ members) (hengine : isEngineEntry part entry.1 = false)
    (htext : valueText entry.2 = some text)
    (hmapping : ∀ field metric, mapping field = some metric → perfCode field = some metric ∨
      weightCode field = some metric)
    (hnamed : Flags (measurements (sectionAt object part) part mapping)
      (part ++ "." ++ entry.1) → Named record (part ++ "." ++ entry.1)) :
    Sound (.object object) record part (preparedMeasurement mapping entry.1 text) where
  candidate metric text unit := candidate_sound (hmapping entry.1 metric)
  withheld := by
    intro hwithheld
    refine ⟨⟨object, members, entry.2, rfl, hmembers, hentry, htext⟩, hnamed ?_⟩
    rw [hmembers]
    exact Noted.Any.collect_iff.mpr ⟨entry, hentry,
      (flags_measurement hengine htext).mpr (not_complete_iff.mpr hwithheld)⟩

/-- **Candidates**: a measurement with a metric, a number and a unit has a unit the
metric is measured in and a plain decimal; of one without, the text is kept and an issue
names its path. -/
theorem candidates_sound (crates : Crates) (manufacturer aircraft : String) (raw : Json) :
    ∀ entry ∈ emitted (normalizeRecord crates manufacturer aircraft raw),
      Sound raw (normalizeRecord crates manufacturer aircraft raw) entry.1 entry.2 := by
  cases raw with
  | object object =>
      rintro ⟨part, m⟩ hm
      rw [normalizeRecord_object] at hm
      rcases List.mem_append.mp hm with hm | hm
      · obtain ⟨m, hperf, ⟨⟩⟩ := List.mem_map.mp hm
        obtain ⟨members, hmembers, entry, hentry, hengine, text, htext, rfl⟩ :=
          mem_measurements.mp hperf
        exact sound_of_entry hmembers hentry hengine htext (fun _ _ h => .inl h) named_performance
      · obtain ⟨m, hweight, ⟨⟩⟩ := List.mem_map.mp hm
        obtain ⟨members, hmembers, entry, hentry, hengine, text, htext, rfl⟩ :=
          mem_measurements.mp hweight
        exact sound_of_entry hmembers hentry hengine htext (fun _ _ h => .inr h) named_weight
  | _ =>
      intro entry hentry
      cases hentry

theorem candidates_sound_cruise :
    Measures "SPEED_CRUISE_BEST" "KTAS" ∧ PlainDecimal "1120" := by
  have hstated : parseSentinel "1,120 KTAS" = some "1,120 KTAS" := by decide +kernel
  have hsound := candidates_sound PlanePhd.fleetCrates "Cessna" "172"
    (.object [("performance", .object [("best_cruise_speed", .string "1,120 KTAS")])])
    ("performance", preparedMeasurement perfCode "best_cruise_speed" "1,120 KTAS")
    (List.mem_append_left _ (List.mem_map_of_mem (cruise_mem hstated)))
  exact hsound.candidate "SPEED_CRUISE_BEST" "1120" "KTAS" (by decide +kernel) (by decide +kernel)
    (by decide +kernel)

/-- A point with nothing behind it stays in the number of a candidate. -/
theorem bare_point_candidate : ¬ ∀ (crates : Crates) (manufacturer aircraft : String) (raw : Json),
    ∀ entry ∈ emitted (normalizeRecord crates manufacturer aircraft raw),
      ∀ metric text unit, entry.2.metricCode = some metric → entry.2.numericValue = some text →
        entry.2.unitCode = some unit → Measurement.IsDecimal text.toList := by
  intro h
  have hstated : parseSentinel "120. KTAS" = some "120. KTAS" := by decide +kernel
  have hdecimal := h PlanePhd.fleetCrates "Cessna" "172"
    (.object [("performance", .object [("best_cruise_speed", .string "120. KTAS")])])
    ("performance", preparedMeasurement perfCode "best_cruise_speed" "120. KTAS")
    (List.mem_append_left _ (List.mem_map_of_mem (cruise_mem hstated)))
    "SPEED_CRUISE_BEST" "120." "KTAS" (by decide +kernel) (by decide +kernel) (by decide +kernel)
  have hparts : Measurement.parts "120.".toList = ("120".toList, some []) := by decide +kernel
  rw [Measurement.isDecimal_iff, hparts] at hdecimal
  exact (hdecimal.2 [] rfl).1 rfl

end AircraftApi
