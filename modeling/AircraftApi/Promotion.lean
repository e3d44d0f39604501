/-
AircraftApi/Promotion.lean

The promotion of a whole record into the curated tables: the assertion of its
name (`promote_document`), its performance and weight measurements
(`promote_measurements`, `promote_weight_metrics`), its market data, and a flag
for each of its warnings (`promote_issues`).

A measurement is asserted under the code of its metric, or under its source
field when it has none, and is stored as a row of its own only when metric,
number and unit are known.  The row is linked to its assertion and is not
canonical.
-/
import AircraftApi.Publication

namespace AircraftApi

namespace Curation

/-- What the field names of a table's assertions begin with. -/
def MetricTable.fieldStart : MetricTable → String
  | performanceMetrics => "performance."
  | weightMetrics => "weight."

/-- The metrics a table knows. -/
def MetricTable.metricTypes : MetricTable → List (String × String)
  | performanceMetrics => Schema.performanceMetricTypes
  | weightMetrics => Schema.weightMetricTypes

/-- chk_pm_canonical_nonneg, a check of the first table only. -/
def MetricTable.accepts : MetricTable → Option ℚ → Bool
  | performanceMetrics, value => value.all fun q => 0 ≤ q
  | weightMetrics, _ => true

/-- The field a measurement is asserted under. -/
def metricField (table : MetricTable) (metric : MeasurementInput) : String :=
  table.fieldStart ++ metric.metricCode.getD metric.sourceField

/-- The row of a measurement, when metric, number and unit are known; an
unknown code or unit and a number out of range abort. -/
def measurementRow (table : MetricTable) (variantId assertionId : ℕ) (metric : MeasurementInput) :
    Option (Option Measurement) :=
  match metric.metricCode, metric.numericValue, metric.unitCode with
  | some code, some value, some unit => do
      let q ← Numeric.cast value
      let _ ← table.metricTypes.lookup code
      let _ ← Schema.measurementUnits.lookup unit
      let canonical := Schema.canonicalValue table.metricTypes code unit q
      if table.accepts canonical then
        some (some ⟨table, variantId, code, q, unit, canonical, some assertionId, false⟩)
      else none
  | _, _, _ => some none

/-- The assertion of a measurement, and its row. -/
def promoteMetric (table : MetricTable) (variantId documentId : ℕ) (db : Tables)
    (metric : MeasurementInput) : Option Tables := do
  let asserted ← optionalNumeric metric.numericValue
  let row ← measurementRow table variantId db.assertions.length metric
  let db := assertEntityValue db documentId ⟨.aircraftVariant, variantId⟩ (metricField table metric)
    metric.rawValue asserted metric.rawUnit
  some { db with measurements := db.measurements ++ row.toList }

/-- The measurements one after the other. -/
def promoteMetrics (table : MetricTable) (variantId documentId : ℕ) :
    Tables → List MeasurementInput → Option Tables
  | db, [] => some db
  | db, metric :: metrics => do
      let db ← promoteMetric table variantId documentId db metric
      promoteMetrics table variantId documentId db metrics

/-- The weights of a record. -/
def promoteWeightMetrics (db : Tables) (record : PreparedAircraftRecord)
    (variantId documentId : ℕ) : Option Tables :=
  promoteMetrics .weightMetrics variantId documentId db record.weights

/-- The measurements of a record, performance before weights. -/
def promoteMeasurements (db : Tables) (record : PreparedAircraftRecord)
    (variantId documentId : ℕ) : Option Tables := do
  let db ← promoteMetrics .performanceMetrics variantId documentId db record.performance
  promoteWeightMetrics db record variantId documentId

/-- An open flag for each warning, on the path of its issue. -/
def promoteIssues (db : Tables) (record : PreparedAircraftRecord) (variantId : ℕ) : Tables :=
  { db with flags := db.flags ++
      (record.issues.filter fun issue => issue.severity = .warning).map fun issue =>
        ⟨⟨.aircraftVariant, variantId⟩, some issue.fieldPath, issue.code, issue.message, .open,
          none⟩ }

/-- The writes of `stage_and_promote` to the curated tables. -/
def promoteRecord (db : Tables) (record : PreparedAircraftRecord) (variantId documentId : ℕ)
    (day : ℤ) (source : String) : Option Tables := do
  let db := assertEntityValue db documentId ⟨.aircraftVariant, variantId⟩ "name"
    record.identity.aircraftName none none
  let db ← promoteMeasurements db record variantId documentId
  let db ← promoteMarket db record variantId documentId day source
  some (promoteIssues db record variantId)

end Curation

end AircraftApi
