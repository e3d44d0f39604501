/-
AircraftApi/FlagClosure.lean

Which flags the decision on a measurement closes.

The import of a record opens a flag for each of its warnings, on the path of the
issue: the section and the key.  It asserts each measurement under the start of its
table and the code of its metric, or the key where it has none, and a decision closes
the flags on that field.  The two names are the same only for a key of `performance`
with no metric (`metricField_eq_iff`), so the flags of the others stay open
(`flags_close_iff`).

    Adds db db' added         an import added these assertions, all pending
    About object table key    the issues raised for this key of the section
-/
import AircraftApi.DecisionFrame
import AircraftApi.IssuePaths

namespace AircraftApi

namespace Curation

open Transition

/-! ### What an import adds -/

section

variable {db db₁ db₂ : Tables}

/-- What an assertion is about. -/
def SourceAssertion.key (row : SourceAssertion) : Entity × String := (row.entity, row.fieldName)

/-- New assertions come last and are pending; new measurements are not canonical. -/
structure Adds (db db' : Tables) (added : List SourceAssertion) : Prop where
  assertions : db'.assertions = db.assertions ++ added
  pending : ∀ a ∈ added, a.status = .pending
  measurements : ∃ rows : List Measurement, db'.measurements = db.measurements ++ rows ∧
    ∀ m ∈ rows, m.isCanonical = false
  flags : db'.flags = db.flags

theorem Adds.nothing (db : Tables) : Adds db db [] where
  assertions := (List.append_nil _).symm
  pending := fun a ha => by cases ha
  measurements := ⟨[], (List.append_nil _).symm, fun m hm => by cases hm⟩
  flags := rfl

theorem Adds.trans {first second : List SourceAssertion} (h : Adds db db₁ first)
    (h₁ : Adds db₁ db₂ second) : Adds db db₂ (first ++ second) where
  assertions := by rw [h₁.assertions, h.assertions, List.append_assoc]
  pending := by
    intro a ha
    rcases List.mem_append.mp ha with ha | ha
    · exact h.pending a ha
    · exact h₁.pending a ha
  measurements := by
    obtain ⟨rows, hrows, hplain⟩ := h.measurements
    obtain ⟨rows₁, hrows₁, hplain₁⟩ := h₁.measurements
    refine ⟨rows ++ rows₁, by rw [hrows₁, hrows, List.append_assoc], ?_⟩
    intro m hm
    rcases List.mem_append.mp hm with hm | hm
    · exact hplain m hm
    · exact hplain₁ m hm
  flags := h₁.flags.trans h.flags

theorem adds_assertEntityValue (db : Tables) (documentId : ℕ) (entity : Entity) (field raw : String)
    (numeric : Option ℚ) (rawUnit : Option String) :
    ∃ a, Adds db (assertEntityValue db documentId entity field raw numeric rawUnit) [a] ∧
      a.key = (entity, field) := by
  refine ⟨_, ⟨rfl, ?_, ⟨[], (List.append_nil _).symm, fun m hm => by cases hm⟩, rfl⟩, rfl⟩
  intro a ha
  rw [List.mem_singleton.mp ha]

theorem Writes.adds {table : MarketTable} {id : ℕ} {fields : List String}
    {stores : String → Option ℚ} (h : Writes db db₁ table id fields stores) :
    ∃ added, Adds db db₁ added := by
  obtain ⟨added, hadded, -, hpending⟩ := h.asserted
  exact ⟨added, hadded, fun a ha => (hpending a ha).2.2,
    ⟨[], by rw [h.measurements, List.append_nil], fun m hm => by cases hm⟩, h.flags⟩

/-- What a measurement is asserted as. -/
def metricKey (table : MetricTable) (variantId : ℕ) (metric : MeasurementInput) : Entity × String :=
  (⟨.aircraftVariant, variantId⟩, metricField table metric)

theorem promoteMetric_adds {table : MetricTable} {variantId documentId : ℕ}
    {metric : MeasurementInput}
    (h : promoteMetric table variantId documentId db metric = some db₁) :
    ∃ a, Adds db db₁ [a] ∧ a.key = metricKey table variantId metric := by
  obtain ⟨asserted, -, h⟩ := Option.bind_eq_some_iff.mp h
  obtain ⟨row, hrow, heq⟩ := Option.bind_eq_some_iff.mp h
  cases heq
  obtain ⟨a, hadds, hkey⟩ := adds_assertEntityValue db documentId ⟨.aircraftVariant, variantId⟩
    (metricField table metric) metric.rawValue asserted metric.rawUnit
  refine ⟨a, ⟨hadds.assertions, hadds.pending, ⟨row.toList, rfl, ?_⟩, hadds.flags⟩, hkey⟩
  intro m hm
  obtain rfl := Option.mem_toList.mp hm
  exact (measurementRow_spec hrow).2.1

theorem promoteMetrics_adds {table : MetricTable} {variantId documentId : ℕ}
    {metrics : List MeasurementInput}
    (h : promoteMetrics table variantId documentId db metrics = some db₁) :
    ∃ added, Adds db db₁ added ∧
      added.map SourceAssertion.key = metrics.map (metricKey table variantId) := by
  induction metrics generalizing db with
  | nil =>
      cases h
      exact ⟨[], Adds.nothing _, rfl⟩
  | cons metric metrics ih =>
      obtain ⟨next, hfirst, hrest⟩ := Option.bind_eq_some_iff.mp h
      obtain ⟨a, hadds, hkey⟩ := promoteMetric_adds hfirst
      obtain ⟨added, hadded, hkeys⟩ := ih hrest
      exact ⟨a :: added, hadds.trans hadded, by rw [List.map_cons, List.map_cons, hkey, hkeys]⟩

theorem promoteMarket_adds {record : PreparedAircraftRecord} {variantId documentId : ℕ} {day : ℤ}
    {source : String} (h : promoteMarket db record variantId documentId day source = some db₁) :
    ∃ added, Adds db db₁ added := by
  obtain ⟨next, hvaluation, hcosts⟩ := Option.bind_eq_some_iff.mp h
  obtain ⟨first, hfirst⟩ : ∃ added, Adds db next added := by
    rcases hprice : record.valuation.papiPriceEstimate with - | text
    · rw [promoteValuation, hprice] at hvaluation
      cases hvaluation
      exact ⟨[], Adds.nothing _⟩
    · obtain ⟨i, ⟨-, hwrites⟩ | ⟨price, -, -, hwrites⟩⟩ := promoteValuation_writes hprice hvaluation
      · exact hwrites.adds
      · exact hwrites.adds
  rcases eq_or_ne record.operatingCosts [] with hitems | hitems
  · rw [hitems] at hcosts
    cases hcosts
    exact ⟨first, hfirst⟩
  · obtain ⟨i, hwrites, -⟩ := promoteCosts_writes hitems hcosts
    obtain ⟨second, hsecond⟩ := hwrites.adds
    exact ⟨first ++ second, hfirst.trans hsecond⟩

/-- An import asserts the name, the measurements and the market values, in this order, and
then raises its flags. -/
theorem promoteRecord_adds {record : PreparedAircraftRecord} {variantId documentId : ℕ} {day : ℤ}
    {source : String} (h : promoteRecord db record variantId documentId day source = some db₁) :
    ∃ promoted added market, Adds db promoted (added ++ market) ∧
      added.map SourceAssertion.key = (⟨.aircraftVariant, variantId⟩, "name") ::
        (record.performance.map (metricKey .performanceMetrics variantId) ++
          record.weights.map (metricKey .weightMetrics variantId)) ∧
      db₁ = promoteIssues promoted record variantId := by
  obtain ⟨measured, hmeasured, h⟩ := Option.bind_eq_some_iff.mp h
  obtain ⟨priced, hpriced, heq⟩ := Option.bind_eq_some_iff.mp h
  obtain ⟨performed, hperformed, hweighed⟩ := Option.bind_eq_some_iff.mp hmeasured
  cases heq
  obtain ⟨name, hname, hnameKey⟩ := adds_assertEntityValue db documentId
    ⟨.aircraftVariant, variantId⟩ "name" record.identity.aircraftName none none
  obtain ⟨perf, hperf, hperfKeys⟩ := promoteMetrics_adds hperformed
  obtain ⟨weight, hweight, hweightKeys⟩ := promoteMetrics_adds hweighed
  obtain ⟨market, hmarket⟩ := promoteMarket_adds hpriced
  refine ⟨priced, [name] ++ perf ++ weight, market,
    ((hname.trans hperf).trans hweight).trans hmarket, ?_, rfl⟩
  rw [List.map_append, List.map_append, hperfKeys, hweightKeys, List.append_assoc]
  simp [hnameKey]

end

/-! ### Rows that stay -/

section

variable {db s t : Tables}

/-- Every assertion and every flag is still in its place, about the same field. -/
structure Keeps (s t : Tables) : Prop where
  assertions : ∀ (i : ℕ) (a : SourceAssertion), s.assertions[i]? = some a →
    ∃ b : SourceAssertion, t.assertions[i]? = some b ∧ b.key = a.key
  flags : ∀ (j : ℕ) (flag : CurationFlag), s.flags[j]? = some flag →
    ∃ now : CurationFlag, t.flags[j]? = some now ∧ now.entity = flag.entity ∧
      now.fieldName = flag.fieldName

theorem Keeps.trans (h : Keeps db s) (h' : Keeps s t) : Keeps db t where
  assertions := by
    intro i a ha
    obtain ⟨b, hb, hkey⟩ := h.assertions i a ha
    obtain ⟨c, hc, hkey'⟩ := h'.assertions i b hb
    exact ⟨c, hc, hkey'.trans hkey⟩
  flags := by
    intro j flag hflag
    obtain ⟨now, hnow, hentity, hfield⟩ := h.flags j flag hflag
    obtain ⟨last, hlast, hentity', hfield'⟩ := h'.flags j now hnow
    exact ⟨last, hlast, hentity'.trans hentity, hfield'.trans hfield⟩

theorem step_keeps {action : Action} (h : gateStep s action = some t) : Keeps s t := by
  cases action with
  | importRecord record variantId documentId day source =>
      obtain ⟨promoted, added, market, hadds, -, rfl⟩ := promoteRecord_adds h
      refine ⟨fun i a ha => ⟨a, ?_, rfl⟩, fun j flag hflag => ⟨flag, ?_, rfl, rfl⟩⟩
      · show promoted.assertions[i]? = some a
        rw [hadds.assertions, List.getElem?_append_left (List.getElem?_eq_some_iff.mp ha).1, ha]
      · show (promoted.flags ++ _)[j]? = some flag
        rw [hadds.flags, List.getElem?_append_left (List.getElem?_eq_some_iff.mp hflag).1, hflag]
  | decide assertionId decision =>
      obtain ⟨⟨outcome, after⟩, hdecide, rfl⟩ := Option.map_eq_some_iff.mp h
      obtain ⟨row, -, hassertions, hflags⟩ := decideWith_rows (ok_of_toOption hdecide)
      constructor
      · intro i a ha
        rw [hassertions]
        by_cases hi : assertionId = i
        · refine ⟨a.decide decision, ?_, rfl⟩
          rw [hi, List.getElem?_modify_eq, ha]
          rfl
        · refine ⟨a, ?_, rfl⟩
          rw [List.getElem?_modify_ne _ _ hi, ha]
      · intro j flag hflag
        rw [hflags]
        refine ⟨_, by rw [List.getElem?_map, hflag, Option.map_some], ?_⟩
        split_ifs <;> exact ⟨rfl, rfl⟩

theorem steps_keep (h : catalogue.Steps s t) : Keeps s t := by
  induction h with
  | refl => exact ⟨fun i a ha => ⟨a, ha, rfl⟩, fun j flag hflag => ⟨flag, hflag, rfl, rfl⟩⟩
  | tail _ hstep ih =>
      obtain ⟨action, haction⟩ := hstep
      exact ih.trans (step_keeps haction)

end

/-! ### Issues and flags -/

/-- The section of the record the table is filled from. -/
def MetricTable.part : MetricTable → String
  | performanceMetrics => "performance"
  | weightMetrics => "weights"

/-- The codes of the table's fields. -/
def MetricTable.mapping : MetricTable → String → Option String
  | performanceMetrics => perfCode
  | weightMetrics => weightCode

/-- The measurements that go into the table. -/
def MetricTable.metrics (record : PreparedAircraftRecord) : MetricTable → List MeasurementInput
  | performanceMetrics => record.performance
  | weightMetrics => record.weights

/-- The issues `measurements` raises for a key of the section. -/
def About (object : JsonObject) (table : MetricTable) (key : String) (found : IngestIssue) : Prop :=
  ∃ members value, sectionAt object table.part = some members ∧ (key, value) ∈ members ∧
    found ∈ (measurement table.part table.mapping key value).notes

/-- The warnings of a record, in order: each becomes a flag. -/
def PreparedAircraftRecord.flagged (record : PreparedAircraftRecord) : List IngestIssue :=
  record.issues.filter fun found => found.severity = .warning

/-- The flag at this position is the one the import raised for this issue. -/
def Raised (db : Tables) (record : PreparedAircraftRecord) (j : ℕ) (found : IngestIssue) : Prop :=
  ∃ k, j = db.flags.length + k ∧ (PreparedAircraftRecord.flagged record)[k]? = some found

/-- The assertion the import makes of the measurement at this position. -/
def measurementAssertion (db : Tables) (record : PreparedAircraftRecord) (k : ℕ) : MetricTable → ℕ
  | .performanceMetrics => db.assertions.length + (1 + k)
  | .weightMetrics => db.assertions.length + (1 + (record.performance.length + k))

section

variable {crates : Crates} {manufacturer aircraft key : String} {raw : Json} {object : JsonObject}
variable {table : MetricTable} {found : IngestIssue}

theorem point_notMem_part (table : MetricTable) : '.' ∉ table.part.toList := by
  cases table <;> decide

/-- No issue of a measurement is one of the record's own members. -/
theorem measurement_code {part : String} {mapping : String → Option String} {field : String}
    {value : Json} : Noted.All (fun found => found.code ≠ "UNSUPPORTED_RECORD_FIELD")
      (measurement part mapping field value) := by
  have hwarning : ∀ {code path message : String} {raw : Option Json},
      code ≠ "UNSUPPORTED_RECORD_FIELD" →
      (warning code path message raw).code ≠ "UNSUPPORTED_RECORD_FIELD" := fun h => h
  have hscalar : ∀ {value : Option Json} {path : String},
      Noted.All (fun found => found.code ≠ "UNSUPPORTED_RECORD_FIELD") (scalar value path) := by
    intro value path
    unfold scalar
    split <;> first | exact Noted.All.pure _ | exact Noted.All.fault (hwarning (by decide))
  unfold measurement
  split
  · exact Noted.All.pure _
  · refine Noted.All.bind hscalar ?_
    split
    · exact Noted.All.pure _
    · refine Noted.All.bind (Noted.All.noteIf fun _ => hwarning (by decide)) ?_
      refine Noted.All.bind (Noted.All.noteIf fun _ => hwarning (by decide)) ?_
      refine Noted.All.bind (Noted.All.noteIf fun _ => hwarning (by decide)) ?_
      refine Noted.All.bind (Noted.All.noteIf fun _ => hwarning (by decide)) ?_
      refine Noted.All.bind (Noted.All.noteIf fun _ => hwarning (by decide)) ?_
      refine Noted.All.bind (Noted.All.noteIf fun _ => hwarning (by decide)) ?_
      exact Noted.All.pure _

theorem mem_measurements_notes :
    found ∈ (measurements (sectionAt object table.part) table.part table.mapping).notes ↔
      ∃ key, About object table key found := by
  have hcollect : ∀ {members : JsonObject},
      found ∈ (measurements (some members) table.part table.mapping).notes ↔
        ∃ entry ∈ members,
          found ∈ (measurement table.part table.mapping entry.1 entry.2).notes := by
    intro members
    have hany := Noted.Any.collect_iff (P := (· = found)) (l := members)
      (f := fun entry => measurement table.part table.mapping entry.1 entry.2)
    simp only [Noted.Any, exists_eq_right] at hany
    exact hany
  constructor
  · intro hfound
    rcases hmembers : sectionAt object table.part with - | members
    · rw [hmembers] at hfound
      cases hfound
    · rw [hmembers, hcollect] at hfound
      obtain ⟨⟨key, value⟩, hentry, hnotes⟩ := hfound
      exact ⟨key, members, value, hmembers, hentry, hnotes⟩
  · rintro ⟨key, members, value, hmembers, hentry, hnotes⟩
    rw [hmembers, hcollect]
    exact ⟨(key, value), hentry, hnotes⟩

theorem about_path (h : About object table key found) :
    found.fieldPath = table.part ++ "." ++ key ∧ found.severity = .warning := by
  obtain ⟨members, value, -, -, hnotes⟩ := h
  have hreads : Reads (· = table.part ++ "." ++ key)
      (measurement table.part table.mapping key value) := Reads.measurement _ _ rfl
  exact ⟨(hreads found hnotes).fieldPath, (hreads found hnotes).severity⟩

/-- A member nobody reads raises an issue under its name. -/
theorem member_issue {path : String} {value : Json} (hmem : (path, value) ∈ object)
    (hunknown : path ∉ knownFields) :
    ∃ found ∈ (checkFields object).notes, found.fieldPath = path ∧ found.severity = .warning ∧
      found.code = "UNSUPPORTED_RECORD_FIELD" := by
  have hany : Noted.Any (fun found => found.fieldPath = path ∧ found.severity = .warning ∧
      found.code = "UNSUPPORTED_RECORD_FIELD") (checkFields object) := by
    simp only [checkFields, Noted.Any.bind_iff, Noted.Any.collect_iff, Noted.Any.noteIf_iff,
      Noted.Any.pure_iff, or_false]
    exact ⟨(path, value), hmem, by simpa using hunknown, rfl, rfl, rfl⟩
  exact hany

/-- An issue on the path of a measurement is about it, or about a member of the record of
that name. -/
theorem mem_notes_path (hpath : found.fieldPath = table.part ++ "." ++ key) :
    found ∈ (normalizeObject crates manufacturer aircraft raw object).notes ↔
      About object table key found ∨ found ∈ (checkFields object).notes := by
  have hpart := point_notMem_part table
  have hname : table.part ≠ "$" := by cases table <;> decide
  have hsection : found ∈ (measurements (sectionAt object table.part) table.part
      table.mapping).notes ↔ About object table key found := by
    rw [mem_measurements_notes]
    constructor
    · rintro ⟨other, habout⟩
      obtain ⟨-, rfl⟩ := path_injective hpart hpart (hpath.symm.trans (about_path habout).1)
      exact habout
    · exact fun habout => ⟨key, habout⟩
  rw [mem_notes_inSection hpart hname hpath, ← hsection]
  have himages : ¬ ∃ position, table.part = imagePath position := by
    rintro ⟨position, heq⟩
    exact ne_imagePath (by cases table <;> decide) position heq
  cases table with
  | performanceMetrics =>
      simp only [MetricTable.part] at himages ⊢
      simp [himages, MetricTable.mapping, or_comm]
  | weightMetrics =>
      simp only [MetricTable.part] at himages ⊢
      simp [himages, MetricTable.mapping, or_comm]

theorem issues_normalizeRecord :
    (normalizeRecord crates manufacturer aircraft (.object object)).issues
      = (normalizeObject crates manufacturer aircraft (.object object) object).notes := by
  rw [normalizeRecord_object]

theorem mem_flagged_of_notes
    (h : found ∈ (normalizeObject crates manufacturer aircraft (.object object) object).notes)
    (hseverity : found.severity = .warning) :
    found ∈ PreparedAircraftRecord.flagged
      (normalizeRecord crates manufacturer aircraft (.object object)) := by
  rw [PreparedAircraftRecord.flagged, issues_normalizeRecord, List.mem_filter]
  exact ⟨h, by simpa using hseverity⟩

end

/-! ### One import -/

section

variable {db imported : Tables} {record : PreparedAircraftRecord} {variantId documentId : ℕ}
variable {day : ℤ} {source : String} {table : MetricTable} {k : ℕ} {m : MeasurementInput}

/-- The assertion of a measurement is pending, under the field of its table and metric. -/
theorem measurementAssertion_spec
    (h : promoteRecord db record variantId documentId day source = some imported)
    (hm : (table.metrics record)[k]? = some m) :
    ∃ a, imported.assertions[measurementAssertion db record k table]? = some a ∧
      a.key = metricKey table variantId m ∧ a.status = .pending := by
  obtain ⟨promoted, added, market, hadds, hkeys, rfl⟩ := promoteRecord_adds h
  have hat : ∀ {i : ℕ}, (added.map SourceAssertion.key)[1 + i]?
      = some (metricKey table variantId m) →
      ∃ a, promoted.assertions[db.assertions.length + (1 + i)]? = some a ∧
        a.key = metricKey table variantId m ∧ a.status = .pending := by
    intro i hi
    rw [List.getElem?_map] at hi
    obtain ⟨a, ha, hkey⟩ := Option.map_eq_some_iff.mp hi
    refine ⟨a, ?_, hkey, hadds.pending a (List.mem_append_left _ (List.mem_of_getElem? ha))⟩
    rw [hadds.assertions, List.getElem?_append_right (Nat.le_add_right _ _), Nat.add_sub_cancel_left,
      List.getElem?_append_left (List.getElem?_eq_some_iff.mp ha).1, ha]
  cases table with
  | performanceMetrics =>
      have hperf : record.performance[k]? = some m := hm
      refine hat (i := k) ?_
      rw [hkeys, Nat.add_comm, List.getElem?_cons_succ, List.getElem?_append_left, List.getElem?_map,
        hperf, Option.map_some]
      rw [List.length_map]
      exact (List.getElem?_eq_some_iff.mp hperf).1
  | weightMetrics =>
      have hweight : record.weights[k]? = some m := hm
      refine hat (i := record.performance.length + k) ?_
      rw [hkeys, Nat.add_comm, List.getElem?_cons_succ, List.getElem?_append_right (by simp),
        List.length_map, Nat.add_sub_cancel_left, List.getElem?_map, hweight, Option.map_some]

/-- A flag the import raised is open, on the path of its issue. -/
theorem raised_spec (h : promoteRecord db record variantId documentId day source = some imported)
    {j : ℕ} {found : IngestIssue} (hraised : Raised db record j found) :
    ∃ flag, imported.flags[j]? = some flag ∧ flag.entity = ⟨.aircraftVariant, variantId⟩ ∧
      flag.fieldName = some found.fieldPath ∧ flag.status = .open := by
  obtain ⟨promoted, added, market, hadds, -, rfl⟩ := promoteRecord_adds h
  obtain ⟨i, rfl, hfound⟩ := hraised
  refine ⟨⟨⟨.aircraftVariant, variantId⟩, some found.fieldPath, found.code, found.message, .open,
    none⟩, ?_, rfl, rfl, rfl⟩
  show (promoted.flags ++ (PreparedAircraftRecord.flagged record).map _)[db.flags.length + i]? = _
  rw [hadds.flags, List.getElem?_append_right (Nat.le_add_right _ _), Nat.add_sub_cancel_left,
    List.getElem?_map, hfound, Option.map_some]

/-- Where no row moves, nothing is published. -/
theorem publishMeasurement_nothing {assertionId : ℕ} {metricCode : String} {decision : Decision}
    (hunique : canonicalUnique db.measurements = true)
    (hnone : ∀ n ∈ db.measurements,
      n.moves table assertionId variantId metricCode decision.isAccepted = false) :
    publishMeasurement db table assertionId variantId metricCode decision
      = .ok (false, false, db) := by
  have hmap : db.measurements.map (fun row =>
      if row.moves table assertionId variantId metricCode decision.isAccepted then
        { row with isCanonical := decision.isAccepted } else row) = db.measurements := by
    refine (List.map_congr_left fun n hn => ?_).trans (List.map_id _)
    rw [if_neg (by rw [hnone n hn]; exact Bool.false_ne_true)]
    rfl
  have hany : db.measurements.any
      (Measurement.moves table assertionId variantId metricCode decision.isAccepted) = false := by
    rw [List.any_eq_false]
    intro n hn
    rw [hnone n hn]
    exact Bool.false_ne_true
  unfold publishMeasurement
  dsimp only
  rw [hmap, hany, if_pos hunique, Bool.and_false]

/-- The assertion of a measurement can be rejected right after its import. -/
theorem reject_imported (hreachable : catalogue.Reachable db)
    (hunique : canonicalUnique db.measurements = true)
    (h : promoteRecord db record variantId documentId day source = some imported)
    (hm : (table.metrics record)[k]? = some m) :
    ∃ outcome rejected,
      decideWith imported (measurementAssertion db record k table) .rejected
        = .ok (outcome, rejected) := by
  obtain ⟨a, ha, hkey, hstatus⟩ := measurementAssertion_spec h hm
  obtain ⟨hentity, hfield⟩ := Prod.mk.inj hkey
  obtain ⟨promoted, added, market, hadds, -, rfl⟩ := promoteRecord_adds h
  obtain ⟨rows, hrows, hplain⟩ := hadds.measurements
  set i := measurementAssertion db record k table with hi
  have hcheck := checkDecision_reject ha (by rw [hstatus]; decide)
  have hold : db.assertions.length ≤ i := by
    rw [hi]
    cases table <;> exact Nat.le_add_right _ _
  -- nothing linked to the new assertion is canonical
  have hnone : ∀ n ∈ promoted.measurements, ∀ t v c, n.moves t i v c false = false := by
    intro n hn t v c
    rw [Bool.eq_false_iff]
    intro hmoves
    obtain ⟨-, hsource, -, -, hcanonical⟩ := moves_iff.mp hmoves
    rw [hrows] at hn
    rcases List.mem_append.mp hn with hn | hn
    · obtain ⟨b, hb, -⟩ := (gate_of_reachable hreachable).measured n hn i hsource
      exact absurd (List.getElem?_eq_some_iff.mp hb).1 (Nat.not_lt.mpr hold)
    · rw [hplain n hn] at hcanonical
      cases hcanonical
  have hstill : canonicalUnique promoted.measurements = true := by
    unfold canonicalUnique at hunique ⊢
    have hfresh : rows.filter Measurement.isCanonical = [] := by
      rw [List.filter_eq_nil_iff]
      intro n hn
      rw [hplain n hn]
      exact Bool.false_ne_true
    rw [hrows, List.filter_append, hfresh, List.append_nil]
    exact hunique
  set updated := updateAssertion (promoteIssues promoted record variantId) i .rejected with hupdated
  have hpublish : publishDecision updated i a.entity a.fieldName .rejected
      = .ok (false, false, updated) := by
    rw [hentity, hfield]
    unfold publishDecision
    dsimp only
    rw [if_pos rfl, metricField, measurementTarget_field]
    exact publishMeasurement_nothing hstill fun n hn => hnone n hn _ _ _
  unfold decideWith
  rw [hcheck]
  simp only [bind, Except.bind, ← hupdated, hpublish]
  exact ⟨_, _, rfl⟩

end

/-! ### The two names -/

section

variable {crates : Crates} {manufacturer aircraft : String} {object : JsonObject}
variable {table : MetricTable} {m : MeasurementInput}

/-- Weights are flagged and asserted under different words. -/
theorem weight_ne (code key : String) : "weight." ++ code ≠ "weights" ++ "." ++ key := by
  intro heq
  have hstart := congrArg (fun path : String => path.toList.take 7) heq
  simp only [String.toList_append, List.append_assoc] at hstart
  rw [List.take_append_of_le_length (by decide), List.take_append_of_le_length (by decide)] at hstart
  exact absurd hstart (by decide)

/-- The field of a measurement is the path of its issues only in `performance`, and only
for a key with no metric. -/
theorem metricField_eq_iff {key text : String} :
    metricField table (preparedMeasurement table.mapping key text) = table.part ++ "." ++ key ↔
      table = .performanceMetrics ∧ perfCode key = none := by
  cases table with
  | weightMetrics =>
      refine iff_of_false (weight_ne _ _) ?_
      rintro ⟨⟨⟩, -⟩
  | performanceMetrics =>
      have hstart : "performance." = "performance" ++ "." := by decide +kernel
      have hcodes : ∀ row ∈ perfCodes, row.2 ≠ row.1 := by decide
      show "performance." ++ (perfCode key).getD key = "performance" ++ "." ++ key ↔ _
      rw [hstart]
      constructor
      · intro heq
        have hpoint : '.' ∉ "performance".toList := by decide
        have hsame := (path_injective hpoint hpoint heq).2
        refine ⟨rfl, ?_⟩
        rcases hcode : perfCode key with - | code
        · rfl
        · rw [hcode, Option.getD_some] at hsame
          exact absurd hsame (hcodes _ (mem_of_lookup hcode))
      · rintro ⟨-, hcode⟩
        rw [hcode, Option.getD_none]

theorem exists_prepared {k : ℕ}
    (hm : (table.metrics (normalizeRecord crates manufacturer aircraft (.object object)))[k]?
      = some m) :
    ∃ text, m = preparedMeasurement table.mapping m.sourceField text := by
  rw [normalizeRecord_object] at hm
  cases table with
  | performanceMetrics =>
      obtain ⟨_, _, entry, _, _, text, _, rfl⟩ := mem_measurements.mp (List.mem_of_getElem? hm)
      exact ⟨text, rfl⟩
  | weightMetrics =>
      obtain ⟨_, _, entry, _, _, text, _, rfl⟩ := mem_measurements.mp (List.mem_of_getElem? hm)
      exact ⟨text, rfl⟩

end

/-! ### The flags of one measurement -/

/-- A decision leaves none of the flags the import raised for the measurement open, and
those raised for anything else as they were. -/
structure ClosesOwn (db s s' : Tables) (record : PreparedAircraftRecord) (object : JsonObject)
    (variantId : ℕ) (table : MetricTable) (key : String) : Prop where
  own : ∀ (j : ℕ) (found : IngestIssue) (flag : CurationFlag), Raised db record j found →
    About object table key found → s.flags[j]? = some flag → flag.status = .open →
      ∃ closed : CurationFlag, s'.flags[j]? = some closed ∧ closed.status ≠ .open
  others : ∀ (j : ℕ) (found : IngestIssue), Raised db record j found →
    ¬ About object table key found → s'.flags[j]? = s.flags[j]?
  elsewhere : ∀ (j : ℕ) (flag : CurationFlag), s.flags[j]? = some flag →
    flag.entity ≠ ⟨.aircraftVariant, variantId⟩ ∨
      flag.fieldName ≠ some (table.part ++ "." ++ key) → s'.flags[j]? = some flag

theorem closed_status (assertionId : ℕ) (decision : Decision) (flag : CurationFlag) :
    (flag.closed assertionId decision).status ≠ .open := by
  cases decision <;> exact FlagStatus.noConfusion

theorem concerns_iff {entity : Entity} {fieldName : String} {flag : CurationFlag} :
    flag.concerns entity fieldName = true ↔
      flag.entity = entity ∧ flag.fieldName = some fieldName ∧ flag.status = .open :=
  decide_eq_true_iff

section

variable {crates : Crates} {manufacturer aircraft : String} {object : JsonObject}
variable {db imported : Tables} {variantId documentId : ℕ} {day : ℤ} {source : String}
variable {table : MetricTable} {k : ℕ} {m : MeasurementInput}

/-- A warning of the record raises a flag. -/
theorem exists_raised {found : IngestIssue}
    (hfound : found ∈ (normalizeObject crates manufacturer aircraft (.object object) object).notes)
    (hseverity : found.severity = .warning) :
    ∃ j, Raised db (normalizeRecord crates manufacturer aircraft (.object object)) j found := by
  obtain ⟨i, hi⟩ := List.mem_iff_getElem?.mp (mem_flagged_of_notes hfound hseverity)
  exact ⟨_, i, rfl, hi⟩

section

variable {s s' : Tables} {decision : Decision} {outcome : CurationOutcome} {j : ℕ}
  (himport : promoteRecord db (normalizeRecord crates manufacturer aircraft (.object object))
    variantId documentId day source = some imported)
  (hm : (table.metrics (normalizeRecord crates manufacturer aircraft (.object object)))[k]?
    = some m)
  (hsteps : catalogue.Steps imported s)
  (hdecide : decideWith s (measurementAssertion db (normalizeRecord crates manufacturer aircraft
    (.object object)) k table) decision = .ok (outcome, s'))

include himport hsteps in
/-- A flag the import raised is there still, on the path of its issue. -/
theorem flag_of_raised {found : IngestIssue}
    (hraised : Raised db (normalizeRecord crates manufacturer aircraft (.object object)) j found) :
    ∃ flag, s.flags[j]? = some flag ∧ flag.entity = ⟨.aircraftVariant, variantId⟩ ∧
      flag.fieldName = some found.fieldPath := by
  obtain ⟨flag, hflag, hentity, hname, -⟩ := raised_spec himport hraised
  obtain ⟨now, hnow, hnowEntity, hnowName⟩ := (steps_keep hsteps).flags j flag hflag
  exact ⟨now, hnow, hnowEntity.trans hentity, hnowName.trans hname⟩

include himport hm hsteps hdecide

/-- A decision on the measurement closes the open flags of its variant on the field of its
assertion, and leaves the others. -/
theorem flag_of_decision {flag : CurationFlag} (hflag : s.flags[j]? = some flag) :
    s'.flags[j]? = some (if flag.concerns ⟨.aircraftVariant, variantId⟩ (metricField table m) then
      flag.closed (measurementAssertion db (normalizeRecord crates manufacturer aircraft
        (.object object)) k table) decision else flag) := by
  obtain ⟨a, ha, hkey, -⟩ := measurementAssertion_spec himport hm
  obtain ⟨b, hb, hbkey⟩ := (steps_keep hsteps).assertions _ a ha
  obtain ⟨row, hrow, -, hflags⟩ := decideWith_rows hdecide
  obtain rfl := Option.some.inj (hrow.symm.trans hb)
  obtain ⟨hentity, hfield⟩ := Prod.mk.inj (hbkey.trans hkey)
  rw [hflags, List.getElem?_map, hflag, Option.map_some, hentity, hfield]

/-- Where the assertion is on the path of the issues, and no member of the record has that
name, the flags of the measurement are those on its field. -/
theorem closesOwn_of_field (hfield : metricField table m = table.part ++ "." ++ m.sourceField)
    (htop : ∀ value, (table.part ++ "." ++ m.sourceField, value) ∉ object) :
    ClosesOwn db s s' (normalizeRecord crates manufacturer aircraft (.object object)) object
      variantId table m.sourceField := by
  constructor
  · intro j found flag hraised habout hflag hopen
    obtain ⟨now, hnow, hentity, hname⟩ := flag_of_raised himport hsteps hraised
    obtain rfl := Option.some.inj (hnow.symm.trans hflag)
    have hconcerns : now.concerns ⟨.aircraftVariant, variantId⟩ (metricField table m) = true :=
      concerns_iff.mpr ⟨hentity, by rw [hname, hfield, (about_path habout).1], hopen⟩
    refine ⟨_, flag_of_decision himport hm hsteps hdecide hflag, ?_⟩
    rw [if_pos hconcerns]
    exact closed_status _ _ _
  · intro j found hraised hother
    obtain ⟨now, hnow, -, hname⟩ := flag_of_raised himport hsteps hraised
    rw [flag_of_decision himport hm hsteps hdecide hnow, hnow, if_neg]
    intro hconcerns
    have hpath : found.fieldPath = table.part ++ "." ++ m.sourceField := by
      rw [← hfield]
      exact Option.some.inj (hname.symm.trans (concerns_iff.mp hconcerns).2.1)
    -- an issue on the path is of the measurement, or of a member of that name
    obtain ⟨i, -, hi⟩ := hraised
    have hmem := (List.mem_filter.mp (List.mem_of_getElem? hi)).1
    rw [issues_normalizeRecord] at hmem
    rcases (mem_notes_path hpath).mp hmem with habout | hfields
    · exact hother habout
    · obtain ⟨value, hvalue⟩ := (flags_checkFields.mp ⟨found, hfields, rfl⟩).2
      rw [hpath] at hvalue
      exact htop value hvalue
  · intro j flag hflag helse
    rw [flag_of_decision himport hm hsteps hdecide hflag, if_neg]
    intro hconcerns
    obtain ⟨hentity, hname, -⟩ := concerns_iff.mp hconcerns
    rcases helse with hne | hne
    · exact hne hentity
    · exact hne (hname.trans (congrArg some hfield))

end

section

variable {rejected : Tables} {outcome : CurationOutcome}
  (himport : promoteRecord db (normalizeRecord crates manufacturer aircraft (.object object))
    variantId documentId day source = some imported)
  (hm : (table.metrics (normalizeRecord crates manufacturer aircraft (.object object)))[k]?
    = some m)
  (hreject : decideWith imported (measurementAssertion db (normalizeRecord crates manufacturer
    aircraft (.object object)) k table) .rejected = .ok (outcome, rejected))
  (hown : ClosesOwn db imported rejected (normalizeRecord crates manufacturer aircraft
    (.object object)) object variantId table m.sourceField)

include himport hm hreject hown

/-- A flag of the measurement closes only on the field of the assertion. -/
theorem field_of_closesOwn (hwarned : ∃ found, About object table m.sourceField found) :
    metricField table m = table.part ++ "." ++ m.sourceField := by
  obtain ⟨found, habout⟩ := hwarned
  obtain ⟨hpath, hseverity⟩ := about_path habout
  obtain ⟨j, hraised⟩ := exists_raised ((mem_notes_path hpath).mpr (.inl habout)) hseverity
  obtain ⟨flag, hflag, -, hname, hopen⟩ := raised_spec himport hraised
  obtain ⟨closed, hclosed, hstatus⟩ := hown.own j found flag hraised habout hflag hopen
  rw [flag_of_decision himport hm .refl hreject hflag] at hclosed
  split_ifs at hclosed with hconcerns
  · rw [← hpath]
    exact Option.some.inj ((concerns_iff.mp hconcerns).2.1.symm.trans hname)
  · rw [← Option.some.inj hclosed, hopen] at hstatus
    exact absurd rfl hstatus

/-- A member of the record named like the path has a flag of its own there, which would
close with those of the measurement. -/
theorem no_member_of_closesOwn (hfield : metricField table m = table.part ++ "." ++ m.sourceField) :
    ∀ value, (table.part ++ "." ++ m.sourceField, value) ∉ object := by
  intro value hvalue
  obtain ⟨issue, hissue, hissuePath, hissueSeverity, hissueCode⟩ :=
    member_issue hvalue (notMem_knownFields (point_notMem_part table))
  obtain ⟨l, hraised⟩ : ∃ l, Raised db (normalizeRecord crates manufacturer aircraft
      (.object object)) l issue :=
    exists_raised ((mem_notes_path hissuePath).mpr (.inr hissue)) hissueSeverity
  have hother : ¬ About object table m.sourceField issue := by
    rintro ⟨members, value, -, -, hnotes⟩
    exact measurement_code issue hnotes hissueCode
  obtain ⟨flag, hflag, hentity, hname, hopen⟩ := raised_spec himport hraised
  have hconcerns : flag.concerns ⟨.aircraftVariant, variantId⟩ (metricField table m) = true :=
    concerns_iff.mpr ⟨hentity, by rw [hname, hissuePath, hfield], hopen⟩
  have hstays := hown.others l issue hraised hother
  rw [flag_of_decision himport hm .refl hreject hflag, if_pos hconcerns, hflag] at hstays
  have hstatus := congrArg CurationFlag.status (Option.some.inj hstays)
  exact closed_status _ _ flag (hstatus.trans hopen)

end

/-- **Flags of a measurement**: the decisions on a measurement close the flags its import
raised for it, and no others, exactly when it is one of `performance` with no metric, and
the record has no member of its own named like its path. -/
theorem flags_close_iff (hreachable : catalogue.Reachable db)
    (hunique : canonicalUnique db.measurements = true)
    (himport : promoteRecord db (normalizeRecord crates manufacturer aircraft (.object object))
      variantId documentId day source = some imported)
    (hm : (table.metrics (normalizeRecord crates manufacturer aircraft (.object object)))[k]?
      = some m)
    (hwarned : ∃ found, About object table m.sourceField found) :
    (∀ s, catalogue.Steps imported s → ∀ decision outcome s',
      decideWith s (measurementAssertion db (normalizeRecord crates manufacturer aircraft
        (.object object)) k table) decision = .ok (outcome, s') →
      ClosesOwn db s s' (normalizeRecord crates manufacturer aircraft (.object object)) object
        variantId table m.sourceField) ↔
      table = .performanceMetrics ∧ perfCode m.sourceField = none ∧
        ∀ value, ("performance" ++ "." ++ m.sourceField, value) ∉ object := by
  obtain ⟨text, hprepared⟩ := exists_prepared hm
  have hfieldIff : metricField table m = table.part ++ "." ++ m.sourceField ↔
      table = .performanceMetrics ∧ perfCode m.sourceField = none := by
    rw [hprepared]
    exact metricField_eq_iff
  constructor
  · intro hcloses
    -- a rejection right after the import goes through, and must close the flag
    obtain ⟨outcome, rejected, hreject⟩ := reject_imported hreachable hunique himport hm
    have hown := hcloses imported .refl .rejected outcome rejected hreject
    have hfield := field_of_closesOwn himport hm hreject hown hwarned
    obtain ⟨htable, hcode⟩ := hfieldIff.mp hfield
    have hnone := no_member_of_closesOwn himport hm hreject hown hfield
    rw [htable] at hnone
    exact ⟨htable, hcode, hnone⟩
  · rintro ⟨htable, hcode, htop⟩ s hsteps decision outcome s' hdecide
    -- the flag is on the field decided, and on no member beside it
    refine closesOwn_of_field himport hm hsteps hdecide (hfieldIff.mpr ⟨htable, hcode⟩) ?_
    rw [htable]
    exact htop

end

/-! ### A glide ratio, and a speed with no unit -/

/-- A record with one measurement. -/
def measuredObject (key text : String) : JsonObject :=
  [("performance", .object [(key, .string text)])]

def measuredRecord (key text : String) : PreparedAircraftRecord :=
  normalizeRecord PlanePhd.fleetCrates "Cessna" "172" (.object (measuredObject key text))

def measuredImport (key text : String) : Option Tables :=
  promoteRecord .empty (measuredRecord key text) 0 0 0 "PlanePHD"

theorem reachable_empty : catalogue.Reachable .empty :=
  .init ⟨rfl, fun _ hm => nomatch hm⟩

theorem metrics_measuredRecord {key text : String} (hentry : isEngineEntry "performance" key = false)
    (hstated : parseSentinel text = some text) :
    (MetricTable.metrics (measuredRecord key text) .performanceMetrics)[0]?
      = some (preparedMeasurement perfCode key text) := by
  rw [measuredRecord, normalizeRecord_object]
  show ((measurements (some [(key, .string text)]) "performance" perfCode).value)[0]? = _
  simp [measurements, Noted.collect, measurement_value, hentry, valueText, hstated]

theorem about_measuredObject {key text : String} {found : IngestIssue}
    (h : found ∈ (measurement "performance" perfCode key (.string text)).notes) :
    About (measuredObject key text) .performanceMetrics key found :=
  ⟨[(key, .string text)], .string text, rfl, List.mem_cons_self, h⟩

/-- Four measurements, two of them with a warning. -/
def measuredFlight : JsonObject :=
  [("performance", .object [("best_cruise_speed", .string "122 KTAS"),
      ("glide_ratio", .string "9:1"), ("fuel_burn", .string "8.5")]),
    ("weights", .object [("gross_weight", .string "2450 LBS")])]

def flightRecord : PreparedAircraftRecord :=
  normalizeRecord PlanePhd.fleetCrates "Cessna" "172" (.object measuredFlight)

def flightImported : Tables :=
  (promoteRecord .empty flightRecord 0 0 0 "PlanePHD").get (by decide +kernel)

/-- The cruise speed is accepted first. -/
def cruiseSettled : Tables :=
  (gateStep flightImported (.decide 1 .accepted)).get (by decide +kernel)

theorem flags_close_iff_glide : ∃ outcome accepted,
    decideWith cruiseSettled 2 .accepted = .ok (outcome, accepted) ∧
      ClosesOwn .empty cruiseSettled accepted flightRecord measuredFlight 0 .performanceMetrics
        "glide_ratio" := by
  have hmeasured : (MetricTable.metrics flightRecord .performanceMetrics)[1]?
      = some (preparedMeasurement perfCode "glide_ratio" "9:1") := by
    have hentries : ∀ key ∈ ["best_cruise_speed", "glide_ratio", "fuel_burn"],
        isEngineEntry "performance" key = false := by decide +kernel
    have hstated : ∀ text ∈ ["122 KTAS", "9:1", "8.5"], parseSentinel text = some text := by
      decide +kernel
    simp only [List.forall_mem_cons] at hentries hstated
    rw [flightRecord, normalizeRecord_object]
    show ((measurements (some [("best_cruise_speed", .string "122 KTAS"),
      ("glide_ratio", .string "9:1"), ("fuel_burn", .string "8.5")]) "performance"
        perfCode).value)[1]? = _
    simp [measurements, Noted.collect, measurement_value, hentries, valueText, hstated]
  have hnotes : (measurement "performance" perfCode "glide_ratio" (.string "9:1")).notes ≠ [] := by
    decide +kernel
  obtain ⟨found, hfound⟩ := List.exists_mem_of_ne_nil _ hnotes
  have habout : About measuredFlight .performanceMetrics "glide_ratio" found :=
    ⟨_, .string "9:1", rfl, by simp, hfound⟩
  have hunmapped : perfCode "glide_ratio" = none := by decide
  have hnoMember : ∀ value, ("performance" ++ "." ++ "glide_ratio", value) ∉ measuredFlight := by
    intro value hmem
    have hnames : "performance" ++ "." ++ "glide_ratio" ∉ measuredFlight.map Prod.fst := by
      decide +kernel
    exact hnames (List.mem_map_of_mem (f := Prod.fst) hmem)
  have hsteps : catalogue.Steps flightImported cruiseSettled :=
    .single ⟨.decide 1 .accepted, Option.eq_some_of_isSome _⟩
  have haccepted : (decideWith cruiseSettled 2 .accepted).toOption.isSome = true := by
    decide +kernel
  obtain ⟨⟨outcome, accepted⟩, hsome⟩ := Option.isSome_iff_exists.mp haccepted
  have hdecide := ok_of_toOption hsome
  refine ⟨outcome, accepted, hdecide, ?_⟩
  exact (flags_close_iff reachable_empty rfl (Option.eq_some_of_isSome
    (o := promoteRecord .empty flightRecord 0 0 0 "PlanePHD") _) hmeasured
    ⟨found, habout⟩).mpr ⟨rfl, hunmapped, hnoMember⟩
    cruiseSettled hsteps .accepted outcome accepted hdecide

def speedImported : Tables := (measuredImport "best_cruise_speed" "124").get (by decide +kernel)

/-- The flag of a speed with no unit stays open when its assertion is accepted. -/
theorem mapped_flag_stays_open : ¬ ∀ (crates : Crates) (manufacturer aircraft : String)
    (object : JsonObject) (db imported : Tables) (variantId documentId : ℕ) (day : ℤ)
    (source : String) (table : MetricTable) (k : ℕ) (m : MeasurementInput),
    catalogue.Reachable db → canonicalUnique db.measurements = true →
    promoteRecord db (normalizeRecord crates manufacturer aircraft (.object object))
      variantId documentId day source = some imported →
    (table.metrics (normalizeRecord crates manufacturer aircraft (.object object)))[k]? = some m →
    (∃ found, About object table m.sourceField found) →
    ∀ s, catalogue.Steps imported s → ∀ decision outcome s',
      decideWith s (measurementAssertion db (normalizeRecord crates manufacturer aircraft
        (.object object)) k table) decision = .ok (outcome, s') →
      ClosesOwn db s s' (normalizeRecord crates manufacturer aircraft (.object object)) object
        variantId table m.sourceField := by
  intro h
  have hnotes : (measurement "performance" perfCode "best_cruise_speed" (.string "124")).notes
      = PreparedAircraftRecord.flagged (measuredRecord "best_cruise_speed" "124") := by
    decide +kernel
  have hlength : (PreparedAircraftRecord.flagged
      (measuredRecord "best_cruise_speed" "124")).length = 1 := by decide +kernel
  obtain ⟨found, hfound⟩ := List.length_eq_one_iff.mp hlength
  have habout : About (measuredObject "best_cruise_speed" "124") .performanceMetrics
      "best_cruise_speed" found :=
    about_measuredObject (by rw [hnotes, hfound]; exact List.mem_singleton_self found)
  have hraised : Raised .empty (measuredRecord "best_cruise_speed" "124") 0 found :=
    ⟨0, rfl, by rw [hfound]; rfl⟩
  have himported : speedImported.flags.map CurationFlag.status = [.open] := by decide +kernel
  have haccepted : ((decideWith speedImported 1 .accepted).toOption.map fun result =>
      result.2.flags.map CurationFlag.status) = some [.open] := by decide +kernel
  obtain ⟨⟨outcome, accepted⟩, hdecide, hflags⟩ := Option.map_eq_some_iff.mp haccepted
  have hcloses := h _ _ _ _ .empty speedImported 0 0 0 _ .performanceMetrics 0 _ reachable_empty rfl
    (Option.eq_some_of_isSome (o := measuredImport _ _) _)
    (metrics_measuredRecord (by decide) (by decide +kernel)) ⟨found, habout⟩ speedImported .refl
    .accepted outcome accepted (ok_of_toOption hdecide)
  obtain ⟨flag, hflag, hopen⟩ := List.map_eq_singleton_iff.mp himported
  obtain ⟨after, hafter, hstillOpen⟩ := List.map_eq_singleton_iff.mp hflags
  obtain ⟨closed, hclosed, hstatus⟩ :=
    hcloses.own 0 found flag hraised habout (by rw [hflag]; rfl) hopen
  rw [hafter] at hclosed
  obtain rfl := Option.some.inj hclosed
  exact hstatus hstillOpen

end Curation

end AircraftApi
