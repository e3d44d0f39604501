/-
AircraftApi/MeasurementGate.lean

The gate of the measurements, over every run of imports and decisions: a
measurement with a source assertion is canonical exactly when that assertion is
accepted.

`Gate` is the invariant.  A row is found from its assertion by its link and
again by variant and metric, and the two agree because the field name of the
assertion is the table's start and the metric's code (`measurementTarget_field`).
An import adds pending assertions and rows that are not canonical; a decision
moves one assertion and the row linked to it.
-/
import AircraftApi.Promotion

namespace AircraftApi

namespace Curation

open Transition

/-- Imports of whole records, and decisions. -/
def gateStep (db : Tables) : Action → Option Tables
  | .importRecord record variantId documentId day source =>
      promoteRecord db record variantId documentId day source
  | .decide assertionId decision => (decideWith db assertionId decision).toOption.map Prod.snd

/-- Before the first import there are no assertions, and the measurements of
earlier loaders have none. -/
def catalogue : System Tables Action where
  init db := db.assertions = [] ∧ ∀ m ∈ db.measurements, m.sourceAssertionId = none
  step db action db' := gateStep db action = some db'

/-- The assertion is the one of the measurement's variant and metric. -/
def Measurement.Asserts (m : Measurement) (a : SourceAssertion) : Prop :=
  a.entity = ⟨.aircraftVariant, m.variantId⟩ ∧ a.fieldName = m.table.fieldStart ++ m.metricTypeCode

/-- A measurement is canonical exactly when its assertion is accepted, and one assertion
of a field at most is. -/
structure Gate (db : Tables) : Prop where
  measured : ∀ m ∈ db.measurements, ∀ i, m.sourceAssertionId = some i →
    ∃ a, db.assertions[i]? = some a ∧ m.Asserts a ∧ m.isCanonical = a.isAccepted
  status : ∀ a ∈ db.assertions, a.isAccepted = true ↔ a.status = .accepted
  unique : ∀ (i j : ℕ) (a b : SourceAssertion), db.assertions[i]? = some a →
    db.assertions[j]? = some b → a.isAccepted = true → b.isAccepted = true →
    a.entity = b.entity → a.fieldName = b.fieldName → i = j
  linked : (db.measurements.filterMap Measurement.sourceAssertionId).Nodup

/-! ### Imports -/

section

variable {db db' : Tables}

/-- New assertions are pending. -/
theorem Gate.append (h : Gate db) {added : List SourceAssertion}
    (hassertions : db'.assertions = db.assertions ++ added)
    (hpending : ∀ a ∈ added, a.isAccepted = false ∧ a.status = .pending)
    (hmeasurements : db'.measurements = db.measurements) : Gate db' where
  measured := by
    rw [hmeasurements, hassertions]
    intro m hm i hi
    obtain ⟨a, ha, hrest⟩ := h.measured m hm i hi
    refine ⟨a, ?_, hrest⟩
    rw [List.getElem?_append_left (List.getElem?_eq_some_iff.mp ha).1, ha]
  status := by
    rw [hassertions]
    intro a ha
    rcases List.mem_append.mp ha with hold | hnew
    · exact h.status a hold
    · obtain ⟨haccepted, hstatus⟩ := hpending a hnew
      rw [haccepted, hstatus]
      decide
  unique := by
    rw [hassertions]
    intro i j a b ha hb haccepted hbaccepted hentity hfield
    -- an accepted assertion is an old one
    have hold : ∀ {i : ℕ} {a : SourceAssertion}, (db.assertions ++ added)[i]? = some a →
        a.isAccepted = true → db.assertions[i]? = some a := by
      intro i a hi hacc
      rcases Nat.lt_or_ge i db.assertions.length with hlt | hge
      · rwa [List.getElem?_append_left hlt] at hi
      · rw [List.getElem?_append_right hge] at hi
        rw [(hpending a (List.mem_of_getElem? hi)).1] at hacc
        cases hacc
    exact h.unique i j a b (hold ha haccepted) (hold hb hbaccepted) haccepted hbaccepted hentity
      hfield
  linked := by
    rw [hmeasurements]
    exact h.linked

theorem Gate.assertEntityValue (h : Gate db) (documentId : ℕ) (entity : Entity)
    (field raw : String) (numeric : Option ℚ) (rawUnit : Option String) :
    Gate (assertEntityValue db documentId entity field raw numeric rawUnit) := by
  refine h.append rfl ?_ rfl
  intro a ha
  obtain rfl := List.mem_singleton.mp ha
  exact ⟨rfl, rfl⟩

theorem measurementRow_spec {table : MetricTable} {variantId assertionId : ℕ}
    {metric : MeasurementInput} {row : Measurement}
    (h : measurementRow table variantId assertionId metric = some (some row)) :
    row.sourceAssertionId = some assertionId ∧ row.isCanonical = false ∧ row.table = table ∧
      row.variantId = variantId ∧ metric.metricCode = some row.metricTypeCode := by
  unfold measurementRow at h
  split at h
  · rename_i code value unit hcode _ _
    obtain ⟨q, -, h⟩ := Option.bind_eq_some_iff.mp h
    obtain ⟨canonicalUnit, -, h⟩ := Option.bind_eq_some_iff.mp h
    obtain ⟨factor, -, h⟩ := Option.bind_eq_some_iff.mp h
    dsimp only at h
    split_ifs at h
    cases h
    exact ⟨rfl, rfl, rfl, rfl, hcode⟩
  · cases h

theorem Gate.promoteMetric (h : Gate db) {table : MetricTable} {variantId documentId : ℕ}
    {metric : MeasurementInput}
    (hpromote : promoteMetric table variantId documentId db metric = some db') : Gate db' := by
  obtain ⟨asserted, -, hpromote⟩ := Option.bind_eq_some_iff.mp hpromote
  obtain ⟨row, hrow, heq⟩ := Option.bind_eq_some_iff.mp hpromote
  cases heq
  have hasserted := h.assertEntityValue documentId ⟨.aircraftVariant, variantId⟩
    (metricField table metric) metric.rawValue asserted metric.rawUnit
  rcases row with - | row
  · exact ⟨by simpa using hasserted.measured, hasserted.status, hasserted.unique,
      by simpa using hasserted.linked⟩
  · -- the row is linked to the assertion just added
    obtain ⟨hsource, hcanonical, htable, hvariant, hcode⟩ := measurementRow_spec hrow
    refine ⟨?_, hasserted.status, hasserted.unique, ?_⟩
    · intro m hm i hi
      rcases List.mem_append.mp hm with hold | hnew
      · exact hasserted.measured m hold i hi
      · obtain rfl := List.mem_singleton.mp hnew
        obtain rfl := Option.some.inj (hsource.symm.trans hi)
        refine ⟨_, List.getElem?_concat_length, ⟨?_, ?_⟩, hcanonical⟩
        · rw [hvariant]
        · rw [htable]
          show table.fieldStart ++ metric.metricCode.getD metric.sourceField = _
          rw [hcode, Option.getD_some]
    · show ((db.measurements ++ [row]).filterMap Measurement.sourceAssertionId).Nodup
      rw [List.filterMap_append, List.nodup_append]
      refine ⟨h.linked, by simp [hsource], ?_⟩
      intro i hi j hj heq
      obtain ⟨m, hm, hmi⟩ := List.mem_filterMap.mp hi
      obtain ⟨a, ha, -⟩ := h.measured m hm i hmi
      have hlt := (List.getElem?_eq_some_iff.mp ha).1
      simp only [List.filterMap_cons, hsource, List.filterMap_nil, List.mem_singleton] at hj
      omega

theorem Gate.promoteMetrics (h : Gate db) {table : MetricTable} {variantId documentId : ℕ}
    {metrics : List MeasurementInput}
    (hpromote : promoteMetrics table variantId documentId db metrics = some db') : Gate db' := by
  induction metrics generalizing db with
  | nil =>
      cases hpromote
      exact h
  | cons metric metrics ih =>
      obtain ⟨next, hfirst, hrest⟩ := Option.bind_eq_some_iff.mp hpromote
      exact ih (h.promoteMetric hfirst) hrest

theorem Gate.writes (h : Gate db) {table : MarketTable} {id : ℕ} {fields : List String}
    {stores : String → Option ℚ} (hwrites : Writes db db' table id fields stores) : Gate db' := by
  obtain ⟨added, hadded, -, hpending⟩ := hwrites.asserted
  exact h.append hadded (fun a ha => (hpending a ha).2) hwrites.measurements

theorem Gate.promoteMarket (h : Gate db) {record : PreparedAircraftRecord}
    {variantId documentId : ℕ} {day : ℤ} {source : String}
    (hpromote : promoteMarket db record variantId documentId day source = some db') : Gate db' := by
  obtain ⟨next, hvaluation, hcosts⟩ := Option.bind_eq_some_iff.mp hpromote
  have hnext : Gate next := by
    rcases hprice : record.valuation.papiPriceEstimate with - | text
    · rw [promoteValuation, hprice] at hvaluation
      cases hvaluation
      exact h
    · obtain ⟨i, ⟨-, hwrites⟩ | ⟨price, -, -, hwrites⟩⟩ := promoteValuation_writes hprice hvaluation
      · exact h.writes hwrites
      · exact h.writes hwrites
  rcases eq_or_ne record.operatingCosts [] with hitems | hitems
  · rw [hitems] at hcosts
    cases hcosts
    exact hnext
  · obtain ⟨i, hwrites, -⟩ := promoteCosts_writes hitems hcosts
    exact hnext.writes hwrites

theorem Gate.promoteRecord (h : Gate db) {record : PreparedAircraftRecord}
    {variantId documentId : ℕ} {day : ℤ} {source : String}
    (hpromote : promoteRecord db record variantId documentId day source = some db') : Gate db' := by
  obtain ⟨measured, hmeasured, hpromote⟩ := Option.bind_eq_some_iff.mp hpromote
  obtain ⟨priced, hpriced, heq⟩ := Option.bind_eq_some_iff.mp hpromote
  obtain ⟨performed, hperformed, hweighed⟩ := Option.bind_eq_some_iff.mp hmeasured
  cases heq
  have hnamed := h.assertEntityValue documentId ⟨.aircraftVariant, variantId⟩ "name"
    record.identity.aircraftName none none
  have hall := ((hnamed.promoteMetrics hperformed).promoteMetrics hweighed).promoteMarket hpriced
  exact ⟨hall.measured, hall.status, hall.unique, hall.linked⟩

end

/-! ### Decisions -/

/-- The field of a measurement leads back to its table and metric. -/
theorem measurementTarget_field (table : MetricTable) (code : String) :
    measurementTarget (table.fieldStart ++ code) = some (table, code) := by
  cases table with
  | performanceMetrics =>
      simp only [measurementTarget, MetricTable.fieldStart, String.toList_append]
      simp
      exact String.ofList_toList
  | weightMetrics =>
      simp only [measurementTarget, MetricTable.fieldStart, String.toList_append]
      simp
      exact String.ofList_toList

section

variable {db db' : Tables} {assertionId : ℕ} {decision : Decision} {outcome : CurationOutcome}

/-- What a decision does to assertions and measurements: it moves the assertion
it names, and of the measurements at most those linked to it. -/
theorem decideWith_measurements (h : decideWith db assertionId decision = .ok (outcome, db')) :
    ∃ row, checkDecision (lockAssertionField db assertionId) assertionId decision = .ok row ∧
      db'.assertions = db.assertions.modify assertionId (SourceAssertion.decide decision) ∧
      ∃ f : Measurement → Measurement, db'.measurements = db.measurements.map f ∧
        (∀ m, f m = m ∨ m.sourceAssertionId = some assertionId ∧
          f m = { m with isCanonical := decision.isAccepted }) ∧
        ∀ m, m.sourceAssertionId = some assertionId → m.Asserts row →
          f m = { m with isCanonical := decision.isAccepted } := by
  obtain ⟨row, published, hcheck, hpublish, flags, requests, rfl⟩ := decideWith_ok h
  refine ⟨row, hcheck, ?_⟩
  unfold publishDecision at hpublish
  dsimp only at hpublish
  split at hpublish
  · -- the field is a measurement's
    rename_i table code hmetric
    split_ifs at hmetric with hvariant
    unfold publishMeasurement at hpublish
    dsimp only at hpublish
    split at hpublish
    · obtain rfl := (Prod.mk.inj (Prod.mk.inj (Except.ok.inj hpublish)).2).2
      refine ⟨rfl, _, rfl, ?_, ?_⟩
      · intro m
        split_ifs with hmoves
        · refine .inr ⟨?_, rfl⟩
          simp only [Measurement.moves, decide_eq_true_eq] at hmoves
          exact hmoves.2.1
        · exact .inl rfl
      · rintro m hsource ⟨hentity, hfield⟩
        rw [hfield, measurementTarget_field] at hmetric
        obtain ⟨htable, hcode⟩ := Prod.mk.inj (Option.some.inj hmetric)
        have hid : m.variantId = row.entity.id := by rw [hentity]
        split_ifs with hmoves
        · rfl
        · simp only [Measurement.moves, htable, hsource, hid, hcode, decide_eq_true_eq, true_and,
            not_not] at hmoves
          rw [← hmoves]
    · cases hpublish
  · rename_i table hmetric htable
    obtain ⟨-, rfl⟩ := publishSnapshot_ok hpublish
    refine ⟨?_, id, ?_, fun m => .inl rfl, ?_⟩
    · cases table <;> rfl
    · rw [List.map_id]
      cases table <;> rfl
    · rintro m - ⟨hentity, -⟩
      rw [hentity] at htable
      cases htable
  · rename_i hmetric htable
    obtain rfl := (Prod.mk.inj (Prod.mk.inj (Except.ok.inj hpublish)).2).2
    refine ⟨rfl, id, (List.map_id _).symm, fun m => .inl rfl, ?_⟩
    rintro m - ⟨hentity, hfield⟩
    rw [hentity, hfield, if_pos rfl, measurementTarget_field] at hmetric
    cases hmetric

theorem Gate.decide (h : Gate db) (hdecide : decideWith db assertionId decision = .ok (outcome, db')) :
    Gate db' := by
  obtain ⟨row, hcheck, hassertions, f, hmeasurements, hmoves, hmoved⟩ :=
    decideWith_measurements hdecide
  obtain ⟨hrow, -, hcompetitor⟩ := checkDecision_lock_ok hcheck
  have hlookup : ∀ i, db'.assertions[i]? = if assertionId = i then some (row.decide decision)
      else db.assertions[i]? := by
    intro i
    rw [hassertions, List.getElem?_modify]
    split_ifs with hi
    · rw [← hi, hrow]
      rfl
    · rcases db.assertions[i]? with - | a <;> rfl
  have hsource : ∀ m, (f m).sourceAssertionId = m.sourceAssertionId := by
    intro m
    rcases hmoves m with hsame | ⟨-, hset⟩
    · rw [hsame]
    · rw [hset]
  refine ⟨?_, ?_, ?_, ?_⟩
  · rw [hmeasurements]
    intro m' hm' i hi
    obtain ⟨m, hm, rfl⟩ := List.mem_map.mp hm'
    rw [hsource] at hi
    obtain ⟨a, ha, hasserts, hgate⟩ := h.measured m hm i hi
    rw [hlookup]
    split_ifs with hid
    · subst hid
      obtain rfl := Option.some.inj (hrow.symm.trans ha)
      refine ⟨_, rfl, ?_⟩
      rw [hmoved m hi hasserts]
      exact ⟨hasserts, rfl⟩
    · refine ⟨a, ha, ?_⟩
      rcases hmoves m with hsame | ⟨hlinked, -⟩
      · rw [hsame]
        exact ⟨hasserts, hgate⟩
      · exact absurd (Option.some.inj (hlinked.symm.trans hi)) hid
  · intro a ha
    obtain ⟨i, hi⟩ := List.mem_iff_getElem?.mp ha
    rw [hlookup] at hi
    split_ifs at hi with hid
    · obtain rfl := Option.some.inj hi
      cases decision <;> simp [SourceAssertion.decide, Decision.isAccepted, Decision.status]
    · exact h.status a (List.mem_of_getElem? hi)
  · intro i j a b ha hb haccepted hbaccepted hentity hfield
    -- a newly accepted assertion had no accepted rival
    have hrival : ∀ {j : ℕ} {b : SourceAssertion}, assertionId ≠ j →
        db.assertions[j]? = some b → b.isAccepted = true →
        (row.decide decision).isAccepted = true → b.entity = row.entity →
        b.fieldName = row.fieldName → False := by
      intro j b hj hb hbaccepted haccepted hentity hfield
      cases decision with
      | rejected => cases haccepted
      | accepted =>
          rw [hcompetitor rfl b j hb (Ne.symm hj) hentity hfield] at hbaccepted
          cases hbaccepted
    rw [hlookup] at ha hb
    split_ifs at ha hb with hi hj hj
    · rw [← hi, ← hj]
    · obtain rfl := Option.some.inj ha
      exact (hrival hj hb hbaccepted haccepted hentity.symm hfield.symm).elim
    · obtain rfl := Option.some.inj hb
      exact (hrival hi ha haccepted hbaccepted hentity hfield).elim
    · exact h.unique i j a b ha hb haccepted hbaccepted hentity hfield
  · rw [hmeasurements, List.filterMap_map]
    have hsame : Measurement.sourceAssertionId ∘ f = Measurement.sourceAssertionId := by
      funext m
      exact hsource m
    rw [hsame]
    exact h.linked

end

/-! ### Every run -/

section

variable {db : Tables}

theorem gate_of_reachable (h : catalogue.Reachable db) : Gate db := by
  refine h.invariant ?_ ?_
  · rintro db ⟨hassertions, hmeasurements⟩
    refine ⟨?_, ?_, ?_, ?_⟩
    · intro m hm i hi
      rw [hmeasurements m hm] at hi
      cases hi
    · rw [hassertions]
      intro a ha
      cases ha
    · rw [hassertions]
      intro i j a b ha
      cases ha
    · rw [List.filterMap_eq_nil_iff.mpr hmeasurements]
      exact List.nodup_nil
  · intro db action db' hgate hstep
    cases action with
    | importRecord record variantId documentId day source => exact hgate.promoteRecord hstep
    | decide assertionId decision =>
        obtain ⟨⟨outcome, after⟩, hdecide, rfl⟩ := Option.map_eq_some_iff.mp hstep
        exact hgate.decide (ok_of_toOption hdecide)

/-- **Measurement gate**: in every state of every run, a measurement with a
source assertion is canonical exactly when that assertion is accepted, an
assertion is accepted exactly when its status says so, a field has at most one
accepted assertion, and so a variant has at most one such canonical measurement
of a metric. -/
theorem measurement_gate (h : catalogue.Reachable db) :
    (∀ m ∈ db.measurements, ∀ i, m.sourceAssertionId = some i →
      (m.isCanonical = true ↔ ∃ a, db.assertions[i]? = some a ∧ a.isAccepted = true)) ∧
    (∀ a ∈ db.assertions, a.isAccepted = true ↔ a.status = .accepted) ∧
    (∀ (i j : ℕ) (a b : SourceAssertion), db.assertions[i]? = some a →
      db.assertions[j]? = some b → a.isAccepted = true → b.isAccepted = true →
      a.entity = b.entity → a.fieldName = b.fieldName → i = j) ∧
    ∀ (i j : ℕ) (m n : Measurement), db.measurements[i]? = some m → db.measurements[j]? = some n →
      m.sourceAssertionId ≠ none → n.sourceAssertionId ≠ none → m.isCanonical = true →
      n.isCanonical = true → m.table = n.table → m.variantId = n.variantId →
      m.metricTypeCode = n.metricTypeCode → i = j := by
  have hgate := gate_of_reachable h
  refine ⟨?_, hgate.status, hgate.unique, ?_⟩
  · intro m hm i hi
    obtain ⟨a, ha, -, heq⟩ := hgate.measured m hm i hi
    rw [heq]
    constructor
    · exact fun haccepted => ⟨a, ha, haccepted⟩
    · rintro ⟨b, hb, hbaccepted⟩
      obtain rfl := Option.some.inj (ha.symm.trans hb)
      exact hbaccepted
  · intro i j m n hm hn hmsource hnsource hmcanonical hncanonical htable hvariant hmetric
    obtain ⟨k, hk⟩ := Option.ne_none_iff_exists'.mp hmsource
    obtain ⟨l, hl⟩ := Option.ne_none_iff_exists'.mp hnsource
    obtain ⟨a, ha, ⟨haentity, hafield⟩, hacanonical⟩ :=
      hgate.measured m (List.mem_of_getElem? hm) k hk
    obtain ⟨b, hb, ⟨hbentity, hbfield⟩, hbcanonical⟩ :=
      hgate.measured n (List.mem_of_getElem? hn) l hl
    have hkl : k = l := by
      refine hgate.unique k l a b ha hb (hacanonical.symm.trans hmcanonical)
        (hbcanonical.symm.trans hncanonical) ?_ ?_
      · rw [haentity, hbentity, hvariant]
      · rw [hafield, hbfield, htable, hmetric]
    subst hkl
    -- no assertion is linked from two rows
    have hlinked := List.pairwise_iff_getElem.mp (List.pairwise_filterMap.mp hgate.linked)
    obtain ⟨hi, rfl⟩ := List.getElem?_eq_some_iff.mp hm
    obtain ⟨hj, rfl⟩ := List.getElem?_eq_some_iff.mp hn
    rcases Nat.lt_trichotomy i j with hlt | rfl | hlt
    · exact absurd rfl (hlinked i j hi hj hlt k hk k hl)
    · rfl
    · exact absurd rfl (hlinked j i hj hi hlt k hl k hk)

end

/-! ### A speed accepted -/

/-- The import of a record with a cruise speed, and its acceptance. -/
def importCruise : Action :=
  .importRecord (normalizeRecord PlanePhd.fleetCrates "Cessna" "172"
    (.object [("performance", .object [("best_cruise_speed", .string "124 KIAS")])]))
      0 0 0 "PlanePHD"

def cruiseImported : Tables := (gateStep .empty importCruise).get (by decide +kernel)

def cruiseAccepted : Tables :=
  (gateStep cruiseImported (.decide 1 .accepted)).get (by decide +kernel)

theorem cruiseAccepted_reachable : catalogue.Reachable cruiseAccepted := by
  have himported : catalogue.Reachable cruiseImported :=
    .step (s := .empty) (.init ⟨rfl, fun m hm => nomatch hm⟩)
      (Option.eq_some_of_isSome (o := gateStep .empty importCruise) _)
  exact himported.step (Option.eq_some_of_isSome _)

/-- The cruise speed is canonical, so its assertion is accepted. -/
theorem measurement_gate_cruise :
    ∃ a, cruiseAccepted.assertions[1]? = some a ∧ a.isAccepted = true := by
  have hrow : (cruiseAccepted.measurements[0]?).map (fun m => (m.sourceAssertionId, m.isCanonical))
      = some (some 1, true) := by decide +kernel
  obtain ⟨m, hm, heq⟩ := Option.map_eq_some_iff.mp hrow
  obtain ⟨hsource, hcanonical⟩ := Prod.mk.inj heq
  exact ((measurement_gate cruiseAccepted_reachable).1 m (List.mem_of_getElem? hm) 1 hsource).mp
    hcanonical

end Curation

end AircraftApi
