/-
AircraftApi/Curation.lean

The curation store (`curation_repository.rs`): a curator accepts or rejects one
source assertion, and one transaction moves the assertion, the canonical flag
of what it backs, the flags it closes and the request to rebuild the read
model.

A table is the list of its rows, and the identity column is the position of
the row: rows are only ever added or updated.  The cost tables, whose identity
columns nothing reads, are maps from their unique keys.  The decision is
written statement by statement, since two decisions can interleave theirs.

What an assertion publishes depends on its entity:

    AIRCRAFT_VARIANT            the measurement linked to the assertion
    VALUATION, COST_SNAPSHOT    the whole snapshot, once every field asserted
                                on it has an accepted assertion
    anything else               nothing
-/
import AircraftApi.Ingestion
import AircraftApi.KeyMap
import AircraftApi.Text
import Mathlib.Data.Rat.Defs

namespace AircraftApi

namespace Curation

/-! ### Tables -/

/-- `curation_entity_types`. -/
inductive EntityType
  | aircraftFamily | aircraftModel | aircraftVariant | engineSpec | performanceMetric
  | weightMetric | dimensionMetric | costSnapshot | valuation | sourceDocument | manufacturer
  deriving DecidableEq, Repr

/-- What an assertion or a flag is about. -/
structure Entity where
  type : EntityType
  id : ℕ
  deriving DecidableEq, Repr

/-- `assertion_statuses`. -/
inductive AssertionStatus
  | pending | accepted | rejected | conflict | superseded
  deriving DecidableEq, Repr

/-- The status as the column holds it. -/
def AssertionStatus.code : AssertionStatus → String
  | pending => "PENDING"
  | accepted => "ACCEPTED"
  | rejected => "REJECTED"
  | conflict => "CONFLICT"
  | superseded => "SUPERSEDED"

/-- A row of `source_assertions`. -/
structure SourceAssertion where
  sourceDocumentId : ℕ
  entity : Entity
  fieldName : String
  rawValue : String
  rawUnit : Option String
  assertedNumeric : Option ℚ
  status : AssertionStatus
  isAccepted : Bool
  deriving DecidableEq

/-- The two tables of measurements. -/
inductive MetricTable
  | performanceMetrics | weightMetrics
  deriving DecidableEq, Repr

/-- A row of one of them. -/
structure Measurement where
  table : MetricTable
  variantId : ℕ
  metricTypeCode : String
  rawValue : ℚ
  rawUnitCode : String
  canonicalValue : Option ℚ
  sourceAssertionId : Option ℕ
  isCanonical : Bool
  deriving DecidableEq

/-- The columns `valuations` and `cost_snapshots` share. -/
structure Snapshot where
  variantId : ℕ
  snapshotDate : ℤ
  sourceName : String
  isCanonical : Bool
  deriving DecidableEq, Repr

/-- A snapshot of the market. -/
structure Valuation extends Snapshot where
  papiPriceEstimate : Option ℚ
  forSaleCount : Option ℤ
  deriving DecidableEq

/-- A snapshot of the costs, with what had no column. -/
structure CostSnapshot extends Snapshot where
  extraAttributes : KeyMap String String

/-- A row of `cost_line_items`, of which a snapshot has one an item type. -/
structure CostLineItem where
  amountAnnual : Option ℚ
  amountPerHour : Option ℚ
  /-- chk_cli_has_amount -/
  hasAmount : amountAnnual ≠ none ∨ amountPerHour ≠ none
  deriving DecidableEq

/-- The row of `cost_snapshot_totals` a snapshot may have. -/
structure CostSnapshotTotals where
  totalAnnualUsd : Option ℚ
  totalFixedUsd : Option ℚ
  totalVariableUsd : Option ℚ
  capturedFromKey : String
  deriving DecidableEq

/-- `curation_flag_statuses`. -/
inductive FlagStatus
  | open | underReview | resolved | dismissed | deferred
  deriving DecidableEq, Repr

/-- A row of `curation_flags`. -/
structure CurationFlag where
  entity : Entity
  fieldName : Option String
  issueType : String
  issueDescription : String
  status : FlagStatus
  resolutionNotes : Option String
  deriving DecidableEq, Repr

/-- A row of `read_model_refresh_requests`; each starts PENDING. -/
structure RefreshRequest where
  requestedBy : String
  reason : String
  deriving DecidableEq, Repr

/-- The tables the import and the decisions work on. -/
structure Tables where
  assertions : List SourceAssertion
  measurements : List Measurement
  valuations : List Valuation
  costSnapshots : List CostSnapshot
  costLineItems : KeyMap (ℕ × String) CostLineItem
  costSnapshotTotals : KeyMap ℕ CostSnapshotTotals
  flags : List CurationFlag
  refreshRequests : List RefreshRequest

/-- Nothing imported yet. -/
def Tables.empty : Tables := ⟨[], [], [], [], ∅, ∅, [], []⟩

/-- The two tables a market assertion publishes to. -/
inductive MarketTable
  | valuations | costSnapshots
  deriving DecidableEq, Repr

/-- The entity that is a row of the table. -/
def MarketTable.entity : MarketTable → ℕ → Entity
  | valuations, id => ⟨.valuation, id⟩
  | costSnapshots, id => ⟨.costSnapshot, id⟩

/-- The snapshots of a table. -/
def Tables.snapshots (db : Tables) : MarketTable → List Snapshot
  | .valuations => db.valuations.map Valuation.toSnapshot
  | .costSnapshots => db.costSnapshots.map CostSnapshot.toSnapshot

/-! ### Decisions -/

/-- What a curator answers. -/
inductive Decision
  | accepted | rejected
  deriving DecidableEq, Repr

/-- The status a decision writes. -/
def Decision.status : Decision → AssertionStatus
  | accepted => .accepted
  | rejected => .rejected

/-- The value of the column. -/
def Decision.isAccepted : Decision → Bool
  | accepted => true
  | rejected => false

/-- Why a decision is refused. -/
inductive CurationError
  | unknownAssertion (assertionId : ℕ)
  | alreadyDecided (assertionId : ℕ) (status : AssertionStatus)
  | conflict (fieldName : String) (acceptedId : ℕ)
  | snapshotConflict (entityType : EntityType) (blockingId : ℕ)
  /-- `stored` is none where the message says "no value". -/
  | valueMismatch (assertionId : ℕ) (fieldName : String) (asserted : ℚ) (stored : Option ℚ)
  | persistence (error : PersistenceError)
  deriving DecidableEq

/-- What the decision's transaction did.  The rebuild of the read model comes
after its commit. -/
structure CurationOutcome where
  assertionId : ℕ
  decision : Decision
  measurementCanonicalized : Bool
  flagsResolved : ℕ
  /-- The read model's inputs moved. -/
  refreshed : Bool
  deriving DecidableEq, Repr

/-! ### Statements -/

/-- Where a market assertion publishes to. -/
def marketTarget : EntityType → Option MarketTable
  | .valuation => some .valuations
  | .costSnapshot => some .costSnapshots
  | _ => none

/-- The columns of a valuation an assertion is compared with. -/
def valuationColumn (fieldName : String) : Option (Valuation → Option ℚ) :=
  if fieldName = "papi_price_estimate" then some Valuation.papiPriceEstimate
  else if fieldName = "for_sale_count" then
    some fun valuation => valuation.forSaleCount.map fun count : ℤ => (count : ℚ)
  else none

/-- The totals a cost assertion is compared with. -/
def costTotalColumn (fieldName : String) : Option (CostSnapshotTotals → Option ℚ) :=
  if fieldName = "TOTAL_COST_ANNUAL" then some CostSnapshotTotals.totalAnnualUsd
  else if fieldName = "TOTAL_FIXED_COST" then some CostSnapshotTotals.totalFixedUsd
  else if fieldName = "TOTAL_VARIABLE_COST" then some CostSnapshotTotals.totalVariableUsd
  else none

/-- Which table of measurements a field name refers to, and its metric. -/
def measurementTarget (fieldName : String) : Option (MetricTable × String) :=
  let metric (start : String) : Option String :=
    if start.toList.isPrefixOf fieldName.toList then
      some (String.ofList (fieldName.toList.drop start.length))
    else none
  ((metric "performance.").map (.performanceMetrics, ·)).or
    ((metric "weight.").map (.weightMetrics, ·))

/-- The rows of the assertion's field, in the order of their ids; the statement
locks them until the transaction ends. -/
def lockAssertionField (db : Tables) (assertionId : ℕ) : List (SourceAssertion × ℕ) :=
  match db.assertions[assertionId]? with
  | none => []
  | some named => db.assertions.zipIdx.filter fun row =>
      row.1.entity = named.entity ∧ row.1.fieldName = named.fieldName

/-- What `decide_with` checks of the rows it has locked. -/
def checkDecision (assertions : List (SourceAssertion × ℕ)) (assertionId : ℕ)
    (decision : Decision) : Except CurationError SourceAssertion :=
  match assertions.find? fun row => row.2 = assertionId with
  | none => .error (.unknownAssertion assertionId)
  | some (row, _) =>
      if row.status = decision.status then .error (.alreadyDecided assertionId row.status)
      else
        let competitor := assertions.find? fun other => other.2 ≠ assertionId ∧ other.1.isAccepted
        match decision, competitor with
        | .accepted, some (_, acceptedId) => .error (.conflict row.fieldName acceptedId)
        | _, _ => .ok row

/-- The row as the update leaves it. -/
def SourceAssertion.decide (decision : Decision) (row : SourceAssertion) : SourceAssertion :=
  { row with status := decision.status, isAccepted := decision.isAccepted }

/-- The update of the assertion. -/
def updateAssertion (db : Tables) (assertionId : ℕ) (decision : Decision) : Tables :=
  { db with assertions := db.assertions.modify assertionId (SourceAssertion.decide decision) }

/-- The field has an accepted assertion. -/
def fieldAccepted (db : Tables) (entity : Entity) (fieldName : String) : Bool :=
  db.assertions.any fun accepted =>
    accepted.entity = entity ∧ accepted.fieldName = fieldName ∧ accepted.isAccepted

/-- At least one accepted assertion, and no field left without one. -/
def publishable (db : Tables) (entity : Entity) : Bool :=
  (db.assertions.any fun row => row.entity = entity ∧ row.isAccepted) &&
    !db.assertions.any fun undecided =>
      undecided.entity = entity ∧ fieldAccepted db entity undecided.fieldName = false

/-- `asserted IS NOT NULL AND asserted IS DISTINCT FROM stored`. -/
def disagreement (asserted stored : Option ℚ) : Option (ℚ × Option ℚ) :=
  asserted.bind fun value => if stored = some value then none else some (value, stored)

/-- The value an assertion states and the one its row stores, when they
differ. -/
def marketValueMismatch (db : Tables) (assertionId : ℕ) (entity : Entity) (fieldName : String) :
    Option (ℚ × Option ℚ) :=
  let asserted := (db.assertions[assertionId]?).bind SourceAssertion.assertedNumeric
  match entity.type with
  | .valuation => (valuationColumn fieldName).bind fun column =>
      (db.valuations[entity.id]?).bind fun valuation => disagreement asserted (column valuation)
  | .costSnapshot => match costTotalColumn fieldName with
      | some column => (db.costSnapshotTotals.lookup entity.id).bind fun totals =>
          disagreement asserted (column totals)
      | none => (db.costLineItems.lookup (entity.id, fieldName)).bind fun line =>
          disagreement asserted (line.amountAnnual.or line.amountPerHour)
  | _ => none

/-- Another canonical snapshot of the same variant. -/
def blockingSnapshot (db : Tables) (table : MarketTable) (id : ℕ) : Option ℕ :=
  ((db.snapshots table)[id]?).bind fun snapshot =>
    ((db.snapshots table).zipIdx.find? fun other =>
      other.1.variantId = snapshot.variantId ∧ other.1.isCanonical ∧ other.2 ≠ id).map Prod.snd

/-- `UPDATE ... SET is_canonical = $2 WHERE id = $1`. -/
def setCanonical (db : Tables) (table : MarketTable) (id : ℕ) (canonical : Bool) : Tables :=
  match table with
  | .valuations => { db with
      valuations := db.valuations.modify id fun row => { row with isCanonical := canonical } }
  | .costSnapshots => { db with
      costSnapshots := db.costSnapshots.modify id fun row => { row with isCanonical := canonical } }

/-- That update has a row: the flag is distinct from the new one. -/
def canonicalMoves (db : Tables) (table : MarketTable) (id : ℕ) (canonical : Bool) : Bool :=
  ((db.snapshots table)[id]?).any fun row => row.isCanonical ≠ canonical

/-- The measurements whose flag a decision moves. -/
def Measurement.moves (table : MetricTable) (assertionId variantId : ℕ) (metricCode : String)
    (canonical : Bool) (row : Measurement) : Bool :=
  row.table = table ∧ row.sourceAssertionId = some assertionId ∧ row.variantId = variantId ∧
    row.metricTypeCode = metricCode ∧ row.isCanonical ≠ canonical

/-- `uq_perf_canonical` and `uq_wm_canonical`. -/
def canonicalUnique (measurements : List Measurement) : Bool :=
  (measurements.filter Measurement.isCanonical).Pairwise fun a b =>
    ¬ (a.table = b.table ∧ a.variantId = b.variantId ∧ a.metricTypeCode = b.metricTypeCode)

/-- The index that allows one canonical row. -/
def MetricTable.canonicalIndex : MetricTable → String
  | performanceMetrics => "uq_perf_canonical"
  | weightMetrics => "uq_wm_canonical"

/-- The driver's error for a unique index. -/
def uniqueViolation (index : String) : PersistenceError :=
  .database "DATABASE_23505" ("error returned from database: duplicate key value violates unique " ++
    "constraint \"" ++ index ++ "\"")

/-- Publishes or withdraws the measurement linked to an assertion. -/
def publishMeasurement (db : Tables) (table : MetricTable) (assertionId variantId : ℕ)
    (metricCode : String) (decision : Decision) : Except CurationError (Bool × Bool × Tables) :=
  let moves := Measurement.moves table assertionId variantId metricCode decision.isAccepted
  let measurements := db.measurements.map fun row =>
    if moves row then { row with isCanonical := decision.isAccepted } else row
  let affected := db.measurements.any moves
  if canonicalUnique measurements then
    .ok (decision.isAccepted && affected, affected, { db with measurements := measurements })
  else .error (.persistence (uniqueViolation table.canonicalIndex))

/-- Publishes or withdraws a snapshot. -/
def publishSnapshot (db : Tables) (table : MarketTable) (assertionId : ℕ) (entity : Entity)
    (fieldName : String) (decision : Decision) : Except CurationError (Bool × Bool × Tables) :=
  let publish := publishable db entity
  let mismatch := match decision with
    | .accepted => marketValueMismatch db assertionId entity fieldName
    | .rejected => none
  match mismatch with
  | some (asserted, stored) => .error (.valueMismatch assertionId fieldName asserted stored)
  | none =>
      -- one canonical snapshot a variant: `uq_val_canonical`, `uq_cs_canonical`
      match if publish then blockingSnapshot db table entity.id else none with
      | some blockingId => .error (.snapshotConflict entity.type blockingId)
      | none =>
          let affected := canonicalMoves db table entity.id publish
          .ok (publish && affected, affected, setCanonical db table entity.id publish)

/-- Applies a decision to what the assertion backs: whether it was made
canonical, and whether the read model's inputs moved. -/
def publishDecision (db : Tables) (assertionId : ℕ) (entity : Entity) (fieldName : String)
    (decision : Decision) : Except CurationError (Bool × Bool × Tables) :=
  let metric := if entity.type = .aircraftVariant then measurementTarget fieldName else none
  match metric, marketTarget entity.type with
  | some (table, metricCode), _ =>
      publishMeasurement db table assertionId entity.id metricCode decision
  | none, some table => publishSnapshot db table assertionId entity fieldName decision
  | none, none => .ok (false, false, db)

/-- An open flag on a field of the entity. -/
def CurationFlag.concerns (entity : Entity) (fieldName : String) (flag : CurationFlag) : Bool :=
  flag.entity = entity ∧ flag.fieldName = some fieldName ∧ flag.status = .open

/-- Closes the open flags of the field. -/
def resolveFlags (db : Tables) (assertionId : ℕ) (entity : Entity) (fieldName : String)
    (decision : Decision) : Tables :=
  { db with flags := db.flags.map fun flag =>
      if flag.concerns entity fieldName then
        { flag with
          status := if decision.isAccepted then .resolved else .dismissed
          resolutionNotes := some ("assertion " ++ toString assertionId ++ " " ++
            String.ofList (Text.lower decision.status.code.toList)) }
      else flag }

/-- The read model is to be rebuilt for a decision. -/
def enqueueRefreshRequest (db : Tables) (assertionId : ℕ) (decision : Decision) : Tables :=
  { db with refreshRequests := db.refreshRequests ++
      [⟨"CURATION", "assertion " ++ toString assertionId ++ " " ++ decision.status.code⟩] }

/-- The transaction of `decide_with`: an error leaves the tables as they were. -/
def decideWith (db : Tables) (assertionId : ℕ) (decision : Decision) :
    Except CurationError (CurationOutcome × Tables) := do
  let row ← checkDecision (lockAssertionField db assertionId) assertionId decision
  let updated := updateAssertion db assertionId decision
  let (canonicalized, refreshed, published) ←
    publishDecision updated assertionId row.entity row.fieldName decision
  let flagsResolved := published.flags.countP (CurationFlag.concerns row.entity row.fieldName)
  let closed := resolveFlags published assertionId row.entity row.fieldName decision
  let settled := if refreshed then enqueueRefreshRequest closed assertionId decision else closed
  return (⟨assertionId, decision, canonicalized, flagsResolved, refreshed⟩, settled)

/-! ### What a decision does -/

section

variable {db db' : Tables} {assertionId : ℕ} {decision : Decision} {row : SourceAssertion}
variable {outcome : CurationOutcome}

theorem mem_lockAssertionField (hrow : db.assertions[assertionId]? = some row)
    {other : SourceAssertion} {id : ℕ} :
    (other, id) ∈ lockAssertionField db assertionId ↔
      db.assertions[id]? = some other ∧ other.entity = row.entity ∧
        other.fieldName = row.fieldName := by
  simp [lockAssertionField, hrow, List.mem_zipIdx_iff_getElem?]

/-- Of the locked rows the assertion's own is found. -/
theorem find?_lockAssertionField (hrow : db.assertions[assertionId]? = some row) :
    (lockAssertionField db assertionId).find? (fun other => other.2 = assertionId)
      = some (row, assertionId) := by
  rcases hfound : (lockAssertionField db assertionId).find? (fun other => other.2 = assertionId)
    with - | ⟨other, id⟩
  · exact absurd rfl (of_decide_eq_false (Bool.eq_false_iff.mpr (List.find?_eq_none.mp hfound
      (row, assertionId) ((mem_lockAssertionField hrow).mpr ⟨hrow, rfl, rfl⟩))))
  · obtain rfl : id = assertionId := by simpa using List.find?_some hfound
    obtain ⟨hother, -⟩ := (mem_lockAssertionField hrow).mp (List.mem_of_find?_eq_some hfound)
    rw [hfound, Option.some.inj (hother.symm.trans hrow)]

/-- A rejection passes the checks on any assertion not rejected yet. -/
theorem checkDecision_reject (hrow : db.assertions[assertionId]? = some row)
    (hstatus : row.status ≠ .rejected) :
    checkDecision (lockAssertionField db assertionId) assertionId .rejected = .ok row := by
  simp only [checkDecision, find?_lockAssertionField hrow]
  exact if_neg hstatus

/-- A decision goes through on an assertion that exists and does not carry it
yet, an acceptance on one whose field has no other accepted assertion. -/
theorem checkDecision_lock_ok
    (h : checkDecision (lockAssertionField db assertionId) assertionId decision = .ok row) :
    db.assertions[assertionId]? = some row ∧ row.status ≠ decision.status ∧
      (decision = .accepted → ∀ other id, db.assertions[id]? = some other → id ≠ assertionId →
        other.entity = row.entity → other.fieldName = row.fieldName → other.isAccepted = false) := by
  unfold checkDecision at h
  split at h
  · cases h
  · rename_i found id hfind
    obtain rfl : id = assertionId := by simpa using List.find?_some hfind
    have hmem := List.mem_of_find?_eq_some hfind
    unfold lockAssertionField at hmem
    split at hmem
    · cases hmem
    · rename_i named hnamed
      obtain ⟨hin, -⟩ := List.mem_filter.mp hmem
      have hfound : db.assertions[id]? = some found := List.mem_zipIdx_iff_getElem?.mp hin
      obtain rfl : named = found := Option.some.inj (hnamed.symm.trans hfound)
      split_ifs at h with hstatus
      dsimp only at h
      -- an acceptance went through, so no other row of the field is accepted
      have hcompetitor : decision = .accepted →
          (lockAssertionField db id).find? (fun other => other.2 ≠ id ∧ other.1.isAccepted) = none := by
        rintro rfl
        rcases hf : (lockAssertionField db id).find? _ with - | ⟨other, otherId⟩
        · rfl
        · simp only [hf] at h
          cases h
      have hrow : row = named := by
        split at h
        · cases h
        · exact (Except.ok.inj h).symm
      subst hrow
      refine ⟨hfound, hstatus, ?_⟩
      intro haccept other otherId hother hne hentity hfield
      -- a competitor would be among the rows locked
      have hnone := List.find?_eq_none.mp (hcompetitor haccept) (other, otherId) (by
        simp only [lockAssertionField, hnamed]
        exact List.mem_filter.mpr
          ⟨List.mem_zipIdx_iff_getElem?.mpr hother, by simp [hentity, hfield]⟩)
      simpa [hne] using hnone

/-- A decision that goes through has published, and changed nothing more than
flags and requests. -/
theorem decideWith_ok (h : decideWith db assertionId decision = .ok (outcome, db')) :
    ∃ row published, checkDecision (lockAssertionField db assertionId) assertionId decision
        = .ok row ∧
      publishDecision (updateAssertion db assertionId decision) assertionId row.entity
        row.fieldName decision
        = .ok (outcome.measurementCanonicalized, outcome.refreshed, published) ∧
      ∃ flags requests,
        db' = { published with flags := flags, refreshRequests := requests } := by
  unfold decideWith at h
  rcases hcheck : checkDecision (lockAssertionField db assertionId) assertionId decision
    with error | row
  · rw [hcheck] at h
    cases h
  · rw [hcheck] at h
    rcases hpublish : publishDecision (updateAssertion db assertionId decision) assertionId
      row.entity row.fieldName decision with error | ⟨canonicalized, refreshed, published⟩
    · simp only [bind, Except.bind, hpublish] at h
      cases h
    · simp only [bind, Except.bind, hpublish] at h
      obtain ⟨rfl, rfl⟩ := Prod.mk.inj (Except.ok.inj h)
      refine ⟨row, published, rfl, hpublish, ?_⟩
      cases refreshed
      · exact ⟨_, published.refreshRequests, rfl⟩
      · exact ⟨_, _, rfl⟩

/-- On a market entity: the assertion matches what its row stores, and the
snapshot is canonical exactly when it is fully accepted. -/
theorem publishSnapshot_ok {table : MarketTable} {entity : Entity} {fieldName : String}
    {canonicalized refreshed : Bool} {published : Tables}
    (h : publishSnapshot db table assertionId entity fieldName decision
      = .ok (canonicalized, refreshed, published)) :
    (decision = .accepted → marketValueMismatch db assertionId entity fieldName = none) ∧
      published = setCanonical db table entity.id (publishable db entity) := by
  unfold publishSnapshot at h
  dsimp only at h
  split at h
  · cases h
  · rename_i hmismatch
    split at h
    · cases h
    · refine ⟨?_, ?_⟩
      · rintro rfl
        exact hmismatch
      · exact (Prod.mk.inj (Prod.mk.inj (Except.ok.inj h)).2).2.symm

/-- On any other entity at most measurements change. -/
theorem publishMeasurement_ok {table : MetricTable} {variantId : ℕ} {metricCode : String}
    {canonicalized refreshed : Bool} {published : Tables}
    (h : publishMeasurement db table assertionId variantId metricCode decision
      = .ok (canonicalized, refreshed, published)) :
    ∃ measurements, published = { db with measurements := measurements } := by
  unfold publishMeasurement at h
  dsimp only at h
  split at h
  · exact ⟨_, (Prod.mk.inj (Prod.mk.inj (Except.ok.inj h)).2).2.symm⟩
  · cases h

theorem publishDecision_ok {entity : Entity} {fieldName : String}
    {canonicalized refreshed : Bool} {published : Tables}
    (h : publishDecision db assertionId entity fieldName decision
      = .ok (canonicalized, refreshed, published)) :
    (marketTarget entity.type = none ∧
      ∃ measurements, published = { db with measurements := measurements }) ∨
    ∃ table, marketTarget entity.type = some table ∧
      (decision = .accepted → marketValueMismatch db assertionId entity fieldName = none) ∧
      published = setCanonical db table entity.id (publishable db entity) := by
  unfold publishDecision at h
  dsimp only at h
  split at h
  · rename_i hmetric
    split_ifs at hmetric with hvariant
    refine .inl ⟨?_, publishMeasurement_ok h⟩
    rw [hvariant]
    rfl
  · rename_i table _ htable
    exact .inr ⟨table, htable, publishSnapshot_ok h⟩
  · rename_i _ htable
    exact .inl ⟨htable, db.measurements, (Prod.mk.inj (Prod.mk.inj (Except.ok.inj h)).2).2.symm⟩

end

/-! ### Snapshots -/

theorem snapshots_setCanonical (db : Tables) (table : MarketTable) (id : ℕ) (canonical : Bool) :
    (setCanonical db table id canonical).snapshots table
      = (db.snapshots table).modify id fun row => { row with isCanonical := canonical } := by
  apply List.ext_getElem?
  intro i
  cases table <;>
    simp [Tables.snapshots, setCanonical, List.getElem?_modify, Option.map_map] <;>
    split <;> rfl

theorem snapshots_setCanonical_of_ne {table other : MarketTable} (h : other ≠ table) (db : Tables)
    (id : ℕ) (canonical : Bool) :
    (setCanonical db table id canonical).snapshots other = db.snapshots other := by
  cases table <;> cases other <;> first | rfl | exact absurd rfl h

theorem marketTarget_entity (table : MarketTable) (id : ℕ) :
    marketTarget (table.entity id).type = some table := by
  cases table <;> rfl

theorem entity_of_marketTarget {entity : Entity} {table : MarketTable}
    (h : marketTarget entity.type = some table) : table.entity entity.id = entity := by
  rcases entity with ⟨type, id⟩
  cases type <;> cases h <;> rfl

theorem MarketTable.entity_inj {table other : MarketTable} {id i : ℕ}
    (h : table.entity id = other.entity i) : table = other ∧ id = i := by
  cases table <;> cases other <;> cases h <;> exact ⟨rfl, rfl⟩

/-! ### Stored values -/

theorem valuationColumn_price :
    valuationColumn "papi_price_estimate" = some Valuation.papiPriceEstimate := by
  rw [valuationColumn, if_pos rfl]

theorem valuationColumn_forSale :
    valuationColumn "for_sale_count" = some fun valuation =>
      valuation.forSaleCount.map fun count : ℤ => (count : ℚ) := by
  rw [valuationColumn, if_neg (by decide), if_pos rfl]

/-- The amount of a line item; the adapter fills one of the columns. -/
def CostLineItem.amount (line : CostLineItem) : Option ℚ := line.amountAnnual.or line.amountPerHour

/-- What a market row stores for a field. -/
def storedValue (db : Tables) (entity : Entity) (fieldName : String) : Option ℚ :=
  match entity.type with
  | .valuation => (valuationColumn fieldName).bind (db.valuations[entity.id]?).bind
  | .costSnapshot => match costTotalColumn fieldName with
      | some column => (db.costSnapshotTotals.lookup entity.id).bind column
      | none => (db.costLineItems.lookup (entity.id, fieldName)).bind CostLineItem.amount
  | _ => none

theorem storedValue_of_marketTarget_eq_none {entity : Entity} (h : marketTarget entity.type = none)
    (db : Tables) (fieldName : String) : storedValue db entity fieldName = none := by
  rcases entity with ⟨type, id⟩
  cases type with
  | valuation => cases h
  | costSnapshot => cases h
  | _ => rfl

theorem disagreement_eq_none {value : ℚ} {stored : Option ℚ}
    (h : disagreement (some value) stored = none) : stored = some value := by
  by_contra hne
  simp [disagreement, hne] at h

/-- A number that passes the check is the one stored, if one is. -/
theorem storedValue_of_marketValueMismatch {db : Tables} {assertionId : ℕ} {entity : Entity}
    {fieldName : String} {row : SourceAssertion} {value : ℚ}
    (h : marketValueMismatch db assertionId entity fieldName = none)
    (hrow : db.assertions[assertionId]? = some row) (hvalue : row.assertedNumeric = some value)
    {x : ℚ} (hx : storedValue db entity fieldName = some x) : x = value := by
  have hasserted : (db.assertions[assertionId]?).bind SourceAssertion.assertedNumeric
      = some value := by rw [hrow, Option.bind_some, hvalue]
  -- an asserted value that was compared and let through is the stored one
  have hcompared : ∀ stored, disagreement (some value) stored = none → stored = some x →
      x = value := by
    intro stored hnone hstored
    exact Option.some.inj (hstored.symm.trans (disagreement_eq_none hnone))
  rcases entity with ⟨type, id⟩
  cases type with
  | valuation =>
      obtain ⟨column, hcolumn, hx⟩ := Option.bind_eq_some_iff.mp hx
      obtain ⟨valuation, hvaluation, hx⟩ := Option.bind_eq_some_iff.mp hx
      simp only [marketValueMismatch, hasserted, hcolumn, hvaluation, Option.bind_some] at h
      exact hcompared _ h hx
  | costSnapshot =>
      simp only [marketValueMismatch, hasserted] at h
      simp only [storedValue] at hx
      -- the totals have columns, the lines an amount
      split at hx
      · rename_i column hcolumn
        obtain ⟨totals, htotals, hx⟩ := Option.bind_eq_some_iff.mp hx
        simp only [hcolumn, htotals, Option.bind_some] at h
        exact hcompared _ h hx
      · rename_i hcolumn
        obtain ⟨line, hline, hx⟩ := Option.bind_eq_some_iff.mp hx
        simp only [hcolumn, hline, Option.bind_some] at h
        exact hcompared _ h hx
  | _ => cases hx

/-- A decision stores nothing. -/
theorem storedValue_setCanonical (db : Tables) (table : MarketTable) (id : ℕ) (canonical : Bool) :
    storedValue (setCanonical db table id canonical) = storedValue db := by
  funext entity fieldName
  cases table
  · -- a flag is no column of a field
    unfold storedValue setCanonical
    split
    · unfold valuationColumn
      dsimp only
      rw [List.getElem?_modify]
      split_ifs <;> rcases db.valuations[entity.id]? with - | row <;> rfl
    · rfl
    · rfl
  · rfl

end Curation

end AircraftApi
