/-
AircraftApi/DecisionFrame.lean

What one call of `decide_with` changes.

A call sends its statements one after the other, and each of them may fail
(`Faults`).  Whatever fails, and whatever the decision is refused for, the
transaction is dropped with everything it wrote; the read model is rebuilt after
the commit, and a failure there is reported and not raised.

A canonical flag is that of a measurement or of a snapshot (`CanonicalRow`).  A
decision moves a set of them, all to one value (`Moves`): the flag of the
measurement linked to the assertion, or of the snapshot that is its entity.  That
one set is what the outcome and the request to refresh speak of.

    decision_frame    an error leaves every row, and an outcome its frame
-/
import AircraftApi.MeasurementGate
import AircraftApi.Statements

namespace AircraftApi

namespace Curation

open Statements (ok_of_bind)

/-! ### The call -/

/-- Whether the read model is rebuilt before the answer. -/
inductive RefreshPolicy
  | immediate | deferred
  deriving DecidableEq, Repr

/-- What the statements of a call fail with, if they do.  The update of the assertion
says whether it was `uq_assertion_accepted` that refused it; the answer to the query
after the rollback is another transaction's accepted assertion. -/
structure Faults where
  begin : Option PersistenceError
  lock : Option PersistenceError
  update : Option (PersistenceError × Bool)
  rollback : Option PersistenceError
  reread : Except PersistenceError ℕ
  publish : Option PersistenceError
  flags : Option PersistenceError
  enqueue : Option PersistenceError
  commit : Option PersistenceError
  refresh : Option PersistenceError

/-- A statement that may fail. -/
def statement : Option PersistenceError → Except CurationError Unit
  | none => .ok ()
  | some error => .error (.persistence error)

/-- The update of the assertion's row. -/
def updateStatement (faults : Faults) (decision : Decision) (fieldName : String) :
    Except CurationError Unit :=
  match faults.update with
  | none => .ok ()
  | some (error, acceptanceConflict) =>
      if decision.isAccepted && acceptanceConflict then do
        statement faults.rollback
        match faults.reread with
        | .ok acceptedId => .error (.conflict fieldName acceptedId)
        | .error error => .error (.persistence error)
      else .error (.persistence error)

/-- The statements up to the commit. -/
def transaction (faults : Faults) (db : Tables) (assertionId : ℕ) (decision : Decision) :
    Except CurationError (CurationOutcome × Tables) := do
  statement faults.begin
  statement faults.lock
  let row ← checkDecision (lockAssertionField db assertionId) assertionId decision
  updateStatement faults decision row.fieldName
  let updated := updateAssertion db assertionId decision
  statement faults.publish
  let (canonicalized, refreshed, published) ←
    publishDecision updated assertionId row.entity row.fieldName decision
  statement faults.flags
  let flagsResolved := published.flags.countP (CurationFlag.concerns row.entity row.fieldName)
  let closed := resolveFlags published assertionId row.entity row.fieldName decision
  if refreshed then statement faults.enqueue
  let settled := if refreshed then enqueueRefreshRequest closed assertionId decision else closed
  statement faults.commit
  return (⟨assertionId, decision, canonicalized, flagsResolved, refreshed⟩, settled)

/-- What the service answers of a decision. -/
structure DecisionReport extends CurationOutcome where
  readModelRefreshed : Bool
  readModelRefreshPending : Bool
  deriving DecidableEq, Repr

/-- What is reported of the rebuild after the commit. -/
def report (faults : Faults) (refresh : RefreshPolicy) (outcome : CurationOutcome) :
    DecisionReport :=
  let rebuilt := refresh = .immediate ∧ faults.refresh = none
  { outcome with
    readModelRefreshed := outcome.refreshed ∧ rebuilt
    readModelRefreshPending := outcome.refreshed ∧ ¬ rebuilt }

/-- The answer of the call, and the rows it leaves: a transaction that is not committed
is rolled back. -/
def decideCall (faults : Faults) (refresh : RefreshPolicy) (db : Tables) (assertionId : ℕ)
    (decision : Decision) : Except CurationError DecisionReport × Tables :=
  match transaction faults db assertionId decision with
  | .error error => (.error error, db)
  | .ok (outcome, settled) => (.ok (report faults refresh outcome), settled)

/-- Where nothing fails the transaction is the decision. -/
theorem transaction_of_none {faults : Faults} (hbegin : faults.begin = none)
    (hlock : faults.lock = none) (hupdate : faults.update = none) (hpublish : faults.publish = none)
    (hflags : faults.flags = none) (henqueue : faults.enqueue = none)
    (hcommit : faults.commit = none) (db : Tables) (assertionId : ℕ) (decision : Decision) :
    transaction faults db assertionId decision = decideWith db assertionId decision := by
  unfold transaction decideWith updateStatement
  rw [hbegin, hlock, hupdate, hpublish, hflags, henqueue, hcommit]
  simp only [statement, bind, Except.bind, ite_self]

/-- What a call commits is what the decision does. -/
theorem decideWith_of_transaction {faults : Faults} {db : Tables} {assertionId : ℕ}
    {decision : Decision} {result : CurationOutcome × Tables}
    (h : transaction faults db assertionId decision = .ok result) :
    decideWith db assertionId decision = .ok result := by
  unfold transaction at h
  obtain ⟨-, -, h⟩ := ok_of_bind h
  obtain ⟨-, -, h⟩ := ok_of_bind h
  obtain ⟨row, hrow, h⟩ := ok_of_bind h
  obtain ⟨-, -, h⟩ := ok_of_bind h
  obtain ⟨-, -, h⟩ := ok_of_bind h
  obtain ⟨⟨canonicalized, refreshed, published⟩, hpublish, h⟩ := ok_of_bind h
  obtain ⟨-, -, h⟩ := ok_of_bind h
  have hsettled : ∀ {next : Unit → Except CurationError (CurationOutcome × Tables)},
      (if refreshed = true then statement faults.enqueue >>= next else next ()) = .ok result →
      next () = .ok result := by
    intro next hnext
    split_ifs at hnext
    · obtain ⟨⟨⟩, -, hrest⟩ := ok_of_bind hnext
      exact hrest
    · exact hnext
  obtain ⟨⟨⟩, -, h⟩ := ok_of_bind (hsettled h)
  unfold decideWith
  rw [hrow]
  show (publishDecision _ _ _ _ _ >>= _) = _
  rw [hpublish]
  exact h

/-! ### Canonical flags -/

/-- A row that carries a canonical flag. -/
inductive CanonicalRow
  | measurement (index : ℕ)
  | snapshot (table : MarketTable) (id : ℕ)
  deriving DecidableEq, Repr

/-- Its flag, if there is such a row. -/
def Tables.canonical (db : Tables) : CanonicalRow → Option Bool
  | .measurement index => (db.measurements[index]?).map Measurement.isCanonical
  | .snapshot table id => ((db.snapshots table)[id]?).map Snapshot.isCanonical

/-- The tables with every canonical flag taken down: what else there is. -/
def Tables.unpublished (db : Tables) : Tables :=
  { db with
    measurements := db.measurements.map fun row => { row with isCanonical := false }
    valuations := db.valuations.map fun row => { row with isCanonical := false }
    costSnapshots := db.costSnapshots.map fun row => { row with isCanonical := false } }

/-- What an assertion may publish: the measurement linked to it, or the snapshot that is
its entity. -/
def Backs (db : Tables) (assertionId : ℕ) (entity : Entity) : CanonicalRow → Prop
  | .measurement index =>
      ∃ m, db.measurements[index]? = some m ∧ m.sourceAssertionId = some assertionId
  | .snapshot table id => table.entity id = entity

/-- `uq_pm_source_assertion` and `uq_wm_source_assertion`: an assertion is linked from at
most one row of a table. -/
def Linked (db : Tables) : Prop :=
  ∀ (i j : ℕ) (m n : Measurement), db.measurements[i]? = some m → db.measurements[j]? = some n →
    m.table = n.table → m.sourceAssertionId ≠ none → m.sourceAssertionId = n.sourceAssertionId →
    i = j

/-- The flags of a set of rows move to one value, and nothing else changes. -/
structure Moves (db db' : Tables) (moved : CanonicalRow → Prop) (value : Bool) : Prop where
  before : ∀ r, moved r → db.canonical r = some !value
  after : ∀ r, moved r → db'.canonical r = some value
  others : ∀ r, ¬ moved r → db'.canonical r = db.canonical r
  rest : db'.unpublished = db.unpublished

section

variable {db db' : Tables} {moved : CanonicalRow → Prop} {value : Bool}

theorem Moves.changed_iff (h : Moves db db' moved value) (r : CanonicalRow) :
    db'.canonical r ≠ db.canonical r ↔ moved r := by
  constructor
  · intro hne
    by_contra hmoved
    exact hne (h.others r hmoved)
  · intro hmoved heq
    rw [h.before r hmoved, h.after r hmoved] at heq
    exact absurd (Option.some.inj heq).symm (Bool.not_ne_self value)

theorem Moves.raised_iff (h : Moves db db' moved value) :
    (∃ r, db.canonical r = some false ∧ db'.canonical r = some true) ↔
      value = true ∧ ∃ r, moved r := by
  constructor
  · rintro ⟨r, hbefore, hafter⟩
    have hmoved : moved r := by
      rw [← h.changed_iff, hbefore, hafter]
      decide
    rw [h.after r hmoved] at hafter
    exact ⟨Option.some.inj hafter, r, hmoved⟩
  · rintro ⟨rfl, r, hmoved⟩
    exact ⟨r, h.before r hmoved, h.after r hmoved⟩

theorem Moves.nothing (db : Tables) (value : Bool) : Moves db db (fun _ => False) value where
  before := fun _ h => h.elim
  after := fun _ h => h.elim
  others := fun _ _ => rfl
  rest := rfl

end

/-! ### What is published -/

/-- What the publication of an assertion moves, and what it says of that. -/
structure Publishes (db db' : Tables) (assertionId : ℕ) (entity : Entity)
    (canonicalized refreshed : Bool) (moved : CanonicalRow → Prop) (value : Bool) : Prop
    extends Moves db db' moved value where
  backs : ∀ r, moved r → Backs db assertionId entity r
  one : Linked db → ∀ r s, moved r → moved s → r = s
  refreshed_iff : refreshed = true ↔ ∃ r, moved r
  canonicalized_eq : canonicalized = (value && refreshed)

section

variable {db published : Tables} {assertionId : ℕ} {decision : Decision} {entity : Entity}
variable {fieldName : String} {canonicalized refreshed : Bool}

theorem moves_iff {table : MetricTable} {variantId : ℕ} {metricCode : String} {canonical : Bool}
    {m : Measurement} :
    m.moves table assertionId variantId metricCode canonical = true ↔
      m.table = table ∧ m.sourceAssertionId = some assertionId ∧ m.variantId = variantId ∧
        m.metricTypeCode = metricCode ∧ m.isCanonical = !canonical := by
  rw [Measurement.moves, decide_eq_true_eq, Bool.eq_not]

theorem publishMeasurement_publishes {table : MetricTable} {variantId : ℕ} {metricCode : String}
    (h : publishMeasurement db table assertionId variantId metricCode decision
      = .ok (canonicalized, refreshed, published)) :
    ∃ moved, Publishes db published assertionId entity canonicalized refreshed moved
      decision.isAccepted := by
  unfold publishMeasurement at h
  dsimp only at h
  split at h
  · obtain ⟨rfl, hrest⟩ := Prod.mk.inj (Except.ok.inj h)
    obtain ⟨rfl, rfl⟩ := Prod.mk.inj hrest
    -- what moves: the measurements the update has, each to the value decided
    refine ⟨fun r => ∃ i m, r = .measurement i ∧ db.measurements[i]? = some m ∧
      m.moves table assertionId variantId metricCode decision.isAccepted = true,
      ⟨?_, ?_, ?_, ?_⟩, ?_, ?_, ?_, rfl⟩
    · rintro r ⟨i, m, rfl, hm, hmoves⟩
      show (db.measurements[i]?).map Measurement.isCanonical = _
      rw [hm, Option.map_some, (moves_iff.mp hmoves).2.2.2.2]
    · rintro r ⟨i, m, rfl, hm, hmoves⟩
      show ((db.measurements.map _)[i]?).map Measurement.isCanonical = _
      rw [List.getElem?_map, hm, Option.map_some, Option.map_some, if_pos hmoves]
    · intro r hr
      cases r with
      | snapshot table id => rfl
      | measurement i =>
          show ((db.measurements.map _)[i]?).map Measurement.isCanonical
            = (db.measurements[i]?).map Measurement.isCanonical
          rw [List.getElem?_map]
          rcases hm : db.measurements[i]? with - | m
          · rfl
          · rw [Option.map_some, if_neg fun hmoves => hr ⟨i, m, rfl, hm, hmoves⟩]
    · unfold Tables.unpublished
      dsimp only
      rw [List.map_map]
      -- beyond the flag the update changes nothing
      have hsame : ∀ m : Measurement, { (if m.moves table assertionId variantId metricCode
          decision.isAccepted = true then { m with isCanonical := decision.isAccepted } else m) with
          isCanonical := false } = { m with isCanonical := false } := by
        intro m
        split_ifs <;> rfl
      exact congrArg (fun measurements => { db.unpublished with measurements := measurements })
        (List.map_congr_left fun m _ => hsame m)
    · rintro r ⟨i, m, rfl, hm, hmoves⟩
      exact ⟨m, hm, (moves_iff.mp hmoves).2.1⟩
    · rintro hlinked r s ⟨i, m, rfl, hm, hmoves⟩ ⟨j, n, rfl, hn, hnmoves⟩
      -- one assertion has one measurement in a table
      obtain ⟨htable, hsource, -⟩ := moves_iff.mp hmoves
      obtain ⟨hntable, hnsource, -⟩ := moves_iff.mp hnmoves
      rw [hlinked i j m n hm hn (htable.trans hntable.symm) (by rw [hsource]; exact Option.some_ne_none _)
        (hsource.trans hnsource.symm)]
    · rw [List.any_eq_true]
      constructor
      · rintro ⟨m, hm, hmoves⟩
        obtain ⟨i, hi⟩ := List.mem_iff_getElem?.mp hm
        exact ⟨_, i, m, rfl, hi, hmoves⟩
      · rintro ⟨-, i, m, -, hm, hmoves⟩
        exact ⟨m, List.mem_of_getElem? hm, hmoves⟩
  · cases h

theorem unpublished_setCanonical (db : Tables) (table : MarketTable) (id : ℕ) (canonical : Bool) :
    (setCanonical db table id canonical).unpublished = db.unpublished := by
  have hmodify : ∀ {α : Type} {f g : α → α} (l : List α), (∀ a, g (f a) = g a) →
      (l.modify id f).map g = l.map g := by
    intro α f g l hsame
    apply List.ext_getElem?
    intro i
    rw [List.getElem?_map, List.getElem?_map]
    by_cases hid : id = i
    · rw [hid, List.getElem?_modify_eq]
      rcases l[i]? with - | a
      · rfl
      · exact congrArg some (hsame a)
    · rw [List.getElem?_modify_ne _ _ hid]
  cases table with
  | valuations =>
      have hflags : (db.valuations.modify id fun row => { row with isCanonical := canonical }).map
          (fun row => { row with isCanonical := false })
          = db.valuations.map fun row => { row with isCanonical := false } :=
        hmodify _ fun _ => rfl
      exact congrArg (fun valuations => { db.unpublished with valuations := valuations }) hflags
  | costSnapshots =>
      have hflags : (db.costSnapshots.modify id fun row => { row with isCanonical := canonical }).map
          (fun row => { row with isCanonical := false })
          = db.costSnapshots.map fun row => { row with isCanonical := false } :=
        hmodify _ fun _ => rfl
      exact congrArg (fun costSnapshots => { db.unpublished with costSnapshots := costSnapshots })
        hflags

theorem publishSnapshot_publishes {table : MarketTable} (hentity : table.entity entity.id = entity)
    (h : publishSnapshot db table assertionId entity fieldName decision
      = .ok (canonicalized, refreshed, published)) :
    ∃ moved, Publishes db published assertionId entity canonicalized refreshed moved
      (publishable db entity) := by
  unfold publishSnapshot at h
  dsimp only at h
  split at h
  · cases h
  · split at h
    · cases h
    · obtain ⟨rfl, hrest⟩ := Prod.mk.inj (Except.ok.inj h)
      obtain ⟨rfl, rfl⟩ := Prod.mk.inj hrest
      -- only the flag of this snapshot is written
      have hcanonical : ∀ r, (setCanonical db table entity.id (publishable db entity)).canonical r
          = if r = .snapshot table entity.id then
              (db.canonical r).map fun _ => publishable db entity
            else db.canonical r := by
        intro r
        cases r with
        | measurement i => cases table <;> rfl
        | snapshot other id =>
            show ((Tables.snapshots (setCanonical _ _ _ _) other)[id]?).map _ = _
            by_cases hother : other = table
            · subst hother
              rw [snapshots_setCanonical]
              by_cases hid : entity.id = id
              · rw [← hid, if_pos rfl, List.getElem?_modify_eq]
                show Option.map _ (Option.map _ _) = Option.map _ (Option.map _ _)
                rw [Option.map_map, Option.map_map]
                rfl
              · rw [if_neg (by simpa using Ne.symm hid), List.getElem?_modify_ne _ _ hid]
                rfl
            · rw [snapshots_setCanonical_of_ne hother, if_neg (by simp [hother])]
              rfl
      -- the update has a row when the flag is not yet as it should be
      have hmoves : canonicalMoves db table entity.id (publishable db entity) = true ↔
          db.canonical (.snapshot table entity.id) = some !(publishable db entity) := by
        show ((db.snapshots table)[entity.id]?).any _ = true ↔
          ((db.snapshots table)[entity.id]?).map Snapshot.isCanonical = _
        rcases (db.snapshots table)[entity.id]? with - | row
        · simp
        · simp [Bool.eq_not]
      refine ⟨fun r => r = .snapshot table entity.id ∧
        canonicalMoves db table entity.id (publishable db entity) = true,
        ⟨?_, ?_, ?_, unpublished_setCanonical _ _ _ _⟩, ?_, ?_, ?_, rfl⟩
      · rintro r ⟨rfl, hmoved⟩
        exact hmoves.mp hmoved
      · rintro r ⟨rfl, hmoved⟩
        rw [hcanonical, if_pos rfl, hmoves.mp hmoved]
        rfl
      · intro r hr
        rw [hcanonical]
        split_ifs with hself
        · subst hself
          -- written, but with the value it had
          have hnot : db.canonical (.snapshot table entity.id) ≠ some !(publishable db entity) :=
            fun heq => hr ⟨rfl, hmoves.mpr heq⟩
          rcases hflag : db.canonical (.snapshot table entity.id) with - | flag
          · rfl
          · rw [hflag, Ne, Option.some.injEq, Bool.eq_not, not_not] at hnot
            rw [Option.map_some, hnot]
        · rfl
      · rintro r ⟨rfl, -⟩
        exact hentity
      · rintro - r s ⟨rfl, -⟩ ⟨rfl, -⟩
        rfl
      · exact ⟨fun hmoved => ⟨_, rfl, hmoved⟩, fun ⟨_, _, hmoved⟩ => hmoved⟩

theorem publishDecision_publishes
    (h : publishDecision db assertionId entity fieldName decision
      = .ok (canonicalized, refreshed, published)) :
    ∃ moved value, Publishes db published assertionId entity canonicalized refreshed moved value := by
  unfold publishDecision at h
  dsimp only at h
  split at h
  · obtain ⟨moved, hmoved⟩ := publishMeasurement_publishes h
    exact ⟨moved, _, hmoved⟩
  · rename_i table _ htable
    obtain ⟨moved, hmoved⟩ := publishSnapshot_publishes (entity_of_marketTarget htable) h
    exact ⟨moved, _, hmoved⟩
  · obtain ⟨rfl, hrest⟩ := Prod.mk.inj (Except.ok.inj h)
    obtain ⟨rfl, rfl⟩ := Prod.mk.inj hrest
    refine ⟨fun _ => False, false, Moves.nothing db false, fun _ hr => hr.elim,
      fun _ _ _ hr => hr.elim, ?_, rfl⟩
    simp

end

/-! ### The frame -/

/-- The flag as a decision closes it. -/
def CurationFlag.closed (assertionId : ℕ) (decision : Decision) (flag : CurationFlag) :
    CurationFlag :=
  { flag with
    status := if decision.isAccepted then .resolved else .dismissed
    resolutionNotes := some ("assertion " ++ toString assertionId ++ " " ++
      String.ofList (Text.lower decision.status.code.toList)) }

/-- The request a decision leaves. -/
def refreshRequest (assertionId : ℕ) (decision : Decision) : RefreshRequest :=
  ⟨"CURATION", "assertion " ++ toString assertionId ++ " " ++ decision.status.code⟩

/-- Some canonical flag is another one. -/
def FlagMoved (db db' : Tables) : Prop := ∃ r, db'.canonical r ≠ db.canonical r

/-- What a decision on the assertion `row` may change, and how it says so. -/
structure Frame (db db' : Tables) (assertionId : ℕ) (decision : Decision) (row : SourceAssertion)
    (outcome : CurationOutcome) : Prop where
  named : db.assertions[assertionId]? = some row
  decided : db'.assertions[assertionId]? = some (row.decide decision)
  assertions : ∀ i, i ≠ assertionId → db'.assertions[i]? = db.assertions[i]?
  canonical : ∀ r, db'.canonical r ≠ db.canonical r → Backs db assertionId row.entity r
  one : ∀ r s, db'.canonical r ≠ db.canonical r → db'.canonical s ≠ db.canonical s → r = s
  flags : db'.flags = db.flags.map fun flag =>
    if flag.concerns row.entity row.fieldName then flag.closed assertionId decision else flag
  requested : FlagMoved db db' →
    db'.refreshRequests = db.refreshRequests ++ [refreshRequest assertionId decision]
  notRequested : ¬ FlagMoved db db' → db'.refreshRequests = db.refreshRequests
  canonicalized : outcome.measurementCanonicalized = true ↔
    ∃ r, db.canonical r = some false ∧ db'.canonical r = some true
  /-- Of the rows nothing else changes. -/
  rest : db'.unpublished = { db.unpublished with
    assertions := db'.assertions, flags := db'.flags, refreshRequests := db'.refreshRequests }

section

variable {db db' : Tables} {assertionId : ℕ} {decision : Decision} {outcome : CurationOutcome}

/-- A decision publishes, closes the flags of its field, and asks for a refresh where it
moved a canonical flag. -/
theorem decideWith_publishes (h : decideWith db assertionId decision = .ok (outcome, db')) :
    ∃ row published moved value,
      checkDecision (lockAssertionField db assertionId) assertionId decision = .ok row ∧
      Publishes (updateAssertion db assertionId decision) published assertionId row.entity
        outcome.measurementCanonicalized outcome.refreshed moved value ∧
      db' = if outcome.refreshed then
          enqueueRefreshRequest (resolveFlags published assertionId row.entity row.fieldName decision)
            assertionId decision
        else resolveFlags published assertionId row.entity row.fieldName decision := by
  unfold decideWith at h
  obtain ⟨row, hrow, h⟩ := ok_of_bind h
  obtain ⟨⟨canonicalized, refreshed, published⟩, hpublish, h⟩ := ok_of_bind h
  obtain ⟨rfl, rfl⟩ := Prod.mk.inj (Except.ok.inj h)
  obtain ⟨moved, value, hmoved⟩ := publishDecision_publishes hpublish
  exact ⟨row, published, moved, value, hrow, hmoved, rfl⟩

/-- What is left of a publication once its flags are closed and its request made. -/
theorem settled_spec {published : Tables} {entity : Entity} {fieldName : String} {refreshed : Bool}
    (h : db' = if refreshed then
        enqueueRefreshRequest (resolveFlags published assertionId entity fieldName decision)
          assertionId decision
      else resolveFlags published assertionId entity fieldName decision) :
    db'.canonical = published.canonical ∧ db'.assertions = published.assertions ∧
      db'.flags = (published.flags.map fun flag =>
        if flag.concerns entity fieldName then flag.closed assertionId decision else flag) ∧
      db'.refreshRequests = published.refreshRequests ++
        (if refreshed then [refreshRequest assertionId decision] else []) ∧
      db'.unpublished = { published.unpublished with
        flags := db'.flags, refreshRequests := db'.refreshRequests } := by
  -- the canonical flags are in the measurements and the snapshots
  have hcanonical : ∀ {s t : Tables}, s.measurements = t.measurements → s.snapshots = t.snapshots →
      s.canonical = t.canonical := by
    intro s t hmeasurements hsnapshots
    funext r
    cases r with
    | measurement i =>
        show (s.measurements[i]?).map _ = (t.measurements[i]?).map _
        rw [hmeasurements]
    | snapshot table id =>
        show ((s.snapshots table)[id]?).map _ = ((t.snapshots table)[id]?).map _
        rw [hsnapshots]
  subst h
  cases refreshed with
  | false =>
      refine ⟨hcanonical rfl ?_, rfl, rfl, (List.append_nil _).symm, rfl⟩
      funext table
      cases table <;> rfl
  | true =>
      refine ⟨hcanonical rfl ?_, rfl, rfl, rfl, rfl⟩
      funext table
      cases table <;> rfl

theorem Moves.kept {moved : CanonicalRow → Prop} {value : Bool} (h : Moves db db' moved value) :
    db'.assertions = db.assertions ∧ db'.flags = db.flags ∧
      db'.refreshRequests = db.refreshRequests := by
  have hkept : ∀ {α : Type} (column : Tables → α),
      column db'.unpublished = column db.unpublished :=
    fun column => congrArg column h.rest
  exact ⟨hkept Tables.assertions, hkept Tables.flags, hkept Tables.refreshRequests⟩

/-- The rows a decision leaves of the assertions and of the flags. -/
theorem decideWith_rows (h : decideWith db assertionId decision = .ok (outcome, db')) :
    ∃ row, db.assertions[assertionId]? = some row ∧
      db'.assertions = db.assertions.modify assertionId (SourceAssertion.decide decision) ∧
      db'.flags = db.flags.map fun flag =>
        if flag.concerns row.entity row.fieldName then flag.closed assertionId decision
        else flag := by
  obtain ⟨row, published, moved, value, hrow, hmoved, hdb'⟩ := decideWith_publishes h
  obtain ⟨-, hassertions, hflags, -, -⟩ := settled_spec hdb'
  obtain ⟨hkeptAssertions, hkeptFlags, -⟩ := hmoved.kept
  exact ⟨row, (checkDecision_lock_ok hrow).1, hassertions.trans hkeptAssertions,
    by rw [hflags, hkeptFlags]; rfl⟩

theorem decideWith_frame (hlinked : Linked db)
    (h : decideWith db assertionId decision = .ok (outcome, db')) :
    ∃ row, Frame db db' assertionId decision row outcome := by
  obtain ⟨row, hnamed, hassertions, hflags⟩ := decideWith_rows h
  obtain ⟨decided, published, moved, value, hrow, hmoved, hdb'⟩ := decideWith_publishes h
  obtain rfl := Option.some.inj ((checkDecision_lock_ok hrow).1.symm.trans hnamed)
  obtain ⟨hcanonical, hpublished, -, hrequests, hrest⟩ := settled_spec hdb'
  obtain ⟨hkeptAssertions, -, hkeptRequests⟩ := hmoved.kept
  -- the update of the assertion moves no flag
  have hbefore : (updateAssertion db assertionId decision).canonical = db.canonical := by
    funext r
    rcases r with i | ⟨table, id⟩
    · rfl
    · cases table <;> rfl
  have hchanged : ∀ r, db'.canonical r ≠ db.canonical r ↔ moved r := by
    intro r
    rw [hcanonical, ← hbefore]
    exact hmoved.changed_iff r
  -- the read model is to be rebuilt exactly when a flag moved
  have hsome : FlagMoved db db' ↔ outcome.refreshed = true := by
    rw [hmoved.refreshed_iff]
    exact exists_congr hchanged
  refine ⟨decided, hnamed, ?_, ?_, ?_, ?_, hflags, ?_, ?_, ?_, ?_⟩
  · rw [hassertions, List.getElem?_modify_eq, hnamed]
    rfl
  · intro i hi
    rw [hassertions, List.getElem?_modify_ne _ _ (Ne.symm hi)]
  · intro r hr
    have hbacks := hmoved.backs r ((hchanged r).mp hr)
    cases r with
    | measurement i => exact hbacks
    | snapshot table id => exact hbacks
  · intro r s hr hs
    exact hmoved.one hlinked r s ((hchanged r).mp hr) ((hchanged s).mp hs)
  · intro hmoves
    rw [hrequests, hkeptRequests, if_pos (hsome.mp hmoves)]
    rfl
  · intro hmoves
    rw [hrequests, hkeptRequests, if_neg fun hrefreshed => hmoves (hsome.mpr hrefreshed),
      List.append_nil]
    rfl
  · rw [hmoved.canonicalized_eq, Bool.and_eq_true, hmoved.refreshed_iff, hcanonical, ← hbefore]
    exact hmoved.raised_iff.symm
  · rw [hrest, hmoved.rest, hpublished, hkeptAssertions]
    rfl

/-- Of the links of a state that runs lead to no two are the same. -/
theorem linked_of_reachable (h : catalogue.Reachable db) : Linked db := by
  intro i j m n hm hn _ hsource heq
  obtain ⟨k, hk⟩ := Option.ne_none_iff_exists'.mp hsource
  have hlinked := List.pairwise_iff_getElem.mp
    (List.pairwise_filterMap.mp (gate_of_reachable h).linked)
  obtain ⟨hi, rfl⟩ := List.getElem?_eq_some_iff.mp hm
  obtain ⟨hj, rfl⟩ := List.getElem?_eq_some_iff.mp hn
  rcases Nat.lt_trichotomy i j with hlt | rfl | hlt
  · exact absurd rfl (hlinked i j hi hj hlt k hk k (heq.symm.trans hk))
  · rfl
  · exact absurd rfl (hlinked j i hj hi hlt k (heq.symm.trans hk) k hk)

theorem reachable_decideWith (hreachable : catalogue.Reachable db)
    (h : decideWith db assertionId decision = .ok (outcome, db')) : catalogue.Reachable db' := by
  refine hreachable.step (a := .decide assertionId decision) ?_
  show gateStep db (.decide assertionId decision) = some db'
  rw [gateStep, h]
  rfl

/-- A decision about a variant leaves the snapshots alone. -/
theorem snapshot_kept (hreachable : catalogue.Reachable db) {row : SourceAssertion}
    (hrow : db.assertions[assertionId]? = some row) (hvariant : row.entity.type = .aircraftVariant)
    (h : decideWith db assertionId decision = .ok (outcome, db')) (table : MarketTable) (id : ℕ) :
    db'.canonical (.snapshot table id) = db.canonical (.snapshot table id) := by
  obtain ⟨decided, hframe⟩ := decideWith_frame (linked_of_reachable hreachable) h
  obtain rfl := Option.some.inj (hframe.named.symm.trans hrow)
  by_contra hne
  have hentity : table.entity id = decided.entity := hframe.canonical _ hne
  rw [← hentity] at hvariant
  cases table <;> cases hvariant

/-- An acceptance and its withdrawal leave the canonical flags as they were, where the
assertion is about a variant: those of its measurements are. -/
theorem canonical_restored {db₁ db₂ : Tables} {accepted rejected : CurationOutcome}
    (hreachable : catalogue.Reachable db) {row : SourceAssertion}
    (hrow : db.assertions[assertionId]? = some row) (hvariant : row.entity.type = .aircraftVariant)
    (haccept : decideWith db assertionId .accepted = .ok (accepted, db₁))
    (hreject : decideWith db₁ assertionId .rejected = .ok (rejected, db₂)) (r : CanonicalRow) :
    db₂.canonical r = db.canonical r := by
  have hreachable₁ := reachable_decideWith hreachable haccept
  obtain ⟨row₁, hframe⟩ := decideWith_frame (linked_of_reachable hreachable) haccept
  obtain ⟨row₂, hframe₂⟩ := decideWith_frame (linked_of_reachable hreachable₁) hreject
  obtain rfl := Option.some.inj (hframe.named.symm.trans hrow)
  cases r with
  | snapshot table id =>
      rw [snapshot_kept hreachable₁ hframe.decided hvariant hreject,
        snapshot_kept hreachable hrow hvariant haccept]
  | measurement i =>
      obtain ⟨_, hcheck, -, f, hf, hmoves, -⟩ := decideWith_measurements haccept
      obtain ⟨_, -, -, g, hg, hmoves₂, -⟩ := decideWith_measurements hreject
      show (db₂.measurements[i]?).map _ = (db.measurements[i]?).map _
      rw [hg, hf, List.getElem?_map, List.getElem?_map]
      rcases hm : db.measurements[i]? with - | m
      · rfl
      · rw [Option.map_some, Option.map_some, Option.map_some, Option.map_some]
        by_cases hsource : m.sourceAssertionId = some assertionId
        · -- linked: not canonical before the acceptance, nor after the withdrawal
          have hgate := gate_of_reachable hreachable
          have hgate₂ := gate_of_reachable (reachable_decideWith hreachable₁ hreject)
          obtain ⟨a, ha, -, hbefore⟩ := hgate.measured m (List.mem_of_getElem? hm) _ hsource
          obtain rfl := Option.some.inj (hrow.symm.trans ha)
          have hstatus : row₁.isAccepted = false := by
            obtain ⟨hchecked, hnot, -⟩ := checkDecision_lock_ok hcheck
            obtain rfl := Option.some.inj (hchecked.symm.trans hrow)
            rw [Bool.eq_false_iff, Ne, hgate.status _ (List.mem_of_getElem? hrow)]
            exact hnot
          have hlink : (g (f m)).sourceAssertionId = some assertionId := by
            rcases hmoves m with hsame | ⟨-, hset⟩ <;> rcases hmoves₂ (f m) with hsame₂ | ⟨-, hset₂⟩
            · rw [hsame₂, hsame, hsource]
            · rw [hset₂, hsame, hsource]
            · rw [hsame₂, hset, hsource]
            · rw [hset₂, hset, hsource]
          have hmem : g (f m) ∈ db₂.measurements := by
            rw [hg, hf]
            exact List.mem_map_of_mem (List.mem_map_of_mem (List.mem_of_getElem? hm))
          obtain ⟨b, hb, -, hafter⟩ := hgate₂.measured _ hmem _ hlink
          obtain rfl := Option.some.inj (hframe₂.decided.symm.trans hb)
          rw [hafter, hbefore, hstatus]
          rfl
        · have hf' : f m = m := (hmoves m).resolve_right fun h => hsource h.1
          have hg' : g m = m := (hmoves₂ m).resolve_right fun h => hsource h.1
          rw [hf', hg']

/-- **Decision frame**: a call that fails leaves every row; one that goes through decides
the assertion it names, closes the flags of its field, moves the canonical flag of at most
the one row the assertion backs, and asks for a refresh and says `canonicalized` exactly
where it did; and an acceptance withdrawn leaves a variant's flags as they were. -/
theorem decision_frame (faults : Faults) (refresh : RefreshPolicy) (assertionId : ℕ)
    (decision : Decision) (hlinked : Linked db) :
    (∀ error, (decideCall faults refresh db assertionId decision).1 = .error error →
      (decideCall faults refresh db assertionId decision).2 = db) ∧
    (∀ answer, (decideCall faults refresh db assertionId decision).1 = .ok answer →
      ∃ row, Frame db (decideCall faults refresh db assertionId decision).2 assertionId decision row
        answer.toCurationOutcome) ∧
    (catalogue.Reachable db → ∀ row, db.assertions[assertionId]? = some row →
      row.entity.type = .aircraftVariant →
      ∀ (faults' : Faults) (refresh' : RefreshPolicy) (accepted rejected : DecisionReport)
        (db₁ db₂ : Tables),
        decideCall faults refresh db assertionId .accepted = (.ok accepted, db₁) →
        decideCall faults' refresh' db₁ assertionId .rejected = (.ok rejected, db₂) →
        ∀ r, db₂.canonical r = db.canonical r) := by
  -- an answer means that the transaction went through
  have hcommitted : ∀ {faults : Faults} {refresh : RefreshPolicy} {db : Tables}
      {decision : Decision} {answer : DecisionReport},
      (decideCall faults refresh db assertionId decision).1 = .ok answer →
      decideWith db assertionId decision = .ok (answer.toCurationOutcome,
        (decideCall faults refresh db assertionId decision).2) := by
    intro faults refresh db decision answer hanswer
    unfold decideCall at hanswer ⊢
    rcases htransaction : transaction faults db assertionId decision with error | ⟨outcome, settled⟩
    · rw [htransaction] at hanswer
      cases hanswer
    · rw [htransaction] at hanswer
      rw [← Except.ok.inj hanswer]
      exact decideWith_of_transaction htransaction
  refine ⟨?_, fun answer hanswer => decideWith_frame hlinked (hcommitted hanswer), ?_⟩
  · intro error herror
    unfold decideCall at herror ⊢
    -- whatever failed, the tables are those before
    rcases htransaction : transaction faults db assertionId decision with failed | ⟨outcome, settled⟩
    · rfl
    · rw [htransaction] at herror
      cases herror
  · intro hreachable row hrow hvariant faults' refresh' accepted rejected db₁ db₂ haccept hreject
    have haccepted := hcommitted (congrArg Prod.fst haccept)
    have hrejected := hcommitted (congrArg Prod.fst hreject)
    rw [haccept] at haccepted
    rw [hreject] at hrejected
    exact canonical_restored hreachable hrow hvariant haccepted hrejected

end

/-! ### A speed accepted -/

/-- No statement fails. -/
def noFaults : Faults :=
  ⟨none, none, none, none, .ok 0, none, none, none, none, none⟩

/-- The accepted cruise speed is canonical, and was not before. -/
theorem decision_frame_cruise : ∃ r, cruiseImported.canonical r = some false ∧
    (decideCall noFaults .deferred cruiseImported 1 .accepted).2.canonical r = some true := by
  have hreachable : catalogue.Reachable cruiseImported :=
    .step (s := .empty) (.init ⟨rfl, fun m hm => nomatch hm⟩)
      (Option.eq_some_of_isSome (o := gateStep .empty importCruise) _)
  have hsaid : (decideCall noFaults .deferred cruiseImported 1 .accepted).1.toOption.map
      (fun answer => answer.measurementCanonicalized) = some true := by decide +kernel
  obtain ⟨answer, hanswer, hcanonicalized⟩ := Option.map_eq_some_iff.mp hsaid
  obtain ⟨row, hframe⟩ := (decision_frame noFaults .deferred 1 .accepted
    (linked_of_reachable hreachable)).2.1 answer (ok_of_toOption hanswer)
  exact hframe.canonicalized.mp hcanonicalized

end Curation

end AircraftApi
