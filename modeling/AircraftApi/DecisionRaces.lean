/-
AircraftApi/DecisionRaces.lean

Concurrent decisions on the fields of one market snapshot.  A transaction runs
the statements of `decide_with` one by one under READ COMMITTED: a statement
sees the committed rows and the transaction's own writes (`view`).  Locking the
rows of a field waits for the decision that holds them, and so does an update
of the snapshot's flag, but the query that asks whether the snapshot can be
published locks nothing:

    start ─lock─ locked ─update─ updated ─query─ queried ─compare─ compared
      ─block─ cleared ─publish─ published ─flags─ flagged ─enqueue─ enqueued
      ─commit─ committed

Two decisions that both ask before either commits do not see each other, and
`both_accepted_unpublished` is such a run: every field is accepted and the
snapshot stays unpublished.  The condition (`AsksAlone`) is that a decision
asks while no other one is between its question and its commit.
-/
import AircraftApi.Publication

namespace AircraftApi

namespace Curation

namespace DecisionRaces

open Transition

/-! ### Transactions -/

/-- A call of `decide_with`. -/
structure Call where
  assertionId : ℕ
  decision : Decision

/-- How far a transaction has come since it asked whether the snapshot can be
published; `moved` says that its update of the flag had a row. -/
inductive Stage
  | queried | compared | cleared
  | published (moved : Bool) | flagged (moved : Bool) | enqueued (moved : Bool)
  deriving DecidableEq

/-- How far a transaction has come. -/
inductive Pc
  | start
  | locked (row : SourceAssertion)
  | updated (row : SourceAssertion)
  | deciding (row : SourceAssertion) (publish : Bool) (stage : Stage)
  | committed
  | failed (error : CurationError)

variable {ι : Type*}

/-- The committed tables, how far each transaction has come, who holds the rows
of which field, and who the snapshot's row. -/
structure State (ι : Type*) where
  committed : Tables
  pc : ι → Pc
  fieldLocks : List (ι × Entity × String)
  snapshotLock : Option ι

/-- No transaction has begun. -/
def State.init (db : Tables) : State ι := ⟨db, fun _ => .start, [], none⟩

section

variable (table : MarketTable) (call : Call)

/-- The update of the snapshot's flag, when it has a row. -/
def moveCanonical (row : SourceAssertion) (publish moved : Bool) (db : Tables) : Tables :=
  if moved then setCanonical db table row.entity.id publish else db

/-- The flags of the field are closed. -/
def closeFlags (row : SourceAssertion) (db : Tables) : Tables :=
  resolveFlags db call.assertionId row.entity row.fieldName call.decision

/-- The read model is to be rebuilt, if the snapshot moved. -/
def requestRefresh (moved : Bool) (db : Tables) : Tables :=
  if moved then enqueueRefreshRequest db call.assertionId call.decision else db

/-- The writes since the question. -/
def Stage.writes (row : SourceAssertion) (publish : Bool) (db : Tables) : Stage → Tables
  | queried | compared | cleared => db
  | published moved => moveCanonical table row publish moved db
  | flagged moved => closeFlags call row (moveCanonical table row publish moved db)
  | enqueued moved =>
      requestRefresh call moved (closeFlags call row (moveCanonical table row publish moved db))

/-- A transaction's own writes. -/
def Pc.writes (db : Tables) : Pc → Tables
  | updated _ => updateAssertion db call.assertionId call.decision
  | deciding row publish stage =>
      stage.writes table call row publish (updateAssertion db call.assertionId call.decision)
  | _ => db

/-- The next statement of a transaction, on what it sees; the last one is the
commit. -/
def nextPc (view : Tables) : Pc → Option Pc
  | .start =>
      match checkDecision (lockAssertionField view call.assertionId) call.assertionId
        call.decision with
      | .ok row => some (.locked row)
      | .error error => some (.failed error)
  | .locked row => some (.updated row)
  | .updated row => some (.deciding row (publishable view row.entity) .queried)
  | .deciding row publish .queried =>
      let mismatch := match call.decision with
        | .accepted => marketValueMismatch view call.assertionId row.entity row.fieldName
        | .rejected => none
      match mismatch with
      | some (asserted, stored) =>
          some (.failed (.valueMismatch call.assertionId row.fieldName asserted stored))
      | none => some (.deciding row publish .compared)
  | .deciding row publish .compared =>
      match if publish then blockingSnapshot view table row.entity.id else none with
      | some blockingId => some (.failed (.snapshotConflict row.entity.type blockingId))
      | none => some (.deciding row publish .cleared)
  | .deciding row publish .cleared =>
      some (.deciding row publish (.published (canonicalMoves view table row.entity.id publish)))
  | .deciding row publish (.published moved) => some (.deciding row publish (.flagged moved))
  | .deciding row publish (.flagged moved) => some (.deciding row publish (.enqueued moved))
  | .deciding _ _ (.enqueued _) => some .committed
  | .committed => none
  | .failed _ => none

end

variable (table : MarketTable) (calls : ι → Call)

/-- What a statement of the transaction sees. -/
def State.view (s : State ι) (p : ι) : Tables := (s.pc p).writes table (calls p) s.committed

variable [DecidableEq ι]

/-- Another transaction holds the rows of the field, or the snapshot's row that
the update has. -/
def waits (s : State ι) (p : ι) (next : Pc) : Bool :=
  match s.pc p, next with
  | .start, _ => (s.committed.assertions[(calls p).assertionId]?).any fun named =>
      s.fieldLocks.any fun lock =>
        lock.1 ≠ p ∧ lock.2.1 = named.entity ∧ lock.2.2 = named.fieldName
  | _, .deciding _ _ (.published true) => s.snapshotLock.any fun holder => holder ≠ p
  | _, _ => false

/-- The transaction goes on, taking its locks and giving them back at its end. -/
def State.advance (s : State ι) (p : ι) (next : Pc) : State ι where
  committed := s.committed
  pc := Function.update s.pc p next
  fieldLocks := match next with
    | .locked row => (p, row.entity, row.fieldName) :: s.fieldLocks
    | .committed | .failed _ => s.fieldLocks.filter fun lock => lock.1 ≠ p
    | _ => s.fieldLocks
  snapshotLock := match next with
    | .deciding _ _ (.published true) => some p
    | .committed | .failed _ => s.snapshotLock.filter fun holder => holder ≠ p
    | _ => s.snapshotLock

/-- One statement of a transaction; a commit makes its writes visible. -/
def step (s : State ι) (p : ι) : Option (State ι) :=
  (nextPc table (calls p) (s.view table calls p) (s.pc p)).bind fun next =>
    if waits calls s p next then none
    else match next with
      | .committed => some { s.advance p next with committed := s.view table calls p }
      | _ => some (s.advance p next)

/-- The transactions take their statements in any order. -/
def races (db : Tables) : System (State ι) ι := .ofStep (.init db) (step table calls)

/-! ### The condition -/

/-- The transaction is between its question and its commit. -/
def Pc.isDeciding : Pc → Bool
  | deciding _ _ _ => true
  | _ => false

/-- The next statement is the question. -/
def Pc.isUpdated : Pc → Bool
  | updated _ => true
  | _ => false

/-- A decision asks whether the snapshot can be published while no other one is
between its question and its commit. -/
def AsksAlone (s : State ι) (p : ι) : Prop :=
  (s.pc p).isUpdated = true → ∀ q, (s.pc q).isDeciding = false

instance [Fintype ι] (s : State ι) (p : ι) : Decidable (AsksAlone s p) :=
  inferInstanceAs (Decidable (_ → _))

/-! ### What a step does -/

/-- The row a transaction has locked. -/
def Pc.row? : Pc → Option SourceAssertion
  | locked row | updated row | deciding row _ _ => some row
  | _ => none

/-- Whether the update of the flag had a row, once it has run. -/
def Stage.moved? : Stage → Option Bool
  | published moved | flagged moved | enqueued moved => some moved
  | _ => none

/-- The writes behind the question leave the assertions alone. -/
theorem assertions_stage_writes (call : Call) (row : SourceAssertion) (publish : Bool) (db : Tables)
    (stage : Stage) : (stage.writes table call row publish db).assertions = db.assertions := by
  have hmove : ∀ moved, (moveCanonical table row publish moved db).assertions = db.assertions := by
    intro moved
    cases moved <;> cases table <;> rfl
  cases stage with
  | queried => rfl
  | compared => rfl
  | cleared => rfl
  | published moved => exact hmove moved
  | flagged moved => exact hmove moved
  | enqueued moved =>
      show (requestRefresh call moved (closeFlags call row _)).assertions = _
      cases moved <;> exact hmove _

/-- Of the writes behind the question one is to a snapshot. -/
theorem snapshots_stage_writes {stage : Stage} {moved : Bool} (h : stage.moved? = some moved)
    (call : Call) (row : SourceAssertion) (publish : Bool) (db : Tables) :
    (stage.writes table call row publish db).snapshots
      = (moveCanonical table row publish moved db).snapshots := by
  cases stage with
  | published moved => cases h; rfl
  | flagged moved => cases h; rfl
  | enqueued moved =>
      cases h
      show (requestRefresh call moved (closeFlags call row _)).snapshots = _
      cases moved <;> rfl
  | _ => cases h

theorem fieldAccepted_congr {db db' : Tables} (h : db'.assertions = db.assertions)
    (entity : Entity) (f : String) : fieldAccepted db' entity f = fieldAccepted db entity f := by
  rw [fieldAccepted, fieldAccepted, h]

/-- The question is about the assertions. -/
theorem publishable_congr {db db' : Tables} (h : db'.assertions = db.assertions)
    (entity : Entity) : publishable db' entity = publishable db entity := by
  simp only [publishable, fieldAccepted_congr h, h]

/-- After the update of the flag the snapshot is canonical as it was to be. -/
theorem published_moveCanonical {db : Tables} {row : SourceAssertion} {publish : Bool}
    (hid : row.entity.id < (db.snapshots table).length) :
    Published (moveCanonical table row publish
        (canonicalMoves db table row.entity.id publish) db) table row.entity.id ↔
      publish = true := by
  obtain ⟨snapshot, hsnapshot⟩ : ∃ snapshot, (db.snapshots table)[row.entity.id]? = some snapshot :=
    ⟨_, List.getElem?_eq_getElem hid⟩
  unfold canonicalMoves moveCanonical Published
  rw [hsnapshot]
  by_cases hmoves : snapshot.isCanonical = publish
  · rw [if_neg (by simp [hmoves]), hsnapshot]
    simp [hmoves]
  · rw [if_pos (by simpa using hmoves), snapshots_setCanonical, List.getElem?_modify_eq, hsnapshot]
    simp

section

variable {table calls} {s s' : State ι} {p : ι}

/-- A step goes to the next statement; only the commit changes what others see. -/
theorem step_spec (h : step table calls s p = some s') :
    ∃ next, nextPc table (calls p) (s.view table calls p) (s.pc p) = some next ∧
      s'.pc = Function.update s.pc p next ∧
      (next ≠ .committed → s'.committed = s.committed) ∧
      (next = .committed → s'.committed = s.view table calls p) := by
  obtain ⟨next, hnext, h⟩ := Option.bind_eq_some_iff.mp h
  refine ⟨next, hnext, ?_⟩
  split_ifs at h
  split at h
  · cases h
    exact ⟨rfl, fun hne => absurd rfl hne, fun _ => rfl⟩
  · rename_i hne
    cases h
    exact ⟨rfl, fun _ => rfl, fun heq => absurd heq hne⟩

omit [DecidableEq ι] in
/-- Only a transaction that is deciding commits, at the end of its writes. -/
theorem commits_deciding {call : Call} {view : Tables} {pc : Pc}
    (h : nextPc table call view pc = some .committed) :
    ∃ row publish moved, pc = .deciding row publish (.enqueued moved) := by
  cases pc with
  | deciding row publish stage =>
      cases stage with
      | enqueued moved => exact ⟨row, publish, moved, rfl⟩
      | queried =>
          simp only [nextPc] at h
          split at h <;> cases h
      | compared =>
          simp only [nextPc] at h
          split at h <;> cases h
      | _ => cases h
  | start =>
      simp only [nextPc] at h
      split at h <;> cases h
  | _ => cases h

omit [DecidableEq ι] in
/-- A locked row is the one just locked, or kept. -/
theorem next_row {call : Call} {view : Tables} {pc next : Pc} {row : SourceAssertion}
    (h : nextPc table call view pc = some next) (hrow : row ∈ next.row?) :
    pc = .start ∧ checkDecision (lockAssertionField view call.assertionId) call.assertionId
      call.decision = .ok row ∨ row ∈ pc.row? := by
  cases pc with
  | start =>
      simp only [nextPc] at h
      split at h
      · rename_i found hfound
        cases h
        cases hrow
        -- the first statement locks the row it has checked
        exact .inl ⟨rfl, hfound⟩
      · cases h
        cases hrow
  | deciding named publish stage =>
      -- afterwards the row is carried along until the end
      cases stage with
      | queried =>
          simp only [nextPc] at h
          split at h <;> cases h
          · cases hrow
          · exact .inr hrow
      | compared =>
          simp only [nextPc] at h
          split at h <;> cases h
          · cases hrow
          · exact .inr hrow
      | enqueued moved =>
          cases h
          cases hrow
      | _ =>
          cases h
          exact .inr hrow
  | locked named =>
      cases h
      exact .inr hrow
  | updated named =>
      cases h
      exact .inr hrow
  | _ => cases h

omit [DecidableEq ι] in
/-- A deciding transaction has just asked, or goes on with the answer it has. -/
theorem next_deciding {call : Call} {view : Tables} {pc : Pc} {row : SourceAssertion}
    {publish : Bool} {stage : Stage}
    (h : nextPc table call view pc = some (.deciding row publish stage)) :
    pc = .updated row ∧ publish = publishable view row.entity ∧ stage = .queried ∨
      ∃ before, pc = .deciding row publish before ∧
        (stage.moved? = before.moved? ∨
          before = .cleared ∧
            stage.moved? = some (canonicalMoves view table row.entity.id publish)) := by
  cases pc with
  | updated named =>
      cases h
      -- the question is asked here
      exact .inl ⟨rfl, rfl, rfl⟩
  | deciding named answer before =>
      refine .inr ?_
      cases before with
      | queried =>
          simp only [nextPc] at h
          split at h <;> cases h
          exact ⟨.queried, rfl, .inl rfl⟩
      | compared =>
          simp only [nextPc] at h
          split at h <;> cases h
          exact ⟨.compared, rfl, .inl rfl⟩
      | cleared =>
          cases h
          -- and here the flag is updated
          exact ⟨.cleared, rfl, .inr ⟨rfl, rfl⟩⟩
      | published moved =>
          cases h
          exact ⟨.published moved, rfl, .inl rfl⟩
      | flagged moved =>
          cases h
          exact ⟨.flagged moved, rfl, .inl rfl⟩
      | enqueued moved => cases h
  | start =>
      simp only [nextPc] at h
      split at h <;> cases h
  | _ => cases h

end

/-! ### The invariant -/

section

variable {table calls} {db : Tables} {id : ℕ}

/-- At most one decision is between its question and its commit, and its answer
is still the right one; a committed one has left the snapshot as it should be. -/
structure Inv (table : MarketTable) (calls : ι → Call) (db : Tables) (id : ℕ) (s : State ι) :
    Prop where
  entities : s.committed.assertions.map SourceAssertion.entity
    = db.assertions.map SourceAssertion.entity
  length : (s.committed.snapshots table).length = (db.snapshots table).length
  row : ∀ p, ∀ row ∈ (s.pc p).row?, row.entity = table.entity id ∧
    table.entity id ∈ db.assertions.map SourceAssertion.entity
  alone : ∀ p q, (s.pc p).isDeciding = true → (s.pc q).isDeciding = true → p = q
  answer : ∀ p row publish stage, s.pc p = .deciding row publish stage →
    publishable (updateAssertion s.committed (calls p).assertionId (calls p).decision) row.entity
      = publish
  moved : ∀ p row publish stage, s.pc p = .deciding row publish stage → ∀ moved ∈ stage.moved?,
    (Published (moveCanonical table row publish moved s.committed) table row.entity.id ↔
      publish = true)
  settled : (∃ p, s.pc p = .committed) →
    (Published s.committed table id ↔ publishable s.committed (table.entity id) = true) ∧
    table.entity id ∈ db.assertions.map SourceAssertion.entity

omit [DecidableEq ι] in
/-- Nobody is deciding at the start. -/
theorem inv_init : Inv table calls db id (State.init db : State ι) where
  entities := rfl
  length := rfl
  row := fun p row hrow => by cases hrow
  alone := fun p q hp => by cases hp
  answer := fun p row publish stage hp => by cases hp
  moved := fun p row publish stage hp => by cases hp
  settled := fun ⟨p, hp⟩ => by cases hp

/-- A decision changes no assertion's entity. -/
theorem entities_updateAssertion (db : Tables) (assertionId : ℕ) (decision : Decision) :
    (updateAssertion db assertionId decision).assertions.map SourceAssertion.entity
      = db.assertions.map SourceAssertion.entity := by
  apply List.ext_getElem?
  intro i
  simp only [updateAssertion, List.getElem?_map, List.getElem?_modify]
  rcases db.assertions[i]? with - | row
  · rfl
  · show some _ = some _
    split_ifs <;> rfl

variable {s s' : State ι} {p : ι}

section

variable {next : Pc} (h : Inv table calls db id s) (hasks : AsksAlone s p)
variable (hnext : nextPc table (calls p) (s.view table calls p) (s.pc p) = some next)
variable (hself : s'.pc p = next) (hother : ∀ q ≠ p, s'.pc q = s.pc q)

include h hnext hself hother

/-- The rows the transactions have locked stay those of the entity. -/
theorem row_step (hentity : ∀ p row, db.assertions[(calls p).assertionId]? = some row →
      row.entity = table.entity id) :
    ∀ q, ∀ row ∈ (s'.pc q).row?, row.entity = table.entity id ∧
      table.entity id ∈ db.assertions.map SourceAssertion.entity := by
  intro q row hq
  by_cases hqp : q = p
  · subst hqp
    rw [hself] at hq
    rcases next_row hnext hq with ⟨hstart, hcheck⟩ | hold
    · -- the row just locked is one of the entity's
      have hview : s.view table calls q = s.committed := by rw [State.view, hstart]; rfl
      rw [hview] at hcheck
      have hfound := (checkDecision_lock_ok hcheck).1
      have hin : (db.assertions[(calls q).assertionId]?).map SourceAssertion.entity
          = some row.entity := by
        rw [← List.getElem?_map, ← h.entities, List.getElem?_map, hfound]
        rfl
      obtain ⟨named, hnamed, hnamedEntity⟩ := Option.map_eq_some_iff.mp hin
      have hrowEntity := hnamedEntity.symm.trans (hentity q named hnamed)
      refine ⟨hrowEntity, ?_⟩
      rw [← hrowEntity, ← hnamedEntity]
      exact List.mem_map_of_mem (List.mem_of_getElem? hnamed)
    · exact h.row q row hold
  · rw [hother q hqp] at hq
    exact h.row q row hq

include hasks

/-- A transaction that begins to decide asked while no other one was deciding. -/
theorem alone_step : ∀ q q', (s'.pc q).isDeciding = true → (s'.pc q').isDeciding = true →
    q = q' := by
  have hnew : ∀ q, q ≠ p → (s'.pc q).isDeciding = true → (s'.pc p).isDeciding = true → q = p := by
    intro q hq hqd hpd
    rw [hother q hq] at hqd
    rw [hself] at hpd
    cases next with
    | deciding row publish stage =>
        rcases next_deciding hnext with ⟨hupdated, -, -⟩ | ⟨before, hbefore, -⟩
        · rw [hasks (by rw [hupdated]; rfl) q] at hqd
          cases hqd
        · exact h.alone q p hqd (by rw [hbefore]; rfl)
    | _ => cases hpd
  intro q q' hq hq'
  by_cases hqp : q = p <;> by_cases hqp' : q' = p
  · rw [hqp, hqp']
  · rw [hqp] at hq ⊢
    exact (hnew q' hqp' hq' hq).symm
  · rw [hqp'] at hq' ⊢
    exact hnew q hqp hq hq'
  · rw [hother q hqp] at hq
    rw [hother q' hqp'] at hq'
    exact h.alone q q' hq hq'

omit hasks

/-- The answer a transaction goes on with is right of its own update. -/
theorem answer_step : ∀ q row publish stage, s'.pc q = .deciding row publish stage →
    publishable (updateAssertion s.committed (calls q).assertionId (calls q).decision) row.entity
      = publish := by
  intro q row publish stage hq
  by_cases hqp : q = p
  · subst hqp
    rw [hself] at hq
    subst hq
    rcases next_deciding hnext with ⟨hupdated, hpublish, -⟩ | ⟨before, hbefore, -⟩
    · rw [hpublish, State.view, hupdated]
      rfl
    · exact h.answer q row publish before hbefore
  · rw [hother q hqp] at hq
    exact h.answer q row publish stage hq

/-- The update of the flag has left the snapshot as the answer has it. -/
theorem moved_step (hid : id < (db.snapshots table).length) :
    ∀ q row publish stage, s'.pc q = .deciding row publish stage →
      ∀ moved, stage.moved? = some moved →
        (Published (moveCanonical table row publish moved s.committed) table row.entity.id ↔
          publish = true) := by
  intro q row publish stage hq moved hmoved
  by_cases hqp : q = p
  · subst hqp
    rw [hself] at hq
    subst hq
    rcases next_deciding hnext with ⟨-, -, hqueried⟩ | ⟨before, hbefore, hkept | ⟨hcleared, hnow⟩⟩
    · rw [hqueried] at hmoved
      cases hmoved
    · rw [hkept] at hmoved
      exact h.moved q row publish before hbefore moved hmoved
    · -- the update of the flag has just run
      subst hcleared
      obtain rfl := Option.some.inj (hnow.symm.trans hmoved)
      have hview : canonicalMoves (s.view table calls q) table row.entity.id publish
          = canonicalMoves s.committed table row.entity.id publish := by
        rw [State.view, hbefore]
        cases table <;> rfl
      rw [hview]
      refine published_moveCanonical table ?_
      have hentityRow := (h.row q row (by rw [hbefore]; rfl)).1
      have hrowId : row.entity.id = id := by
        rw [hentityRow]
        cases table <;> rfl
      rw [hrowId, h.length]
      exact hid
  · rw [hother q hqp] at hq
    exact h.moved q row publish stage hq moved hmoved

end

/-- The commit: no other transaction is deciding, and this one's answer stands. -/
theorem inv_commit (h : Inv table calls db id s)
    (hnext : nextPc table (calls p) (s.view table calls p) (s.pc p) = some .committed)
    (hself : s'.pc p = .committed) (hother : ∀ q ≠ p, s'.pc q = s.pc q)
    (hcommit : s'.committed = s.view table calls p)
    (hrow : ∀ q, ∀ row ∈ (s'.pc q).row?, row.entity = table.entity id ∧
      table.entity id ∈ db.assertions.map SourceAssertion.entity) :
    Inv table calls db id s' := by
  obtain ⟨row, publish, moved, hdeciding⟩ := commits_deciding hnext
  have hentityRow := (h.row p row (by rw [hdeciding]; rfl)).1
  have hview : s.view table calls p = (Stage.enqueued moved).writes table (calls p) row publish
      (updateAssertion s.committed (calls p).assertionId (calls p).decision) := by
    rw [State.view, hdeciding]
    rfl
  have hassertions : s'.committed.assertions
      = (updateAssertion s.committed (calls p).assertionId (calls p).decision).assertions := by
    rw [hcommit, hview, assertions_stage_writes]
  -- closing flags and asking for a rebuild leave the snapshots alone
  have hsnapshots : s'.committed.snapshots
      = (moveCanonical table row publish moved s.committed).snapshots := by
    have hmoved : (Stage.enqueued moved).moved? = some moved := rfl
    rw [hcommit, hview, snapshots_stage_writes table hmoved]
    cases moved
    · rfl
    · cases table <;> rfl
  -- nobody else was deciding, and this one is through
  have hnone : ∀ q, (s'.pc q).isDeciding = false := by
    intro q
    by_cases hqp : q = p
    · rw [hqp, hself]
      rfl
    · rw [hother q hqp]
      by_contra hq
      rw [Bool.not_eq_false] at hq
      exact hqp (h.alone q p hq (by rw [hdeciding]; rfl))
  have habsent : ∀ {q row publish stage}, s'.pc q ≠ .deciding row publish stage := by
    intro q row publish stage hq
    have hdecides := hnone q
    rw [hq] at hdecides
    cases hdecides
  refine ⟨?_, ?_, hrow, ?_, ?_, ?_, ?_⟩
  · rw [hassertions, entities_updateAssertion, h.entities]
  · rw [hsnapshots, moveCanonical]
    cases moved
    · exact h.length
    · rw [if_pos rfl, snapshots_setCanonical, List.length_modify, h.length]
  · intro q q' hq
    rw [hnone q] at hq
    cases hq
  · exact fun q row' publish' stage hq => absurd hq habsent
  · exact fun q row' publish' stage hq => absurd hq habsent
  · intro _
    refine ⟨?_, (h.row p row (by rw [hdeciding]; rfl)).2⟩
    have hanswer := h.answer p row publish _ hdeciding
    have hmoved := h.moved p row publish _ hdeciding moved rfl
    rw [publishable_congr hassertions, ← hentityRow, hanswer, ← hmoved, Published, Published,
      hsnapshots, hentityRow]
    cases table <;> rfl

/-- A step of a decision that asks alone keeps the invariant. -/
theorem inv_step (hid : id < (db.snapshots table).length)
    (hentity : ∀ p row, db.assertions[(calls p).assertionId]? = some row →
      row.entity = table.entity id)
    (h : Inv table calls db id s) (hasks : AsksAlone s p)
    (hstep : step table calls s p = some s') : Inv table calls db id s' := by
  obtain ⟨next, hnext, hpc, hsame, hcommit⟩ := step_spec hstep
  have hself : s'.pc p = next := by rw [hpc, Function.update_self]
  have hother : ∀ q ≠ p, s'.pc q = s.pc q := fun q hq => by rw [hpc, Function.update_of_ne hq]
  have hrow := row_step h hnext hself hother hentity
  by_cases hcommitted : next = .committed
  · subst hcommitted
    exact inv_commit h hnext hself hother (hcommit rfl) hrow
  · have hsameDb := hsame hcommitted
    refine ⟨?_, ?_, hrow, alone_step h hasks hnext hself hother, ?_, ?_, ?_⟩
    · rw [hsameDb, h.entities]
    · rw [hsameDb, h.length]
    · rw [hsameDb]
      exact answer_step h hnext hself hother
    · rw [hsameDb]
      exact moved_step h hnext hself hother hid
    · rintro ⟨q, hq⟩
      have hqp : q ≠ p := by
        rintro rfl
        exact hcommitted (hself.symm.trans hq)
      rw [hsameDb]
      exact h.settled ⟨q, by rw [← hother q hqp, hq]⟩

/-- **Decisions on one snapshot**: in a run in which every decision asks alone,
once all of them are through and some has committed, the snapshot is canonical
exactly when every field asserted on it is accepted. -/
theorem decisions_settle (hid : id < (db.snapshots table).length)
    (hentity : ∀ p row, db.assertions[(calls p).assertionId]? = some row →
      row.entity = table.entity id)
    (hs : ((races table calls db).guard AsksAlone).Reachable s)
    (hsome : ∃ p, s.pc p = .committed) :
    Published s.committed table id ↔
      ∀ a ∈ s.committed.assertions, a.entity = table.entity id →
        fieldAccepted s.committed (table.entity id) a.fieldName = true := by
  have hinv : Inv table calls db id s := by
    refine hs.invariant ?_ ?_
    · rintro s rfl
      exact inv_init
    · rintro s p s' hinv ⟨hasks, hstep⟩
      exact inv_step hid hentity hinv hasks hstep
  obtain ⟨hpublished, hmember⟩ := hinv.settled hsome
  have hasserted : ∃ a ∈ s.committed.assertions, a.entity = table.entity id := by
    rw [← hinv.entities] at hmember
    exact List.mem_map.mp hmember
  rw [hpublished, publishable_iff_of_mem hasserted]

end

/-! ### A price and a count -/

/-- A valuation of which nothing is accepted: assertion 0 is its price, and
assertion 1 its count. -/
def listed : Tables :=
  stepped .empty (.importRecord (normalizeRecord PlanePhd.fleetCrates "Cessna" "172"
    (.object [("papi_price_estimate", .string "$100"), ("for_sale_count", .string "7")])) 0 0 0
    "PlanePHD")

/-- One curator accepts the price, the other the count. -/
def acceptBoth : Bool → Call
  | false => ⟨0, .accepted⟩
  | true => ⟨1, .accepted⟩

theorem listed_entity (p : Bool) (row : SourceAssertion)
    (h : listed.assertions[(acceptBoth p).assertionId]? = some row) :
    row.entity = MarketTable.valuations.entity 0 := by
  have hall : ∀ a ∈ listed.assertions, a.entity = MarketTable.valuations.entity 0 := by
    decide +kernel
  exact hall row (List.mem_of_getElem? h)

def Pc.isCommitted : Pc → Bool
  | committed => true
  | _ => false

theorem Pc.eq_committed {pc : Pc} (h : pc.isCommitted = true) : pc = .committed := by
  cases pc <;> first | rfl | cases h

/-- One after the other. -/
def oneByOne : State Bool :=
  (execWhile (step .valuations acceptBoth) (fun s p => AsksAlone s p) (.init listed)
    (List.replicate 9 false ++ List.replicate 9 true)).get (by decide +kernel)

theorem decisions_settle_oneByOne :
    Published oneByOne.committed .valuations 0 ↔
      ∀ a ∈ oneByOne.committed.assertions, a.entity = MarketTable.valuations.entity 0 →
        fieldAccepted oneByOne.committed (MarketTable.valuations.entity 0) a.fieldName = true :=
  have hreachable : ((races .valuations acceptBoth listed).guard AsksAlone).Reachable oneByOne :=
    reachable_guard_of_execWhile (fun _ _ => of_decide_eq_true) _ (Option.eq_some_of_isSome _)
  decisions_settle (by decide +kernel) listed_entity hreachable
    ⟨false, Pc.eq_committed (by decide +kernel)⟩

/-- The two statement by statement in turn. -/
def inTurn : State Bool :=
  (exec (step .valuations acceptBoth) (.init listed)
    (List.replicate 9 [false, true]).flatten).get (by decide +kernel)

/-- Neither sees the other's acceptance: both fields are accepted, and the
valuation is not published. -/
theorem both_accepted_unpublished :
    ¬ ∀ s, (races .valuations acceptBoth listed).Reachable s → (∀ p, s.pc p = .committed) →
      (Published s.committed .valuations 0 ↔
        ∀ a ∈ s.committed.assertions, a.entity = MarketTable.valuations.entity 0 →
          fieldAccepted s.committed (MarketTable.valuations.entity 0) a.fieldName = true) := by
  intro h
  have hreachable : (races .valuations acceptBoth listed).Reachable inTurn :=
    reachable_of_exec _ (Option.eq_some_of_isSome _)
  have hcommitted : ∀ p, inTurn.pc p = .committed := by
    intro p
    apply Pc.eq_committed
    revert p
    decide +kernel
  have haccepted : ∀ a ∈ inTurn.committed.assertions,
      a.entity = MarketTable.valuations.entity 0 →
        fieldAccepted inTurn.committed (MarketTable.valuations.entity 0) a.fieldName = true := by
    decide +kernel
  obtain ⟨snapshot, hsnapshot, hcanonical⟩ := (h inTurn hreachable hcommitted).mpr haccepted
  have hpending : ((inTurn.committed.snapshots .valuations)[0]?).map Snapshot.isCanonical
      = some false := by decide +kernel
  rw [hsnapshot, Option.map_some, hcanonical] at hpending
  cases hpending

end DecisionRaces

end Curation

end AircraftApi
