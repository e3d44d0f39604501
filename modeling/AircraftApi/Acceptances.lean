/-
AircraftApi/Acceptances.lean

Runs of acceptances: a curator accepts the assertions of new market snapshots,
one after the other.

An acceptance compares the number of its assertion with the row, and nothing a
decision does changes the row.  So a field can be accepted exactly when one of
its assertions agrees with the row from the start, and a choice of agreeing
assertions, one a field, goes through in every order (`Curating` is what is left
of it after some of them):

    Curatable db db'  ↔  every field asserted on a new snapshot has an
                         assertion that agrees with its row
-/
import AircraftApi.Publication

namespace AircraftApi

namespace Curation

open Transition (exec)

/-! ### Agreement with the row -/

/-- A field whose column a row always has; of any other the row may lack. -/
def IsColumn (entity : Entity) (fieldName : String) : Prop :=
  match entity.type with
  | .valuation => (valuationColumn fieldName).isSome
  | .costSnapshot => (costTotalColumn fieldName).isSome
  | _ => False

/-- The number of an assertion against the value its row stores. -/
def Agrees (asserted stored : Option ℚ) : Prop := ∀ v ∈ asserted, ∀ x ∈ stored, x = v

instance (asserted stored : Option ℚ) : Decidable (Agrees asserted stored) :=
  inferInstanceAs (Decidable (∀ v ∈ asserted, ∀ x ∈ stored, x = v))

theorem disagreement_eq_none_iff {asserted stored : Option ℚ} (h : asserted ≠ none → stored ≠ none) :
    disagreement asserted stored = none ↔ Agrees asserted stored := by
  rcases asserted with - | v
  · simp [disagreement, Agrees]
  · obtain ⟨x, rfl⟩ := Option.ne_none_iff_exists'.mp (h (Option.some_ne_none v))
    simp [disagreement, Agrees]

theorem marketValueMismatch_eq_none_iff {db : Tables} {assertionId : ℕ} {entity : Entity}
    {fieldName : String} {row : SourceAssertion} (hrow : db.assertions[assertionId]? = some row)
    (hstored : row.assertedNumeric ≠ none → IsColumn entity fieldName →
      storedValue db entity fieldName ≠ none) :
    marketValueMismatch db assertionId entity fieldName = none ↔
      Agrees row.assertedNumeric (storedValue db entity fieldName) := by
  have hasserted : (db.assertions[assertionId]?).bind SourceAssertion.assertedNumeric
      = row.assertedNumeric := by rw [hrow, Option.bind_some]
  rcases entity with ⟨type, id⟩
  cases type with
  | valuation =>
      simp only [marketValueMismatch, storedValue, IsColumn, hasserted] at hstored ⊢
      -- a name that is no column of the snapshot has nothing to disagree with
      rcases hcolumn : valuationColumn fieldName with - | column
      · simp [Agrees]
      · rw [hcolumn] at hstored
        rcases hvaluation : db.valuations[id]? with - | valuation
        · simp [Agrees]
        · simp only [hvaluation, Option.bind_some, Option.isSome_some, true_implies] at hstored ⊢
          exact disagreement_eq_none_iff hstored
  | costSnapshot =>
      simp only [marketValueMismatch, storedValue, IsColumn, hasserted] at hstored ⊢
      -- a cost is a line of its own, or a column of the totals
      rcases hcolumn : costTotalColumn fieldName with - | column
      · dsimp only
        rcases hline : db.costLineItems.lookup (id, fieldName) with - | line
        · simp [Agrees]
        · exact disagreement_eq_none_iff fun _ => line.amount_ne_none
      · rw [hcolumn] at hstored
        dsimp only at hstored ⊢
        rcases htotals : db.costSnapshotTotals.lookup id with - | totals
        · simp [Agrees]
        · simp only [htotals, Option.bind_some, Option.isSome_some, true_implies] at hstored ⊢
          exact disagreement_eq_none_iff hstored
  | _ => simp [marketValueMismatch, storedValue, Agrees]

/-! ### Rows no decision changes -/

theorem marketValueMismatch_updateAssertion (db : Tables) (assertionId : ℕ) (decision : Decision) :
    marketValueMismatch (updateAssertion db assertionId decision) = marketValueMismatch db := by
  funext i entity fieldName
  have hasserted : ((updateAssertion db assertionId decision).assertions[i]?).bind
      SourceAssertion.assertedNumeric = (db.assertions[i]?).bind SourceAssertion.assertedNumeric := by
    rw [updateAssertion, List.getElem?_modify]
    split_ifs <;> rcases db.assertions[i]? with - | row <;> rfl
  simp only [marketValueMismatch, hasserted]
  rfl

theorem marketValueMismatch_setCanonical (db : Tables) (table : MarketTable) (id : ℕ)
    (canonical : Bool) :
    marketValueMismatch (setCanonical db table id canonical) = marketValueMismatch db := by
  funext i entity fieldName
  cases table
  · unfold marketValueMismatch setCanonical
    dsimp only
    split
    · unfold valuationColumn
      rw [List.getElem?_modify]
      split_ifs <;> rcases db.valuations[entity.id]? with - | row <;> rfl
    · rfl
    · rfl
  · rfl

section

variable {db db' : Tables} {assertionId : ℕ} {decision : Decision} {outcome : CurationOutcome}

/-- What an assertion is compared with stays the same, whatever is decided. -/
theorem marketValueMismatch_decideWith
    (h : decideWith db assertionId decision = .ok (outcome, db')) :
    marketValueMismatch db' = marketValueMismatch db := by
  obtain ⟨row, published, -, hpublish, flags, requests, rfl⟩ := decideWith_ok h
  rw [← marketValueMismatch_updateAssertion db assertionId decision]
  rcases publishDecision_ok hpublish with ⟨-, measurements, rfl⟩ | ⟨table, -, -, rfl⟩
  · rfl
  · exact marketValueMismatch_setCanonical _ _ _ _

/-- A pending assertion of a field nobody has accepted passes the checks. -/
theorem checkDecision_accept {row : SourceAssertion} (hrow : db.assertions[assertionId]? = some row)
    (hstatus : row.status ≠ .accepted)
    (hrival : fieldAccepted db row.entity row.fieldName = false) :
    checkDecision (lockAssertionField db assertionId) assertionId .accepted = .ok row := by
  have hcompetitor : (lockAssertionField db assertionId).find?
      (fun other => other.2 ≠ assertionId ∧ other.1.isAccepted) = none := by
    refine List.find?_eq_none.mpr ?_
    rintro ⟨other, id⟩ hmem haccepted
    obtain ⟨hother, hentity, hfield⟩ := (mem_lockAssertionField hrow).mp hmem
    have htrue := fieldAccepted_iff.mpr ⟨other, List.mem_of_getElem? hother, hentity, hfield,
      (of_decide_eq_true haccepted).2⟩
    rw [hrival] at htrue
    cases htrue
  simp only [checkDecision, find?_lockAssertionField hrow, hcompetitor]
  exact if_neg hstatus

/-- The acceptance of an assertion that agrees with its row, on a variant with
no other canonical snapshot. -/
theorem decideWith_accept {row : SourceAssertion} {table : MarketTable} {id : ℕ}
    (hrow : db.assertions[assertionId]? = some row) (hentity : row.entity = table.entity id)
    (hstatus : row.status ≠ .accepted)
    (hrival : fieldAccepted db row.entity row.fieldName = false)
    (hmatch : marketValueMismatch db assertionId row.entity row.fieldName = none)
    (hfree : blockingSnapshot db table id = none) :
    ∃ outcome db', decideWith db assertionId .accepted = .ok (outcome, db') ∧
      db'.snapshots = (setCanonical db table id
        (publishable (updateAssertion db assertionId .accepted) row.entity)).snapshots := by
  set updated := updateAssertion db assertionId .accepted with hupdated
  set publish := publishable updated row.entity with hpublishable
  have hpublish : publishDecision updated assertionId row.entity row.fieldName .accepted
      = .ok (publish && canonicalMoves updated table id publish,
          canonicalMoves updated table id publish, setCanonical updated table id publish) := by
    -- the row is on a snapshot, so none of its fields is a metric
    have hmetric : (if row.entity.type = .aircraftVariant then measurementTarget row.fieldName
        else none) = none := by
      rw [hentity]
      cases table <;> rfl
    have htable : marketTarget row.entity.type = some table := by
      rw [hentity, marketTarget_entity]
    have hid : row.entity.id = id := by
      rw [hentity]
      cases table <;> rfl
    have hblocking : (if publish then blockingSnapshot updated table id else none) = none := by
      split_ifs
      · exact hfree
      · rfl
    -- the update of the assertion leaves what is compared as it was
    have hmatched : marketValueMismatch updated assertionId row.entity row.fieldName = none := by
      rw [hupdated, marketValueMismatch_updateAssertion, hmatch]
    simp only [publishDecision, hmetric, htable, publishSnapshot, hid, ← hpublishable, hmatched,
      hblocking]
  rw [decideWith, checkDecision_accept hrow hstatus hrival]
  simp only [bind, Except.bind, ← hupdated, hpublish]
  refine ⟨_, _, rfl, ?_⟩
  rcases canonicalMoves updated table id publish with - | - <;> cases table <;> rfl

/-- An acceptance adds its own field to the accepted ones. -/
theorem Decides.fieldAccepted_accepted {row : SourceAssertion}
    (h : Decides db db' assertionId .accepted row) {entity : Entity} {fieldName : String} :
    fieldAccepted db' entity fieldName = true ↔
      fieldAccepted db entity fieldName = true ∨ row.entity = entity ∧ row.fieldName = fieldName := by
  have hmem : row.decide .accepted ∈ db'.assertions := by
    refine List.mem_of_getElem? (i := assertionId) ?_
    rw [h.assertions, List.getElem?_modify_eq, h.named]
    rfl
  rw [fieldAccepted_iff, fieldAccepted_iff]
  constructor
  · rintro ⟨a, ha, hentity, hfield, haccepted⟩
    rcases h.mem ha with hold | rfl
    · exact .inl ⟨a, hold, hentity, hfield, haccepted⟩
    · exact .inr ⟨hentity, hfield⟩
  · rintro (⟨a, ha, hentity, hfield, haccepted⟩ | ⟨hentity, hfield⟩)
    · obtain ⟨i, hi⟩ := List.mem_iff_getElem?.mp ha
      by_cases hid : assertionId = i
      · subst hid
        obtain rfl := Option.some.inj (hi.symm.trans h.named)
        exact ⟨_, hmem, hentity, hfield, rfl⟩
      · refine ⟨a, List.mem_of_getElem? (i := i) ?_, hentity, hfield, haccepted⟩
        rw [h.assertions, List.getElem?_modify_ne _ _ hid, hi]
    · exact ⟨_, hmem, hentity, hfield, rfl⟩

theorem Decides.publishable_of_ne {row : SourceAssertion}
    (h : Decides db db' assertionId decision row) {entity : Entity} (hne : entity ≠ row.entity) :
    publishable db' entity = publishable db entity := by
  have hmem : ∀ a, a.entity = entity → (a ∈ db'.assertions ↔ a ∈ db.assertions) := by
    intro a hentity
    constructor
    · intro ha
      rcases h.mem ha with hold | rfl
      · exact hold
      · exact absurd hentity.symm hne
    · intro ha
      obtain ⟨a', ha', -, -, hsame⟩ := h.mem_of_mem ha
      rwa [hsame (by rw [hentity]; exact hne)] at ha'
  rw [Bool.eq_iff_iff, publishable_iff, publishable_iff]
  simp only [h.fieldAccepted_of_ne hne]
  constructor
  · rintro ⟨⟨a, ha, hentity, haccepted⟩, hall⟩
    exact ⟨⟨a, (hmem a hentity).mp ha, hentity, haccepted⟩,
      fun b hb hbentity => hall b ((hmem b hbentity).mpr hb) hbentity⟩
  · rintro ⟨⟨a, ha, hentity, haccepted⟩, hall⟩
    exact ⟨⟨a, (hmem a hentity).mpr ha, hentity, haccepted⟩,
      fun b hb hbentity => hall b ((hmem b hbentity).mp hb) hbentity⟩

end

theorem blockingSnapshot_eq_none_iff {db : Tables} {table : MarketTable} {id : ℕ} :
    blockingSnapshot db table id = none ↔
      ∀ snapshot, (db.snapshots table)[id]? = some snapshot →
        ∀ (i : ℕ) (other : Snapshot), (db.snapshots table)[i]? = some other →
          other.variantId = snapshot.variantId → other.isCanonical = true → i = id := by
  unfold blockingSnapshot
  rcases (db.snapshots table)[id]? with - | snapshot
  · simp
  · simp only [Option.bind_some, Option.map_eq_none_iff, List.find?_eq_none,
      Option.some.injEq, forall_eq']
    constructor
    · intro hnone i other hother hvariant hcanonical
      by_contra hne
      exact hnone (other, i) (List.mem_zipIdx_iff_getElem?.mpr hother)
        (by simp [hvariant, hcanonical, hne])
    · rintro hall ⟨other, i⟩ hmem hblocks
      obtain ⟨hvariant, hcanonical, hne⟩ := of_decide_eq_true hblocks
      exact hne (hall i other (List.mem_zipIdx_iff_getElem?.mp hmem) hvariant hcanonical)

/-! ### A choice of assertions -/

/-- The snapshots an import added. -/
def Created (db db' : Tables) (table : MarketTable) (id : ℕ) : Prop :=
  (db.snapshots table).length ≤ id ∧ id < (db'.snapshots table).length

/-- One assertion for each field asserted on a new snapshot. -/
structure Chooses (db db' : Tables) (chosen : List ℕ) : Prop where
  asserted : ∀ i ∈ chosen, ∃ a, db'.assertions[i]? = some a ∧
    ∃ table id, Created db db' table id ∧ a.entity = table.entity id
  each : ∀ a ∈ db'.assertions, ∀ table id, Created db db' table id → a.entity = table.entity id →
    ∃ i ∈ chosen, ∃ b, db'.assertions[i]? = some b ∧ b.entity = a.entity ∧
      b.fieldName = a.fieldName
  one : chosen.Pairwise fun i j => ∀ a b, db'.assertions[i]? = some a →
    db'.assertions[j]? = some b → a.entity = b.entity → a.fieldName ≠ b.fieldName

/-- Accepts one assertion after the other; none when one of them errs. -/
def acceptAll (db : Tables) (order : List ℕ) : Option Tables :=
  exec step db (order.map fun assertionId => .decide assertionId .accepted)

/-- Some choice goes through in every order, and publishes every new snapshot. -/
def Curatable (db db' : Tables) : Prop :=
  ∃ chosen, Chooses db db' chosen ∧ ∀ order : List ℕ, order.Perm chosen →
    ∃ final, acceptAll db' order = some final ∧
      ∀ table id, Created db db' table id → Published final table id

/-- What is left of a choice in the middle of a run: pending assertions that
agree with their rows, of fields nobody has accepted, one for every other field
of the snapshots. -/
structure Curating (created : MarketTable → ℕ → Prop) (s : Tables) (left : List ℕ) : Prop where
  alone : ∀ table id i, created table id → created table i → id = i
  row : ∀ i ∈ left, ∃ a, s.assertions[i]? = some a ∧
    (∃ table id, created table id ∧ a.entity = table.entity id) ∧ a.status ≠ .accepted ∧
    marketValueMismatch s i a.entity a.fieldName = none ∧
    fieldAccepted s a.entity a.fieldName = false
  one : left.Pairwise fun i j => ∀ a b, s.assertions[i]? = some a → s.assertions[j]? = some b →
    a.entity = b.entity → a.fieldName ≠ b.fieldName
  each : ∀ a ∈ s.assertions, ∀ table id, created table id → a.entity = table.entity id →
    fieldAccepted s a.entity a.fieldName = true ∨
      ∃ i ∈ left, ∃ b, s.assertions[i]? = some b ∧ b.entity = a.entity ∧ b.fieldName = a.fieldName
  stated : ∀ table id, created table id → ∃ a ∈ s.assertions, a.entity = table.entity id
  free : ∀ table id, created table id → blockingSnapshot s table id = none
  flag : ∀ table id, created table id → ∃ snapshot, (s.snapshots table)[id]? = some snapshot ∧
    snapshot.isCanonical = publishable s (table.entity id)

section

variable {created : MarketTable → ℕ → Prop} {s : Tables} {left order : List ℕ} {i : ℕ}

theorem Curating.perm (h : Curating created s left) (hperm : order.Perm left) :
    Curating created s order where
  alone := h.alone
  row := fun i hi => h.row i (hperm.mem_iff.mp hi)
  one := by
    refine (hperm.pairwise_iff ?_).mpr h.one
    intro i j hij a b ha hb hentity hfield
    exact hij b a hb ha hentity.symm hfield.symm
  each := by
    intro a ha table id hcreated hentity
    rcases h.each a ha table id hcreated hentity with haccepted | ⟨i, hi, hrest⟩
    · exact .inl haccepted
    · exact .inr ⟨i, hperm.mem_iff.mpr hi, hrest⟩
  stated := h.stated
  free := h.free
  flag := h.flag

/-- The next acceptance goes through. -/
theorem Curating.accept (h : Curating created s (i :: left)) :
    ∃ s', step s (.decide i .accepted) = some s' ∧ Curating created s' left := by
  obtain ⟨row, hrow, ⟨table, id, hcreated, hentity⟩, hstatus, hmatch, hrival⟩ :=
    h.row i List.mem_cons_self
  obtain ⟨outcome, s', hdecide, hsnapshots⟩ :=
    decideWith_accept hrow hentity hstatus hrival hmatch (h.free table id hcreated)
  obtain ⟨row', hdecides⟩ := decideWith_decides hdecide
  obtain rfl : row = row' := Option.some.inj (hrow.symm.trans hdecides.named)
  have hmismatch := marketValueMismatch_decideWith hdecide
  -- the others of the choice are of other fields, and stay as they are
  have hsame : ∀ j ∈ left, s'.assertions[j]? = s.assertions[j]? := by
    intro j hj
    have hne : i ≠ j := by
      rintro rfl
      exact (List.pairwise_cons.mp h.one).1 i hj row row hrow hrow rfl rfl
    rw [hdecides.assertions, List.getElem?_modify_ne _ _ hne]
  refine ⟨s', by simp [step, hdecide, Except.toOption], h.alone, ?_, ?_, ?_, ?_, ?_, ?_⟩
  · intro j hj
    obtain ⟨a, ha, hmarket, hpending, hagrees, hfield⟩ := h.row j (List.mem_cons_of_mem _ hj)
    refine ⟨a, by rw [hsame j hj, ha], hmarket, hpending, by rw [hmismatch, hagrees], ?_⟩
    rw [Bool.eq_false_iff]
    intro haccepted
    rcases hdecides.fieldAccepted_accepted.mp haccepted with hold | ⟨hrowEntity, hrowField⟩
    · rw [hfield] at hold
      cases hold
    · exact (List.pairwise_cons.mp h.one).1 j hj row a hrow ha hrowEntity hrowField
  · refine (List.pairwise_cons.mp h.one).2.imp_of_mem ?_
    intro j k hj hk hone a b ha hb
    rw [hsame j hj] at ha
    rw [hsame k hk] at hb
    exact hone a b ha hb
  · intro a ha table' id' hcreated' hentity'
    rcases hdecides.mem ha with hold | rfl
    · rcases h.each a hold table' id' hcreated' hentity' with haccepted | ⟨j, hj, b, hb, hbkey⟩
      · exact .inl (hdecides.fieldAccepted_accepted.mpr (.inl haccepted))
      · rcases List.mem_cons.mp hj with rfl | hj
        · obtain rfl := Option.some.inj (hrow.symm.trans hb)
          exact .inl (hdecides.fieldAccepted_accepted.mpr (.inr hbkey))
        · exact .inr ⟨j, hj, b, by rw [hsame j hj, hb], hbkey⟩
    · exact .inl (hdecides.fieldAccepted_accepted.mpr (.inr ⟨rfl, rfl⟩))
  · intro table' id' hcreated'
    obtain ⟨a, ha, hentity'⟩ := h.stated table' id' hcreated'
    obtain ⟨a', ha', hkey, -⟩ := hdecides.mem_of_mem ha
    exact ⟨a', ha', hkey.trans hentity'⟩
  · intro table' id' hcreated'
    by_cases htable : table' = table
    · subst htable
      obtain rfl := h.alone table' id' id hcreated' hcreated
      have hfree := blockingSnapshot_eq_none_iff.mp (h.free table' id' hcreated')
      refine blockingSnapshot_eq_none_iff.mpr ?_
      rw [hsnapshots, snapshots_setCanonical]
      intro snapshot hsnapshot j other hother hvariant hcanonical
      by_contra hne
      rw [List.getElem?_modify_eq] at hsnapshot
      rw [List.getElem?_modify_ne _ _ (Ne.symm hne)] at hother
      obtain ⟨old, hold, rfl⟩ := Option.map_eq_some_iff.mp hsnapshot
      exact hne (hfree old hold j other hother hvariant hcanonical)
    · have hfree := h.free table' id' hcreated'
      rw [blockingSnapshot_eq_none_iff] at hfree ⊢
      rwa [hsnapshots, snapshots_setCanonical_of_ne htable]
  · intro table' id' hcreated'
    obtain ⟨snapshot, hsnapshot, hflag⟩ := h.flag table' id' hcreated'
    by_cases hother : table'.entity id' = table.entity id
    · obtain ⟨rfl, rfl⟩ := MarketTable.entity_inj hother
      refine ⟨_, by rw [hsnapshots, snapshots_setCanonical, List.getElem?_modify_eq, hsnapshot]; rfl,
        ?_⟩
      show publishable (updateAssertion s i .accepted) row.entity = _
      rw [hentity]
      unfold publishable fieldAccepted
      rw [hdecides.assertions]
      rfl
    · rw [← hentity] at hother
      refine ⟨snapshot, by rw [hdecides.others table' id' hother, hsnapshot], ?_⟩
      rw [hflag, hdecides.publishable_of_ne hother]

theorem Curating.run (h : Curating created s left) :
    ∃ final, acceptAll s left = some final ∧
      ∀ table id, created table id → Published final table id := by
  induction left generalizing s with
  | nil =>
      refine ⟨s, rfl, ?_⟩
      intro table id hcreated
      obtain ⟨snapshot, hsnapshot, hflag⟩ := h.flag table id hcreated
      refine ⟨snapshot, hsnapshot, hflag.trans ?_⟩
      refine (publishable_iff_of_mem (h.stated table id hcreated)).mpr ?_
      intro a ha hentity
      rcases h.each a ha table id hcreated hentity with haccepted | ⟨i, hi, -⟩
      · rwa [← hentity]
      · cases hi
  | cons i left ih =>
      obtain ⟨s', hstep, hrest⟩ := h.accept
      obtain ⟨final, hrun, hpublished⟩ := ih hrest
      refine ⟨final, ?_, hpublished⟩
      rw [acceptAll, List.map_cons, exec, hstep, Option.bind_some]
      exact hrun

/-- Whatever goes through agrees with its row. -/
theorem acceptAll_agrees {final : Tables} (h : acceptAll s order = some final) :
    ∀ i ∈ order, ∀ (a : SourceAssertion) (table : MarketTable) (id : ℕ),
      s.assertions[i]? = some a → a.entity = table.entity id →
      marketValueMismatch s i a.entity a.fieldName = none := by
  induction order generalizing s with
  | nil => simp
  | cons j order ih =>
      obtain ⟨s', hstep, hrest⟩ := Option.bind_eq_some_iff.mp h
      obtain ⟨⟨outcome, after⟩, hdecide, rfl⟩ := Option.map_eq_some_iff.mp hstep
      have hok := ok_of_toOption hdecide
      obtain ⟨row, hdecides⟩ := decideWith_decides hok
      intro i hi a table id ha hentity
      rcases List.mem_cons.mp hi with rfl | hi
      · obtain rfl := Option.some.inj (hdecides.named.symm.trans ha)
        obtain ⟨row', published, hcheck, hpublish, -⟩ := decideWith_ok hok
        obtain ⟨hrow', -⟩ := checkDecision_lock_ok hcheck
        obtain rfl := Option.some.inj (hdecides.named.symm.trans hrow')
        rw [← marketValueMismatch_updateAssertion s i .accepted]
        rcases publishDecision_ok hpublish with ⟨hnone, -⟩ | ⟨-, -, hmatch, -⟩
        · rw [hentity, marketTarget_entity] at hnone
          cases hnone
        · exact hmatch rfl
      · -- the decision changed neither the key of the assertion nor its row
        rw [← marketValueMismatch_decideWith hok]
        by_cases hji : j = i
        · subst hji
          obtain rfl := Option.some.inj (hdecides.named.symm.trans ha)
          refine ih hrest j hi (row.decide .accepted) table id ?_ hentity
          rw [hdecides.assertions, List.getElem?_modify_eq, ha]
          rfl
        · refine ih hrest i hi a table id ?_ hentity
          rw [hdecides.assertions, List.getElem?_modify_ne _ _ hji, ha]

end

/-- New snapshots as an import leaves them: one a table, unpublished, with
pending assertions, on a variant with no canonical one. -/
structure Imported (db db' : Tables) : Prop where
  alone : ∀ table id i, Created db db' table id → Created db db' table i → id = i
  stated : ∀ table id, Created db db' table id → ∃ a ∈ db'.assertions, a.entity = table.entity id
  pending : ∀ table id, Created db db' table id → ∀ a ∈ db'.assertions,
    a.entity = table.entity id → a.status ≠ .accepted ∧ a.isAccepted = false
  free : ∀ table id, Created db db' table id → ∀ snapshot, (db'.snapshots table)[id]? = some snapshot →
    ∀ other ∈ db'.snapshots table, other.variantId = snapshot.variantId → other.isCanonical = false

theorem Imported.curating {db db' : Tables} (h : Imported db db') {chosen : List ℕ}
    (hchosen : Chooses db db' chosen)
    (hagrees : ∀ i ∈ chosen, ∀ a, db'.assertions[i]? = some a →
      marketValueMismatch db' i a.entity a.fieldName = none) :
    Curating (Created db db') db' chosen := by
  -- nothing asserted on a new snapshot is accepted yet
  have hnone : ∀ table id, Created db db' table id → ∀ fieldName,
      fieldAccepted db' (table.entity id) fieldName = false := by
    intro table id hcreated fieldName
    rw [Bool.eq_false_iff]
    intro haccepted
    obtain ⟨a, ha, hentity, -, htrue⟩ := fieldAccepted_iff.mp haccepted
    rw [(h.pending table id hcreated a ha hentity).2] at htrue
    cases htrue
  refine ⟨h.alone, ?_, hchosen.one, ?_, h.stated, ?_, ?_⟩
  · intro i hi
    obtain ⟨a, ha, table, id, hcreated, hentity⟩ := hchosen.asserted i hi
    refine ⟨a, ha, ⟨table, id, hcreated, hentity⟩,
      (h.pending table id hcreated a (List.mem_of_getElem? ha) hentity).1, hagrees i hi a ha, ?_⟩
    rw [hentity]
    exact hnone table id hcreated a.fieldName
  · intro a ha table id hcreated hentity
    -- every field of a new snapshot is still to be accepted
    exact .inr (hchosen.each a ha table id hcreated hentity)
  · intro table id hcreated
    -- a canonical snapshot of the variant would block, and there is none
    refine blockingSnapshot_eq_none_iff.mpr ?_
    intro snapshot hsnapshot i other hother hvariant hcanonical
    rw [h.free table id hcreated snapshot hsnapshot other (List.mem_of_getElem? hother) hvariant]
      at hcanonical
    cases hcanonical
  · intro table id hcreated
    obtain ⟨snapshot, hsnapshot⟩ : ∃ snapshot, (db'.snapshots table)[id]? = some snapshot :=
      ⟨_, List.getElem?_eq_getElem hcreated.2⟩
    refine ⟨snapshot, hsnapshot, ?_⟩
    rw [h.free table id hcreated snapshot hsnapshot snapshot (List.mem_of_getElem? hsnapshot) rfl,
      eq_comm, Bool.eq_false_iff]
    intro hpublishable
    obtain ⟨⟨a, ha, hentity, haccepted⟩, -⟩ := publishable_iff.mp hpublishable
    rw [(h.pending table id hcreated a ha hentity).2] at haccepted
    cases haccepted

theorem curatable_iff_agrees {db db' : Tables} (h : Imported db db') :
    Curatable db db' ↔ ∀ a ∈ db'.assertions, ∀ table id, Created db db' table id →
      a.entity = table.entity id → ∃ (i : ℕ) (b : SourceAssertion), db'.assertions[i]? = some b ∧
        b.entity = a.entity ∧ b.fieldName = a.fieldName ∧
        marketValueMismatch db' i b.entity b.fieldName = none := by
  constructor
  · rintro ⟨chosen, hchosen, hruns⟩ a ha table id hcreated hentity
    obtain ⟨i, hi, b, hb, hbentity, hbfield⟩ := hchosen.each a ha table id hcreated hentity
    obtain ⟨final, hrun, -⟩ := hruns chosen (List.Perm.refl chosen)
    exact ⟨i, b, hb, hbentity, hbfield,
      acceptAll_agrees hrun i hi b table id hb (hbentity.trans hentity)⟩
  · intro hall
    classical
    -- one agreeing assertion for each field, in the order of the fields
    let key : SourceAssertion → Entity × String := fun a => (a.entity, a.fieldName)
    let fresh : SourceAssertion → Prop := fun a =>
      ∃ table id, Created db db' table id ∧ a.entity = table.entity id
    let keys := ((db'.assertions.filter fresh).map key).dedup
    have hkeys : ∀ k, k ∈ keys ↔ ∃ a ∈ db'.assertions, fresh a ∧ key a = k := by
      intro k
      simp [keys, and_assoc]
    have hpick : ∀ k, k ∈ keys → ∃ i, ∃ b : SourceAssertion, db'.assertions[i]? = some b ∧
        key b = k ∧ marketValueMismatch db' i b.entity b.fieldName = none := by
      intro k hk
      obtain ⟨a, ha, ⟨table, id, hcreated, hentity⟩, rfl⟩ := (hkeys k).mp hk
      obtain ⟨i, b, hb, hbentity, hbfield, hmatch⟩ := hall a ha table id hcreated hentity
      exact ⟨i, b, hb, Prod.ext hbentity hbfield, hmatch⟩
    choose! pick hrow using hpick
    have hchosen : Chooses db db' (keys.map pick) := by
      refine ⟨?_, ?_, ?_⟩
      · intro i hi
        obtain ⟨k, hk, rfl⟩ := List.mem_map.mp hi
        obtain ⟨b, hb, hbkey, -⟩ := hrow k hk
        obtain ⟨a, -, ⟨table, id, hcreated, hentity⟩, hakey⟩ := (hkeys k).mp hk
        exact ⟨b, hb, table, id, hcreated,
          (congrArg Prod.fst (hbkey.trans hakey.symm)).trans hentity⟩
      · intro a ha table id hcreated hentity
        have hk : key a ∈ keys := (hkeys _).mpr ⟨a, ha, ⟨table, id, hcreated, hentity⟩, rfl⟩
        obtain ⟨b, hb, hbkey, -⟩ := hrow _ hk
        exact ⟨pick (key a), List.mem_map_of_mem hk, b, hb, congrArg Prod.fst hbkey,
          congrArg Prod.snd hbkey⟩
      · refine List.pairwise_map.mpr ((List.nodup_dedup _).imp_of_mem ?_)
        intro k l hk hl hne a b ha hb hentity hfield
        obtain ⟨a', ha', hakey, -⟩ := hrow k hk
        obtain ⟨b', hb', hbkey, -⟩ := hrow l hl
        obtain rfl := Option.some.inj (ha.symm.trans ha')
        obtain rfl := Option.some.inj (hb.symm.trans hb')
        exact hne (hakey.symm.trans ((Prod.ext hentity hfield).trans hbkey))
    refine ⟨keys.map pick, hchosen, ?_⟩
    intro order horder
    refine ((h.curating hchosen ?_).perm horder).run
    intro i hi a ha
    obtain ⟨k, hk, rfl⟩ := List.mem_map.mp hi
    obtain ⟨b, hb, -, hmatch⟩ := hrow k hk
    obtain rfl := Option.some.inj (ha.symm.trans hb)
    exact hmatch

end Curation

end AircraftApi
