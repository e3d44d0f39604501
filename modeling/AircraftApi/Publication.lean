/-
AircraftApi/Publication.lean

What a canonical market snapshot serves, over every run of imports and
decisions.

A decision publishes a snapshot only when every field asserted on it has an
accepted assertion, and checks the number of the assertion it accepts against
the row.  Nothing looks again when a later artifact of the same day adds to the
row: `late_item_served_unaccepted` is a run in which a hangar cost nobody
accepted is served.  And an assertion without a number passes the check of any
row.

The condition (`Safe`) is on the state before a step: an import writes to a
standing snapshot only what the acceptances there cover (`Covers`), and an
assertion without a number is accepted only where nothing is stored.  In the
runs that meet it the acceptances of a snapshot stay true (`Sound`), and a step
that breaks it breaks them.
-/
import AircraftApi.Market
import AircraftApi.PlanePhd
import AircraftApi.Transition

namespace AircraftApi

namespace Curation

open Transition

/-! ### Runs -/

/-- An import, or a decision. -/
inductive Action
  | importRecord (record : PreparedAircraftRecord) (variantId documentId : ℕ) (day : ℤ)
      (source : String)
  | decide (assertionId : ℕ) (decision : Decision)

/-- An aborted import and a refused decision are no steps. -/
def step (db : Tables) : Action → Option Tables
  | .importRecord record variantId documentId day source =>
      promoteMarket db record variantId documentId day source
  | .decide assertionId decision => (decideWith db assertionId decision).toOption.map Prod.snd

/-- Imports and decisions in any order. -/
def market : System Tables Action := .ofStep .empty step

/-! ### What is served -/

/-- The values of a snapshot, under the fields they are asserted as. -/
inductive Serves (db : Tables) : Entity → String → ℚ → Prop
  | price {id row x} : db.valuations[id]? = some row → row.papiPriceEstimate = some x →
      Serves db ⟨.valuation, id⟩ "papi_price_estimate" x
  | forSale {id row n} : db.valuations[id]? = some row → row.forSaleCount = some n →
      Serves db ⟨.valuation, id⟩ "for_sale_count" (n : ℤ)
  | totalAnnual {id totals x} : db.costSnapshotTotals.lookup id = some totals →
      totals.totalAnnualUsd = some x → Serves db ⟨.costSnapshot, id⟩ "TOTAL_COST_ANNUAL" x
  | totalFixed {id totals x} : db.costSnapshotTotals.lookup id = some totals →
      totals.totalFixedUsd = some x → Serves db ⟨.costSnapshot, id⟩ "TOTAL_FIXED_COST" x
  | totalVariable {id totals x} : db.costSnapshotTotals.lookup id = some totals →
      totals.totalVariableUsd = some x → Serves db ⟨.costSnapshot, id⟩ "TOTAL_VARIABLE_COST" x
  | annual {id code line x} : db.costLineItems.lookup (id, code) = some line →
      line.amountAnnual = some x → Serves db ⟨.costSnapshot, id⟩ code x
  | perHour {id code line x} : db.costLineItems.lookup (id, code) = some line →
      line.amountPerHour = some x → Serves db ⟨.costSnapshot, id⟩ code x

theorem storedValue_of_serves {db : Tables} (hplain : PlainLines db) {entity : Entity}
    {fieldName : String} {x : ℚ} (h : Serves db entity fieldName x) :
    storedValue db entity fieldName = some x := by
  cases h with
  | price hrow hx =>
      rw [storedValue, valuationColumn_price, Option.bind_some, hrow, Option.bind_some, hx]
  | forSale hrow hn =>
      rw [storedValue, valuationColumn_forSale, Option.bind_some, hrow, Option.bind_some, hn,
        Option.map_some]
  | totalAnnual htotals hx => simpa [storedValue, costTotalColumn, htotals] using hx
  | totalFixed htotals hx => simpa [storedValue, costTotalColumn, htotals] using hx
  | totalVariable htotals hx => simpa [storedValue, costTotalColumn, htotals] using hx
  | annual hline hx =>
      obtain ⟨hcode, -⟩ := hplain _ _ _ hline
      simp [storedValue, hcode, hline, CostLineItem.amount, hx]
  | perHour hline hx =>
      obtain ⟨hcode, hone⟩ := hplain _ _ _ hline
      rcases hone with hannual | hnone
      · simp [storedValue, hcode, hline, CostLineItem.amount, hannual, hx]
      · rw [hnone] at hx
        cases hx

/-- The snapshot is canonical. -/
def Published (db : Tables) (table : MarketTable) (id : ℕ) : Prop :=
  ∃ snapshot, (db.snapshots table)[id]? = some snapshot ∧ snapshot.isCanonical = true

theorem fieldAccepted_iff {db : Tables} {entity : Entity} {fieldName : String} :
    fieldAccepted db entity fieldName = true ↔
      ∃ a ∈ db.assertions, a.entity = entity ∧ a.fieldName = fieldName ∧ a.isAccepted = true := by
  simp [fieldAccepted]

theorem publishable_iff {db : Tables} {entity : Entity} :
    publishable db entity = true ↔
      (∃ a ∈ db.assertions, a.entity = entity ∧ a.isAccepted = true) ∧
      ∀ a ∈ db.assertions, a.entity = entity → fieldAccepted db entity a.fieldName = true := by
  simp [publishable]

/-- On an entity with assertions, full acceptance is enough. -/
theorem publishable_iff_of_mem {db : Tables} {entity : Entity}
    (h : ∃ a ∈ db.assertions, a.entity = entity) :
    publishable db entity = true ↔
      ∀ a ∈ db.assertions, a.entity = entity → fieldAccepted db entity a.fieldName = true := by
  rw [publishable_iff]
  constructor
  · exact fun hall => hall.2
  · intro hall
    obtain ⟨a, ha, hentity⟩ := h
    obtain ⟨b, hb, hbentity, -, haccepted⟩ := fieldAccepted_iff.mp (hall a ha hentity)
    exact ⟨⟨b, hb, hbentity, haccepted⟩, hall⟩

/-! ### The invariant -/

/-- What holds of the tables whatever the steps. -/
structure WellFormed (db : Tables) : Prop where
  plain : PlainLines db
  known : ∀ a ∈ db.assertions, ∀ table id, a.entity = table.entity id →
    id < (db.snapshots table).length
  recorded : ∀ entity fieldName x, storedValue db entity fieldName = some x →
    ∃ a ∈ db.assertions, a.entity = entity ∧ a.fieldName = fieldName

/-- The acceptances are true: an accepted assertion states what is stored, and
a canonical snapshot has one for every field. -/
structure Sound (db : Tables) : Prop where
  agrees : ∀ a ∈ db.assertions, a.isAccepted = true →
    ∀ x, storedValue db a.entity a.fieldName = some x → a.assertedNumeric = some x
  whole : ∀ table id, Published db table id → ∀ a ∈ db.assertions, a.entity = table.entity id →
    fieldAccepted db a.entity a.fieldName = true

/-! ### The condition -/

/-- The acceptances of a snapshot cover what an import writes to it: on a
canonical one every field it asserts, and where it fills an empty place of an
accepted field the number it fills in. -/
structure Covers (db : Tables) (table : MarketTable) (id : ℕ) (fields : List String)
    (stores : String → Option ℚ) : Prop where
  whole : Published db table id → ∀ f ∈ fields, fieldAccepted db (table.entity id) f = true
  agrees : ∀ f x, stores f = some x → storedValue db (table.entity id) f = none →
    ∀ a ∈ db.assertions, a.entity = table.entity id → a.fieldName = f → a.isAccepted = true →
      a.assertedNumeric = some x

/-- An import onto a standing snapshot is covered by its acceptances, and an
acceptance without a number is of a field that stores none. -/
def Safe (db : Tables) : Action → Prop
  | .importRecord record variantId _ day source =>
      (∀ id ∈ snapshotId (db.snapshots .valuations) variantId day source,
        Covers db .valuations id (valuationFields record.valuation) fun _ => none) ∧
      ∀ id ∈ snapshotId (db.snapshots .costSnapshots) variantId day source,
        Covers db .costSnapshots id (record.operatingCosts.map costField)
          fun f => (record.operatingCosts.filterMap costStores).lookup f
  | .decide assertionId .accepted => ∀ a, db.assertions[assertionId]? = some a →
      a.assertedNumeric = none → storedValue db a.entity a.fieldName = none
  | .decide _ .rejected => True

/-! ### Imports -/

section

variable {db db' : Tables} {table : MarketTable} {id : ℕ} {fields : List String}
variable {stores : String → Option ℚ}

theorem Writes.mem (h : Writes db db' table id fields stores) {a : SourceAssertion} :
    a ∈ db'.assertions → a ∈ db.assertions ∨
      a.entity = table.entity id ∧ a.fieldName ∈ fields ∧ a.isAccepted = false := by
  obtain ⟨added, hadded, hfields, hpending⟩ := h.asserted
  intro ha
  rw [hadded] at ha
  rcases List.mem_append.mp ha with ha | ha
  · exact .inl ha
  · refine .inr ⟨(hpending a ha).1, ?_, (hpending a ha).2.1⟩
    rw [← hfields]
    exact List.mem_map_of_mem ha

theorem Writes.mem_old (h : Writes db db' table id fields stores) {a : SourceAssertion}
    (ha : a ∈ db.assertions) : a ∈ db'.assertions := by
  obtain ⟨added, hadded, -⟩ := h.asserted
  rw [hadded]
  exact List.mem_append_left _ ha

theorem Writes.mem_new (h : Writes db db' table id fields stores) {f : String} (hf : f ∈ fields) :
    ∃ a ∈ db'.assertions, a.entity = table.entity id ∧ a.fieldName = f := by
  obtain ⟨added, hadded, hfields, hpending⟩ := h.asserted
  rw [← hfields] at hf
  obtain ⟨a, ha, rfl⟩ := List.mem_map.mp hf
  refine ⟨a, ?_, (hpending a ha).1, rfl⟩
  rw [hadded]
  exact List.mem_append_right _ ha

theorem Writes.mem_accepted (h : Writes db db' table id fields stores) {a : SourceAssertion}
    (ha : a ∈ db'.assertions) (haccepted : a.isAccepted = true) : a ∈ db.assertions := by
  rcases h.mem ha with hold | ⟨-, -, hpending⟩
  · exact hold
  · rw [haccepted] at hpending
    cases hpending

/-- An import accepts nothing. -/
theorem Writes.fieldAccepted_eq (h : Writes db db' table id fields stores) (entity : Entity)
    (f : String) : fieldAccepted db' entity f = fieldAccepted db entity f := by
  rw [Bool.eq_iff_iff, fieldAccepted_iff, fieldAccepted_iff]
  constructor
  · rintro ⟨a, ha, hentity, hfield, haccepted⟩
    exact ⟨a, h.mem_accepted ha haccepted, hentity, hfield, haccepted⟩
  · rintro ⟨a, ha, hrest⟩
    exact ⟨a, h.mem_old ha, hrest⟩

/-- An import publishes nothing and withdraws nothing. -/
theorem Writes.published_iff (h : Writes db db' table id fields stores) {other : MarketTable}
    {i : ℕ} : Published db' other i ↔ Published db other i := by
  by_cases hother : other = table
  · subst hother
    rcases h.row with ⟨-, hsame⟩ | ⟨-, fresh, hfresh, hnew⟩
    · rw [Published, Published, hsame]
    · rw [Published, Published, hnew]
      by_cases hi : i = (db.snapshots other).length
      · subst hi
        simp [hfresh]
      · rw [getElem?_concat_of_ne hi]
  · rw [Published, Published, h.others other hother]

theorem Writes.length_le (h : Writes db db' table id fields stores) (other : MarketTable) :
    (db.snapshots other).length ≤ (db'.snapshots other).length := by
  by_cases hother : other = table
  · subst hother
    rcases h.row with ⟨-, hsame⟩ | ⟨-, fresh, -, hnew⟩
    · rw [hsame]
    · simp [hnew]
  · rw [h.others other hother]

theorem Writes.id_lt (h : Writes db db' table id fields stores) :
    id < (db'.snapshots table).length := by
  rcases h.row with ⟨hid, hsame⟩ | ⟨hid, fresh, -, hnew⟩
  · rwa [hsame]
  · simp [hnew, hid]

theorem Writes.storedValue_old (h : Writes db db' table id fields stores) {entity : Entity}
    {f : String} {x : ℚ} (hx : storedValue db entity f = some x) :
    storedValue db' entity f = some x := by
  rw [h.stored, hx, Option.some_or]

theorem Writes.wellFormed (h : Writes db db' table id fields stores)
    (hwithin : ∀ f x, stores f = some x → f ∈ fields) (hdb : WellFormed db) : WellFormed db' where
  plain := h.plain hdb.plain
  known := by
    intro a ha other i hentity
    rcases h.mem ha with hold | ⟨hnew, -⟩
    · exact (hdb.known a hold other i hentity).trans_le (h.length_le other)
    · obtain ⟨rfl, rfl⟩ := MarketTable.entity_inj (hentity.symm.trans hnew)
      exact h.id_lt
  recorded := by
    intro entity f x hx
    rw [h.stored, Option.or_eq_some_iff] at hx
    rcases hx with hold | ⟨-, hnew⟩
    · obtain ⟨a, ha, hrest⟩ := hdb.recorded entity f x hold
      exact ⟨a, h.mem_old ha, hrest⟩
    · split_ifs at hnew with hentity
      obtain ⟨a, ha, hrest⟩ := h.mem_new (hwithin f x hnew)
      exact ⟨a, ha, hrest.1.trans hentity.symm, hrest.2⟩

/-- An import keeps the acceptances true exactly when they cover it. -/
theorem Writes.sound_iff (h : Writes db db' table id fields stores) (hdb : Sound db) :
    Sound db' ↔ Covers db table id fields stores := by
  constructor
  · intro hdb'
    constructor
    · intro hpublished f hf
      -- a new field of a published snapshot must be accepted already
      obtain ⟨a, ha, hentity, rfl⟩ := h.mem_new hf
      rw [← h.fieldAccepted_eq, ← hentity]
      exact hdb'.whole table id (h.published_iff.mpr hpublished) a ha hentity
    · rintro f x hx hnone a ha hentity rfl haccepted
      -- and a value must not be filled in against an accepted one
      refine hdb'.agrees a (h.mem_old ha) haccepted x ?_
      rw [h.stored, hentity, hnone, if_pos rfl, Option.none_or, hx]
  · rintro ⟨hwhole, hagrees⟩
    constructor
    · intro a ha haccepted x hx
      have hold := h.mem_accepted ha haccepted
      rw [h.stored, Option.or_eq_some_iff] at hx
      rcases hx with hx | ⟨hnone, hx⟩
      · exact hdb.agrees a hold haccepted x hx
      · -- the value was none before, and is filled in now
        split_ifs at hx with hentity
        rw [hentity] at hnone
        exact hagrees _ x hx hnone a hold hentity rfl haccepted
    · intro other i hpublished a ha hentity
      rw [h.published_iff] at hpublished
      rw [h.fieldAccepted_eq]
      rcases h.mem ha with hold | ⟨hnew, hfield, -⟩
      · exact hdb.whole other i hpublished a hold hentity
      · obtain ⟨rfl, rfl⟩ := MarketTable.entity_inj (hentity.symm.trans hnew)
        rw [hnew]
        exact hwhole hpublished _ hfield

/-- What is true after an import was true before it. -/
theorem Writes.sound_of (h : Writes db db' table id fields stores) (hdb' : Sound db') :
    Sound db where
  agrees := fun a ha haccepted x hx =>
    hdb'.agrees a (h.mem_old ha) haccepted x (h.storedValue_old hx)
  whole := by
    intro other i hpublished a ha hentity
    rw [← h.fieldAccepted_eq]
    exact hdb'.whole other i (h.published_iff.mpr hpublished) a (h.mem_old ha) hentity

/-- A new snapshot has no acceptances to cover. -/
theorem covers_fresh (hdb : WellFormed db) (hid : id = (db.snapshots table).length) :
    Covers db table id fields stores where
  whole := by
    rintro ⟨snapshot, hsnapshot, -⟩
    rw [hid, List.getElem?_eq_none le_rfl] at hsnapshot
    cases hsnapshot
  agrees := by
    intro f x _ _ a ha hentity
    exact absurd (hdb.known a ha table id hentity) (by omega)

/-- An import to the other table covers what it did before. -/
theorem Writes.covers_iff (h : Writes db db' table id fields stores) {other : MarketTable} {i : ℕ}
    (hother : other ≠ table) {fields' : List String} {stores' : String → Option ℚ} :
    Covers db' other i fields' stores' ↔ Covers db other i fields' stores' := by
  have hne : other.entity i ≠ table.entity id := fun heq =>
    hother (MarketTable.entity_inj heq).1
  have hstored : ∀ f, storedValue db' (other.entity i) f = storedValue db (other.entity i) f := by
    intro f
    rw [h.stored, if_neg hne, Option.or_none]
  constructor
  · rintro ⟨hwhole, hagrees⟩
    constructor
    · intro hpublished f hf
      rw [← h.fieldAccepted_eq]
      exact hwhole (h.published_iff.mpr hpublished) f hf
    · intro f x hx hnone a ha
      exact hagrees f x hx ((hstored f).trans hnone) a (h.mem_old ha)
  · rintro ⟨hwhole, hagrees⟩
    constructor
    · intro hpublished f hf
      rw [h.fieldAccepted_eq]
      exact hwhole (h.published_iff.mp hpublished) f hf
    · intro f x hx hnone a ha hentity hfield haccepted
      exact hagrees f x hx ((hstored f).symm.trans hnone) a (h.mem_accepted ha haccepted) hentity
        hfield haccepted

/-! ### One import -/

theorem covers_nothing : Covers db table id [] fun _ => none where
  whole := fun _ f hf => by cases hf
  agrees := fun f x hx => by cases hx

theorem valuationStores_within {valuation : ValuationInput} {text f : String} {price x : ℚ}
    (hprice : valuation.papiPriceEstimate = some text)
    (h : valuationStores price valuation.forSaleCount f = some x) :
    f ∈ valuationFields valuation := by
  rw [valuationFields, hprice, Option.isSome_some, if_pos rfl]
  unfold valuationStores valuationColumn at h
  split_ifs at h with hname hname
  · rw [hname]
    exact List.mem_cons_self
  · rcases hcount : valuation.forSaleCount with - | count
    · rw [hcount] at h
      cases h
    · rw [hname]
      exact List.mem_cons_of_mem _ List.mem_cons_self
  · cases h

theorem costStores_within {items : List CostItemInput} {f : String} {x : ℚ}
    (h : (items.filterMap costStores).lookup f = some x) : f ∈ items.map costField := by
  obtain ⟨item, hitem, hstores⟩ := List.mem_filterMap.mp (mem_of_lookup h)
  obtain ⟨code, hcode, hrest⟩ := Option.bind_eq_some_iff.mp hstores
  obtain ⟨amount, -, hvalue⟩ := Option.bind_eq_some_iff.mp hrest
  obtain ⟨q, -, hpair⟩ := Option.map_eq_some_iff.mp hvalue
  cases hpair
  refine List.mem_map.mpr ⟨item, hitem, ?_⟩
  rw [costField, hcode, Option.getD_some]

section

variable {variantId documentId : ℕ} {day : ℤ} {source : String}

theorem promoteCosts_iff {items : List CostItemInput} (hdb : WellFormed db) (hsound : Sound db)
    (h : promoteCosts db items variantId documentId day source = some db') :
    WellFormed db' ∧ (Sound db' ↔
      ∀ id ∈ snapshotId (db.snapshots .costSnapshots) variantId day source,
        Covers db .costSnapshots id (items.map costField)
          fun f => (items.filterMap costStores).lookup f) := by
  rcases eq_or_ne items [] with rfl | hitems
  · cases h
    exact ⟨hdb, fun _ _ _ => covers_nothing, fun _ => hsound⟩
  · obtain ⟨i, hwrites, hi⟩ := promoteCosts_writes hitems h
    refine ⟨hwrites.wellFormed (fun f x => costStores_within) hdb, ?_⟩
    rw [hwrites.sound_iff hsound]
    rcases hi with hi | ⟨hi, hfresh⟩
    · simp [hi]
    · simp [hi, covers_fresh hdb hfresh]

theorem promoteValuation_iff {valuation : ValuationInput} (hdb : WellFormed db) (hsound : Sound db)
    (h : promoteValuation db valuation variantId documentId day source = some db') :
    WellFormed db' ∧
      (Sound db' ↔ ∀ id ∈ snapshotId (db.snapshots .valuations) variantId day source,
        Covers db .valuations id (valuationFields valuation) fun _ => none) ∧
      (db' = db ∨ ∃ i stores, Writes db db' .valuations i (valuationFields valuation) stores) := by
  rcases hprice : valuation.papiPriceEstimate with - | text
  · have hsame : db' = db := by
      rw [promoteValuation, hprice] at h
      exact (Option.some.inj h).symm
    have hfields : valuationFields valuation = [] := by
      rw [valuationFields, hprice]
      rfl
    rw [hsame, hfields]
    exact ⟨hdb, ⟨fun _ _ _ => covers_nothing, fun _ => hsound⟩, .inl rfl⟩
  · obtain ⟨i, hi⟩ := promoteValuation_writes hprice h
    rcases hi with ⟨hi, hwrites⟩ | ⟨price, hi, hfresh, hwrites⟩
    · refine ⟨hwrites.wellFormed (fun f x hx => by cases hx) hdb, ?_, .inr ⟨i, _, hwrites⟩⟩
      rw [hwrites.sound_iff hsound]
      simp [hi]
    · refine ⟨hwrites.wellFormed (fun f x => valuationStores_within hprice) hdb, ?_,
        .inr ⟨i, _, hwrites⟩⟩
      rw [hwrites.sound_iff hsound]
      simp [hi, covers_fresh hdb hfresh]

theorem promoteMarket_iff {record : PreparedAircraftRecord} (hdb : WellFormed db)
    (hsound : Sound db)
    (h : promoteMarket db record variantId documentId day source = some db') :
    WellFormed db' ∧
      (Sound db' ↔ Safe db (.importRecord record variantId documentId day source)) := by
  obtain ⟨db₁, hvaluation, hcosts⟩ := Option.bind_eq_some_iff.mp h
  obtain ⟨hdb₁, hfirst, hwrites⟩ := promoteValuation_iff hdb hsound hvaluation
  have hkept : db₁.snapshots .costSnapshots = db.snapshots .costSnapshots := by
    rcases hwrites with rfl | ⟨i, stores, hwrites⟩
    · rfl
    · exact hwrites.others _ (by decide)
  have hcovers : ∀ {i fields stores}, Covers db₁ .costSnapshots i fields stores ↔
      Covers db .costSnapshots i fields stores := by
    intro i fields stores
    rcases hwrites with rfl | ⟨j, stores', hwrites⟩
    · exact Iff.rfl
    · exact hwrites.covers_iff (by decide)
  -- an unsound valuation stays unsound, whatever the costs
  have hback : Sound db' → Sound db₁ := by
    rcases eq_or_ne record.operatingCosts [] with hitems | hitems
    · rw [hitems] at hcosts
      cases hcosts
      exact id
    · obtain ⟨i, hwrites, -⟩ := promoteCosts_writes hitems hcosts
      exact hwrites.sound_of
  refine ⟨?_, ?_⟩
  · rcases eq_or_ne record.operatingCosts [] with hitems | hitems
    · rw [hitems] at hcosts
      cases hcosts
      exact hdb₁
    · obtain ⟨i, hwrites, -⟩ := promoteCosts_writes hitems hcosts
      exact hwrites.wellFormed (fun f x => costStores_within) hdb₁
  · constructor
    · intro hdb'
      have hsound₁ := hback hdb'
      refine ⟨hfirst.mp hsound₁, ?_⟩
      have hsecond := (promoteCosts_iff hdb₁ hsound₁ hcosts).2.mp hdb'
      rw [hkept] at hsecond
      exact fun i hi => hcovers.mp (hsecond i hi)
    · rintro ⟨hvaluations, hcostSnapshots⟩
      refine (promoteCosts_iff hdb₁ (hfirst.mpr hvaluations) hcosts).2.mpr ?_
      rw [hkept]
      exact fun i hi => hcovers.mpr (hcostSnapshots i hi)

end

end

/-! ### One decision -/

section

variable {db db' : Tables} {assertionId : ℕ} {decision : Decision} {outcome : CurationOutcome}

/-- The market rows a decision leaves: the tables after the update of the
assertion, with the flag of its snapshot recomputed. -/
structure Decides (db db' : Tables) (assertionId : ℕ) (decision : Decision)
    (row : SourceAssertion) : Prop where
  named : db.assertions[assertionId]? = some row
  assertions : db'.assertions = db.assertions.modify assertionId (SourceAssertion.decide decision)
  stored : storedValue db' = storedValue db
  lines : db'.costLineItems = db.costLineItems
  length : ∀ table, (db'.snapshots table).length = (db.snapshots table).length
  others : ∀ table id, table.entity id ≠ row.entity →
    (db'.snapshots table)[id]? = (db.snapshots table)[id]?
  unit : ∀ table id, table.entity id = row.entity → Published db' table id →
    publishable db' row.entity = true
  checked : decision = .accepted → ∀ value x, row.assertedNumeric = some value →
    storedValue db row.entity row.fieldName = some x → x = value

theorem decideWith_decides (h : decideWith db assertionId decision = .ok (outcome, db')) :
    ∃ row, Decides db db' assertionId decision row := by
  obtain ⟨row, published, hcheck, hpublish, flags, requests, rfl⟩ := decideWith_ok h
  obtain ⟨hrow, -, -⟩ := checkDecision_lock_ok hcheck
  refine ⟨row, ?_⟩
  rcases publishDecision_ok hpublish with ⟨hnone, measurements, rfl⟩ | ⟨table, htable, hmatch, rfl⟩
  · refine ⟨hrow, rfl, rfl, rfl, fun _ => rfl, fun _ _ _ => rfl, ?_, ?_⟩
    · intro table id hentity
      -- a field of a variant is on no snapshot
      rw [← hentity, marketTarget_entity] at hnone
      cases hnone
    · intro _ value x _ hx
      rw [storedValue_of_marketTarget_eq_none hnone] at hx
      cases hx
  · have hentity := entity_of_marketTarget htable
    -- a field of a snapshot: only this snapshot's flag is written
    have hsnapshots : ∀ other, (setCanonical (updateAssertion db assertionId decision) table
        row.entity.id (publishable (updateAssertion db assertionId decision) row.entity)).snapshots
        other = if other = table then (db.snapshots table).modify row.entity.id fun snapshot =>
          { snapshot with
            isCanonical := publishable (updateAssertion db assertionId decision) row.entity }
          else db.snapshots other := by
      intro other
      split_ifs with hother
      · rw [hother]
        exact snapshots_setCanonical _ _ _ _
      · exact snapshots_setCanonical_of_ne hother _ _ _
    refine ⟨hrow, ?_, storedValue_setCanonical _ _ _ _, ?_, ?_, ?_, ?_, ?_⟩
    · cases table <;> rfl
    · cases table <;> rfl
    · intro other
      show (Tables.snapshots (setCanonical _ _ _ _) other).length = _
      rw [hsnapshots]
      split_ifs with hother
      · rw [List.length_modify, hother]
      · rfl
    · intro other id hne
      show (Tables.snapshots (setCanonical _ _ _ _) other)[id]? = _
      rw [hsnapshots]
      split_ifs with hother
      · subst hother
        have hid : row.entity.id ≠ id := by
          rintro rfl
          exact hne hentity
        exact List.getElem?_modify_ne _ _ hid
      · rfl
    · rintro other id hother ⟨snapshot, hsnapshot, hcanonical⟩
      obtain ⟨rfl, rfl⟩ := MarketTable.entity_inj (hother.trans hentity.symm)
      have hlookup : (Tables.snapshots (setCanonical (updateAssertion db assertionId decision) other
          row.entity.id (publishable (updateAssertion db assertionId decision) row.entity))
          other)[row.entity.id]? = some snapshot := hsnapshot
      rw [hsnapshots, if_pos rfl, List.getElem?_modify_eq] at hlookup
      obtain ⟨before, -, rfl⟩ := Option.map_eq_some_iff.mp hlookup
      cases other <;> exact hcanonical
    · intro haccept value x hvalue hx
      have hdecided : (updateAssertion db assertionId decision).assertions[assertionId]?
          = some (row.decide decision) := by simp [updateAssertion, hrow]
      exact storedValue_of_marketValueMismatch (hmatch haccept) hdecided hvalue hx

theorem Decides.mem {row a : SourceAssertion} (h : Decides db db' assertionId decision row)
    (ha : a ∈ db'.assertions) : a ∈ db.assertions ∨ a = row.decide decision := by
  obtain ⟨i, hi⟩ := List.mem_iff_getElem?.mp ha
  rw [h.assertions] at hi
  by_cases hid : assertionId = i
  · subst hid
    rw [List.getElem?_modify_eq, h.named] at hi
    exact .inr (Option.some.inj hi).symm
  · rw [List.getElem?_modify_ne _ _ hid] at hi
    exact .inl (List.mem_of_getElem? hi)

/-- Every assertion is still there, but for its decision. -/
theorem Decides.mem_of_mem {row a : SourceAssertion} (h : Decides db db' assertionId decision row)
    (ha : a ∈ db.assertions) :
    ∃ a' ∈ db'.assertions, a'.entity = a.entity ∧ a'.fieldName = a.fieldName ∧
      (a.entity ≠ row.entity → a' = a) := by
  obtain ⟨i, hi⟩ := List.mem_iff_getElem?.mp ha
  by_cases hid : assertionId = i
  · subst hid
    obtain rfl := Option.some.inj (hi.symm.trans h.named)
    refine ⟨a.decide decision, ?_, rfl, rfl, fun hne => absurd rfl hne⟩
    refine List.mem_of_getElem? (i := assertionId) ?_
    rw [h.assertions, List.getElem?_modify_eq, hi]
    rfl
  · refine ⟨a, List.mem_of_getElem? (i := i) ?_, rfl, rfl, fun _ => rfl⟩
    rw [h.assertions, List.getElem?_modify_ne _ _ hid, hi]

theorem Decides.wellFormed {row : SourceAssertion} (h : Decides db db' assertionId decision row)
    (hdb : WellFormed db) : WellFormed db' where
  plain := by
    intro id code line hline
    rw [h.lines] at hline
    exact hdb.plain id code line hline
  known := by
    intro a ha table id hentity
    rw [h.length]
    rcases h.mem ha with hold | rfl
    · exact hdb.known a hold table id hentity
    · exact hdb.known row (List.mem_of_getElem? h.named) table id hentity
  recorded := by
    intro entity f x hx
    rw [h.stored] at hx
    obtain ⟨a, ha, rfl, rfl⟩ := hdb.recorded entity f x hx
    obtain ⟨a', ha', hentity, hfield, -⟩ := h.mem_of_mem ha
    exact ⟨a', ha', hentity, hfield⟩

/-- The decision touches the acceptances of its own entity only. -/
theorem Decides.fieldAccepted_of_ne {row : SourceAssertion}
    (h : Decides db db' assertionId decision row) {entity : Entity} (hne : entity ≠ row.entity)
    (f : String) : fieldAccepted db' entity f = fieldAccepted db entity f := by
  rw [Bool.eq_iff_iff, fieldAccepted_iff, fieldAccepted_iff]
  constructor
  · rintro ⟨a, ha, hentity, hrest⟩
    rcases h.mem ha with hold | rfl
    · exact ⟨a, hold, hentity, hrest⟩
    · exact absurd hentity.symm hne
  · rintro ⟨a, ha, hentity, hrest⟩
    obtain ⟨a', ha', -, -, hsame⟩ := h.mem_of_mem ha
    obtain rfl := hsame (by rw [hentity]; exact hne)
    exact ⟨a', ha', hentity, hrest⟩

/-- A decision keeps the acceptances true exactly when it accepts a number, or
where none is stored. -/
theorem Decides.sound_iff {row : SourceAssertion} (h : Decides db db' assertionId decision row)
    (hsound : Sound db) : Sound db' ↔ Safe db (.decide assertionId decision) := by
  have hmem : row.decide decision ∈ db'.assertions := by
    refine List.mem_of_getElem? (i := assertionId) ?_
    rw [h.assertions, List.getElem?_modify_eq, h.named]
    rfl
  constructor
  · intro hdb'
    cases decision with
    | rejected => trivial
    | accepted =>
        intro a ha hnumeric
        obtain rfl := Option.some.inj (ha.symm.trans h.named)
        -- an accepted field without a number must not have a stored one
        rcases hx : storedValue db a.entity a.fieldName with - | x
        · rfl
        · have hagrees := hdb'.agrees _ hmem rfl x (by rw [h.stored]; exact hx)
          rw [show (a.decide .accepted).assertedNumeric = none from hnumeric] at hagrees
          cases hagrees
  · intro hsafe
    constructor
    · intro a ha haccepted x hx
      rw [h.stored] at hx
      rcases h.mem ha with hold | rfl
      · exact hsound.agrees a hold haccepted x hx
      · cases decision with
        | rejected => cases haccepted
        | accepted =>
            rcases hnumeric : row.assertedNumeric with - | value
            · have hnone := hsafe row h.named hnumeric
              rw [show storedValue db row.entity row.fieldName = some x from hx] at hnone
              cases hnone
            · -- the comparison went through
              obtain rfl := h.checked rfl value x hnumeric hx
              exact hnumeric
    · intro table id hpublished a ha hentity
      by_cases hsame : table.entity id = row.entity
      · -- the snapshot was published because every field is accepted
        have hpublishable := h.unit table id hsame hpublished
        rw [← hsame, ← hentity] at hpublishable
        exact (publishable_iff.mp hpublishable).2 a ha rfl
      · have hne : a.entity ≠ row.entity := by
          rw [hentity]
          exact hsame
        rw [h.fieldAccepted_of_ne hne]
        rcases h.mem ha with hold | rfl
        · refine hsound.whole table id ?_ a hold hentity
          rw [Published, ← h.others table id hsame]
          exact hpublished
        · exact absurd rfl hne

end

/-! ### Every run -/

section

variable {db db' : Tables}

theorem ok_of_toOption {ε α : Type*} {x : Except ε α} {a : α} (h : x.toOption = some a) :
    x = .ok a := by
  rcases x with e | b
  · cases h
  · exact congrArg _ (Option.some.inj h)

theorem step_iff (hdb : WellFormed db) (hsound : Sound db) {action : Action}
    (h : step db action = some db') : WellFormed db' ∧ (Sound db' ↔ Safe db action) := by
  cases action with
  | importRecord record variantId documentId day source => exact promoteMarket_iff hdb hsound h
  | decide assertionId decision =>
      obtain ⟨⟨outcome, after⟩, hdecide, rfl⟩ := Option.map_eq_some_iff.mp h
      obtain ⟨row, hdecides⟩ := decideWith_decides (ok_of_toOption hdecide)
      exact ⟨hdecides.wellFormed hdb, hdecides.sound_iff hsound⟩

theorem wellFormed_empty : WellFormed .empty where
  plain := fun id code line hline => by cases hline
  known := fun a ha => by cases ha
  recorded := by
    rintro ⟨type, id⟩ f x hx
    cases type with
    | valuation =>
        obtain ⟨column, -, hrow⟩ := Option.bind_eq_some_iff.mp hx
        cases hrow
    | costSnapshot =>
        simp only [storedValue] at hx
        split at hx <;> cases hx
    | _ => cases hx

theorem sound_empty : Sound .empty where
  agrees := fun a ha => by cases ha
  whole := fun table id _ a ha => by cases ha

theorem sound_of_reachable (h : (market.guard Safe).Reachable db) : WellFormed db ∧ Sound db := by
  induction h with
  | init hinit => exact hinit ▸ ⟨wellFormed_empty, sound_empty⟩
  | step _ hstep ih =>
      obtain ⟨hdb, hiff⟩ := step_iff ih.1 ih.2 hstep.2
      exact ⟨hdb, hiff.mpr hstep.1⟩

/-- A canonical snapshot has an accepted assertion for every field asserted on
it, and serves only numbers that an accepted assertion of their field states. -/
def ServesAccepted (db : Tables) : Prop :=
  ∀ table id, Published db table id →
    (∀ a ∈ db.assertions, a.entity = table.entity id →
      ∃ b ∈ db.assertions, b.entity = table.entity id ∧ b.fieldName = a.fieldName ∧
        b.isAccepted = true) ∧
    ∀ fieldName x, Serves db (table.entity id) fieldName x →
      ∃ b ∈ db.assertions, b.entity = table.entity id ∧ b.fieldName = fieldName ∧
        b.isAccepted = true ∧ b.assertedNumeric = some x

theorem servesAccepted_of_sound (hdb : WellFormed db) (hsound : Sound db) : ServesAccepted db := by
  intro table id hpublished
  have hwhole : ∀ a ∈ db.assertions, a.entity = table.entity id →
      ∃ b ∈ db.assertions, b.entity = table.entity id ∧ b.fieldName = a.fieldName ∧
        b.isAccepted = true := by
    intro a ha hentity
    rw [← hentity]
    exact fieldAccepted_iff.mp (hsound.whole table id hpublished a ha hentity)
  refine ⟨hwhole, ?_⟩
  intro fieldName x hserves
  have hstored := storedValue_of_serves hdb.plain hserves
  obtain ⟨a, ha, hentity, rfl⟩ := hdb.recorded _ _ _ hstored
  obtain ⟨b, hb, hbentity, hbfield, haccepted⟩ := hwhole a ha hentity
  refine ⟨b, hb, hbentity, hbfield, haccepted, ?_⟩
  refine hsound.agrees b hb haccepted x ?_
  rw [hbentity, hbfield]
  exact hstored

/-- **Publication soundness**: in a run whose steps all meet the condition a
canonical snapshot serves only what was accepted; and one more step leaves the
acceptances true exactly when it meets the condition too. -/
theorem published_serves_accepted (h : (market.guard Safe).Reachable db) :
    ServesAccepted db ∧ ∀ action db', step db action = some db' → (Safe db action ↔ Sound db') := by
  obtain ⟨hdb, hsound⟩ := sound_of_reachable h
  exact ⟨servesAccepted_of_sound hdb hsound, fun action db' hstep => (step_iff hdb hsound hstep).2.symm⟩

end

/-! ### Three costs, and a late one -/

/-- A record with these ownership costs. -/
def costRecord (costs : List (String × Json)) : PreparedAircraftRecord :=
  normalizeRecord PlanePhd.fleetCrates "Cessna" "172"
    (.object [("ownership_costs", .object costs)])

/-- The tables after a step, or empty ones. -/
def stepped (db : Tables) (action : Action) : Tables := (step db action).getD .empty

theorem step_stepped {db : Tables} {action : Action} (h : (step db action).isSome = true) :
    step db action = some (stepped db action) := by
  obtain ⟨db', hdb'⟩ := Option.isSome_iff_exists.mp h
  rw [stepped, hdb', Option.getD_some]

/-- The acceptance of an assertion that states a number. -/
theorem safe_accept {db : Tables} {id : ℕ} {x : ℚ}
    (h : (db.assertions[id]?).map SourceAssertion.assertedNumeric = some (some x)) :
    Safe db (.decide id .accepted) := by
  intro a ha hnumeric
  rw [ha, Option.map_some, hnumeric] at h
  cases h

def importCosts : Action :=
  .importRecord (costRecord [("insurance", .string "$100"), ("hangar", .string "$50"),
    ("fuel", .string "$40")]) 0 0 0 "PlanePHD"

def costsAsserted : Tables := stepped .empty importCosts

def insuranceDecided : Tables := stepped costsAsserted (.decide 0 .accepted)

def hangarDecided : Tables := stepped insuranceDecided (.decide 1 .accepted)

def costsAccepted : Tables := stepped hangarDecided (.decide 2 .accepted)

/-- The three costs are imported, and accepted one after the other. -/
theorem costs_run :
    (step .empty importCosts).isSome = true ∧
      (costsAsserted.assertions[0]?).map SourceAssertion.assertedNumeric = some (some 100) ∧
      (step costsAsserted (.decide 0 .accepted)).isSome = true ∧
      (insuranceDecided.assertions[1]?).map SourceAssertion.assertedNumeric = some (some 50) ∧
      (step insuranceDecided (.decide 1 .accepted)).isSome = true ∧
      (hangarDecided.assertions[2]?).map SourceAssertion.assertedNumeric = some (some 40) ∧
      (step hangarDecided (.decide 2 .accepted)).isSome = true := by
  decide +kernel

theorem costsAccepted_reachable : (market.guard Safe).Reachable costsAccepted := by
  obtain ⟨himport, hinsurance, hfirst, hhangar, hsecond, hfuel, hthird⟩ := costs_run
  have hsafe : Safe .empty importCosts := by
    constructor <;> intro id hid <;> cases hid
  have hasserted : (market.guard Safe).Reachable costsAsserted :=
    .step (a := importCosts) (.init rfl) ⟨hsafe, step_stepped himport⟩
  have hinsured : (market.guard Safe).Reachable insuranceDecided :=
    hasserted.step ⟨safe_accept hinsurance, step_stepped hfirst⟩
  have hhoused : (market.guard Safe).Reachable hangarDecided :=
    hinsured.step ⟨safe_accept hhangar, step_stepped hsecond⟩
  exact hhoused.step ⟨safe_accept hfuel, step_stepped hthird⟩

/-- An accepted assertion of the item states this amount. -/
def AcceptedCost (fieldName : String) (amount : ℚ) : Prop :=
  ∃ b ∈ costsAccepted.assertions, b.entity = ⟨.costSnapshot, 0⟩ ∧ b.fieldName = fieldName ∧
    b.isAccepted = true ∧ b.assertedNumeric = some amount

/-- Two by the year and one by the hour are served, and accepted at what is served. -/
theorem published_serves_accepted_costs :
    AcceptedCost "INSURANCE" 100 ∧ AcceptedCost "HANGAR_STORAGE" 50 ∧ AcceptedCost "FUEL" 40 := by
  have hcanonical : ((costsAccepted.snapshots .costSnapshots)[0]?).map Snapshot.isCanonical
        = some true ∧
      (costsAccepted.costLineItems.lookup (0, "INSURANCE")).bind CostLineItem.amountAnnual
        = some 100 ∧
      (costsAccepted.costLineItems.lookup (0, "HANGAR_STORAGE")).bind CostLineItem.amountAnnual
        = some 50 ∧
      (costsAccepted.costLineItems.lookup (0, "FUEL")).bind CostLineItem.amountPerHour
        = some 40 := by decide +kernel
  obtain ⟨hsnapshot, hinsurance, hhangar, hfuel⟩ := hcanonical
  obtain ⟨insurance, hinsured, hpremium⟩ := Option.bind_eq_some_iff.mp hinsurance
  obtain ⟨hangar, hhoused, hrent⟩ := Option.bind_eq_some_iff.mp hhangar
  obtain ⟨fuel, hfuelled, hburnt⟩ := Option.bind_eq_some_iff.mp hfuel
  have hserves := ((published_serves_accepted costsAccepted_reachable).1 .costSnapshots 0
    (Option.map_eq_some_iff.mp hsnapshot)).2
  exact ⟨hserves _ 100 (.annual hinsured hpremium), hserves _ 50 (.annual hhoused hrent),
    hserves _ 40 (.perHour hfuelled hburnt)⟩

/-- The import of a record with an insurance only, and its acceptance. -/
def importInsurance : Action :=
  .importRecord (costRecord [("insurance", .string "$100")]) 0 0 0 "PlanePHD"

def insured : Tables := stepped .empty importInsurance

def insuranceAccepted : Tables := stepped insured (.decide 0 .accepted)

theorem insurance_run :
    (step .empty importInsurance).isSome = true ∧
      (step insured (.decide 0 .accepted)).isSome = true := by
  decide +kernel

theorem insuranceAccepted_reachable : market.Reachable insuranceAccepted := by
  have hinsured : market.Reachable insured :=
    .step (a := importInsurance) (.init rfl) (step_stepped insurance_run.1)
  exact hinsured.step (step_stepped insurance_run.2)

/-- A second artifact of the same day, with a hangar too. -/
def importHangar : Action :=
  .importRecord (costRecord [("insurance", .string "$100"), ("hangar", .string "$50")]) 0 1 0
    "PlanePHD"

/-- The hangar is served at once, accepted by nobody. -/
theorem late_item_served_unaccepted : ¬ ∀ db, market.Reachable db → ServesAccepted db := by
  intro h
  have hstep : step insuranceAccepted importHangar
      = some (stepped insuranceAccepted importHangar) := step_stepped (by decide +kernel)
  have hreachable := insuranceAccepted_reachable.step hstep
  have hcanonical : (((stepped insuranceAccepted importHangar).snapshots .costSnapshots)[0]?).map
      Snapshot.isCanonical = some true := by decide +kernel
  have hline : ((stepped insuranceAccepted importHangar).costLineItems.lookup
      (0, "HANGAR_STORAGE")).bind CostLineItem.amountAnnual = some 50 := by decide +kernel
  have hnone : ∀ b ∈ (stepped insuranceAccepted importHangar).assertions,
      b.fieldName = "HANGAR_STORAGE" → b.isAccepted = false := by decide +kernel
  obtain ⟨line, hlookup, hamount⟩ := Option.bind_eq_some_iff.mp hline
  obtain ⟨b, hb, -, hfield, haccepted, -⟩ :=
    (h _ hreachable .costSnapshots 0 (Option.map_eq_some_iff.mp hcanonical)).2 _ _
      (.annual hlookup hamount)
  rw [hnone b hb hfield] at haccepted
  cases haccepted

end Curation

end AircraftApi
