/-
AircraftApi/Market.lean

The promotion of a record's market data (`promote_market`): the valuation and
the cost snapshot of a variant, one row a variant, day and source, with an
assertion for every value the record states.

A second artifact of the same day finds the rows there.  What they store
stands: the valuation keeps its price and count, a total keeps its first
value, a line item keeps its amount; but new totals and new line items are
added to the row, and the new document's values are asserted against it.

`none` is a statement the database refuses, which aborts the transaction.
-/
import AircraftApi.Curation
import AircraftApi.Schema

namespace AircraftApi

namespace Curation

open Numeric (Fits roundUnits rounded)

/-- What a NUMERIC(precision, scale) column with a check for no negative value
stores of a text. -/
def money (precision scale : ℕ) (text : String) : Option ℚ :=
  (Numeric.cast text).bind fun q =>
    if |roundUnits scale q| < 10 ^ precision ∧ 0 ≤ roundUnits scale q then some (rounded scale q)
    else none

/-- The position of the first row of a snapshot table with this key. -/
def snapshotId (rows : List Snapshot) (variantId : ℕ) (day : ℤ) (source : String) : Option ℕ :=
  rows.findIdx? fun row =>
    row.variantId = variantId ∧ row.snapshotDate = day ∧ row.sourceName = source

/-- Adds a pending assertion; the number is what `$7::numeric` gives. -/
def assertEntityValue (db : Tables) (documentId : ℕ) (entity : Entity) (field raw : String)
    (numeric : Option ℚ) (rawUnit : Option String) : Tables :=
  { db with assertions := db.assertions ++
      [⟨documentId, entity, field, raw, rawUnit, numeric, .pending, false⟩] }

/-- The cast of an optional number; a text that is none aborts. -/
def optionalNumeric : Option String → Option (Option ℚ)
  | none => some none
  | some text => (Numeric.cast text).map some

/-- `INSERT INTO valuations ... ON CONFLICT DO NOTHING`, or the row that stands. -/
def upsertValuation (db : Tables) (variantId : ℕ) (day : ℤ) (source : String) (price : ℚ)
    (forSaleCount : Option ℤ) : Tables × ℕ :=
  match snapshotId (db.snapshots .valuations) variantId day source with
  | some id => (db, id)
  | none => ({ db with valuations := db.valuations ++
      [⟨⟨variantId, day, source, false⟩, some price, forSaleCount⟩] }, db.valuations.length)

/-- A price makes a snapshot of the market, with an assertion for each of its values. -/
def promoteValuation (db : Tables) (valuation : ValuationInput) (variantId documentId : ℕ)
    (day : ℤ) (source : String) : Option Tables :=
  match valuation.papiPriceEstimate with
  | none => some db
  | some text => do
      let price ← money 14 2 text
      let asserted ← Numeric.cast text
      -- chk_val_prices
      if valuation.forSaleCount.any (· < 0) then none
      else
        let (db, id) := upsertValuation db variantId day source price valuation.forSaleCount
        let db := assertEntityValue db documentId ⟨.valuation, id⟩ "papi_price_estimate" text
          asserted none
        match valuation.forSaleCount with
        | none => some db
        | some count => some (assertEntityValue db documentId ⟨.valuation, id⟩ "for_sale_count"
            (toString count) (some (count : ℚ)) none)

/-- The same for `cost_snapshots`. -/
def upsertCostSnapshot (db : Tables) (variantId : ℕ) (day : ℤ) (source : String) : Tables × ℕ :=
  match snapshotId (db.snapshots .costSnapshots) variantId day source with
  | some id => (db, id)
  | none => ({ db with costSnapshots := db.costSnapshots ++
      [⟨⟨variantId, day, source, false⟩, ∅⟩] }, db.costSnapshots.length)

/-- The totals row an amount proposes: `CASE WHEN $2 = ... THEN $3::numeric END`. -/
def proposedTotals (code amount sourceKey : String) : Option CostSnapshotTotals :=
  let total (column : String) : Option (Option ℚ) :=
    if code = column then (money 14 2 amount).map some else some none
  do
    let annual ← total "TOTAL_COST_ANNUAL"
    let fixed ← total "TOTAL_FIXED_COST"
    let variableCost ← total "TOTAL_VARIABLE_COST"
    some ⟨annual, fixed, variableCost, sourceKey⟩

/-- `COALESCE(stored, EXCLUDED)`: what is stored stands. -/
def CostSnapshotTotals.coalesce (stored proposed : CostSnapshotTotals) : CostSnapshotTotals :=
  { stored with
    totalAnnualUsd := stored.totalAnnualUsd.or proposed.totalAnnualUsd
    totalFixedUsd := stored.totalFixedUsd.or proposed.totalFixedUsd
    totalVariableUsd := stored.totalVariableUsd.or proposed.totalVariableUsd }

/-- `ON CONFLICT (snapshot_id) DO UPDATE`. -/
def upsertTotals (db : Tables) (id : ℕ) (proposed : CostSnapshotTotals) : Tables :=
  let row := ((db.costSnapshotTotals.lookup id).map (·.coalesce proposed)).getD proposed
  { db with costSnapshotTotals := db.costSnapshotTotals.insert id row }

/-- `INSERT ... SELECT ... FROM cost_item_types WHERE code = $2`: the line item
an amount proposes, none for an unknown code; `trg_cli_reject_aggregate` aborts
on a total. -/
def proposedLineItem (code amount : String) : Option (Option CostLineItem) :=
  match Schema.costItemTypes.lookup code with
  | none => some none
  | some (_, true) => none
  | some (true, false) => (money 12 2 amount).map fun q => some ⟨some q, none, by simp⟩
  | some (false, false) => (money 10 4 amount).map fun q => some ⟨none, some q, by simp⟩

/-- `ON CONFLICT (snapshot_id, cost_item_type_code) DO NOTHING`. -/
def insertLineItem (db : Tables) (id : ℕ) (code : String) (proposed : CostLineItem) : Tables :=
  match db.costLineItems.lookup (id, code) with
  | some _ => db
  | none => { db with costLineItems := db.costLineItems.insert (id, code) proposed }

/-- The field a cost is asserted under. -/
def costField (item : CostItemInput) : String :=
  item.mappedCode.getD ("EXTRA:" ++ item.sourceKey)

/-- Stores the amount of a cost, when it is mapped and a number, or keeps its
text in the extras. -/
def storeCost (db : Tables) (id : ℕ) (item : CostItemInput) (extras : KeyMap String String) :
    Option (Tables × KeyMap String String) :=
  match item.mappedCode, item.numericValue with
  | some code, some amount =>
      if item.isAggregate then
        (proposedTotals code amount item.sourceKey).map fun proposed =>
          (upsertTotals db id proposed, extras)
      else
        (proposedLineItem code amount).map fun proposed =>
          (proposed.elim db (insertLineItem db id code), extras)
  | _, _ => some (db, extras.insert item.sourceKey item.rawValue)

/-- A cost is stored and asserted. -/
def promoteCost (documentId id : ℕ) (db : Tables) (item : CostItemInput)
    (extras : KeyMap String String) : Option (Tables × KeyMap String String) := do
  let (db, extras) ← storeCost db id item extras
  let asserted ← optionalNumeric item.numericValue
  some (assertEntityValue db documentId ⟨.costSnapshot, id⟩ (costField item) item.rawValue asserted
    none, extras)

/-- The costs one after the other, on one snapshot. -/
def promoteCostItems (documentId id : ℕ) :
    Tables → List CostItemInput → KeyMap String String → Option (Tables × KeyMap String String)
  | db, [], extras => some (db, extras)
  | db, item :: items, extras => do
      let (db, extras) ← promoteCost documentId id db item extras
      promoteCostItems documentId id db items extras

/-- `extra_attributes || $2`. -/
def mergeExtras (db : Tables) (id : ℕ) (extras : KeyMap String String) : Tables :=
  { db with costSnapshots := db.costSnapshots.modify id fun row =>
      { row with extraAttributes := extras ∪ row.extraAttributes } }

/-- Costs make a snapshot of them. -/
def promoteCosts (db : Tables) (items : List CostItemInput) (variantId documentId : ℕ)
    (day : ℤ) (source : String) : Option Tables :=
  if items.isEmpty then some db
  else do
    let (db, id) := upsertCostSnapshot db variantId day source
    let (db, extras) ← promoteCostItems documentId id db items ∅
    some (if extras.keys.isEmpty then db else mergeExtras db id extras)

/-- `promote_market` for a record, on a day and from a source. -/
def promoteMarket (db : Tables) (record : PreparedAircraftRecord) (variantId documentId : ℕ)
    (day : ℤ) (source : String) : Option Tables := do
  let db ← promoteValuation db record.valuation variantId documentId day source
  promoteCosts db record.operatingCosts variantId documentId day source

/-! ### What the cost statements store -/

/-- Line items are no totals, and fill one column. -/
def PlainLines (db : Tables) : Prop :=
  ∀ id code line, db.costLineItems.lookup (id, code) = some line →
    costTotalColumn code = none ∧ (line.amountAnnual = none ∨ line.amountPerHour = none)

theorem CostLineItem.amount_ne_none (line : CostLineItem) : line.amount ≠ none := by
  intro h
  obtain ⟨hannual, hperHour⟩ := Option.or_eq_none_iff.mp h
  exact line.hasAmount.elim (fun h => h hannual) fun h => h hperHour

/-- What an amount stores under its code where nothing is stored yet. -/
def costValue (code amount : String) (isAggregate : Bool) : Option ℚ :=
  if isAggregate then
    if (costTotalColumn code).isSome then money 14 2 amount else none
  else
    match Schema.costItemTypes.lookup code with
    | some (true, false) => money 12 2 amount
    | some (false, false) => money 10 4 amount
    | _ => none

/-- What a cost item stores, and under which code. -/
def costStores (item : CostItemInput) : Option (String × ℚ) :=
  item.mappedCode.bind fun code => item.numericValue.bind fun amount =>
    (costValue code amount item.isAggregate).map (code, ·)

theorem lookup_toList_map {α : Type*} (code fieldName : String) (value : Option α) :
    (value.map (code, ·)).toList.lookup fieldName = if code = fieldName then value else none := by
  rcases value with - | x
  · simp
  · by_cases h : code = fieldName
    · simp [h]
    · simp [List.lookup_cons, h, beq_eq_false_iff_ne.mpr (Ne.symm h)]

theorem proposedTotals_column {code amount sourceKey fieldName : String}
    {proposed : CostSnapshotTotals} {column : CostSnapshotTotals → Option ℚ}
    (h : proposedTotals code amount sourceKey = some proposed)
    (hcolumn : costTotalColumn fieldName = some column) :
    column proposed = if code = fieldName then money 14 2 amount else none := by
  have htotal : ∀ {name : String} {value : Option ℚ},
      (if code = name then (money 14 2 amount).map some else some none) = some value →
      value = if code = name then money 14 2 amount else none := by
    intro name value hvalue
    split_ifs at hvalue ⊢
    · obtain ⟨q, hq, rfl⟩ := Option.map_eq_some_iff.mp hvalue
      exact hq.symm
    · exact (Option.some.inj hvalue).symm
  unfold proposedTotals at h
  obtain ⟨annual, hannual, h⟩ := Option.bind_eq_some_iff.mp h
  obtain ⟨fixed, hfixed, h⟩ := Option.bind_eq_some_iff.mp h
  obtain ⟨variableCost, hvariable, h⟩ := Option.bind_eq_some_iff.mp h
  cases h
  unfold costTotalColumn at hcolumn
  split_ifs at hcolumn with hname hname hname <;> cases hcolumn <;> rw [hname]
  · exact htotal hannual
  · exact htotal hfixed
  · exact htotal hvariable

theorem coalesce_column {fieldName : String} {column : CostSnapshotTotals → Option ℚ}
    (hcolumn : costTotalColumn fieldName = some column) (stored proposed : CostSnapshotTotals) :
    column (stored.coalesce proposed) = (column stored).or (column proposed) := by
  unfold costTotalColumn at hcolumn
  split_ifs at hcolumn <;> cases hcolumn <;> rfl

theorem storedValue_upsertTotals (db : Tables) (id : ℕ) (proposed : CostSnapshotTotals)
    (entity : Entity) (fieldName : String) :
    storedValue (upsertTotals db id proposed) entity fieldName
      = (storedValue db entity fieldName).or (if entity = ⟨.costSnapshot, id⟩ then
          (costTotalColumn fieldName).bind fun column => column proposed else none) := by
  rcases entity with ⟨type, entityId⟩
  cases type with
  | costSnapshot =>
      simp only [storedValue, upsertTotals]
      rcases hcolumn : costTotalColumn fieldName with - | column
      · simp
      by_cases hid : entityId = id
      · subst hid
        simp only [AList.lookup_insert, Option.bind_some, if_true]
        rcases db.costSnapshotTotals.lookup entityId with - | stored
        · simp
        · simp [coalesce_column hcolumn]
      · simp [AList.lookup_insert_ne hid, hid]
  | _ => simp [storedValue, upsertTotals]

theorem storedValue_insertLineItem (db : Tables) (id : ℕ) {code : String}
    (hcode : costTotalColumn code = none) (line : CostLineItem) (entity : Entity)
    (fieldName : String) :
    storedValue (insertLineItem db id code line) entity fieldName
      = (storedValue db entity fieldName).or
          (if entity = ⟨.costSnapshot, id⟩ ∧ code = fieldName then line.amount else none) := by
  unfold insertLineItem
  rcases hlookup : db.costLineItems.lookup (id, code) with - | stored
  · rcases entity with ⟨type, entityId⟩
    cases type with
    | costSnapshot =>
        simp only [storedValue]
        by_cases hkey : (entityId, fieldName) = (id, code)
        · obtain ⟨rfl, rfl⟩ := Prod.mk.inj hkey
          simp [hcode, hlookup, AList.lookup_insert]
        · have hother : ¬ ((⟨.costSnapshot, entityId⟩ : Entity) = ⟨.costSnapshot, id⟩ ∧
              code = fieldName) := by
            rintro ⟨hid, rfl⟩
            cases hid
            exact hkey rfl
          rw [if_neg hother, Option.or_none]
          simp only [AList.lookup_insert_ne hkey]
    | _ => simp [storedValue]
  · split_ifs with hkey
    · -- what is stored stands
      obtain ⟨rfl, rfl⟩ := hkey
      have hstored : storedValue db ⟨.costSnapshot, id⟩ code = stored.amount := by
        simp [storedValue, hcode, hlookup]
      rw [hstored]
      obtain ⟨x, hx⟩ := Option.ne_none_iff_exists'.mp stored.amount_ne_none
      simp [hx]
    · simp

theorem costTotalColumn_of_lineItem {code : String} {fixed : Bool}
    (h : Schema.costItemTypes.lookup code = some (fixed, false)) : costTotalColumn code = none := by
  have hall : ∀ row ∈ Schema.costItemTypes, row.2.2 = false → (costTotalColumn row.1).isNone := by
    decide +kernel
  exact Option.isNone_iff_eq_none.mp (hall _ (mem_of_lookup h) rfl)

/-- The total an aggregate stores is the one of its code. -/
theorem proposedTotals_value {code amount sourceKey : String} {proposed : CostSnapshotTotals}
    (h : proposedTotals code amount sourceKey = some proposed) (fieldName : String) :
    ((costTotalColumn fieldName).bind fun column => column proposed)
      = if code = fieldName then costValue code amount true else none := by
  rcases hcolumn : costTotalColumn fieldName with - | column
  · split_ifs with hname
    · rw [costValue, if_pos rfl, hname, hcolumn]
      rfl
    · rfl
  · rw [Option.bind_some, proposedTotals_column h hcolumn]
    split_ifs with hname
    · rw [costValue, if_pos rfl, hname, hcolumn]
      rfl
    · rfl

theorem proposedLineItem_value {code amount : String} {proposed : Option CostLineItem}
    (h : proposedLineItem code amount = some proposed) :
    costValue code amount false = proposed.bind CostLineItem.amount ∧
      ∀ line ∈ proposed, costTotalColumn code = none ∧
        (line.amountAnnual = none ∨ line.amountPerHour = none) := by
  unfold proposedLineItem at h
  unfold costValue
  rw [if_neg Bool.false_ne_true]
  split at h
  · rename_i htype
    cases h
    rw [htype]
    exact ⟨rfl, fun line hline => by cases hline⟩
  · cases h
  · rename_i htype
    obtain ⟨q, hq, rfl⟩ := Option.map_eq_some_iff.mp h
    rw [htype]
    refine ⟨hq, ?_⟩
    rintro line hline
    cases hline
    exact ⟨costTotalColumn_of_lineItem htype, .inr rfl⟩
  · rename_i htype
    obtain ⟨q, hq, rfl⟩ := Option.map_eq_some_iff.mp h
    rw [htype]
    refine ⟨hq, ?_⟩
    rintro line hline
    cases hline
    exact ⟨costTotalColumn_of_lineItem htype, .inl rfl⟩

theorem storedValue_storeCost {db db' : Tables} {id : ℕ} {item : CostItemInput}
    {extras extras' : KeyMap String String}
    (h : storeCost db id item extras = some (db', extras')) (entity : Entity) (fieldName : String) :
    storedValue db' entity fieldName = (storedValue db entity fieldName).or
      (if entity = ⟨.costSnapshot, id⟩ then (costStores item).toList.lookup fieldName else none) := by
  unfold storeCost at h
  split at h
  · rename_i code amount hcode hamount
    have hstores : (costStores item).toList.lookup fieldName
        = if code = fieldName then costValue code amount item.isAggregate else none := by
      rw [costStores, hcode, hamount]
      exact lookup_toList_map code fieldName _
    rw [hstores]
    -- an aggregate goes into the totals, another cost is a line
    split_ifs at h with haggregate
    · obtain ⟨proposed, hproposed, heq⟩ := Option.map_eq_some_iff.mp h
      cases heq
      rw [storedValue_upsertTotals, proposedTotals_value hproposed, haggregate]
    · obtain ⟨proposed, hproposed, heq⟩ := Option.map_eq_some_iff.mp h
      cases heq
      rw [Bool.not_eq_true] at haggregate
      obtain ⟨hvalue, hline⟩ := proposedLineItem_value hproposed
      rw [haggregate, hvalue]
      rcases proposed with - | line
      · simp
      · rw [Option.elim_some, storedValue_insertLineItem db id (hline line rfl).1]
        simp only [Option.bind_some, ite_and]
  · rename_i hnot
    cases h
    -- a cost without a code or without a number stores nothing
    have hnone : costStores item = none := by
      unfold costStores
      rcases hcode : item.mappedCode with - | code
      · rfl
      rcases hamount : item.numericValue with - | amount
      · rfl
      · exact absurd hamount (hnot code amount hcode)
    simp [hnone]

theorem plainLines_storeCost {db db' : Tables} {id : ℕ} {item : CostItemInput}
    {extras extras' : KeyMap String String}
    (h : storeCost db id item extras = some (db', extras')) (hplain : PlainLines db) :
    PlainLines db' := by
  unfold storeCost at h
  split at h
  · rename_i code amount _ _
    split_ifs at h
    · obtain ⟨proposed, -, heq⟩ := Option.map_eq_some_iff.mp h
      cases heq
      exact hplain
    · obtain ⟨proposed, hproposed, heq⟩ := Option.map_eq_some_iff.mp h
      cases heq
      obtain ⟨-, hline⟩ := proposedLineItem_value hproposed
      rcases proposed with - | line
      · exact hplain
      · rw [Option.elim_some, insertLineItem]
        split
        · exact hplain
        · intro i c other hother
          by_cases hkey : (i, c) = (id, code)
          · obtain ⟨rfl, rfl⟩ := Prod.mk.inj hkey
            obtain rfl := Option.some.inj ((AList.lookup_insert _).symm.trans hother)
            exact hline line rfl
          · exact hplain i c other ((AList.lookup_insert_ne hkey).symm.trans hother)
  · cases h
    exact hplain

/-! ### What an import does to a snapshot -/

/-- An import's writes to one snapshot: the row `id` is there or is added, not
canonical; every field in `fields` is asserted on it, pending; and where it
stored nothing for a field it stores what `stores` has. -/
structure Writes (db db' : Tables) (table : MarketTable) (id : ℕ) (fields : List String)
    (stores : String → Option ℚ) : Prop where
  others : ∀ other ≠ table, db'.snapshots other = db.snapshots other
  row : id < (db.snapshots table).length ∧ db'.snapshots table = db.snapshots table ∨
    id = (db.snapshots table).length ∧ ∃ fresh : Snapshot, fresh.isCanonical = false ∧
      db'.snapshots table = db.snapshots table ++ [fresh]
  asserted : ∃ added : List SourceAssertion, db'.assertions = db.assertions ++ added ∧
    added.map SourceAssertion.fieldName = fields ∧
    ∀ a ∈ added, a.entity = table.entity id ∧ a.isAccepted = false ∧ a.status = .pending
  measurements : db'.measurements = db.measurements
  flags : db'.flags = db.flags
  stored : ∀ entity fieldName, storedValue db' entity fieldName
    = (storedValue db entity fieldName).or
        (if entity = table.entity id then stores fieldName else none)
  plain : PlainLines db → PlainLines db'

theorem snapshotId_lt {rows : List Snapshot} {variantId : ℕ} {day : ℤ} {source : String} {id : ℕ}
    (h : snapshotId rows variantId day source = some id) : id < rows.length :=
  (List.findIdx?_eq_some_iff_getElem.mp h).1

section

variable {db db₁ db₂ : Tables} {table : MarketTable} {id : ℕ} {fields : List String}
variable {stores : String → Option ℚ}

/-- Nothing yet, to a row that stands. -/
theorem Writes.standing (hid : id < (db.snapshots table).length) :
    Writes db db table id [] fun _ => none where
  others := fun _ _ => rfl
  row := .inl ⟨hid, rfl⟩
  asserted := ⟨[], by simp⟩
  measurements := rfl
  flags := rfl
  stored := fun entity fieldName => by simp
  plain := fun h => h

theorem Writes.assert (h : Writes db db₁ table id fields stores) (documentId : ℕ)
    (field raw : String) (numeric : Option ℚ) (rawUnit : Option String) :
    Writes db (assertEntityValue db₁ documentId (table.entity id) field raw numeric rawUnit) table id
      (fields ++ [field]) stores where
  others := h.others
  row := h.row
  asserted := by
    obtain ⟨added, hadded, hfields, hpending⟩ := h.asserted
    refine ⟨added ++ [⟨documentId, table.entity id, field, raw, rawUnit, numeric, .pending, false⟩],
      ?_, ?_, ?_⟩
    · show db₁.assertions ++ _ = _
      rw [hadded, List.append_assoc]
    · rw [List.map_append, hfields]
      rfl
    · intro a ha
      rcases List.mem_append.mp ha with ha | ha
      · exact hpending a ha
      · obtain rfl := List.mem_singleton.mp ha
        exact ⟨rfl, rfl, rfl⟩
  measurements := h.measurements
  flags := h.flags
  stored := h.stored
  plain := h.plain

/-! ### The valuation -/

/-- The fields a valuation is asserted under. -/
def valuationFields (valuation : ValuationInput) : List String :=
  if valuation.papiPriceEstimate.isSome then
    "papi_price_estimate" :: valuation.forSaleCount.toList.map fun _ => "for_sale_count"
  else []

theorem getElem?_concat_of_ne {α : Type*} {rows : List α} {row : α} {i : ℕ}
    (h : i ≠ rows.length) : (rows ++ [row])[i]? = rows[i]? := by
  rcases Nat.lt_or_gt_of_ne h with hlt | hgt
  · exact List.getElem?_append_left hlt
  · rw [List.getElem?_eq_none (by simp; omega), List.getElem?_eq_none (by omega)]

/-- What a new valuation stores. -/
def valuationStores (price : ℚ) (forSaleCount : Option ℤ) (fieldName : String) : Option ℚ :=
  (valuationColumn fieldName).bind fun column =>
    column ⟨⟨0, 0, "", false⟩, some price, forSaleCount⟩

theorem valuationStores_price (price : ℚ) (forSaleCount : Option ℤ) :
    valuationStores price forSaleCount "papi_price_estimate" = some price := by
  rw [valuationStores, valuationColumn_price, Option.bind_some]

theorem valuationStores_forSale (price : ℚ) (forSaleCount : Option ℤ) :
    valuationStores price forSaleCount "for_sale_count"
      = forSaleCount.map fun count : ℤ => (count : ℚ) := by
  rw [valuationStores, valuationColumn_forSale, Option.bind_some]

theorem valuationColumn_stores {fieldName : String} {column : Valuation → Option ℚ}
    (h : valuationColumn fieldName = some column) (row : Valuation) :
    column row = (valuationColumn fieldName).bind fun column =>
      column { row with variantId := 0, snapshotDate := 0, sourceName := "", isCanonical := false } := by
  unfold valuationColumn at h ⊢
  split_ifs at h ⊢ <;> cases h <;> rfl

/-- A valuation of the same key stands and stores nothing more; otherwise one
is added. -/
theorem upsertValuation_writes (db : Tables) (variantId : ℕ) (day : ℤ) (source : String) (price : ℚ)
    (forSaleCount : Option ℤ) :
    let (db₁, id) := upsertValuation db variantId day source price forSaleCount
    snapshotId (db.snapshots .valuations) variantId day source = some id ∧
        Writes db db₁ .valuations id [] (fun _ => none) ∨
      snapshotId (db.snapshots .valuations) variantId day source = none ∧
        id = (db.snapshots .valuations).length ∧
        Writes db db₁ .valuations id [] (valuationStores price forSaleCount) := by
  unfold upsertValuation
  rcases hid : snapshotId (db.snapshots .valuations) variantId day source with - | id
  · -- no such snapshot: a row is added behind the others
    have hlength : db.valuations.length = (db.snapshots .valuations).length := by
      simp [Tables.snapshots]
    refine .inr ⟨rfl, hlength, ?_, .inr ⟨hlength, ⟨variantId, day, source, false⟩, rfl, ?_⟩,
      ⟨[], by simp⟩, rfl, rfl, ?_, fun h => h⟩
    · intro other hother
      cases other <;> first | rfl | exact absurd rfl hother
    · simp [Tables.snapshots]
    · intro entity fieldName
      rcases entity with ⟨type, entityId⟩
      cases type with
      | valuation =>
          simp only [storedValue]
          rcases hcolumn : valuationColumn fieldName with - | column
          · simp [valuationStores, hcolumn]
          · by_cases hentity : entityId = db.valuations.length
            · subst hentity
              simp [MarketTable.entity, valuationStores, valuationColumn_stores hcolumn]
            · have hother : (⟨.valuation, entityId⟩ : Entity) ≠
                  MarketTable.valuations.entity db.valuations.length := by
                simpa [MarketTable.entity] using hentity
              rw [if_neg hother, Option.or_none, getElem?_concat_of_ne hentity]
      | _ => simp [storedValue, MarketTable.entity]
  · -- the snapshot is there, and its values stand
    exact .inl ⟨rfl, .standing (snapshotId_lt hid)⟩

/-- A record with a price writes one valuation: a new one stores the price and
the count, one that stands stores nothing more. -/
theorem promoteValuation_writes {valuation : ValuationInput} {text : String}
    {variantId documentId : ℕ} {day : ℤ} {source : String}
    (hprice : valuation.papiPriceEstimate = some text)
    (h : promoteValuation db valuation variantId documentId day source = some db₂) :
    ∃ id, snapshotId (db.snapshots .valuations) variantId day source = some id ∧
        Writes db db₂ .valuations id (valuationFields valuation) (fun _ => none) ∨
      ∃ price, snapshotId (db.snapshots .valuations) variantId day source = none ∧
        id = (db.snapshots .valuations).length ∧
        Writes db db₂ .valuations id (valuationFields valuation)
          (valuationStores price valuation.forSaleCount) := by
  unfold promoteValuation at h
  rw [hprice] at h
  obtain ⟨price, -, h⟩ := Option.bind_eq_some_iff.mp h
  obtain ⟨asserted, -, h⟩ := Option.bind_eq_some_iff.mp h
  split at h
  · cases h
  have hupsert := upsertValuation_writes db variantId day source price valuation.forSaleCount
  rcases hsplit : upsertValuation db variantId day source price valuation.forSaleCount with ⟨db₁, id⟩
  simp only [hsplit] at h hupsert
  -- the assertions write no value
  have hassert : ∀ {stores}, Writes db db₁ .valuations id [] stores →
      Writes db db₂ .valuations id (valuationFields valuation) stores := by
    intro stores hwrites
    have hone := hwrites.assert documentId "papi_price_estimate" text (some asserted) none
    rw [valuationFields, hprice, Option.isSome_some, if_pos rfl]
    rcases hcount : valuation.forSaleCount with - | count
    · rw [hcount] at h
      cases h
      exact hone
    · rw [hcount] at h
      cases h
      exact hone.assert documentId "for_sale_count" (toString count) (some (count : ℚ)) none
  refine ⟨id, ?_⟩
  rcases hupsert with ⟨hid, hwrites⟩ | ⟨hid, hlength, hwrites⟩
  · exact .inl ⟨hid, hassert hwrites⟩
  · exact .inr ⟨price, hid, hlength, hassert hwrites⟩

/-! ### The costs -/

/-- A stored cost is in the cost tables only. -/
theorem snapshots_storeCost {item : CostItemInput} {extras extras' : KeyMap String String}
    (h : storeCost db id item extras = some (db₂, extras')) :
    db₂.snapshots = db.snapshots ∧ db₂.assertions = db.assertions ∧
      db₂.measurements = db.measurements ∧ db₂.flags = db.flags := by
  unfold storeCost at h
  split at h
  · split_ifs at h
    · obtain ⟨proposed, -, heq⟩ := Option.map_eq_some_iff.mp h
      cases heq
      exact ⟨rfl, rfl, rfl, rfl⟩
    · obtain ⟨proposed, -, heq⟩ := Option.map_eq_some_iff.mp h
      cases heq
      rcases proposed with - | line
      · exact ⟨rfl, rfl, rfl, rfl⟩
      · rw [Option.elim_some, insertLineItem]
        split <;> exact ⟨rfl, rfl, rfl, rfl⟩
  · cases h
    exact ⟨rfl, rfl, rfl, rfl⟩

theorem Writes.cost (h : Writes db db₁ .costSnapshots id fields stores) {documentId : ℕ}
    {item : CostItemInput} {extras extras' : KeyMap String String}
    (hcost : promoteCost documentId id db₁ item extras = some (db₂, extras')) :
    Writes db db₂ .costSnapshots id (fields ++ [costField item])
      fun fieldName => (stores fieldName).or ((costStores item).toList.lookup fieldName) := by
  obtain ⟨⟨stored, kept⟩, hstore, hrest⟩ := Option.bind_eq_some_iff.mp hcost
  obtain ⟨asserted, -, heq⟩ := Option.bind_eq_some_iff.mp hrest
  cases heq
  obtain ⟨hsnapshots, hassertions, hmeasurements, hflags⟩ := snapshots_storeCost hstore
  have hstored : Writes db stored .costSnapshots id fields
      fun fieldName => (stores fieldName).or ((costStores item).toList.lookup fieldName) := by
    refine ⟨?_, ?_, ?_, hmeasurements.trans h.measurements, hflags.trans h.flags, ?_, ?_⟩
    · rw [hsnapshots]
      exact h.others
    · rw [hsnapshots]
      exact h.row
    · rw [hassertions]
      exact h.asserted
    · intro entity fieldName
      rw [storedValue_storeCost hstore, h.stored, Option.or_assoc]
      congr 1
      by_cases hentity : entity = MarketTable.costSnapshots.entity id
      · rw [if_pos hentity, if_pos hentity]
        exact congrArg _ (if_pos hentity)
      · rw [if_neg hentity, if_neg hentity]
        exact if_neg hentity
    · exact fun hplain => plainLines_storeCost hstore (h.plain hplain)
  exact hstored.assert documentId (costField item) item.rawValue asserted none

theorem Writes.costs (h : Writes db db₁ .costSnapshots id fields stores) {documentId : ℕ}
    {items : List CostItemInput} {extras extras' : KeyMap String String}
    (hcosts : promoteCostItems documentId id db₁ items extras = some (db₂, extras')) :
    Writes db db₂ .costSnapshots id (fields ++ items.map costField)
      fun fieldName => (stores fieldName).or ((items.filterMap costStores).lookup fieldName) := by
  induction items generalizing db₁ fields stores extras with
  | nil =>
      cases hcosts
      simpa using h
  | cons item items ih =>
      obtain ⟨⟨next, kept⟩, hcost, hrest⟩ := Option.bind_eq_some_iff.mp hcosts
      have hall := ih (h.cost hcost) hrest
      have hstores : (fun fieldName => ((stores fieldName).or
            ((costStores item).toList.lookup fieldName)).or
            ((items.filterMap costStores).lookup fieldName))
          = fun fieldName => (stores fieldName).or
            (((item :: items).filterMap costStores).lookup fieldName) := by
        funext fieldName
        rw [Option.or_assoc, ← List.lookup_append]
        rcases hitem : costStores item with - | pair <;> simp [hitem]
      rw [hstores, List.append_assoc] at hall
      exact hall

theorem snapshots_mergeExtras (db : Tables) (id : ℕ) (extras : KeyMap String String) :
    (mergeExtras db id extras).snapshots = db.snapshots := by
  funext other
  cases other
  · rfl
  · apply List.ext_getElem?
    intro i
    simp only [Tables.snapshots, mergeExtras, List.getElem?_map, List.getElem?_modify]
    rcases db.costSnapshots[i]? with - | row
    · rfl
    · split_ifs <;> rfl

theorem Writes.mergeExtras (h : Writes db db₁ .costSnapshots id fields stores)
    (extras : KeyMap String String) :
    Writes db (mergeExtras db₁ id extras) .costSnapshots id fields stores := by
  have hsnapshots := snapshots_mergeExtras db₁ id extras
  refine ⟨?_, ?_, h.asserted, h.measurements, h.flags, h.stored, h.plain⟩
  · rw [hsnapshots]
    exact h.others
  · rw [hsnapshots]
    exact h.row

theorem upsertCostSnapshot_writes (db : Tables) (variantId : ℕ) (day : ℤ) (source : String) :
    let (db₁, id) := upsertCostSnapshot db variantId day source
    Writes db db₁ .costSnapshots id [] (fun _ => none) ∧
      (snapshotId (db.snapshots .costSnapshots) variantId day source = some id ∨
        snapshotId (db.snapshots .costSnapshots) variantId day source = none ∧
          id = (db.snapshots .costSnapshots).length) := by
  unfold upsertCostSnapshot
  rcases hid : snapshotId (db.snapshots .costSnapshots) variantId day source with - | id
  · have hlength : db.costSnapshots.length = (db.snapshots .costSnapshots).length := by
      simp [Tables.snapshots]
    refine ⟨⟨?_, .inr ⟨hlength, ⟨variantId, day, source, false⟩, rfl, ?_⟩, ⟨[], by simp⟩, rfl, rfl,
      ?_, fun h => h⟩, .inr ⟨rfl, hlength⟩⟩
    · intro other hother
      cases other <;> first | rfl | exact absurd rfl hother
    · simp [Tables.snapshots]
    · intro entity fieldName
      simp [storedValue]
  · exact ⟨.standing (snapshotId_lt hid), .inl rfl⟩

/-- A record with costs writes one cost snapshot; for every code the first item
that can be stored under it is. -/
theorem promoteCosts_writes {items : List CostItemInput} {variantId documentId : ℕ} {day : ℤ}
    {source : String} (hitems : items ≠ [])
    (h : promoteCosts db items variantId documentId day source = some db₂) :
    ∃ id, Writes db db₂ .costSnapshots id (items.map costField)
        (fun fieldName => (items.filterMap costStores).lookup fieldName) ∧
      (snapshotId (db.snapshots .costSnapshots) variantId day source = some id ∨
        snapshotId (db.snapshots .costSnapshots) variantId day source = none ∧
          id = (db.snapshots .costSnapshots).length) := by
  unfold promoteCosts at h
  rw [if_neg (by simpa using hitems)] at h
  have hupsert := upsertCostSnapshot_writes db variantId day source
  rcases hsplit : upsertCostSnapshot db variantId day source with ⟨db₁, id⟩
  simp only [hsplit] at h hupsert
  obtain ⟨⟨stored, extras⟩, hcosts, heq⟩ := Option.bind_eq_some_iff.mp h
  have hwrites := hupsert.1.costs hcosts
  simp only [List.nil_append, Option.none_or] at hwrites
  refine ⟨id, ?_, hupsert.2⟩
  cases heq
  split_ifs
  · exact hwrites
  · exact hwrites.mergeExtras extras

end

end Curation

end AircraftApi
