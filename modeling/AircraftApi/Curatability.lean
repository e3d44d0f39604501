/-
AircraftApi/Curatability.lean

Whether a curator can publish what a first import brought in.

The import writes an amount twice: as the number of an assertion, exactly, and
into a NUMERIC column, rounded, where the first amount of a code stands.  A
price of three decimals, `finePrice`, is then stuck: no assertion of its
valuation agrees with the row.  The records whose amounts agree are `Agreeing`,
and those are exactly the ones whose snapshots can be published.
-/
import AircraftApi.Acceptances

namespace AircraftApi

namespace Curation

open Numeric (rounded)

/-! ### What a first import asserts -/

/-- The assertions of a new valuation. -/
def valuationAssertions (documentId id : ℕ) (valuation : ValuationInput) : List SourceAssertion :=
  match valuation.papiPriceEstimate with
  | none => []
  | some text =>
      ⟨documentId, ⟨.valuation, id⟩, "papi_price_estimate", text, none, Numeric.cast text, .pending,
        false⟩ ::
      valuation.forSaleCount.toList.map fun count : ℤ => ⟨documentId, ⟨.valuation, id⟩,
        "for_sale_count", toString count, none, some (count : ℚ), .pending, false⟩

/-- The number a cost states. -/
def statedAmount (item : CostItemInput) : Option ℚ := item.numericValue.bind Numeric.cast

/-- The amount stored under a field: the first that can be. -/
def firstAmount (items : List CostItemInput) (fieldName : String) : Option ℚ :=
  (items.filterMap costStores).lookup fieldName

/-- The assertion the import makes for a cost. -/
def costAssertion (documentId id : ℕ) (item : CostItemInput) : SourceAssertion :=
  ⟨documentId, ⟨.costSnapshot, id⟩, costField item, item.rawValue, none, statedAmount item, .pending,
    false⟩

section

variable {db db' : Tables} {variantId documentId id : ℕ} {day : ℤ} {source : String}

theorem optionalNumeric_eq_some {text : Option String} {asserted : Option ℚ}
    (h : optionalNumeric text = some asserted) : asserted = text.bind Numeric.cast := by
  rcases text with - | text
  · exact (Option.some.inj h).symm
  · obtain ⟨q, hq, rfl⟩ := Option.map_eq_some_iff.mp h
    exact hq.symm

theorem promoteValuation_first {valuation : ValuationInput}
    (hfirst : snapshotId (db.snapshots .valuations) variantId day source = none)
    (h : promoteValuation db valuation variantId documentId day source = some db') :
    db'.snapshots .valuations = db.snapshots .valuations ++
        (valuation.papiPriceEstimate.toList.map fun _ => ⟨variantId, day, source, false⟩) ∧
      db'.assertions = db.assertions ++
        valuationAssertions documentId (db.snapshots .valuations).length valuation ∧
      ∀ text ∈ valuation.papiPriceEstimate, ∃ price, money 14 2 text = some price ∧
        db'.valuations = db.valuations ++
          [⟨⟨variantId, day, source, false⟩, some price, valuation.forSaleCount⟩] := by
  unfold promoteValuation at h
  -- without a price nothing is made of the count either
  rcases hprice : valuation.papiPriceEstimate with - | text
  · rw [hprice] at h
    cases h
    simp [valuationAssertions, hprice]
  · rw [hprice] at h
    obtain ⟨price, hmoney, h⟩ := Option.bind_eq_some_iff.mp h
    obtain ⟨asserted, hasserted, h⟩ := Option.bind_eq_some_iff.mp h
    split at h
    · cases h
    -- the snapshot is new, so the insert adds a row
    simp only [upsertValuation, hfirst] at h
    rcases hcount : valuation.forSaleCount with - | count
    · rw [hcount] at h
      cases h
      simp [valuationAssertions, hprice, hcount, hasserted, assertEntityValue, Tables.snapshots,
        hmoney]
    · rw [hcount] at h
      cases h
      simp [valuationAssertions, hprice, hcount, hasserted, assertEntityValue, Tables.snapshots,
        hmoney]

theorem promoteCostItems_assertions {items : List CostItemInput} {extras extras' : KeyMap String String}
    (h : promoteCostItems documentId id db items extras = some (db', extras')) :
    db'.snapshots = db.snapshots ∧
      db'.assertions = db.assertions ++ items.map (costAssertion documentId id) := by
  induction items generalizing db extras with
  | nil =>
      cases h
      simp
  | cons item items ih =>
      obtain ⟨⟨next, kept⟩, hcost, hrest⟩ := Option.bind_eq_some_iff.mp h
      obtain ⟨⟨stored, kept'⟩, hstore, hcost⟩ := Option.bind_eq_some_iff.mp hcost
      obtain ⟨asserted, hasserted, heq⟩ := Option.bind_eq_some_iff.mp hcost
      cases heq
      obtain ⟨hsnapshots, hassertions, -, -⟩ := snapshots_storeCost hstore
      obtain ⟨hrestSnapshots, hrestAssertions⟩ := ih hrest
      refine ⟨hrestSnapshots.trans hsnapshots, ?_⟩
      rw [hrestAssertions, assertEntityValue, hassertions, optionalNumeric_eq_some hasserted,
        List.map_cons, List.append_assoc]
      rfl

theorem promoteCosts_first {items : List CostItemInput}
    (hfirst : snapshotId (db.snapshots .costSnapshots) variantId day source = none)
    (h : promoteCosts db items variantId documentId day source = some db') :
    db'.snapshots .costSnapshots = db.snapshots .costSnapshots ++
        (if items = [] then [] else [⟨variantId, day, source, false⟩]) ∧
      db'.assertions = db.assertions ++
        items.map (costAssertion documentId (db.snapshots .costSnapshots).length) := by
  unfold promoteCosts at h
  rcases eq_or_ne items [] with rfl | hitems
  · cases h
    simp
  · rw [if_neg (by simpa using hitems)] at h
    -- the snapshot is new, so the insert adds a row
    simp only [upsertCostSnapshot, hfirst] at h
    obtain ⟨⟨stored, extras⟩, hcosts, heq⟩ := Option.bind_eq_some_iff.mp h
    obtain ⟨hsnapshots, hassertions⟩ := promoteCostItems_assertions hcosts
    have hlength : db.costSnapshots.length = (db.snapshots .costSnapshots).length := by
      simp [Tables.snapshots]
    -- what goes to the attributes is neither snapshot nor assertion
    have hkept : (if extras.keys.isEmpty then stored
        else mergeExtras stored db.costSnapshots.length extras).snapshots = stored.snapshots ∧
        (if extras.keys.isEmpty then stored
          else mergeExtras stored db.costSnapshots.length extras).assertions
            = stored.assertions := by
      split_ifs
      · exact ⟨rfl, rfl⟩
      · exact ⟨snapshots_mergeExtras _ _ _, rfl⟩
    obtain rfl := Option.some.inj heq
    refine ⟨?_, ?_⟩
    · rw [hkept.1, hsnapshots, if_neg hitems]
      simp [Tables.snapshots]
    · rw [hkept.2, hassertions, hlength]

theorem costTotalColumn_of_total {code : String} {fixed : Bool}
    (h : Schema.costItemTypes.lookup code = some (fixed, true)) : (costTotalColumn code).isSome := by
  have hall : ∀ row ∈ Schema.costItemTypes, row.2.2 = true → (costTotalColumn row.1).isSome := by
    decide +kernel
  exact hall _ (mem_of_lookup h) rfl

theorem total_of_costTotalColumn {code : String} (h : (costTotalColumn code).isSome) :
    Schema.costItemTypes.lookup code = some (false, true) := by
  obtain ⟨column, hcolumn⟩ := Option.isSome_iff_exists.mp h
  unfold costTotalColumn at hcolumn
  split_ifs at hcolumn with hname hname hname
  all_goals
    rw [hname]
    decide

/-- A number under a seeded code, flagged as a total only where it is one, has
a column that stores it. -/
theorem costStores_of_storeCost {item : CostItemInput} {extras extras' : KeyMap String String}
    {code amount : String} {fixed total : Bool}
    (h : storeCost db id item extras = some (db', extras'))
    (hcode : item.mappedCode = some code) (hamount : item.numericValue = some amount)
    (htype : Schema.costItemTypes.lookup code = some (fixed, total))
    (haggregate : item.isAggregate = true → total = true) : costStores item ≠ none := by
  have hvalue : costValue code amount item.isAggregate ≠ none → costStores item ≠ none := by
    intro hne
    simpa [costStores, hcode, hamount] using hne
  refine hvalue ?_
  simp only [storeCost, hcode, hamount] at h
  split_ifs at h with hflag
  · -- an aggregate goes to a column of the totals
    obtain ⟨proposed, hproposed, -⟩ := Option.map_eq_some_iff.mp h
    obtain rfl := haggregate hflag
    have htotal := costTotalColumn_of_total htype
    rw [costValue, if_pos hflag, if_pos htotal]
    intro hnone
    obtain ⟨column, hcolumn⟩ := Option.isSome_iff_exists.mp htotal
    unfold costTotalColumn at hcolumn
    simp only [proposedTotals, hnone, Option.map_none] at hproposed
    split_ifs at hcolumn hproposed <;> cases hproposed
  · obtain ⟨proposed, hproposed, -⟩ := Option.map_eq_some_iff.mp h
    -- a line goes to its column; a code that is a total has no line
    rw [proposedLineItem, htype] at hproposed
    rw [costValue, if_neg hflag, htype]
    rcases fixed with - | - <;> rcases total with - | -
    · obtain ⟨q, hq, -⟩ := Option.map_eq_some_iff.mp hproposed
      exact Option.ne_none_iff_exists'.mpr ⟨q, hq⟩
    · cases hproposed
    · obtain ⟨q, hq, -⟩ := Option.map_eq_some_iff.mp hproposed
      exact Option.ne_none_iff_exists'.mpr ⟨q, hq⟩
    · cases hproposed

theorem costStores_of_promoteCosts {items : List CostItemInput}
    (h : promoteCosts db items variantId documentId day source = some db') {item : CostItemInput}
    (hitem : item ∈ items) {code amount : String} {fixed total : Bool}
    (hcode : item.mappedCode = some code) (hamount : item.numericValue = some amount)
    (htype : Schema.costItemTypes.lookup code = some (fixed, total))
    (haggregate : item.isAggregate = true → total = true) : costStores item ≠ none := by
  have aux : ∀ {items : List CostItemInput} {db extras id}, item ∈ items →
      promoteCostItems documentId id db items extras ≠ none → costStores item ≠ none := by
    intro items
    induction items with
    | nil =>
        intro db extras id hitem
        cases hitem
    | cons first items ih =>
        intro db extras id hitem hsome
        obtain ⟨result, hresult⟩ := Option.ne_none_iff_exists'.mp hsome
        obtain ⟨⟨next, kept⟩, hcost, hrest⟩ := Option.bind_eq_some_iff.mp hresult
        obtain ⟨⟨stored, kept'⟩, hstore, -⟩ := Option.bind_eq_some_iff.mp hcost
        rcases List.mem_cons.mp hitem with rfl | hitem
        · exact costStores_of_storeCost hstore hcode hamount htype haggregate
        · have hrest : promoteCostItems documentId id next items kept = some result := hrest
          exact ih hitem (by rw [hrest]; exact Option.some_ne_none _)
  unfold promoteCosts at h
  rw [if_neg (by simpa using List.ne_nil_of_mem hitem)] at h
  obtain ⟨result, hcosts, -⟩ := Option.bind_eq_some_iff.mp h
  exact aux hitem (by rw [hcosts]; exact Option.some_ne_none _)

theorem costTotalColumn_extra (key : String) : costTotalColumn ("EXTRA:" ++ key) = none := by
  have hne : ∀ {name : String}, name.toList.head? = some 'T' → "EXTRA:" ++ key ≠ name := by
    rintro name hhead rfl
    rw [String.toList_append] at hhead
    simp at hhead
  rw [costTotalColumn, if_neg (hne rfl), if_neg (hne rfl), if_neg (hne rfl)]

/-- The first amount of a field is there when some item has one to store. -/
theorem firstAmount_ne_none {items : List CostItemInput} {item : CostItemInput} {code : String}
    (hitem : item ∈ items) (hcode : item.mappedCode = some code) (hstores : costStores item ≠ none) :
    firstAmount items code ≠ none := by
  obtain ⟨⟨stored, x⟩, hstores⟩ := Option.ne_none_iff_exists'.mp hstores
  have hname : stored = code := by
    obtain ⟨_, hstored, hstores'⟩ := Option.bind_eq_some_iff.mp hstores
    obtain ⟨_, -, hstores'⟩ := Option.bind_eq_some_iff.mp hstores'
    obtain ⟨_, -, heq⟩ := Option.map_eq_some_iff.mp hstores'
    rw [← (Prod.mk.inj heq).1, Option.some.inj (hstored.symm.trans hcode)]
  subst hname
  intro hnone
  have hother := List.lookup_eq_none_iff.mp hnone (stored, x)
    (List.mem_filterMap.mpr ⟨item, hitem, hstores⟩)
  simp at hother

/-- The field of a total that states a number stores one. -/
theorem firstAmount_of_total {items : List CostItemInput}
    (h : promoteCosts db items variantId documentId day source = some db') {item : CostItemInput}
    (hitem : item ∈ items) (hstated : statedAmount item ≠ none)
    (htotal : (costTotalColumn (costField item)).isSome) :
    firstAmount items (costField item) ≠ none := by
  rcases hcode : item.mappedCode with - | code
  · rw [costField, hcode, Option.getD_none, costTotalColumn_extra] at htotal
    cases htotal
  · have hfield : costField item = code := by rw [costField, hcode, Option.getD_some]
    rw [hfield] at htotal ⊢
    rcases hamount : item.numericValue with - | amount
    · rw [statedAmount, hamount] at hstated
      exact absurd rfl hstated
    · exact firstAmount_ne_none hitem hcode (costStores_of_promoteCosts h hitem hcode hamount
        (total_of_costTotalColumn htotal) fun _ => rfl)

/-- The valuation is no business of the cost tables. -/
theorem promoteValuation_keeps {valuation : ValuationInput}
    (h : promoteValuation db valuation variantId documentId day source = some db') :
    db'.snapshots .costSnapshots = db.snapshots .costSnapshots ∧
      ∀ id fieldName, storedValue db' ⟨.costSnapshot, id⟩ fieldName
        = storedValue db ⟨.costSnapshot, id⟩ fieldName := by
  rcases hprice : valuation.papiPriceEstimate with - | text
  · rw [promoteValuation, hprice] at h
    cases h
    exact ⟨rfl, fun _ _ => rfl⟩
  · have hkeeps : ∀ {i fields stores}, Writes db db' .valuations i fields stores →
        db'.snapshots .costSnapshots = db.snapshots .costSnapshots ∧
          ∀ id fieldName, storedValue db' ⟨.costSnapshot, id⟩ fieldName
            = storedValue db ⟨.costSnapshot, id⟩ fieldName := by
      intro i fields stores hwrites
      refine ⟨hwrites.others _ (by decide), ?_⟩
      intro id fieldName
      rw [hwrites.stored, if_neg (by simp [MarketTable.entity]), Option.or_none]
    obtain ⟨i, ⟨-, hwrites⟩ | ⟨price, -, -, hwrites⟩⟩ := promoteValuation_writes hprice h
    · exact hkeeps hwrites
    · exact hkeeps hwrites

/-- Nor the costs of the valuations; a new cost snapshot stores the first
amount of each field. -/
theorem promoteCosts_stores {items : List CostItemInput}
    (hfirst : snapshotId (db.snapshots .costSnapshots) variantId day source = none)
    (hnone : ∀ fieldName, storedValue db ⟨.costSnapshot, (db.snapshots .costSnapshots).length⟩
      fieldName = none)
    (h : promoteCosts db items variantId documentId day source = some db') :
    db'.snapshots .valuations = db.snapshots .valuations ∧
      (∀ id fieldName, storedValue db' ⟨.valuation, id⟩ fieldName
        = storedValue db ⟨.valuation, id⟩ fieldName) ∧
      ∀ fieldName, storedValue db' ⟨.costSnapshot, (db.snapshots .costSnapshots).length⟩ fieldName
        = firstAmount items fieldName := by
  rcases eq_or_ne items [] with rfl | hitems
  · cases h
    exact ⟨rfl, fun _ _ => rfl, hnone⟩
  · obtain ⟨id, hwrites, hold | ⟨-, rfl⟩⟩ := promoteCosts_writes hitems h
    · rw [hfirst] at hold
      cases hold
    · refine ⟨hwrites.others _ (by decide), ?_, ?_⟩
      · intro id fieldName
        rw [hwrites.stored, if_neg (by simp [MarketTable.entity]), Option.or_none]
      · intro fieldName
        rw [hwrites.stored, hnone, Option.none_or]
        exact if_pos rfl

end

/-! ### What it leaves behind -/

/-- The first import of a variant, day and source, on a variant with no
canonical market snapshot. -/
structure First (db : Tables) (variantId : ℕ) (day : ℤ) (source : String) : Prop where
  absent : ∀ table, snapshotId (db.snapshots table) variantId day source = none
  free : ∀ table, ∀ snapshot ∈ db.snapshots table, snapshot.variantId = variantId →
    snapshot.isCanonical = false

/-- The snapshots a record brings. -/
def Brings (record : PreparedAircraftRecord) : MarketTable → Prop
  | .valuations => record.valuation.papiPriceEstimate.isSome
  | .costSnapshots => record.operatingCosts ≠ []

/-- The assertions it brings them with. -/
def newAssertions (db : Tables) (record : PreparedAircraftRecord) (documentId : ℕ) :
    List SourceAssertion :=
  valuationAssertions documentId (db.snapshots .valuations).length record.valuation ++
    record.operatingCosts.map (costAssertion documentId (db.snapshots .costSnapshots).length)

/-- What a first import leaves behind. -/
structure FirstImport (db db' : Tables) (record : PreparedAircraftRecord) (documentId : ℕ) :
    Prop where
  created : ∀ table id, Created db db' table id ↔
    Brings record table ∧ id = (db.snapshots table).length
  assertions : db'.assertions = db.assertions ++ newAssertions db record documentId
  free : ∀ table id, Created db db' table id → ∀ snapshot, (db'.snapshots table)[id]? = some snapshot →
    ∀ other ∈ db'.snapshots table, other.variantId = snapshot.variantId → other.isCanonical = false
  price : ∀ text ∈ record.valuation.papiPriceEstimate, ∃ price, money 14 2 text = some price ∧
    ∀ fieldName, storedValue db' ⟨.valuation, (db.snapshots .valuations).length⟩ fieldName
      = valuationStores price record.valuation.forSaleCount fieldName
  costs : ∀ fieldName, storedValue db' ⟨.costSnapshot, (db.snapshots .costSnapshots).length⟩ fieldName
    = firstAmount record.operatingCosts fieldName
  totals : ∀ item ∈ record.operatingCosts, statedAmount item ≠ none →
    (costTotalColumn (costField item)).isSome →
    firstAmount record.operatingCosts (costField item) ≠ none

section

variable {db db' : Tables} {record : PreparedAircraftRecord} {variantId documentId : ℕ} {day : ℤ}
variable {source : String}

/-- Nothing is stored yet for a row to come. -/
theorem WellFormed.storedValue_new (hdb : WellFormed db) (table : MarketTable) (fieldName : String) :
    storedValue db (table.entity (db.snapshots table).length) fieldName = none := by
  rcases hx : storedValue db (table.entity (db.snapshots table).length) fieldName with - | x
  · rfl
  · obtain ⟨a, ha, hentity, -⟩ := hdb.recorded _ _ x hx
    exact absurd (hdb.known a ha table _ hentity) (lt_irrefl _)

/-- What new rows store: the price and the count in the valuation of a price, and
the first amount of each field in the cost snapshot. -/
theorem promoteMarket_stores (hdb : WellFormed db)
    (habsent : ∀ table, snapshotId (db.snapshots table) variantId day source = none)
    (h : promoteMarket db record variantId documentId day source = some db') :
    (∀ text ∈ record.valuation.papiPriceEstimate, ∃ price, money 14 2 text = some price ∧
      ∀ fieldName, storedValue db' ⟨.valuation, (db.snapshots .valuations).length⟩ fieldName
        = valuationStores price record.valuation.forSaleCount fieldName) ∧
    (record.valuation.papiPriceEstimate = none → ∀ fieldName,
      storedValue db' ⟨.valuation, (db.snapshots .valuations).length⟩ fieldName = none) ∧
    ∀ fieldName, storedValue db' ⟨.costSnapshot, (db.snapshots .costSnapshots).length⟩ fieldName
      = firstAmount record.operatingCosts fieldName := by
  obtain ⟨next, hvaluation, hcosts⟩ := Option.bind_eq_some_iff.mp h
  obtain ⟨-, -, hprice⟩ := promoteValuation_first (habsent _) hvaluation
  obtain ⟨hkept, hkeptStored⟩ := promoteValuation_keeps hvaluation
  obtain ⟨-, hvaluationStored, hcostStored⟩ := promoteCosts_stores (by rw [hkept]; exact habsent _) (by
    intro fieldName
    rw [hkept, hkeptStored]
    exact hdb.storedValue_new .costSnapshots fieldName) hcosts
  rw [hkept] at hcostStored
  refine ⟨?_, ?_, hcostStored⟩
  · intro text htext
    obtain ⟨price, hmoney, hnext⟩ := hprice text htext
    refine ⟨price, hmoney, ?_⟩
    intro fieldName
    -- the new snapshot is the last row
    have hlength : (db.snapshots .valuations).length = db.valuations.length := by
      simp [Tables.snapshots]
    rw [hvaluationStored, hlength]
    simp only [storedValue, hnext, List.getElem?_concat_length, Option.bind_some]
    rcases hcolumn : valuationColumn fieldName with - | column
    · simp [valuationStores, hcolumn]
    · rw [Option.bind_some, valuationColumn_stores hcolumn]
      rfl
  · intro hnone fieldName
    -- without a price no snapshot is made
    rw [promoteValuation, hnone] at hvaluation
    cases hvaluation
    rw [hvaluationStored]
    exact hdb.storedValue_new .valuations fieldName

theorem firstImport_of_promoteMarket (hdb : WellFormed db) (hfirst : First db variantId day source)
    (h : promoteMarket db record variantId documentId day source = some db') :
    FirstImport db db' record documentId := by
  obtain ⟨hprice, -, hstored⟩ := promoteMarket_stores hdb hfirst.absent h
  obtain ⟨next, hvaluation, hcosts⟩ := Option.bind_eq_some_iff.mp h
  obtain ⟨hvaluations, hasserted, -⟩ := promoteValuation_first (hfirst.absent _) hvaluation
  obtain ⟨hkept, -⟩ := promoteValuation_keeps hvaluation
  have habsent : snapshotId (next.snapshots .costSnapshots) variantId day source = none := by
    rw [hkept]
    exact hfirst.absent _
  obtain ⟨hcostRows, hcostAsserted⟩ := promoteCosts_first habsent hcosts
  obtain ⟨hvaluationRows, -⟩ := promoteCosts_stores habsent (by
    intro fieldName
    rw [hkept, (promoteValuation_keeps hvaluation).2]
    exact hdb.storedValue_new .costSnapshots fieldName) hcosts
  rw [hkept] at hcostRows hcostAsserted
  -- each table has at most one new row
  have hrows : ∀ table, ∃ fresh : List Snapshot,
      db'.snapshots table = db.snapshots table ++ fresh ∧
        (∀ snapshot ∈ fresh, snapshot = ⟨variantId, day, source, false⟩) ∧ fresh.length ≤ 1 ∧
        (fresh ≠ [] ↔ Brings record table) := by
    intro table
    cases table with
    | valuations =>
        refine ⟨_, hvaluationRows.trans hvaluations, ?_⟩
        rcases hvalue : record.valuation.papiPriceEstimate with - | text <;> simp [Brings, hvalue]
    | costSnapshots =>
        refine ⟨_, hcostRows, ?_⟩
        split_ifs with hitems <;> simp [Brings, hitems]
  refine ⟨?_, ?_, ?_, hprice, hstored, fun item hitem => firstAmount_of_total hcosts hitem⟩
  · intro table id
    obtain ⟨fresh, hsnapshots, -, hlength, hbrings⟩ := hrows table
    rw [Created, hsnapshots, List.length_append, ← hbrings, ← List.length_pos_iff_ne_nil]
    omega
  · rw [hcostAsserted, hasserted, List.append_assoc]
    rfl
  · intro table id hcreated snapshot hsnapshot other hother hvariant
    obtain ⟨fresh, hsnapshots, hfresh, -⟩ := hrows table
    have hnew : snapshot = ⟨variantId, day, source, false⟩ := by
      rw [hsnapshots, List.getElem?_append_right hcreated.1] at hsnapshot
      exact hfresh snapshot (List.mem_of_getElem? hsnapshot)
    rw [hsnapshots] at hother
    rcases List.mem_append.mp hother with hold | hother
    · refine hfirst.free table other hold ?_
      rw [hvariant, hnew]
    · rw [hfresh other hother]

/-! ### Amounts that agree -/

/-- A cost field can be accepted by one of its assertions: it states no number,
or the amount that is stored. -/
def CostAgrees (items : List CostItemInput) (item : CostItemInput) : Prop :=
  ∃ other ∈ items, costField other = costField item ∧
    Agrees (statedAmount other) (firstAmount items (costField item))

/-- Rounding leaves the price as it is, and every cost field has an assertion
that agrees with the amount stored first. -/
structure Agreeing (record : PreparedAircraftRecord) : Prop where
  price : ∀ text ∈ record.valuation.papiPriceEstimate, ∀ q ∈ Numeric.cast text, rounded 2 q = q
  costs : ∀ item ∈ record.operatingCosts, CostAgrees record.operatingCosts item

instance (record : PreparedAircraftRecord) : Decidable (Agreeing record) :=
  decidable_of_iff ((∀ text ∈ record.valuation.papiPriceEstimate, ∀ q ∈ Numeric.cast text,
      rounded 2 q = q) ∧ ∀ item ∈ record.operatingCosts, ∃ other ∈ record.operatingCosts,
        costField other = costField item ∧
          Agrees (statedAmount other) (firstAmount record.operatingCosts (costField item)))
    ⟨fun h => ⟨h.1, h.2⟩, fun h => ⟨h.price, h.costs⟩⟩

theorem money_eq_some {precision scale : ℕ} {text : String} {x : ℚ}
    (h : money precision scale text = some x) :
    ∃ q, Numeric.cast text = some q ∧ x = rounded scale q := by
  obtain ⟨q, hq, hx⟩ := Option.bind_eq_some_iff.mp h
  split_ifs at hx
  exact ⟨q, hq, (Option.some.inj hx).symm⟩

theorem pending_of_mem_newAssertions {a : SourceAssertion} (ha : a ∈ newAssertions db record documentId) :
    a.status = .pending ∧ a.isAccepted = false := by
  rcases List.mem_append.mp ha with ha | ha
  · unfold valuationAssertions at ha
    split at ha
    · cases ha
    · rcases List.mem_cons.mp ha with rfl | ha
      · exact ⟨rfl, rfl⟩
      · obtain ⟨count, -, rfl⟩ := List.mem_map.mp ha
        exact ⟨rfl, rfl⟩
  · obtain ⟨item, -, rfl⟩ := List.mem_map.mp ha
    exact ⟨rfl, rfl⟩

section

variable (hdb : WellFormed db) (himport : FirstImport db db' record documentId)
include hdb himport

/-- The assertions on a new snapshot are the new ones. -/
theorem FirstImport.mem_new {table : MarketTable} {id : ℕ} (hcreated : Created db db' table id)
    {a : SourceAssertion} (hentity : a.entity = table.entity id) :
    a ∈ db'.assertions ↔ a ∈ newAssertions db record documentId := by
  rw [himport.assertions, List.mem_append, or_iff_right_iff_imp]
  intro hold
  exact absurd (hdb.known a hold table id hentity) (not_lt.mpr hcreated.1)

theorem FirstImport.imported : Imported db db' where
  alone := by
    intro table id i hid hi
    rw [((himport.created table id).mp hid).2, ((himport.created table i).mp hi).2]
  stated := by
    intro table id hcreated
    obtain ⟨hbrings, rfl⟩ := (himport.created table id).mp hcreated
    rw [himport.assertions]
    cases table with
    | valuations =>
        obtain ⟨text, htext⟩ := Option.isSome_iff_exists.mp hbrings
        refine ⟨⟨documentId, ⟨.valuation, _⟩, "papi_price_estimate", text, none, Numeric.cast text,
          .pending, false⟩, List.mem_append_right _ (List.mem_append_left _ ?_), rfl⟩
        rw [valuationAssertions, htext]
        exact List.mem_cons_self
    | costSnapshots =>
        obtain ⟨item, hitem⟩ := List.exists_mem_of_ne_nil _ hbrings
        exact ⟨_, List.mem_append_right _ (List.mem_append_right _ (List.mem_map_of_mem hitem)), rfl⟩
  pending := by
    intro table id hcreated a ha hentity
    obtain ⟨hstatus, haccepted⟩ := pending_of_mem_newAssertions ((himport.mem_new hdb hcreated hentity).mp ha)
    rw [hstatus]
    exact ⟨by decide, haccepted⟩
  free := himport.free

omit hdb in
theorem FirstImport.mismatch_iff {i : ℕ} {a : SourceAssertion} (hrow : db'.assertions[i]? = some a)
    (hnew : a ∈ newAssertions db record documentId) :
    marketValueMismatch db' i a.entity a.fieldName = none ↔
      Agrees a.assertedNumeric (storedValue db' a.entity a.fieldName) := by
  refine marketValueMismatch_eq_none_iff hrow ?_
  intro hstated hcolumn
  rcases List.mem_append.mp hnew with hnew | hnew
  · rcases hprice : record.valuation.papiPriceEstimate with - | text
    · rw [valuationAssertions, hprice] at hnew
      cases hnew
    · obtain ⟨price, -, hstored⟩ := himport.price text hprice
      rw [valuationAssertions, hprice] at hnew
      rcases List.mem_cons.mp hnew with rfl | hnew
      · rw [hstored, valuationStores_price]
        exact Option.some_ne_none price
      · obtain ⟨count, hcount, rfl⟩ := List.mem_map.mp hnew
        rw [hstored, valuationStores_forSale, Option.mem_toList.mp hcount]
        exact Option.some_ne_none _
  · obtain ⟨item, hitem, rfl⟩ := List.mem_map.mp hnew
    rw [costAssertion, himport.costs]
    exact himport.totals item hitem hstated hcolumn

/-- What an import brought can be curated exactly when its amounts agree with
what it stored. -/
theorem FirstImport.curatable_iff : Curatable db db' ↔ Agreeing record := by
  rw [curatable_iff_agrees (himport.imported hdb)]
  constructor
  · intro hall
    constructor
    · intro text htext q hq
      obtain ⟨price, hmoney, hstored⟩ := himport.price text htext
      have hcreated : Created db db' .valuations (db.snapshots .valuations).length :=
        (himport.created _ _).mpr ⟨Option.isSome_iff_exists.mpr ⟨text, htext⟩, rfl⟩
      obtain ⟨i, b, hb, hbentity, hbfield, hmatch⟩ := hall ⟨documentId, ⟨.valuation, _⟩,
        "papi_price_estimate", text, none, Numeric.cast text, .pending, false⟩ (by
          rw [himport.mem_new hdb hcreated rfl, newAssertions, valuationAssertions,
            Option.mem_def.mp htext]
          exact List.mem_append_left _ List.mem_cons_self) _ _ hcreated rfl
      have hnew := (himport.mem_new hdb hcreated hbentity).mp (List.mem_of_getElem? hb)
      rw [himport.mismatch_iff hb hnew, hbentity, hbfield, hstored, valuationStores_price] at hmatch
      have hnumber : b.assertedNumeric = Numeric.cast text := by
        rw [newAssertions, valuationAssertions, Option.mem_def.mp htext] at hnew
        rcases List.mem_append.mp hnew with hnew | hnew
        · rcases List.mem_cons.mp hnew with rfl | hnew
          · rfl
          · obtain ⟨count, -, rfl⟩ := List.mem_map.mp hnew
            exact absurd hbfield (by dsimp only; decide)
        · obtain ⟨item, -, rfl⟩ := List.mem_map.mp hnew
          cases hbentity
      obtain ⟨q', hq', rfl⟩ := money_eq_some hmoney
      obtain rfl := Option.some.inj (hq'.symm.trans hq)
      exact hmatch q' (by rw [hnumber, hq]; rfl) _ rfl
    · intro item hitem
      have hcreated : Created db db' .costSnapshots (db.snapshots .costSnapshots).length :=
        (himport.created _ _).mpr ⟨List.ne_nil_of_mem hitem, rfl⟩
      obtain ⟨i, b, hb, hbentity, hbfield, hmatch⟩ := hall (costAssertion documentId _ item) (by
          rw [himport.mem_new hdb hcreated rfl]
          exact List.mem_append_right _ (List.mem_map_of_mem hitem)) _ _ hcreated rfl
      have hnew := (himport.mem_new hdb hcreated hbentity).mp (List.mem_of_getElem? hb)
      rw [himport.mismatch_iff hb hnew, hbentity, hbfield] at hmatch
      rcases List.mem_append.mp hnew with hnew | hnew
      · unfold valuationAssertions at hnew
        split at hnew
        · cases hnew
        · rcases List.mem_cons.mp hnew with rfl | hnew
          · cases hbentity
          · obtain ⟨count, -, rfl⟩ := List.mem_map.mp hnew
            cases hbentity
      · obtain ⟨other, hother, rfl⟩ := List.mem_map.mp hnew
        refine ⟨other, hother, hbfield, ?_⟩
        rw [← himport.costs]
        exact hmatch
  · intro hagreeing a ha table id hcreated hentity
    have hnew := (himport.mem_new hdb hcreated hentity).mp ha
    -- every field is accepted by its own assertion, a cost by one that agrees
    suffices hagrees : ∃ b ∈ newAssertions db record documentId, b.entity = a.entity ∧
        b.fieldName = a.fieldName ∧
        Agrees b.assertedNumeric (storedValue db' b.entity b.fieldName) by
      obtain ⟨b, hbnew, hbentity, hbfield, hagrees⟩ := hagrees
      obtain ⟨i, hi⟩ := List.mem_iff_getElem?.mp
        ((himport.mem_new hdb hcreated (hbentity.trans hentity)).mpr hbnew)
      exact ⟨i, b, hi, hbentity, hbfield, (himport.mismatch_iff hi hbnew).mpr hagrees⟩
    rcases List.mem_append.mp hnew with hvaluation | hcost
    · refine ⟨a, hnew, rfl, rfl, ?_⟩
      rcases hprice : record.valuation.papiPriceEstimate with - | text
      · rw [valuationAssertions, hprice] at hvaluation
        cases hvaluation
      · obtain ⟨price, hmoney, hstored⟩ := himport.price text hprice
        rw [valuationAssertions, hprice] at hvaluation
        rcases List.mem_cons.mp hvaluation with rfl | hvaluation
        · rw [hstored, valuationStores_price]
          obtain ⟨q, hq, rfl⟩ := money_eq_some hmoney
          rintro v hv x hx
          obtain rfl := Option.some.inj hx
          obtain rfl := Option.some.inj (hq.symm.trans hv)
          exact hagreeing.price text hprice q hq
        · obtain ⟨count, hcount, rfl⟩ := List.mem_map.mp hvaluation
          rw [hstored, valuationStores_forSale, Option.mem_toList.mp hcount]
          rintro v hv x hx
          obtain rfl := Option.some.inj hx
          exact Option.some.inj hv
    · obtain ⟨item, hitem, rfl⟩ := List.mem_map.mp hcost
      obtain ⟨other, hother, hfield, hagrees⟩ := hagreeing.costs item hitem
      refine ⟨costAssertion documentId _ other,
        List.mem_append_right _ (List.mem_map_of_mem hother), rfl, hfield, ?_⟩
      rw [costAssertion, himport.costs, hfield]
      exact hagrees

end

/-- **Imported market data is curatable** exactly when its amounts agree with
what is stored: one assertion can be chosen for each field of the snapshots a
first import creates, so that accepting them goes through in every order and
publishes both, if and only if rounding leaves the price as it is and every cost
field has an assertion without a number or with the amount stored first. -/
theorem first_import_curatable_iff (hdb : WellFormed db)
    (hfirst : First db variantId day source)
    (himport : promoteMarket db record variantId documentId day source = some db') :
    Curatable db db' ↔ Agreeing record :=
  (firstImport_of_promoteMarket hdb hfirst himport).curatable_iff hdb

end

theorem first_empty (variantId : ℕ) (day : ℤ) (source : String) :
    First .empty variantId day source where
  absent := by
    intro table
    cases table <;> rfl
  free := by
    intro table snapshot hsnapshot
    cases table <;> cases hsnapshot

/-- A price, a count, and costs by the year and by the hour. -/
def listedObject : JsonObject :=
  [("papi_price_estimate", .string "$185,000.50"), ("for_sale_count", .string "12"),
    ("ownership_costs", .object [("insurance", .string "$100"), ("hangar", .string "$50"),
      ("fuel", .string "$40")])]

def listedRecord : PreparedAircraftRecord :=
  normalizeRecord PlanePhd.fleetCrates "Cessna" "172" (.object listedObject)

theorem promoteMarket_listed : ∃ db, promoteMarket .empty listedRecord 0 0 0 "PlanePHD" = some db :=
  Option.isSome_iff_exists.mp (by decide +kernel)

theorem first_import_curatable_iff_listed : ∃ db,
    promoteMarket .empty listedRecord 0 0 0 "PlanePHD" = some db ∧ Curatable .empty db := by
  obtain ⟨db, himport⟩ := promoteMarket_listed
  exact ⟨db, himport, (first_import_curatable_iff wellFormed_empty (first_empty 0 0 "PlanePHD")
    himport).mpr (by decide +kernel)⟩

/-- A record with a price of three decimals. -/
def finePrice : PreparedAircraftRecord :=
  normalizeRecord PlanePhd.fleetCrates "Cessna" "172"
    (.object [("papi_price_estimate", .string "$100.005")])

/-- It is stored rounded, and no assertion of the valuation agrees with it. -/
theorem rounded_price_not_curatable : ¬ ∀ (db db' : Tables) (record : PreparedAircraftRecord)
    (variantId documentId : ℕ) (day : ℤ) (source : String), WellFormed db →
      First db variantId day source →
      promoteMarket db record variantId documentId day source = some db' → Curatable db db' := by
  intro h
  have hprice := Option.eq_some_of_isSome (o := promoteMarket .empty finePrice 0 0 0 "PlanePHD")
    (by decide +kernel)
  have hcuratable := h _ _ _ _ _ _ _ wellFormed_empty (first_empty 0 0 "PlanePHD") hprice
  have hagreeing := ((firstImport_of_promoteMarket wellFormed_empty (first_empty 0 0 "PlanePHD")
    hprice).curatable_iff wellFormed_empty).mp hcuratable
  exact absurd hagreeing (by decide +kernel)

end Curation

end AircraftApi
