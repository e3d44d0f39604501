/-
AircraftApi/MarketLoss.lean

Whether a market value a record states is stored when its snapshots are new, or
else an issue names it.

Three things decide: cost keys map many to one to codes, and the first amount
of a code stands (`firstAmount`); a for-sale count is written beside a price
only; and an amount that parsed under a mapped key raises no issue of its own.
So what is lost is lost silently, but where another member of the record happens
to raise an issue on the path of the key (`Flagged`).
-/
import AircraftApi.Curatability
import AircraftApi.IssuePaths
import AircraftApi.Loadability

namespace AircraftApi

namespace Curation

/-! ### The condition -/

/-- The costs a record states. -/
def statedCosts (object : JsonObject) : List CostItemInput :=
  (costItems (sectionAt object "ownership_costs")).value

/-- The path of a cost. -/
def costPath (key : String) : String := s!"ownership_costs.{key}"

/-- A member of the record that raises an issue on the path of a cost: one of
that very name, or a second value of the key that is no amount. -/
def Flagged (object : JsonObject) (key : String) : Prop :=
  (∃ value, (costPath key, value) ∈ object) ∨
    ∃ members ∈ sectionAt object "ownership_costs", ∃ value, (key, value) ∈ members ∧
      (costItem key value).notes ≠ []

/-- Every amount under a mapped key is the first one stated for its code, to the
decimals of the column, and a for-sale count comes with a price. -/
structure NothingLost (object : JsonObject) : Prop where
  costs : ∀ item ∈ statedCosts object, ∀ code ∈ item.mappedCode, ∀ amount ∈ item.numericValue,
    costValue code amount item.isAggregate = firstAmount (statedCosts object) code ∨
      Flagged object item.sourceKey
  forSale : integerAt object "for_sale_count" ≠ none → numericAt object "papi_price_estimate" ≠ none

/-! ### Which paths issues name -/

variable {crates : Crates} {manufacturer aircraft : String} {object : JsonObject}

theorem named_costPath_iff {key : String} :
    Named (normalizeRecord crates manufacturer aircraft (.object object)) (costPath key) ↔
      Flagged object key := by
  have hpath : costPath key = "ownership_costs" ++ "." ++ key := costPath_eq key
  have himage : ¬ ∃ position, "ownership_costs" = imagePath position := by
    rintro ⟨position, heq⟩
    exact ne_imagePath (by decide) position heq
  -- an issue on the path of a cost is one of its own reader
  have hcosts : Flags (costItems (sectionAt object "ownership_costs"))
      ("ownership_costs" ++ "." ++ key) ↔
      ∃ members ∈ sectionAt object "ownership_costs", ∃ value, (key, value) ∈ members ∧
        (costItem key value).notes ≠ [] := by
    constructor
    · intro h
      rcases hsection : sectionAt object "ownership_costs" with - | members
      · rw [hsection] at h
        exact (Noted.Any.pure_iff.mp h).elim
      · rw [hsection] at h
        obtain ⟨⟨name, value⟩, hentry, hflags⟩ := Noted.Any.collect_iff.mp h
        have hself := path_of_reads (· = "ownership_costs" ++ "." ++ name)
          (Reads.costItem value (costPath_eq name)) hflags
        obtain rfl := (path_injective (by decide) (by decide) hself).2
        obtain ⟨found, hfound, -⟩ := hflags
        exact ⟨members, rfl, value, hentry, List.ne_nil_of_mem hfound⟩
    · rintro ⟨members, hsection, value, hentry, hnotes⟩
      rw [hsection]
      obtain ⟨found, hfound⟩ := List.exists_mem_of_ne_nil _ hnotes
      have hreads : Reads (· = "ownership_costs" ++ "." ++ key) (costItem key value) :=
        Reads.costItem value (costPath_eq key)
      exact Noted.Any.collect_iff.mpr ⟨(key, value), hentry, found, hfound,
        (hreads found hfound).fieldPath⟩
  rw [named_iff_flags, hpath, flags_inSection (by decide) (by decide), hcosts, Flagged, hpath]
  simp [himage]

/-- A count that parsed raises no issue. -/
theorem not_named_forSale (hcount : integerAt object "for_sale_count" ≠ none) :
    ¬ Named (normalizeRecord crates manufacturer aircraft (.object object)) "for_sale_count" := by
  rw [named_iff_flags, flags_field (by decide) forSale_mem_readings, not_not]
  rcases hget : Json.get object "for_sale_count" with - | value
  · rfl
  · have hblank : value.isBlank = false := by
      obtain ⟨count, hcount⟩ := Option.ne_none_iff_exists'.mp hcount
      obtain ⟨number, hnumber, -⟩ := Option.bind_eq_some_iff.mp hcount
      obtain ⟨text, htext, -⟩ := Option.bind_eq_some_iff.mp hnumber
      rw [textAt, hget] at htext
      exact isBlank_of_valueText htext
    refine (Answers.numericInteger Text.parseI32 hblank).mpr ?_
    rw [numericInteger_value, ← hget]
    exact hcount

/-! ### What becomes of the values -/

/-- The amount is stored for its code, to the decimals of its column. -/
def AmountStored (db : Tables) (id : ℕ) (code amount : String) (isAggregate : Bool) : Prop :=
  ∃ x, costValue code amount isAggregate = some x ∧ storedValue db ⟨.costSnapshot, id⟩ code = some x

/-- Every amount that parsed under a mapped key, the price and the count are
stored in the new snapshots, or else an issue names their path. -/
structure Accounted (db db' : Tables) (record : PreparedAircraftRecord) : Prop where
  costs : ∀ item ∈ record.operatingCosts, ∀ code ∈ item.mappedCode, ∀ amount ∈ item.numericValue,
    AmountStored db' (db.snapshots .costSnapshots).length code amount item.isAggregate ∨
      Named record (costPath item.sourceKey)
  price : ∀ text ∈ record.valuation.papiPriceEstimate,
    (∃ x, money 14 2 text = some x ∧ storedValue db'
      ⟨.valuation, (db.snapshots .valuations).length⟩ "papi_price_estimate" = some x) ∨
    Named record "papi_price_estimate"
  forSale : ∀ count ∈ record.valuation.forSaleCount,
    storedValue db' ⟨.valuation, (db.snapshots .valuations).length⟩ "for_sale_count"
      = some (count : ℚ) ∨ Named record "for_sale_count"

/-- **No market value is silently lost** exactly when the amounts under one code
are all the first of them, to the decimals of its column, and no for-sale count
comes without a price, but for the values another member's issue names. -/
theorem accounted_iff {db db' : Tables} {raw : Json} {variantId documentId : ℕ} {day : ℤ}
    {source : String} (hdb : WellFormed db)
    (hfresh : ∀ table, snapshotId (db.snapshots table) variantId day source = none)
    (himport : promoteMarket db (normalizeRecord crates manufacturer aircraft raw) variantId
      documentId day source = some db') :
    Accounted db db' (normalizeRecord crates manufacturer aircraft raw) ↔
      ∀ object, raw = .object object → NothingLost object := by
  obtain ⟨hprice, hnoPrice, hcosts⟩ := promoteMarket_stores hdb hfresh himport
  obtain ⟨next, -, hpromoted⟩ := Option.bind_eq_some_iff.mp himport
  cases raw with
  | object object =>
    have hvaluation : (normalizeRecord crates manufacturer aircraft (.object object)).valuation
        = ⟨numericAt object "papi_price_estimate", integerAt object "for_sale_count"⟩ := by
      rw [normalizeRecord_object]
      rfl
    have hitems : (normalizeRecord crates manufacturer aircraft (.object object)).operatingCosts
        = statedCosts object := by
      rw [normalizeRecord_object]
      rfl
    rw [hitems] at hpromoted hcosts
    rw [hvaluation] at hprice hnoPrice
    dsimp only at hprice hnoPrice
    -- a mapped amount has a column, so an amount is stored when it is the first
    have hstored : ∀ item ∈ statedCosts object, ∀ code ∈ item.mappedCode,
        ∀ amount ∈ item.numericValue,
          (AmountStored db' (db.snapshots .costSnapshots).length code amount item.isAggregate ↔
            costValue code amount item.isAggregate = firstAmount (statedCosts object) code) := by
      intro item hitem code hcode amount hamount
      have hvalue : costValue code amount item.isAggregate ≠ none := by
        obtain ⟨members, -, entry, -, raw, -, rfl⟩ := mem_costItems.mp hitem
        obtain ⟨⟨fixed, total⟩, htype, haggregate⟩ := (costCode_seeded entry.1).2 code hcode
        have hstores := costStores_of_promoteCosts hpromoted hitem hcode hamount htype
          fun hflag => haggregate.trans hflag
        rw [costStores, Option.mem_def.mp hcode, Option.mem_def.mp hamount] at hstores
        intro hnone
        exact hstores (by rw [Option.bind_some, Option.bind_some, hnone]; rfl)
      obtain ⟨x, hx⟩ := Option.ne_none_iff_exists'.mp hvalue
      rw [AmountStored, hcosts, hx]
      constructor
      · rintro ⟨y, hy, hfirst⟩
        rw [hfirst, hy]
      · intro hfirst
        exact ⟨x, rfl, hfirst.symm⟩
    constructor
    · rintro ⟨hall, -, hcount⟩ object' heq
      obtain rfl := Json.object.inj heq
      constructor
      · intro item hitem code hcode amount hamount
        rw [← hstored item hitem code hcode amount hamount]
        exact (hall item (by rw [hitems]; exact hitem) code hcode amount hamount).imp_right
          named_costPath_iff.mp
      · intro hstated hnone
        obtain ⟨count, hcount'⟩ := Option.ne_none_iff_exists'.mp hstated
        rcases hcount count (by rw [hvaluation]; exact hcount') with hvalue | hnamed
        · rw [hnoPrice hnone] at hvalue
          cases hvalue
        · exact not_named_forSale hstated hnamed
    · intro h
      obtain ⟨hall, hcount⟩ := h object rfl
      refine ⟨?_, ?_, ?_⟩
      · intro item hitem code hcode amount hamount
        rw [hitems] at hitem
        rw [hstored item hitem code hcode amount hamount, named_costPath_iff]
        exact hall item hitem code hcode amount hamount
      · intro text htext
        rw [hvaluation] at htext
        obtain ⟨price, hmoney, hvalue⟩ := hprice text htext
        exact .inl ⟨price, hmoney, by rw [hvalue, valuationStores_price]⟩
      · intro count hcount'
        rw [hvaluation] at hcount'
        have hcount' : integerAt object "for_sale_count" = some count := hcount'
        have hpriced := hcount (by rw [hcount']; exact Option.some_ne_none count)
        obtain ⟨text, htext⟩ := Option.ne_none_iff_exists'.mp hpriced
        obtain ⟨price, -, hvalue⟩ := hprice text htext
        refine .inl ?_
        rw [hvalue, valuationStores_forSale, hcount']
        rfl
  | _ =>
    constructor
    · intro _ object heq
      cases heq
    · intro _
      refine ⟨?_, ?_, ?_⟩
      · intro item hitem
        cases hitem
      · intro text htext
        cases htext
      · intro count hcount
        cases hcount

theorem snapshotId_empty (table : MarketTable) (variantId : ℕ) (day : ℤ) (source : String) :
    snapshotId (Tables.empty.snapshots table) variantId day source = none := by
  cases table <;> rfl

/-- Every amount of the record is the first of its code, and the count comes with a price. -/
theorem accounted_iff_listed : ∃ db,
    promoteMarket .empty listedRecord 0 0 0 "PlanePHD" = some db ∧
      Accounted .empty db listedRecord := by
  obtain ⟨db, himport⟩ := promoteMarket_listed
  refine ⟨db, himport, (accounted_iff wellFormed_empty
    (fun table => snapshotId_empty table 0 0 "PlanePHD") himport).mpr ?_⟩
  intro object heq
  obtain rfl := Json.object.inj heq
  refine ⟨?_, by decide +kernel⟩
  have hall : ∀ item ∈ statedCosts listedObject, ∀ code ∈ item.mappedCode,
      ∀ amount ∈ item.numericValue,
        costValue code amount item.isAggregate = firstAmount (statedCosts listedObject) code := by
    decide +kernel
  exact fun item hitem code hcode amount hamount => .inl (hall item hitem code hcode amount hamount)

/-- A hangar and a storage cost, which share a code. -/
def hangarAndStorage : PreparedAircraftRecord :=
  costRecord [("hangar", .string "$50"), ("storage", .string "$60")]

/-- The second of them is gone, and no issue says so. -/
theorem storage_lost : ¬ ∀ (db db' : Tables) (raw : Json) (variantId documentId : ℕ) (day : ℤ)
    (source : String), WellFormed db →
      (∀ table, snapshotId (db.snapshots table) variantId day source = none) →
      promoteMarket db (normalizeRecord PlanePhd.fleetCrates "Cessna" "172" raw) variantId
        documentId day source = some db' →
      Accounted db db' (normalizeRecord PlanePhd.fleetCrates "Cessna" "172" raw) := by
  intro h
  have himport := Option.eq_some_of_isSome (o := promoteMarket .empty hangarAndStorage 0 0 0
    "PlanePHD") (by decide +kernel)
  have hitem : preparedCost "storage" "$60" ∈ hangarAndStorage.operatingCosts :=
    mem_costItems.mpr ⟨_, rfl, ("storage", .string "$60"), by simp, "$60", by decide, rfl⟩
  have hstored : storedValue ((promoteMarket .empty hangarAndStorage 0 0 0 "PlanePHD").get
      (by decide +kernel)) ⟨.costSnapshot, 0⟩ "HANGAR_STORAGE" = some 50 := by decide +kernel
  have hissues : hangarAndStorage.issues.length = 0 := by decide +kernel
  have haccounted := h _ _ _ _ _ _ _ wellFormed_empty
    (fun table => snapshotId_empty table 0 0 "PlanePHD") himport
  rcases haccounted.costs _ hitem "HANGAR_STORAGE" (by decide) "60" (by decide) with
    ⟨x, hx, hvalue⟩ | ⟨found, hfound, -⟩
  · obtain rfl := Option.some.inj (hstored.symm.trans hvalue)
    exact absurd hx (by decide +kernel)
  · have hfound : found ∈ hangarAndStorage.issues := hfound
    rw [List.eq_nil_of_length_eq_zero hissues] at hfound
    cases hfound

end Curation

end AircraftApi
