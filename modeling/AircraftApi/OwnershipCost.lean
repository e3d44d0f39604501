/-
AircraftApi/OwnershipCost.lean

`aircraft_read.mv_ownership_cost_summary`: what a variant costs a year and an hour, from
the line items of its latest cost snapshot, as the migrations have defined it in turn.

    migration016    the first definition, on any snapshot
    migration020    on canonical snapshots only
    migration027    with the code of fuel that exists
    migration031    a total of each item's own annual figure

In the total of 031 every item counts once; the total of 027 is short of it by the hourly
items that an annual figure of a variable item suppresses (`annual_total`).  No run of
imports and decisions reaches such a snapshot, so there 031 changes nothing
(`summary_of_reachable`).
-/
import AircraftApi.Publication

namespace AircraftApi

namespace OwnershipCost

open Curation
open Numeric (rounded roundUnits)

/-! ### Aggregates -/

/-- `SUM`: no value of no values. -/
def sumOf (values : List (Option ℚ)) : Option ℚ :=
  if values.reduceOption = [] then none else some values.reduceOption.sum

/-- What a snapshot is joined with: its assumptions, its totals with theirs, and its line
items by code. -/
structure Costs where
  assumedAnnualHours : Option ℚ
  totals : Option (CostSnapshotTotals × Option ℚ)
  lines : List (String × CostLineItem)

/-- `cit.is_fixed`, of the joined item type. -/
def isFixed (code : String) : Option Bool := (Schema.costItemTypes.lookup code).map Prod.fst

namespace Costs

variable (costs : Costs)

/-- `sum(amount) FILTER (WHERE …)`. -/
def sumWhere (p : String → Bool) (amount : CostLineItem → Option ℚ) : Option ℚ :=
  sumOf ((costs.lines.filter fun line => p line.1).map fun line => amount line.2)

/-- The hours a year the source reckons with. -/
def sourceAssumedHours : Option ℚ := costs.totals.bind Prod.snd

/-- The hours a year that make an hourly rate an annual figure. -/
def hours : ℚ := (costs.assumedAnnualHours.or costs.sourceAssumedHours).getD 100

end Costs

/-! ### The definitions of the view -/

/-- What the revisions of the view differ in. -/
structure Revision where
  canonicalOnly : Bool
  fuelCode : String
  perItem : Bool

/-- The view as it was first made: every snapshot, and a fuel code nothing has. -/
def migration016 : Revision := ⟨false, "FUEL_COST_PER_HOUR", false⟩

/-- Canonical snapshots only. -/
def migration020 : Revision := { migration016 with canonicalOnly := true }

/-- The fuel code the lines have. -/
def migration027 : Revision := { migration020 with fuelCode := "FUEL" }

/-- The annual total item by item. -/
def migration031 : Revision := { migration027 with perItem := true }

/-- The item is a fixed cost. -/
def fixed (code : String) : Bool := isFixed code = some true

/-- The item is a variable cost. -/
def variableCost (code : String) : Bool := isFixed code = some false

/-- The annual figure of a variable item. -/
def annualFigure (hours : ℚ) (line : CostLineItem) : Option ℚ :=
  line.amountAnnual.or (line.amountPerHour.map (· * hours))

/-- The annual total, before it is rounded. -/
def annualTotal (revision : Revision) (costs : Costs) : ℚ :=
  (costs.sumWhere fixed CostLineItem.amountAnnual).getD 0 +
    if revision.perItem then
      (costs.sumWhere variableCost (annualFigure costs.hours)).getD 0
    else
      ((costs.sumWhere variableCost CostLineItem.amountAnnual).or
        ((costs.sumWhere variableCost CostLineItem.amountPerHour).map (· * costs.hours))).getD 0

/-- A row of the view. -/
structure Summary where
  sourceTotalAnnualUsd : Option ℚ
  sourceTotalFixedUsd : Option ℚ
  sourceTotalVariableUsd : Option ℚ
  sourceAssumedHours : Option ℚ
  totalAnnualFixedUsd : Option ℚ
  totalHourlyVariableUsd : Option ℚ
  hourlyFuelCostUsd : Option ℚ
  hourlyMaintenanceReserveUsd : Option ℚ
  computedTotalAnnualUsd : ℚ
  costPerHourUsd : Option ℚ
  deriving DecidableEq

/-- The variable total over the hours it was made for. -/
def sourceHourly (costs : Costs) : Option ℚ := do
  let totals ← costs.totals
  let total ← totals.1.totalVariableUsd
  let hours ← (costs.sourceAssumedHours.or costs.assumedAnnualHours).filter (· ≠ 0)
  some (total / hours)

/-- The row of the view for a snapshot's costs. -/
def summarize (revision : Revision) (costs : Costs) : Summary where
  sourceTotalAnnualUsd := costs.totals.bind fun totals => totals.1.totalAnnualUsd
  sourceTotalFixedUsd := costs.totals.bind fun totals => totals.1.totalFixedUsd
  sourceTotalVariableUsd := costs.totals.bind fun totals => totals.1.totalVariableUsd
  sourceAssumedHours := costs.sourceAssumedHours
  totalAnnualFixedUsd := (costs.sumWhere fixed CostLineItem.amountAnnual).map (rounded 2)
  totalHourlyVariableUsd :=
    (costs.sumWhere variableCost CostLineItem.amountPerHour).map (rounded 4)
  hourlyFuelCostUsd :=
    (costs.sumWhere (· = revision.fuelCode) CostLineItem.amountPerHour).map (rounded 4)
  hourlyMaintenanceReserveUsd :=
    (costs.sumWhere (fun code => variableCost code ∧ code ≠ revision.fuelCode)
      CostLineItem.amountPerHour).map (rounded 4)
  computedTotalAnnualUsd := rounded 2 (annualTotal revision costs)
  costPerHourUsd :=
    (sourceHourly costs).or (costs.sumWhere variableCost CostLineItem.amountPerHour)

/-! ### The view over the tables -/

/-- The snapshots of a variant, the last inserted first. -/
def snapshotsOf (canonicalOnly : Bool) (db : Tables) (variantId : ℕ) : List (ℕ × CostSnapshot) :=
  (db.costSnapshots.zipIdx.reverse.map Prod.swap).filter fun row =>
    row.2.variantId = variantId ∧ (canonicalOnly → row.2.isCanonical)

/-- The later of two rows, or the first. -/
def later (best : Option (ℕ × CostSnapshot)) (row : ℕ × CostSnapshot) : Option (ℕ × CostSnapshot) :=
  match best with
  | none => some row
  | some other => if other.2.snapshotDate < row.2.snapshotDate then some row else some other

/-- `DISTINCT ON (variant_id) … ORDER BY variant_id, snapshot_date DESC, id DESC`. -/
def latestSnapshot (canonicalOnly : Bool) (db : Tables) (variantId : ℕ) :
    Option (ℕ × CostSnapshot) :=
  (snapshotsOf canonicalOnly db variantId).foldl later none

/-- What the imports have written of a snapshot; they leave the assumptions out. -/
def costsOf (db : Tables) (id : ℕ) : Costs where
  assumedAnnualHours := none
  totals := (db.costSnapshotTotals.lookup id).map fun totals => (totals, none)
  lines := (db.costLineItems.entries.filter fun entry => entry.1.1 = id).map fun entry =>
    (entry.1.2, entry.2)

/-- The row of a variant, with its snapshot. -/
def summary (revision : Revision) (db : Tables) (variantId : ℕ) : Option (ℕ × Summary) :=
  (latestSnapshot revision.canonicalOnly db variantId).map fun row =>
    (row.1, summarize revision (costsOf db row.1))

/-! ### Sums -/

section

variable {values : List (Option ℚ)} {costs : Costs} {p q : String → Bool}
  {amount : CostLineItem → Option ℚ}

theorem sumOf_getD : (sumOf values).getD 0 = (values.map fun value => value.getD 0).sum := by
  have hsum : values.reduceOption.sum = (values.map fun value => value.getD 0).sum := by
    induction values with
    | nil => rfl
    | cons value values ih =>
        cases value with
        | none => rw [List.reduceOption_cons_of_none, List.map_cons, List.sum_cons, ih]; simp
        | some x => rw [List.reduceOption_cons_of_some, List.map_cons, List.sum_cons,
            List.sum_cons, ih]; simp
  unfold sumOf
  split_ifs with h
  · rw [← hsum, h]
    rfl
  · exact hsum

theorem sumOf_eq_none : sumOf values = none ↔ ∀ value ∈ values, value = none := by
  have hnil : values.reduceOption = [] ↔ ∀ value ∈ values, value = none := by
    rw [List.reduceOption, List.filterMap_eq_nil_iff]
    rfl
  rw [← hnil]
  unfold sumOf
  split_ifs with h <;> simp [h]

theorem sumWhere_getD (costs : Costs) (p : String → Bool) (amount : CostLineItem → Option ℚ) :
    (costs.sumWhere p amount).getD 0 =
      ((costs.lines.filter fun line => p line.1).map fun line => (amount line.2).getD 0).sum := by
  rw [Costs.sumWhere, sumOf_getD, List.map_map]
  rfl

theorem sumWhere_eq_none : costs.sumWhere p amount = none ↔
    ∀ line ∈ costs.lines, p line.1 = true → amount line.2 = none := by
  rw [Costs.sumWhere, sumOf_eq_none]
  simp only [List.forall_mem_map, List.mem_filter, and_imp]

/-- A condition sums the items it holds of. -/
theorem sum_filter_eq (lines : List (String × CostLineItem)) (p : String × CostLineItem → Bool)
    (f : String × CostLineItem → ℚ) :
    ((lines.filter p).map f).sum = (lines.map fun line => if p line then f line else 0).sum := by
  induction lines with
  | nil => rfl
  | cons line lines ih =>
      rw [List.filter_cons, List.map_cons, List.sum_cons, ← ih]
      cases p line
      · exact (zero_add _).symm
      · rfl

end

/-! ### The annual total -/

/-- What the schema lets a snapshot be: items of seeded types that are no totals, no
negative amounts, positive hours. -/
structure Checked (costs : Costs) : Prop where
  seeded : ∀ line ∈ costs.lines, ∃ fixed, Schema.costItemTypes.lookup line.1 = some (fixed, false)
  annual : ∀ line ∈ costs.lines, ∀ x ∈ line.2.amountAnnual, 0 ≤ x
  perHour : ∀ line ∈ costs.lines, ∀ x ∈ line.2.amountPerHour, 0 ≤ x
  annualHours : ∀ x ∈ costs.assumedAnnualHours, 0 < x
  sourceHours : ∀ x ∈ costs.sourceAssumedHours, 0 < x

/-- The annual figure of an item. -/
def contribution (hours : ℚ) (line : String × CostLineItem) : ℚ :=
  if fixed line.1 then line.2.amountAnnual.getD 0 else (annualFigure hours line.2).getD 0

/-- The hourly items of a snapshot on which some variable item has an annual figure. -/
def suppressed (costs : Costs) : List (String × CostLineItem) :=
  if costs.lines.any fun line => variableCost line.1 ∧ line.2.amountAnnual.isSome then
    costs.lines.filter fun line => variableCost line.1 ∧ line.2.amountAnnual = none
  else []

section

variable {costs : Costs}

theorem hours_pos (h : Checked costs) : 0 < costs.hours := by
  unfold Costs.hours
  rcases hannual : costs.assumedAnnualHours with - | x
  · rcases hsource : costs.sourceAssumedHours with - | x
    · norm_num
    · exact h.sourceHours x hsource
  · exact h.annualHours x hannual

theorem fixed_or_variable (h : Checked costs) {line : String × CostLineItem}
    (hline : line ∈ costs.lines) : variableCost line.1 = !fixed line.1 := by
  obtain ⟨isFixed', htype⟩ := h.seeded line hline
  cases isFixed' <;> simp [variableCost, fixed, isFixed, htype]

/-- Every item counts once. -/
theorem annualTotal_perItem (h : Checked costs) : annualTotal migration031 costs =
    (costs.lines.map (contribution costs.hours)).sum := by
  have hsplit : (costs.lines.map (contribution costs.hours)) = costs.lines.map fun line =>
      (if fixed line.1 then line.2.amountAnnual.getD 0 else 0) +
        if variableCost line.1 then (annualFigure costs.hours line.2).getD 0 else 0 := by
    apply List.map_congr_left
    intro line hline
    rw [contribution, fixed_or_variable h hline]
    cases fixed line.1 <;> simp
  show (costs.sumWhere fixed CostLineItem.amountAnnual).getD 0 +
    (costs.sumWhere variableCost (annualFigure costs.hours)).getD 0 = _
  rw [hsplit, List.sum_map_add, sumWhere_getD, sumWhere_getD, sum_filter_eq, sum_filter_eq]

theorem sumWhere_annual_eq_none : costs.sumWhere variableCost CostLineItem.amountAnnual = none ↔
    (costs.lines.any fun line => variableCost line.1 ∧ line.2.amountAnnual.isSome) = false := by
  rw [sumWhere_eq_none, List.any_eq_false]
  apply forall₂_congr
  intro line _
  cases line.2.amountAnnual <;> simp

/-- The total of 027 leaves the suppressed items out. -/
theorem annualTotal_suppressed : annualTotal migration027 costs +
    ((suppressed costs).map (contribution costs.hours)).sum = annualTotal migration031 costs := by
  show _ + ((costs.sumWhere variableCost CostLineItem.amountAnnual).or
      ((costs.sumWhere variableCost CostLineItem.amountPerHour).map (· * costs.hours))).getD 0 +
    _ = _ + (costs.sumWhere variableCost (annualFigure costs.hours)).getD 0
  rw [add_assoc, suppressed]
  congr 1
  cases hany : costs.lines.any fun line => variableCost line.1 ∧ line.2.amountAnnual.isSome
  · -- no variable item has an annual figure: each is its rate times the hours
    have hnone := sumWhere_annual_eq_none.mpr hany
    have hline := sumWhere_eq_none.mp hnone
    rw [hnone, Option.none_or, if_neg (by simp), List.map_nil, List.sum_nil, add_zero]
    have hrate : ((costs.sumWhere variableCost CostLineItem.amountPerHour).map
        (· * costs.hours)).getD 0 =
        (costs.sumWhere variableCost CostLineItem.amountPerHour).getD 0 * costs.hours := by
      cases costs.sumWhere variableCost CostLineItem.amountPerHour <;> simp
    rw [hrate, sumWhere_getD, sumWhere_getD, ← List.sum_map_mul_right]
    congr 1
    apply List.map_congr_left
    intro line hmem
    obtain ⟨hmem, hvariable⟩ := List.mem_filter.mp hmem
    rw [annualFigure, hline line hmem hvariable]
    cases line.2.amountPerHour <;> simp
  · -- the annual figures are summed, and the items without one are left out
    have hsome : costs.sumWhere variableCost CostLineItem.amountAnnual ≠ none := by
      intro hnone
      rw [sumWhere_annual_eq_none.mp hnone] at hany
      cases hany
    obtain ⟨total, htotal⟩ := Option.ne_none_iff_exists'.mp hsome
    have hannual := sumWhere_getD costs variableCost CostLineItem.amountAnnual
    rw [htotal, Option.getD_some] at hannual
    rw [htotal, Option.some_or, Option.getD_some, if_pos rfl, hannual, sumWhere_getD,
      sum_filter_eq, sum_filter_eq, sum_filter_eq, ← List.sum_map_add]
    congr 1
    apply List.map_congr_left
    intro line _
    cases hvariable : variableCost line.1
    · simp
    · have hnot : fixed line.1 = false := by
        simp only [variableCost, decide_eq_true_eq] at hvariable
        simp [fixed, hvariable]
      rw [contribution, annualFigure, hnot]
      cases line.2.amountAnnual <;> simp

/-- An hourly item is suppressed with what it costs a year. -/
theorem suppressed_spec (h : Checked costs) {line : String × CostLineItem}
    (hline : line ∈ suppressed costs) : ∃ x, line.2.amountPerHour = some x ∧ 0 ≤ x ∧
      contribution costs.hours line = x * costs.hours := by
  have hmem : line ∈ costs.lines ∧ variableCost line.1 = true ∧ line.2.amountAnnual = none := by
    unfold suppressed at hline
    split_ifs at hline
    · simpa using List.mem_filter.mp hline
    · cases hline
  obtain ⟨hmem, hvariable, hannual⟩ := hmem
  have hfixed : fixed line.1 = false := by
    have hnot := fixed_or_variable h hmem
    rw [hvariable] at hnot
    simpa using hnot.symm
  obtain ⟨x, hx⟩ : ∃ x, line.2.amountPerHour = some x :=
    Option.ne_none_iff_exists'.mp (line.2.hasAmount.resolve_left fun hsome => hsome hannual)
  refine ⟨x, hx, h.perHour line hmem x hx, ?_⟩
  simp [contribution, hfixed, annualFigure, hannual, hx]

end

/-- **The total of 031**, before the view rounds it: on every snapshot the schema allows,
each item counts once, with its own annual figure; the total of 027 is short of that by the
hourly items it leaves out, and right exactly when each of them costs nothing. -/
theorem annual_total {costs : Costs} (h : Checked costs) :
    annualTotal migration031 costs = (costs.lines.map (contribution costs.hours)).sum ∧
      annualTotal migration027 costs + ((suppressed costs).map (contribution costs.hours)).sum =
        annualTotal migration031 costs ∧
      (annualTotal migration027 costs = annualTotal migration031 costs ↔
        ∀ line ∈ suppressed costs, line.2.amountPerHour = some 0) := by
  refine ⟨annualTotal_perItem h, annualTotal_suppressed, ?_⟩
  have hsum : _ = annualTotal migration031 costs := annualTotal_suppressed
  -- the totals agree exactly when nothing of it is suppressed
  have hzero : annualTotal migration027 costs = annualTotal migration031 costs ↔
      ((suppressed costs).map (contribution costs.hours)).sum = 0 := by
    rw [← hsum]
    exact left_eq_add
  rw [hzero]
  constructor
  · intro hnothing line hline
    -- no rate is negative, so a sum of zero is one of zeros
    have hnonneg : ∀ x ∈ (suppressed costs).map (contribution costs.hours), 0 ≤ x := by
      intro x hx
      obtain ⟨other, hother, rfl⟩ := List.mem_map.mp hx
      obtain ⟨rate, -, hrate, heq⟩ := suppressed_spec h hother
      exact heq ▸ mul_nonneg hrate (hours_pos h).le
    obtain ⟨rate, hrate, -, heq⟩ := suppressed_spec h hline
    have hitem := List.all_zero_of_le_zero_le_of_sum_eq_zero hnonneg hnothing
      (List.mem_map_of_mem hline)
    rw [heq] at hitem
    rw [hrate, (mul_eq_zero.mp hitem).resolve_right (hours_pos h).ne']
  · intro hfree
    apply List.sum_eq_zero
    intro x hx
    obtain ⟨line, hline, rfl⟩ := List.mem_map.mp hx
    obtain ⟨rate, hrate, -, heq⟩ := suppressed_spec h hline
    rw [hfree line hline] at hrate
    rw [heq, ← Option.some.inj hrate, zero_mul]

/-- Oil by the year and fuel by the hour. -/
def oilAndFuel : Costs where
  assumedAnnualHours := some 50
  totals := none
  lines := [("OIL", ⟨some 200, none, by simp⟩), ("FUEL", ⟨none, some 60, by simp⟩)]

theorem checked_oilAndFuel : Checked oilAndFuel where
  seeded := by
    have hall : oilAndFuel.lines.all
        (fun line => Schema.costItemTypes.lookup line.1 = some (false, false)) = true := by
      decide +kernel
    exact fun line hline => ⟨false, of_decide_eq_true (List.all_eq_true.mp hall line hline)⟩
  annual := by simp [oilAndFuel]
  perHour := by simp [oilAndFuel]
  annualHours := by simp [oilAndFuel]
  sourceHours := by simp [oilAndFuel, Costs.sourceAssumedHours]

theorem annual_total_oilAndFuel :
    annualTotal migration027 oilAndFuel ≠ annualTotal migration031 oilAndFuel := by
  intro h
  have hfuel : ("FUEL", (⟨none, some 60, by simp⟩ : CostLineItem)) ∈ suppressed oilAndFuel := by
    decide +kernel
  have hfree := (annual_total checked_oilAndFuel).2.2.mp h _ hfuel
  simp at hfree

/-! ### What imports and decisions reach -/

/-- A stored amount of this scale. -/
def Units (scale : ℕ) (x : ℚ) : Prop := ∃ n : ℕ, x = n / 10 ^ scale

/-- An item of a seeded type, with an amount in the column of its type. -/
def TypedLine (code : String) (line : CostLineItem) : Prop :=
  (Schema.costItemTypes.lookup code = some (true, false) ∧ line.amountPerHour = none ∧
      ∀ x ∈ line.amountAnnual, Units 2 x) ∨
    (Schema.costItemTypes.lookup code = some (false, false) ∧ line.amountAnnual = none ∧
      ∀ x ∈ line.amountPerHour, Units 4 x)

/-- Every line stored is of the type of its code. -/
def TypedLines (db : Tables) : Prop :=
  ∀ id code line, db.costLineItems.lookup (id, code) = some line → TypedLine code line

theorem units_money {precision scale : ℕ} {text : String} {x : ℚ}
    (h : money precision scale text = some x) : Units scale x := by
  obtain ⟨q, -, hq⟩ := Option.bind_eq_some_iff.mp h
  split_ifs at hq with hfits
  refine ⟨(roundUnits scale q).toNat, ?_⟩
  have hnat : (((roundUnits scale q).toNat : ℤ) : ℚ) = roundUnits scale q := by
    rw [Int.toNat_of_nonneg hfits.2]
  rw [← Option.some.inj hq, rounded, ← hnat, Int.cast_natCast]

theorem Units.rounded_eq {scale : ℕ} {x : ℚ} (h : Units scale x) : rounded scale x = x := by
  obtain ⟨n, rfl⟩ := h
  have hpow : (10 : ℚ) ^ scale ≠ 0 := by positivity
  have hnonneg : ¬ (n : ℚ) / 10 ^ scale < 0 := not_lt.mpr (by positivity)
  have hfloor : ⌊(n : ℚ) + 1 / 2⌋ = n := by
    rw [Int.floor_eq_iff]
    constructor
    · push_cast
      linarith
    · push_cast
      linarith
  rw [rounded, roundUnits, if_neg hnonneg, div_mul_cancel₀ _ hpow, hfloor, Int.cast_natCast]

theorem Units.nonneg {scale : ℕ} {x : ℚ} (h : Units scale x) : 0 ≤ x := by
  obtain ⟨n, rfl⟩ := h
  positivity

theorem units_sum {scale : ℕ} {xs : List ℚ} (h : ∀ x ∈ xs, Units scale x) :
    Units scale xs.sum := by
  induction xs with
  | nil => exact ⟨0, by simp⟩
  | cons x xs ih =>
      obtain ⟨n, hn⟩ := h x List.mem_cons_self
      obtain ⟨m, hm⟩ := ih fun y hy => h y (List.mem_cons_of_mem _ hy)
      refine ⟨n + m, ?_⟩
      rw [List.sum_cons, hn, hm, Nat.cast_add, add_div]

section

variable {db db' : Tables}

theorem typed_proposed {code amount : String} {line : CostLineItem}
    (h : proposedLineItem code amount = some (some line)) : TypedLine code line := by
  unfold proposedLineItem at h
  split at h
  · cases h
  · cases h
  · rename_i htype
    obtain ⟨x, hx, hline⟩ := Option.map_eq_some_iff.mp h
    obtain rfl := Option.some.inj hline
    exact .inl ⟨htype, rfl, fun y hy => Option.some.inj hy ▸ units_money hx⟩
  · rename_i htype
    obtain ⟨x, hx, hline⟩ := Option.map_eq_some_iff.mp h
    obtain rfl := Option.some.inj hline
    exact .inr ⟨htype, rfl, fun y hy => Option.some.inj hy ▸ units_money hx⟩

theorem typedLines_storeCost {id : ℕ} {item : CostItemInput} {extras extras' : KeyMap String String}
    (h : storeCost db id item extras = some (db', extras')) (hdb : TypedLines db) :
    TypedLines db' := by
  unfold storeCost at h
  split at h
  · rename_i code amount _ _
    split_ifs at h
    · obtain ⟨proposed, -, heq⟩ := Option.map_eq_some_iff.mp h
      cases heq
      exact hdb
    · obtain ⟨proposed, hproposed, heq⟩ := Option.map_eq_some_iff.mp h
      cases heq
      cases proposed with
      | none => exact hdb
      | some line =>
          rw [Option.elim_some, insertLineItem]
          split
          · exact hdb
          · intro i c other hother
            by_cases hkey : (i, c) = (id, code)
            · obtain ⟨rfl, rfl⟩ := Prod.mk.inj hkey
              obtain rfl := Option.some.inj ((AList.lookup_insert _).symm.trans hother)
              exact typed_proposed hproposed
            · exact hdb i c other ((AList.lookup_insert_ne hkey).symm.trans hother)
  · cases h
    exact hdb

theorem typedLines_promoteCostItems {documentId id : ℕ} {items : List CostItemInput}
    {extras extras' : KeyMap String String}
    (h : promoteCostItems documentId id db items extras = some (db', extras'))
    (hdb : TypedLines db) : TypedLines db' := by
  induction items generalizing db extras with
  | nil =>
      cases h
      exact hdb
  | cons item items ih =>
      obtain ⟨⟨next, extras₁⟩, hitem, hrest⟩ := Option.bind_eq_some_iff.mp h
      obtain ⟨⟨stored, extras₂⟩, hstore, hassert⟩ := Option.bind_eq_some_iff.mp hitem
      obtain ⟨asserted, -, heq⟩ := Option.bind_eq_some_iff.mp hassert
      cases heq
      have hstored : TypedLines stored := typedLines_storeCost hstore hdb
      exact ih hrest hstored

theorem typedLines_promoteCosts {items : List CostItemInput} {variantId documentId : ℕ} {day : ℤ}
    {source : String} (h : promoteCosts db items variantId documentId day source = some db')
    (hdb : TypedLines db) : TypedLines db' := by
  unfold promoteCosts at h
  split_ifs at h
  · cases h
    exact hdb
  · obtain ⟨⟨stored, extras⟩, hcosts, heq⟩ := Option.bind_eq_some_iff.mp h
    have hstart : TypedLines (upsertCostSnapshot db variantId day source).1 := by
      unfold upsertCostSnapshot
      split
      · exact hdb
      · exact hdb
    have hstored : TypedLines stored := typedLines_promoteCostItems hcosts hstart
    cases heq
    split_ifs
    · exact hstored
    · exact hstored

theorem lines_promoteValuation {valuation : ValuationInput} {variantId documentId : ℕ} {day : ℤ}
    {source : String}
    (h : promoteValuation db valuation variantId documentId day source = some db') :
    db'.costLineItems = db.costLineItems := by
  unfold promoteValuation at h
  split at h
  · exact Option.some.inj h ▸ rfl
  · obtain ⟨price, -, h⟩ := Option.bind_eq_some_iff.mp h
    obtain ⟨asserted, -, h⟩ := Option.bind_eq_some_iff.mp h
    have hupsert :
        (upsertValuation db variantId day source price valuation.forSaleCount).1.costLineItems
        = db.costLineItems := by
      unfold upsertValuation
      split <;> rfl
    split_ifs at h
    rcases hsplit : upsertValuation db variantId day source price valuation.forSaleCount with
      ⟨valued, id⟩
    simp only [hsplit] at h hupsert
    split at h
    · exact Option.some.inj h ▸ hupsert
    · exact Option.some.inj h ▸ hupsert

theorem typedLines_step {action : Action} (h : step db action = some db') (hdb : TypedLines db) :
    TypedLines db' := by
  cases action with
  | importRecord record variantId documentId day source =>
      obtain ⟨valued, hvalued, hcosts⟩ := Option.bind_eq_some_iff.mp h
      apply typedLines_promoteCosts hcosts
      intro id code line hline
      rw [lines_promoteValuation hvalued] at hline
      exact hdb id code line hline
  | decide assertionId decision =>
      obtain ⟨⟨outcome, after⟩, hdecide, rfl⟩ := Option.map_eq_some_iff.mp h
      obtain ⟨row, hdecides⟩ := decideWith_decides (ok_of_toOption hdecide)
      intro id code line hline
      rw [hdecides.lines] at hline
      exact hdb id code line hline

theorem typedLines_of_reachable (h : market.Reachable db) : TypedLines db := by
  apply h.invariant
  · rintro _ rfl id code line hline
    cases hline
  · exact fun hdb hstep => typedLines_step hstep hdb

theorem typed_costsOf (hdb : TypedLines db) {id : ℕ} {line : String × CostLineItem}
    (hline : line ∈ (costsOf db id).lines) : TypedLine line.1 line.2 := by
  obtain ⟨⟨⟨i, code⟩, item⟩, hentry, rfl⟩ := List.mem_map.mp hline
  exact hdb i code item (AList.mem_lookup_iff.mpr (List.mem_filter.mp hentry).1)

end

/-- The sum of two columns. -/
def both : Option ℚ → Option ℚ → Option ℚ
  | none, none => none
  | a, b => some (a.getD 0 + b.getD 0)

theorem eq_both {a b c : Option ℚ} (hnone : a = none ↔ b = none ∧ c = none)
    (hsum : a.getD 0 = b.getD 0 + c.getD 0) : a = both b c := by
  rcases a with - | x
  · obtain ⟨rfl, rfl⟩ := hnone.mp rfl
    rfl
  · rcases b with - | y
    · rcases c with - | z
      · exact absurd (hnone.mpr ⟨rfl, rfl⟩) (by simp)
      · exact congrArg some hsum
    · exact congrArg some hsum

section

variable {costs : Costs} {p q r : String → Bool} {amount : CostLineItem → Option ℚ}

/-- A sum by cases. -/
theorem sumWhere_split (hcases : ∀ code, p code = true ↔ q code = true ∨ r code = true)
    (hapart : ∀ code, ¬ (q code = true ∧ r code = true)) :
    costs.sumWhere p amount = both (costs.sumWhere q amount) (costs.sumWhere r amount) := by
  apply eq_both
  · simp only [sumWhere_eq_none, hcases]
    constructor
    · exact fun h => ⟨fun line hline hq => h line hline (.inl hq),
        fun line hline hr => h line hline (.inr hr)⟩
    · exact fun h line hline hqr => hqr.elim (h.1 line hline) (h.2 line hline)
  · rw [sumWhere_getD, sumWhere_getD, sumWhere_getD, sum_filter_eq, sum_filter_eq, sum_filter_eq,
      ← List.sum_map_add]
    congr 1
    apply List.map_congr_left
    intro line _
    have hp := hcases line.1
    have hqr := hapart line.1
    cases hq : q line.1 <;> cases hr : r line.1 <;> simp_all

theorem sumWhere_congr (h : ∀ line ∈ costs.lines, p line.1 = q line.1) :
    costs.sumWhere p amount = costs.sumWhere q amount := by
  rw [Costs.sumWhere, Costs.sumWhere, List.filter_congr h]

/-- Stored amounts of one scale add up to one. -/
theorem sumWhere_units {scale : ℕ} (h : ∀ line ∈ costs.lines, p line.1 = true →
    ∀ x ∈ amount line.2, Units scale x) :
    ∀ x ∈ costs.sumWhere p amount, Units scale x := by
  intro x hx
  unfold Costs.sumWhere sumOf at hx
  split_ifs at hx
  · cases hx
  · rw [← Option.some.inj hx]
    apply units_sum
    intro y hy
    obtain ⟨line, hline, hvalue⟩ := List.mem_map.mp (List.reduceOption_mem_iff.mp hy)
    obtain ⟨hmem, hp⟩ := List.mem_filter.mp hline
    exact h line hmem hp y hvalue

theorem units_getD {scale : ℕ} {value : Option ℚ} (h : ∀ x ∈ value, Units scale x) :
    Units scale (value.getD 0) := by
  cases value with
  | none => exact ⟨0, by simp⟩
  | some x => exact h x rfl

theorem map_rounded {scale : ℕ} {value : Option ℚ} (h : ∀ x ∈ value, Units scale x) :
    value.map (rounded scale) = value := by
  cases value with
  | none => rfl
  | some x => exact congrArg some (h x rfl).rounded_eq

end

/-- What a snapshot of typed items is summarized as. -/
structure Tallies (costs : Costs) : Prop where
  revised : summarize migration031 costs = summarize migration027 costs
  hourly : (summarize migration031 costs).totalHourlyVariableUsd =
    both (summarize migration031 costs).hourlyFuelCostUsd
      (summarize migration031 costs).hourlyMaintenanceReserveUsd
  annual : (summarize migration031 costs).computedTotalAnnualUsd =
    (summarize migration031 costs).totalAnnualFixedUsd.getD 0 +
      100 * (summarize migration031 costs).totalHourlyVariableUsd.getD 0
  unnamed : (summarize migration020 costs).hourlyFuelCostUsd = none ∧
    (summarize migration020 costs).hourlyMaintenanceReserveUsd =
      (summarize migration020 costs).totalHourlyVariableUsd

theorem tallies {costs : Costs} (htyped : ∀ line ∈ costs.lines, TypedLine line.1 line.2)
    (hhours : costs.hours = 100) : Tallies costs := by
  -- a variable cost is stored by the hour, a fixed one by the year
  have hvariable : ∀ line ∈ costs.lines, variableCost line.1 = true →
      line.2.amountAnnual = none ∧ ∀ x ∈ line.2.amountPerHour, Units 4 x := by
    intro line hline hcode
    rcases htyped line hline with ⟨htype, -, -⟩ | ⟨-, hannual, hunits⟩
    · simp [variableCost, isFixed, htype] at hcode
    · exact ⟨hannual, hunits⟩
  have hfixed : ∀ line ∈ costs.lines, fixed line.1 = true →
      ∀ x ∈ line.2.amountAnnual, Units 2 x := by
    intro line hline hcode
    rcases htyped line hline with ⟨-, -, hunits⟩ | ⟨htype, -, -⟩
    · exact hunits
    · simp [fixed, isFixed, htype] at hcode
  have hnone : costs.sumWhere variableCost CostLineItem.amountAnnual = none :=
    sumWhere_eq_none.mpr fun line hline hcode => (hvariable line hline hcode).1
  have hperHour : ∀ p : String → Bool, (∀ code, p code = true → variableCost code = true) →
      ∀ x ∈ costs.sumWhere p CostLineItem.amountPerHour, Units 4 x := fun p hp =>
    sumWhere_units fun line hline hcode => (hvariable line hline (hp line.1 hcode)).2
  have hfuel : variableCost "FUEL" = true := by decide +kernel
  have htotal : annualTotal migration027 costs = annualTotal migration031 costs := by
    -- so no annual amount of a variable cost suppresses the hourly ones
    have hsuppressed : suppressed costs = [] := if_neg (by
      rw [sumWhere_annual_eq_none.mp hnone]
      exact Bool.false_ne_true)
    have hsum : _ = annualTotal migration031 costs := annualTotal_suppressed
    rwa [hsuppressed, List.map_nil, List.sum_nil, add_zero] at hsum
  constructor
  case revised =>
    show summarize migration031 costs = { summarize migration031 costs with
      computedTotalAnnualUsd := rounded 2 (annualTotal migration027 costs) }
    rw [htotal]
    rfl
  case hourly =>
    show (costs.sumWhere variableCost CostLineItem.amountPerHour).map (rounded 4) =
      both ((costs.sumWhere (· = "FUEL") CostLineItem.amountPerHour).map (rounded 4))
        ((costs.sumWhere (fun code => variableCost code ∧ code ≠ "FUEL")
          CostLineItem.amountPerHour).map (rounded 4))
    rw [map_rounded (hperHour _ fun _ h => h), map_rounded (hperHour _ ?_),
      map_rounded (hperHour _ ?_)]
    · -- the hourly costs are fuel and the rest
      apply sumWhere_split
      · intro code
        by_cases hcode : code = "FUEL"
        · simp [hcode, hfuel]
        · simp [hcode]
      · rintro code ⟨hfuelCode, hrest⟩
        exact (of_decide_eq_true hrest).2 (of_decide_eq_true hfuelCode)
    · intro code hcode
      exact (of_decide_eq_true hcode).1
    · intro code hcode
      exact of_decide_eq_true hcode ▸ hfuel
  case annual =>
    set annual := costs.sumWhere fixed CostLineItem.amountAnnual with hannual
    set hourly := costs.sumWhere variableCost CostLineItem.amountPerHour with hhourly
    have hannualUnits : ∀ x ∈ annual, Units 2 x := sumWhere_units hfixed
    have hhourlyUnits : ∀ x ∈ hourly, Units 4 x := hperHour _ fun _ h => h
    have heq : annualTotal migration031 costs = annual.getD 0 + 100 * hourly.getD 0 := by
      rw [← htotal]
      show annual.getD 0 + ((costs.sumWhere variableCost CostLineItem.amountAnnual).or
        (hourly.map (· * costs.hours))).getD 0 = _
      rw [hnone, Option.none_or, hhours]
      cases hourly with
      | none => simp
      | some x => rw [Option.map_some, Option.getD_some, Option.getD_some, mul_comm]
    -- both parts are whole cents, and no rounding loses any
    have hunits : Units 2 (annual.getD 0 + 100 * hourly.getD 0) := by
      obtain ⟨n, hn⟩ := units_getD hannualUnits
      obtain ⟨m, hm⟩ := units_getD hhourlyUnits
      refine ⟨n + m, ?_⟩
      rw [hn, hm]
      push_cast
      ring
    show rounded 2 (annualTotal migration031 costs) =
      (annual.map (rounded 2)).getD 0 + 100 * (hourly.map (rounded 4)).getD 0
    rw [heq, hunits.rounded_eq, map_rounded hannualUnits, map_rounded hhourlyUnits]
  case unnamed =>
    have hcode : ∀ line ∈ costs.lines, line.1 ≠ "FUEL_COST_PER_HOUR" := by
      -- the code of the first revisions is not seeded
      have hunseeded : Schema.costItemTypes.lookup "FUEL_COST_PER_HOUR" = none := by
        decide +kernel
      rintro line hline heq
      rcases htyped line hline with ⟨htype, -⟩ | ⟨htype, -⟩
      · rw [heq, hunseeded] at htype
        cases htype
      · rw [heq, hunseeded] at htype
        cases htype
    constructor
    · show (costs.sumWhere (· = "FUEL_COST_PER_HOUR") CostLineItem.amountPerHour).map _ = none
      rw [sumWhere_eq_none.mpr, Option.map_none]
      exact fun line hline h => absurd (of_decide_eq_true h) (hcode line hline)
    · show (costs.sumWhere (fun code => variableCost code ∧ code ≠ "FUEL_COST_PER_HOUR")
        CostLineItem.amountPerHour).map _ = _
      rw [sumWhere_congr (q := variableCost)]
      · rfl
      · intro line hline
        simp [hcode line hline]

/-- **The summaries of a catalogue built by imports**: after every run of imports and
decisions, 031 serves for every variant what 027 served, the rates are fuel and the rest,
and the annual total is the fixed items and a hundred hours, to the cent; with 020 no rate
was one of fuel. -/
theorem summary_of_reachable {db : Tables} (h : market.Reachable db) (variantId : ℕ) :
    summary migration031 db variantId = summary migration027 db variantId ∧
      (∀ id row, summary migration031 db variantId = some (id, row) →
        row.totalHourlyVariableUsd =
            both row.hourlyFuelCostUsd row.hourlyMaintenanceReserveUsd ∧
          row.computedTotalAnnualUsd =
            row.totalAnnualFixedUsd.getD 0 + 100 * row.totalHourlyVariableUsd.getD 0) ∧
      ∀ id row, summary migration020 db variantId = some (id, row) →
        row.hourlyFuelCostUsd = none ∧
          row.hourlyMaintenanceReserveUsd = row.totalHourlyVariableUsd := by
  -- the costs of a reachable snapshot are typed, and reckon with 100 hours
  have htallies : ∀ id, Tallies (costsOf db id) := by
    intro id
    refine tallies (fun line hline => typed_costsOf (typedLines_of_reachable h) hline) ?_
    show ((none : Option ℚ).or (((db.costSnapshotTotals.lookup id).map _).bind
      Prod.snd)).getD 100 = 100
    cases db.costSnapshotTotals.lookup id <;> rfl
  refine ⟨?_, ?_, ?_⟩
  · show Option.map _ (latestSnapshot true db variantId) =
      Option.map _ (latestSnapshot true db variantId)
    congr 1
    funext row
    rw [(htallies row.1).revised]
  · intro id row hrow
    obtain ⟨⟨i, snapshot⟩, -, heq⟩ := Option.map_eq_some_iff.mp hrow
    obtain ⟨rfl, rfl⟩ := Prod.mk.inj heq
    exact ⟨(htallies i).hourly, (htallies i).annual⟩
  · intro id row hrow
    obtain ⟨⟨i, snapshot⟩, -, heq⟩ := Option.map_eq_some_iff.mp hrow
    obtain ⟨rfl, rfl⟩ := Prod.mk.inj heq
    exact (htallies i).unnamed

/-- Two items by the year and one by the hour, accepted. -/
theorem summary_of_reachable_costs : ∃ id row,
    summary migration031 costsAccepted 0 = some (id, row) ∧
      summary migration031 costsAccepted 0 = summary migration027 costsAccepted 0 ∧
      row.totalHourlyVariableUsd = some 40 ∧ row.computedTotalAnnualUsd = 150 + 100 * 40 := by
  have hserved : (summary migration031 costsAccepted 0).any (fun row =>
      row.2.totalAnnualFixedUsd = some 150 ∧ row.2.totalHourlyVariableUsd = some 40) = true := by
    decide +kernel
  obtain ⟨hrevised, htotals, -⟩ := summary_of_reachable costsAccepted_reachable.of_guard 0
  rcases hrow : summary migration031 costsAccepted 0 with - | ⟨id, row⟩
  · rw [hrow] at hserved
    cases hserved
  rw [hrow, Option.any_some, decide_eq_true_eq] at hserved
  obtain ⟨hfixed, hhourly⟩ := hserved
  have htotal := (htotals id row hrow).2
  rw [hfixed, hhourly] at htotal
  exact ⟨id, row, rfl, hrow ▸ hrevised, hhourly, htotal⟩

end OwnershipCost

end AircraftApi
