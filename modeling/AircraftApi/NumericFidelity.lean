/-
AircraftApi/NumericFidelity.lean

Whether the number a record states is the number the prepared record carries.

A JSON value states a number when it is one, or when it is a text of the usual
form: a dollar sign, a minus sign, digits grouped in thousands, and words after
them.  All of these reach `parse_numeric` as a numeral and what follows it.  Of
a text nothing is lost; of a JSON number nothing but the exponent, which is
printed for the large and the small floats only and is no part of the numeral.
So the field carries the stated number exactly when the number `Survives` in it.

    Stated value q            the JSON value states the number
    field.Kept record q       the field carries it, or nothing and an issue
    numeric_fidelity_iff      it does exactly when the value survives
-/
import AircraftApi.MarketLoss
import AircraftApi.Numerals

namespace AircraftApi

open Curation (Named)
open Numeric (denoted denoted_numeral numeral Literal Spelled)

/-! ### Stated numbers -/

/-- The characters of a run of digits. -/
def digitChars (digits : List (Fin 10)) : List Char := digits.map digitChar

/-- The text of a float up to its exponent. -/
def FloatText.front (f : FloatText) : List Char :=
  numeral f.negative (digitChars f.whole) (f.fraction.map digitChars)

/-- The number before the exponent. -/
def FloatText.mantissa (f : FloatText) : ℚ :=
  Literal.value ⟨f.negative, digitChars f.whole, (f.fraction.map digitChars).getD []⟩

/-- The power of ten an exponent stands for. -/
def ExponentText.value (e : ExponentText) : ℤ :=
  match e.sign with
  | .minus => -Numeric.digitsValue (digitChars e.digits)
  | _ => Numeric.digitsValue (digitChars e.digits)

/-- The number displayed. -/
def FloatText.value (f : FloatText) : ℚ :=
  f.mantissa * 10 ^ (f.exponent.map ExponentText.value).getD 0

/-- The number of the document. -/
def JsonNumber.value : JsonNumber → ℚ
  | integer n _ => n
  | float f => f.value

/-- Digits in one run, or grouped by commas: one to three, then threes. -/
def Thousands : List (List (Fin 10)) → Prop
  | [] => False
  | [_] => True
  | first :: rest => 1 ≤ first.length ∧ first.length ≤ 3 ∧ ∀ group ∈ rest, group.length = 3

/-- A text that states an amount: `$`, `-`, digits grouped in thousands, a
fraction, and words behind a space, all but the digits optional. -/
structure Amount where
  dollar : Bool
  negative : Bool
  groups : List (List (Fin 10))
  fraction : Option (List (Fin 10))
  words : Option (List Char)
  thousands : Thousands groups
  some_digit : groups.flatten ≠ [] ∨ ∃ digits ∈ fraction, digits ≠ []

namespace Amount

variable (a : Amount)

/-- The digits with their commas, and the fraction. -/
def digits : List Char :=
  List.intercalate [','] (a.groups.map digitChars) ++
    match a.fraction with
    | none => []
    | some digits => '.' :: digitChars digits

/-- How the amount is written. -/
def text : String :=
  String.ofList ((if a.dollar then ['$'] else []) ++ ((if a.negative then ['-'] else []) ++ a.digits)
    ++ match a.words with
      | none => []
      | some words => ' ' :: words)

/-- The amount. -/
def value : ℚ :=
  Literal.value ⟨a.negative, digitChars a.groups.flatten, (a.fraction.map digitChars).getD []⟩

end Amount

/-- The JSON value states the number. -/
inductive Stated : Json → ℚ → Prop
  | number (n : JsonNumber) : Stated (.number n) n.value
  | amount (a : Amount) : Stated (.string a.text) a.value

/-! ### The fields -/

/-- The numeric fields of a record. -/
inductive NumericField
  | price
  | forSaleCount
  | horsepower
  | thrust
  | performance (metric : String)
  | weight (metric : String)
  | cost (key : String)

namespace NumericField

/-- The path of the field. -/
def path : NumericField → String
  | price => "papi_price_estimate"
  | forSaleCount => "for_sale_count"
  | horsepower => "engine.horsepower"
  | thrust => "engine.thrust"
  | performance metric => s!"performance.{metric}"
  | weight metric => s!"weights.{metric}"
  | cost key => s!"ownership_costs.{key}"

/-- The member the field is read from; the two entries of `performance` that
state the engines are read as no measurement. -/
def read (object : JsonObject) : NumericField → Option Json
  | price => Json.get object "papi_price_estimate"
  | forSaleCount => Json.get object "for_sale_count"
  | horsepower => (sectionAt object "engine").bind fun engine => Json.get engine "horsepower"
  | thrust => (sectionAt object "engine").bind fun engine => Json.get engine "thrust"
  | performance metric =>
      if isEngineEntry "performance" metric then none
      else (sectionAt object "performance").bind fun members => Json.get members metric
  | weight metric => (sectionAt object "weights").bind fun members => Json.get members metric
  | cost key => (sectionAt object "ownership_costs").bind fun members => Json.get members key

/-- The number the record carries in the field, and within it what it denotes. -/
def emitted (record : PreparedAircraftRecord) : NumericField → Option (Option ℚ)
  | price => record.valuation.papiPriceEstimate.map denoted
  | forSaleCount => record.valuation.forSaleCount.map fun n : ℤ => some (n : ℚ)
  | horsepower => record.propulsion.horsepower.map denoted
  | thrust => record.propulsion.thrustNewtons.map denoted
  | performance metric =>
      ((record.performance.find? fun m => m.sourceField = metric).bind (·.numericValue)).map denoted
  | weight metric =>
      ((record.weights.find? fun m => m.sourceField = metric).bind (·.numericValue)).map denoted
  | cost key =>
      ((record.operatingCosts.find? fun item => item.sourceKey = key).bind
        (·.numericValue)).map denoted

/-- The field carries the number, or it carries none and an issue names it. -/
def Kept (field : NumericField) (record : PreparedAircraftRecord) (q : ℚ) : Prop :=
  field.emitted record = some (some q) ∨ field.emitted record = none ∧ Named record field.path

/-- The readers that turn a numeral away, with an issue: the count takes integers
of 32 bits, the measurements no negative number. -/
def Rejects : NumericField → List Char → Prop
  | forSaleCount, front => Text.parseI32 front = none
  | performance _, front => front.head? = some '-'
  | weight _, front => front.head? = some '-'
  | _, _ => False

/-- The number is printed without an exponent that counts, or the field rejects
what is printed before it. -/
def Survives (field : NumericField) : Json → Prop
  | .number (.float f) =>
      (∀ e ∈ f.exponent, e.value = 0 ∨ f.mantissa = 0) ∨ field.Rejects f.front
  | _ => True

end NumericField

/-! ### What the parser makes of a stated number -/

theorem digitChars_digits (digits : List (Fin 10)) :
    (digitChars digits).all Char.isDigit = true := by
  have hdigit : ∀ d : Fin 10, (digitChar d).isDigit = true := by decide
  rw [List.all_eq_true]
  intro c hc
  obtain ⟨d, -, rfl⟩ := List.mem_map.mp hc
  exact hdigit d

theorem spelled_digitChars {whole : List (Fin 10)} {fraction : Option (List (Fin 10))}
    (h : whole ≠ [] ∨ ∃ digits ∈ fraction, digits ≠ []) :
    Spelled (digitChars whole) (fraction.map digitChars) where
  whole_digits := digitChars_digits whole
  fraction_digits := by
    intro digits hdigits
    obtain ⟨ds, -, rfl⟩ := Option.map_eq_some_iff.mp hdigits
    exact digitChars_digits ds
  some_digit := by
    rcases h with hwhole | ⟨digits, rfl, hdigits⟩
    · exact .inl fun hnil => hwhole (List.map_eq_nil_iff.mp hnil)
    · exact .inr ⟨_, rfl, fun hnil => hdigits (List.map_eq_nil_iff.mp hnil)⟩

theorem spelled_toDigits (n : ℕ) : Spelled (Nat.toDigits 10 n) none where
  whole_digits := List.all_eq_true.mpr fun c hc =>
    Nat.isDigit_of_mem_toDigits (by decide) (by decide) hc
  fraction_digits := by
    rintro digits ⟨⟩
  some_digit := .inl Nat.toDigits_ne_nil

theorem parseNumeric_integer (n : ℤ) :
    parseNumeric (toString n)
      = some (String.ofList (numeral (decide (n < 0)) (Nat.toDigits 10 n.natAbs) none)) := by
  have htext : (toString n).toList
      = numeral (decide (n < 0)) (Nat.toDigits 10 n.natAbs) none ++ [] := by
    rcases n with n | n
    · show (toString n).toList = _
      rw [Nat.toString_eq_ofList_toDigits, String.toList_ofList]
      simp [numeral]
    · show ("-" ++ toString (n + 1)).toList = _
      rw [Nat.toString_eq_ofList_toDigits, String.toList_append, String.toList_ofList,
        decide_eq_true (Int.negSucc_lt_zero n)]
      simp [numeral]
  exact parseNumeric_numeral (spelled_toDigits _) htext (by rintro c ⟨⟩)

theorem FloatText.toList_text (f : FloatText) :
    f.text.toList = f.front ++
      match f.exponent with
      | none => []
      | some e => 'e' :: (e.sign.text.toList ++ digitChars e.digits) := by
  unfold FloatText.text FloatText.front numeral ExponentText.text
  rcases f.fraction with - | digits <;> rcases f.exponent with - | e <;>
    rcases f.negative with - | - <;> simp [digitChars]

theorem spelled_float (f : FloatText) :
    Spelled (digitChars f.whole) (f.fraction.map digitChars) :=
  spelled_digitChars (.inl f.whole_ne)

theorem parseNumeric_float (f : FloatText) : parseNumeric f.text = some (String.ofList f.front) := by
  refine parseNumeric_numeral (spelled_float f) f.toList_text ?_
  rcases f.exponent with - | e
  · rintro c ⟨⟩
  · rintro c ⟨⟩
    decide

/-- Of groups without commas, the commas between them are left out. -/
theorem filter_intercalate {groups : List (List Char)} (h : ∀ group ∈ groups, ',' ∉ group) :
    (List.intercalate [','] groups).filter (· ≠ ',') = groups.flatten := by
  have hfilter : ∀ group ∈ groups, group.filter (· ≠ ',') = group := fun group hgroup =>
    List.filter_eq_self.mpr fun c hc => decide_eq_true fun heq => h group hgroup (heq ▸ hc)
  induction groups with
  | nil => rfl
  | cons group groups ih =>
      obtain ⟨hgroup, hgroups⟩ := List.forall_mem_cons.mp hfilter
      have hrest := ih (fun g hg => h g (List.mem_cons_of_mem _ hg)) hgroups
      rcases groups with - | ⟨next, groups⟩
      · simpa [List.intercalate] using hgroup
      · rw [List.intercalate_cons_cons, List.filter_append, List.filter_append, hgroup, hrest]
        simp

theorem Amount.spelled (a : Amount) :
    Spelled (digitChars a.groups.flatten) (a.fraction.map digitChars) :=
  spelled_digitChars a.some_digit

theorem Amount.filter_digits (a : Amount) : a.digits.filter (· ≠ ',')
    = numeral false (digitChars a.groups.flatten) (a.fraction.map digitChars) := by
  have hcomma : ∀ digits : List (Fin 10), ',' ∉ digitChars digits := fun digits =>
    Numeric.not_mem_of_digits (digitChars_digits digits) rfl
  have hgroups : (List.intercalate [','] (a.groups.map digitChars)).filter (· ≠ ',')
      = digitChars a.groups.flatten := by
    rw [filter_intercalate]
    · exact List.map_flatten.symm
    · intro group hgroup
      obtain ⟨digits, -, rfl⟩ := List.mem_map.mp hgroup
      exact hcomma digits
  unfold Amount.digits numeral
  rw [List.filter_append, hgroups]
  rcases a.fraction with - | digits
  · rfl
  · refine congrArg _ (List.filter_eq_self.mpr fun c hc => decide_eq_true ?_)
    rintro rfl
    rcases List.mem_cons.mp hc with heq | hmem
    · cases heq
    · exact hcomma digits hmem

theorem parseNumeric_amount (a : Amount) :
    parseNumeric a.text = some (String.ofList (numeral a.negative (digitChars a.groups.flatten)
      (a.fraction.map digitChars))) := by
  refine parseNumeric_front a.spelled String.toList_ofList ?_ a.filter_digits ?_
  · intro c hc
    split_ifs at hc
    · exact List.mem_singleton.mp hc
    · cases hc
  · rcases a.words with - | words
    · rintro c ⟨⟩
    · rintro c ⟨⟩
      decide

/-! ### The fields of the record -/

section

variable {crates : Crates} {manufacturer aircraft : String} {object : JsonObject}

theorem find?_measurements (mapping : String → Option String) {section_ : Option JsonObject}
    {path metric raw : String} {value : Json}
    (hvalue : (section_.bind fun members => Json.get members metric) = some value)
    (hengine : isEngineEntry path metric = false) (hraw : valueText value = some raw) :
    (measurements section_ path mapping).value.find? (fun m => m.sourceField = metric)
      = some (preparedMeasurement mapping metric raw) := by
  obtain ⟨members, rfl, hget⟩ := Option.bind_eq_some_iff.mp hvalue
  refine Noted.find?_collect ?_ hget ?_
  · rintro ⟨field, value⟩ m hm
    rw [measurement_value] at hm
    split_ifs at hm
    obtain ⟨raw, -, rfl⟩ := Option.map_eq_some_iff.mp hm
    rfl
  · rw [measurement_value, hengine, hraw]
    rfl

theorem find?_costItems {key raw : String} {value : Json} {section_ : Option JsonObject}
    (hvalue : (section_.bind fun members => Json.get members key) = some value)
    (hraw : valueText value = some raw) :
    (costItems section_).value.find? (fun item => item.sourceKey = key)
      = some (preparedCost key raw) := by
  obtain ⟨members, rfl, hget⟩ := Option.bind_eq_some_iff.mp hvalue
  refine Noted.find?_collect ?_ hget ?_
  · rintro ⟨field, value⟩ item hitem
    rw [costItem_value] at hitem
    obtain ⟨raw, -, rfl⟩ := Option.map_eq_some_iff.mp hitem
    rfl
  · rw [costItem_value, hraw]
    rfl

/-- A negative number leaves an issue on the path of its measurement. -/
theorem negative_noted {section_ : Option JsonObject} {path metric raw text : String}
    {mapping : String → Option String} {value : Json}
    (hvalue : (section_.bind fun members => Json.get members metric) = some value)
    (hengine : isEngineEntry path metric = false) (hraw : valueText value = some raw)
    (htext : parseNumeric raw = some text) (hnegative : isNegative text = true) :
    Flags (measurements section_ path mapping) (path ++ "." ++ metric) := by
  obtain ⟨members, rfl, hget⟩ := Option.bind_eq_some_iff.mp hvalue
  refine Noted.Any.collect_iff.mpr ⟨(metric, value), mem_of_lookup hget,
    (flags_measurement hengine hraw).mpr fun hcomplete => ?_⟩
  have hnumber := (complete_iff.mp hcomplete).2.1
  rw [htext, Option.any_some, hnegative] at hnumber
  cases hnumber

/-- A count that is no integer leaves an issue. -/
theorem count_noted {parse : List Char → Option ℤ} {value : Option Json} {field text : String}
    (htext : (value.bind valueText).bind parseNumeric = some text)
    (hparse : parse text.toList = none) : (numericInteger parse value field).notes ≠ [] := by
  unfold numericInteger
  rw [Noted.notes_bind, numeric_value, htext]
  dsimp only
  rw [hparse]
  exact List.append_ne_nil_of_right_ne_nil _ (List.cons_ne_nil _ _)

namespace NumericField

theorem kept_of_emitted {field : NumericField} {record : PreparedAircraftRecord} {v q : ℚ}
    (h : field.emitted record = some (some v)) : field.Kept record q ↔ v = q := by
  unfold Kept
  rw [h]
  simp

/-- The number of a measurement's text, unless it is negative. -/
theorem kept_of_measurement {field : NumericField} {record : PreparedAircraftRecord}
    {measurement : Option MeasurementInput} {mapping : String → Option String}
    {metric raw : String} {negative : Bool} {whole : List Char} {fraction : Option (List Char)} {q : ℚ}
    (hspelled : Spelled whole fraction)
    (htext : parseNumeric raw = some (String.ofList (numeral negative whole fraction)))
    (hfound : measurement = some (preparedMeasurement mapping metric raw))
    (hemitted : field.emitted record = (measurement.bind (·.numericValue)).map denoted)
    (hnamed : isNegative (String.ofList (numeral negative whole fraction)) = true →
      Named record field.path) :
    field.Kept record q ↔ Literal.value ⟨negative, whole, fraction.getD []⟩ = q ∨
      (numeral negative whole fraction).head? = some '-' := by
  rw [hfound, Option.bind_some, preparedMeasurement, htext] at hemitted
  by_cases hnegative : (numeral negative whole fraction).head? = some '-'
  · have hsign : isNegative (String.ofList (numeral negative whole fraction)) = true := by
      rw [isNegative, String.toList_ofList]
      exact decide_eq_true hnegative
    rw [Option.filter_some, if_neg (by rw [hsign]; decide)] at hemitted
    exact iff_of_true (.inr ⟨hemitted, hnamed hsign⟩) (.inr hnegative)
  · have hsign : isNegative (String.ofList (numeral negative whole fraction)) = false := by
      rw [isNegative, String.toList_ofList]
      exact decide_eq_false hnegative
    rw [Option.filter_some, if_pos (by rw [hsign]; decide), Option.map_some,
      denoted_numeral hspelled] at hemitted
    rw [kept_of_emitted hemitted, or_iff_left hnegative]

end NumericField

theorem kept_iff {field : NumericField} {value : Json} {negative : Bool} {whole : List Char}
    {fraction : Option (List Char)} {q : ℚ} (hread : field.read object = some value)
    (hspelled : Spelled whole fraction)
    (hnumeric : (valueText value).bind parseNumeric
      = some (String.ofList (numeral negative whole fraction))) :
    field.Kept (normalizeRecord crates manufacturer aircraft (.object object)) q ↔
      Literal.value ⟨negative, whole, fraction.getD []⟩ = q ∨
        field.Rejects (numeral negative whole fraction) := by
  obtain ⟨raw, hraw, htext⟩ := Option.bind_eq_some_iff.mp hnumeric
  -- a field that is the numeral, and rejects none
  have hplain : ∀ {found : NumericField}, found.emitted (normalizeRecord crates manufacturer aircraft
      (.object object)) = ((valueText value).bind parseNumeric).map denoted →
      (found.Kept (normalizeRecord crates manufacturer aircraft (.object object)) q ↔
        Literal.value ⟨negative, whole, fraction.getD []⟩ = q ∨ False) := by
    intro found hemitted
    rw [hnumeric, Option.map_some, denoted_numeral hspelled] at hemitted
    rw [NumericField.kept_of_emitted hemitted, or_false]
  cases field with
  | price =>
      refine hplain ?_
      rw [normalizeRecord_object]
      show (((Json.get object "papi_price_estimate").bind valueText).bind parseNumeric).map denoted = _
      rw [show Json.get object "papi_price_estimate" = some value from hread]
      rfl
  | forSaleCount =>
      have hget : Json.get object "for_sale_count" = some value := hread
      have hemitted : NumericField.emitted
          (normalizeRecord crates manufacturer aircraft (.object object)) .forSaleCount
          = (Text.parseI32 (numeral negative whole fraction)).map fun n : ℤ => some (n : ℚ) := by
        rw [normalizeRecord_object]
        show (integerAt object "for_sale_count").map _ = _
        rw [integerAt, numericAt, textAt, hget, Option.bind_some, hnumeric, Option.bind_some,
          String.toList_ofList]
      rcases hparse : Text.parseI32 (numeral negative whole fraction) with - | n
      · rw [hparse] at hemitted
        refine iff_of_true (.inr ⟨hemitted, ?_⟩) (.inr hparse)
        have hcount : ((some value).bind valueText).bind parseNumeric
            = some (String.ofList (numeral negative whole fraction)) := hnumeric
        rw [← hget] at hcount
        refine named_iff_flags.mpr ((flags_field (by decide) forSale_mem_readings).mpr ?_)
        exact count_noted hcount (by rw [String.toList_ofList, hparse])
      · rw [hparse, Option.map_some] at hemitted
        rw [NumericField.kept_of_emitted hemitted, value_of_parseInt hspelled hparse]
        refine (or_iff_left ?_).symm
        rw [NumericField.Rejects, hparse]
        exact Option.some_ne_none n
  | horsepower =>
      refine hplain ?_
      obtain ⟨engine, hengine, hget⟩ := Option.bind_eq_some_iff.mp hread
      rw [normalizeRecord_object]
      show ((sectionAt object "engine").bind fun engine => numericAt engine "horsepower").map denoted
        = _
      rw [hengine, Option.bind_some, numericAt, textAt, hget]
      rfl
  | thrust =>
      refine hplain ?_
      obtain ⟨engine, hengine, hget⟩ := Option.bind_eq_some_iff.mp hread
      rw [normalizeRecord_object]
      show ((sectionAt object "engine").bind fun engine => numericAt engine "thrust").map denoted = _
      rw [hengine, Option.bind_some, numericAt, textAt, hget]
      rfl
  | performance metric =>
      dsimp only [NumericField.read] at hread
      split_ifs at hread with hentry
      have hentry : isEngineEntry "performance" metric = false := Bool.eq_false_iff.mpr hentry
      refine NumericField.kept_of_measurement hspelled htext
        (find?_measurements perfCode hread hentry hraw) ?_ fun hnegative => ?_
      · rw [normalizeRecord_object]
        rfl
      · exact named_performance (negative_noted hread hentry hraw htext hnegative)
  | weight metric =>
      have hentry : isEngineEntry "weights" metric = false := by
        simp [isEngineEntry]
      refine NumericField.kept_of_measurement hspelled htext
        (find?_measurements weightCode hread hentry hraw) ?_ fun hnegative => ?_
      · rw [normalizeRecord_object]
        rfl
      · exact named_weight (negative_noted hread hentry hraw htext hnegative)
  | cost key =>
      refine hplain ?_
      rw [normalizeRecord_object]
      show (((costItems (sectionAt object "ownership_costs")).value.find? fun item =>
        item.sourceKey = key).bind (·.numericValue)).map denoted = _
      rw [find?_costItems hread hraw, Option.bind_some, preparedCost,
        if_pos (costCode_seeded key).1, hraw]
      rfl

end

/-! ### Fidelity -/

theorem numericOf_string {text number : String} (h : parseNumeric text = some number) :
    (valueText (.string text)).bind parseNumeric = some number := by
  obtain ⟨value, hvalue, -⟩ := Option.bind_eq_some_iff.mp h
  show (parseSentinel text).bind parseNumeric = some number
  rw [hvalue, Option.bind_some, parseNumeric_of_parseSentinel hvalue, h]

theorem value_integer (n : ℤ) :
    Literal.value ⟨decide (n < 0), Nat.toDigits 10 n.natAbs, []⟩ = n := by
  have habs : Literal.magnitude ⟨decide (n < 0), Nat.toDigits 10 n.natAbs, []⟩ = (n.natAbs : ℚ) := by
    simp [Literal.magnitude, Numeric.digitsValue_toDigits]
  rw [Literal.value, habs, Nat.cast_natAbs]
  by_cases hn : n < 0
  · rw [if_pos (decide_eq_true hn), abs_of_neg hn]
    push_cast
    ring
  · rw [if_neg (by simpa using hn), abs_of_nonneg (not_lt.mp hn)]

/-- The digits before an exponent are the number when the exponent, if printed,
is zero or scales zero. -/
theorem FloatText.mantissa_eq_value (f : FloatText) :
    f.mantissa = f.value ↔ ∀ e ∈ f.exponent, e.value = 0 ∨ f.mantissa = 0 := by
  unfold FloatText.value
  rcases f.exponent with - | e
  · simp
  · rw [Option.map_some, Option.getD_some, eq_comm, mul_right_eq_self₀,
      zpow_eq_one_iff_right₀ (by norm_num) (by norm_num)]
    simp

/-- **Numeric fidelity**: when the member a numeric field is read from states a
number, the record carries exactly that number there, or none and an issue that
names the field, if and only if the number survives. -/
theorem numeric_fidelity_iff (crates : Crates) (manufacturer aircraft : String)
    (object : JsonObject) (field : NumericField) {value : Json} {q : ℚ}
    (hread : field.read object = some value) (hstated : Stated value q) :
    field.Kept (normalizeRecord crates manufacturer aircraft (.object object)) q ↔
      field.Survives value := by
  cases hstated with
  | number n =>
      cases n with
      | integer n bounds =>
          rw [kept_iff hread (spelled_toDigits _) (parseNumeric_integer n)]
          exact iff_of_true (.inl (value_integer n)) trivial
      | float f =>
          rw [kept_iff hread (spelled_float f) (parseNumeric_float f)]
          exact or_congr_left f.mantissa_eq_value
  | amount a =>
      rw [kept_iff hread a.spelled (numericOf_string (parseNumeric_amount a))]
      exact iff_of_true (.inl rfl) trivial

/-- `$1,234.5 USD`. -/
def quotedPrice : Amount where
  dollar := true
  negative := false
  groups := [[1], [2, 3, 4]]
  fraction := some [5]
  words := some "USD".toList
  thousands := by simp [Thousands]
  some_digit := .inl (List.cons_ne_nil _ _)

theorem numeric_fidelity_iff_price : quotedPrice.text = "$1,234.5 USD" ∧
    NumericField.price.Kept (normalizeRecord PlanePhd.fleetCrates "Cessna" "172"
      (.object [("papi_price_estimate", .string quotedPrice.text)])) quotedPrice.value :=
  ⟨by decide, (numeric_fidelity_iff _ _ _ _ .price rfl (.amount quotedPrice)).mpr trivial⟩

/-- The JSON number `1e16`, displayed as `1e+16`. -/
def largeFloat : FloatText where
  negative := false
  whole := [1]
  fraction := none
  exponent := some ⟨.plus, [1, 6], List.cons_ne_nil _ _⟩
  whole_ne := List.cons_ne_nil _ _
  fraction_ne := by decide

example : largeFloat.text = "1e+16" := by decide

/-- A price of `1e16` is read as 1. -/
theorem large_price_not_kept : ¬ ∀ (crates : Crates) (manufacturer aircraft : String)
    (object : JsonObject) (field : NumericField) (value : Json) (q : ℚ),
    field.read object = some value → Stated value q →
      field.Kept (normalizeRecord crates manufacturer aircraft (.object object)) q := by
  intro h
  have hread : NumericField.price.read [("papi_price_estimate", .number (.float largeFloat))]
      = some (.number (.float largeFloat)) := rfl
  have hkept := h PlanePhd.fleetCrates "Cessna" "172" _ _ _ _ hread (.number (.float largeFloat))
  rw [kept_iff hread (spelled_float largeFloat) (parseNumeric_float largeFloat)] at hkept
  have hdigits : Numeric.digitsValue (digitChars [1] ++ []) = 1 := rfl
  have hmantissa : largeFloat.mantissa = 1 := by
    norm_num [FloatText.mantissa, Literal.value, Literal.magnitude, largeFloat, -List.append_nil,
      hdigits]
  have hvalue : largeFloat.value = 10 ^ (16 : ℤ) := by
    rw [FloatText.value, hmantissa, one_mul]
    rfl
  rcases hkept with heq | hfalse
  · have hone : (1 : ℚ) = 10 ^ (16 : ℤ) := by
      rw [← hvalue, ← hmantissa]
      exact heq
    norm_num at hone
  · exact hfalse

end AircraftApi
