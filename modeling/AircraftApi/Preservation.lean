/-
AircraftApi/Preservation.lean

Whether a member of a record is read or else named by an issue.

A member is read when deleting it changes the record beside the raw document and
the issues.  Every reader that is handed a value and returns nothing names it, so
only members no reader is handed can be lost in silence: members of the engine and
of an image nobody asks for, what an image holds that is no scalar, the engine
texts of `performance` that do not decide the engine count, and whole sections
that hold nothing.  `Kept` lists them; a year that only repeats the one in the
name is there as well, because deleting it changes nothing.
-/
import AircraftApi.IssuePaths
import AircraftApi.PlanePhd

namespace AircraftApi

open Curation (Named)

namespace Preservation

/-! ### Members -/

/-- The sections whose members are read one by one. -/
inductive Section
  | engine
  | performance
  | weights
  | ownershipCosts
  deriving DecidableEq

/-- The key of a section. -/
def Section.key : Section → String
  | engine => "engine"
  | performance => "performance"
  | weights => "weights"
  | ownershipCosts => "ownership_costs"

/-- A member of a record: at the top, in a section, or in an image. -/
inductive Member
  | top (key : String)
  | inSection (part : Section) (key : String)
  | inImage (position : ℕ) (key : String)
  deriving DecidableEq

/-- The members of an image that is an object. -/
def imageAt (object : JsonObject) (position : ℕ) : Option JsonObject :=
  ((Json.get object "images").bind Json.asArray).bind fun images =>
    images[position]?.bind Json.asObject

/-- What stands at a member. -/
def Member.value (object : JsonObject) : Member → Option Json
  | top key => Json.get object key
  | inSection part key => (sectionAt object part.key).bind fun members => Json.get members key
  | inImage position key => (imageAt object position).bind fun members => Json.get members key

/-- The path an issue about the member has. -/
def Member.path : Member → String
  | top key => key
  | inSection part key => part.key ++ "." ++ key
  | inImage position key => imagePath position ++ "." ++ key

/-! ### Deleting a member -/

/-- `Map::remove`. -/
def remove (object : JsonObject) (key : String) : JsonObject :=
  object.filter fun entry => entry.1 ≠ key

/-- The value of one key changed. -/
def update (object : JsonObject) (key : String) (change : Json → Json) : JsonObject :=
  object.map fun entry => if entry.1 = key then (entry.1, change entry.2) else entry

/-- A member removed from a value that is an object. -/
def removeFrom (key : String) : Json → Json
  | .object members => .object (remove members key)
  | value => value

/-- An item changed in a value that is an array. -/
def updateItem (position : ℕ) (change : Json → Json) : Json → Json
  | .array items => .array (items.modify position change)
  | value => value

/-- The object without a member. -/
def Member.delete (object : JsonObject) : Member → JsonObject
  | top key => remove object key
  | inSection part key => update object part.key (removeFrom key)
  | inImage position key => update object "images" (updateItem position (removeFrom key))

/-- The record beside its issues and its raw document. -/
def contents (record : PreparedAircraftRecord) : PreparedAircraftRecord :=
  { record with issues := [], rawDocument := .null }

/-- Deleting the member changes the record, or an issue names the member. -/
def Preserved (crates : Crates) (manufacturer aircraft : String) (object : JsonObject)
    (member : Member) : Prop :=
  contents (normalizeRecord crates manufacturer aircraft (.object (member.delete object)))
    ≠ contents (normalizeRecord crates manufacturer aircraft (.object object)) ∨
  Named (normalizeRecord crates manufacturer aircraft (.object object)) member.path

/-! ### The condition -/

/-- The engine count a text of `performance` states. -/
def statedCount (performance : JsonObject) (key : String) : Option ℤ :=
  (textAt performance key).bind parseEngineCount

/-- The members of the engine that are read. -/
def engineKeys : List String :=
  ["horsepower", "thrust", "manufacturer", "model", "overhaul_ht", "years_before_overhaul"]

/-- A member of the engine is read. -/
def EngineRead (engine : JsonObject) : Prop :=
  (numericAt engine "horsepower").isSome ∨ (numericAt engine "thrust").isSome ∨
    (textAt engine "manufacturer").isSome ∨ (textAt engine "model").isSome ∨
    (integerAt engine "overhaul_ht").isSome ∨ (integerAt engine "years_before_overhaul").isSome

/-- An image is kept: it has an address, at a position that fits. -/
def ImageKept (images : List Json) : Prop :=
  ∃ position object, images[position]? = some (.object object) ∧ position < 2 ^ 15 ∧
    (textAt object "href").isSome

/-- A member at the top says more than the name does, and if it is a section, holds
something that is read. -/
structure TopKept (aircraft : String) (object : JsonObject) (key : String) : Prop where
  start : key = "start_year" → ∀ year,
    (textAt object key).bind (fun text => Text.parseI16 text.toList) = some year →
      (namedRange aircraft).1 ≠ some year
  close : key = "end_year" → ∀ year,
    (textAt object key).bind (fun text => Text.parseI16 text.toList) = some year →
      (namedRange aircraft).2.1 ≠ some year
  production : key = "in_production" → ∀ state, (boolean object key).value = some state →
    (namedRange aircraft).2.2 ≠ some state
  engine : key = "engine" → ∀ members, sectionAt object key = some members → EngineRead members
  performance : key = "performance" → ∀ members, sectionAt object key = some members →
    (∃ entry ∈ members, isEngineEntry key entry.1 = false ∧ (valueText entry.2).isSome) ∨
      ((engineCountText members).bind parseEngineCount).isSome
  parts : key = "weights" ∨ key = "ownership_costs" → ∀ members,
    sectionAt object key = some members → ∃ entry ∈ members, (valueText entry.2).isSome
  images : key = "images" → ∀ images, Json.get object key = some (.array images) →
    ImageKept images

/-- A member of a section has a reader that is handed it. -/
def SectionKept (object : JsonObject) : Section → String → Prop
  | .engine, key => key ∈ engineKeys
  | .performance, key =>
      isEngineEntry "performance" key = false ∨ ∃ members,
        sectionAt object "performance" = some members ∧
          (key = "horsepower" ∧ statedCount members "horsepower" ≠ statedCount members "thrust" ∨
            key = "thrust" ∧ Json.get members "horsepower" = none ∧
              (statedCount members "thrust").isSome)
  | .weights, _ => True
  | .ownershipCosts, _ => True

/-- A member of an image that is kept is a scalar somebody asks for; of one without an
address, it is what should be the address. -/
def ImageMemberKept (object : JsonObject) (position : ℕ) (key : String) : Prop :=
  ∃ image, imageAt object position = some image ∧
    match textAt image "href" with
    | none => key = "href"
    | some _ => position < 2 ^ 15 ∧ key ∈ ["href", "title", "holder", "dimensions"] ∧
        (textAt image key).isSome

/-- The member is read or named; a member of a section or an image is also named when the
record has a member of the name of its path. -/
def Kept (aircraft : String) (object : JsonObject) : Member → Prop
  | .top key => TopKept aircraft object key
  | .inSection part key =>
      SectionKept object part key ∨ (Json.get object (part.key ++ "." ++ key)).isSome
  | .inImage position key =>
      ImageMemberKept object position key ∨
        (Json.get object (imagePath position ++ "." ++ key)).isSome

/-! ### What deleting changes -/

section

variable {crates : Crates} {manufacturer aircraft : String} {object : JsonObject} {key : String}

theorem get_remove (object : JsonObject) (key field : String) :
    Json.get (remove object key) field = if field = key then none else Json.get object field := by
  unfold Json.get remove
  induction object with
  | nil => simp
  | cons entry rest ih =>
      obtain ⟨name, value⟩ := entry
      by_cases hname : name = key
      · subst hname
        rw [List.filter_cons_of_neg (by simp), ih, List.lookup_cons]
        split_ifs with hfield
        · rfl
        · rw [beq_false_of_ne hfield]
      · rw [List.filter_cons_of_pos (by simpa using hname), List.lookup_cons, List.lookup_cons, ih]
        by_cases hfield : field = name
        · subst hfield
          simp [hname]
        · rw [beq_false_of_ne hfield]

theorem get_update (object : JsonObject) (key : String) (change : Json → Json) (field : String) :
    Json.get (update object key change) field
      = if field = key then (Json.get object key).map change else Json.get object field := by
  unfold Json.get update
  induction object with
  | nil => simp
  | cons entry rest ih =>
      obtain ⟨name, value⟩ := entry
      rw [List.map_cons, List.lookup_cons, List.lookup_cons, List.lookup_cons]
      by_cases hname : name = key
      · subst hname
        by_cases hfield : field = name
        · subst hfield
          simp
        · simp [beq_false_of_ne hfield, hfield, ih]
      · by_cases hfield : field = name
        · subst hfield
          simp [hname]
        · simp [hname, beq_false_of_ne hfield, beq_false_of_ne (Ne.symm hname), ih]

theorem contents_normalizeRecord :
    contents (normalizeRecord crates manufacturer aircraft (.object object))
      = recordOf crates manufacturer aircraft .null object := by
  rw [normalizeRecord_object]
  rfl

theorem preserved_iff_changed {member : Member} :
    Preserved crates manufacturer aircraft object member ↔
      recordOf crates manufacturer aircraft .null (member.delete object)
        ≠ recordOf crates manufacturer aircraft .null object ∨
      Flags (normalizeObject crates manufacturer aircraft (.object object) object) member.path := by
  rw [Preserved, contents_normalizeRecord, contents_normalizeRecord, named_iff_flags]

/-! ### Members at the top -/

/-- A field with a reader of its own is preserved when deleting it changes the record, or
the reader returned nothing. -/
theorem preserved_field {α : Type} {checked : Checked (Option α)} (hpath : key ∈ readFields)
    (hreading : (key, checked.notes) ∈ readings crates aircraft object)
    (hanswers : Answers checked) :
    Preserved crates manufacturer aircraft object (.top key) ↔
      recordOf crates manufacturer aircraft .null (remove object key)
        ≠ recordOf crates manufacturer aircraft .null object ∨ checked.value = none := by
  rw [preserved_iff_changed]
  refine or_congr_right ?_
  show Flags _ key ↔ _
  rw [flags_field hpath hreading, hanswers.notes_ne_nil]

/-- A field of the record that nothing else fills. -/
theorem preserved_plain {α : Type} {checked : Checked (Option α)} (hpath : key ∈ readFields)
    (hreading : (key, checked.notes) ∈ readings crates aircraft object)
    (hanswers : Answers checked) (read : PreparedAircraftRecord → Option α)
    (hread : read (recordOf crates manufacturer aircraft .null object) = checked.value)
    (hremoved : read (recordOf crates manufacturer aircraft .null (remove object key)) = none) :
    Preserved crates manufacturer aircraft object (.top key) := by
  rw [preserved_field hpath hreading hanswers, or_iff_not_imp_right]
  intro hvalue heq
  rw [← hread, ← heq, hremoved] at hvalue
  exact hvalue rfl

/-- What the name falls back on hides a field that says the same. -/
theorem preserved_named {α : Type} {checked : Checked (Option α)} {named : Option α}
    (hpath : key ∈ readFields) (hreading : (key, checked.notes) ∈ readings crates aircraft object)
    (hanswers : Answers checked) (read : PreparedAircraftRecord → Option α)
    (hread : read (recordOf crates manufacturer aircraft .null object) = checked.value.or named)
    (hremoved : read (recordOf crates manufacturer aircraft .null (remove object key)) = named)
    (hsame : checked.value.or named = named →
      recordOf crates manufacturer aircraft .null (remove object key)
        = recordOf crates manufacturer aircraft .null object) :
    Preserved crates manufacturer aircraft object (.top key) ↔
      ∀ a, checked.value = some a → named ≠ some a := by
  rw [preserved_field hpath hreading hanswers]
  rcases hvalue : checked.value with - | a
  · simp
  · rw [hvalue, Option.some_or] at hread hsame
    simp only [reduceCtorEq, or_false, Option.some.injEq, forall_eq']
    refine not_congr ⟨fun heq => ?_, fun hnamed => hsame hnamed.symm⟩
    rw [← hremoved, heq, hread]

theorem topKept_of_ne (hne : key ∉ ["start_year", "end_year", "in_production", "engine",
    "performance", "weights", "ownership_costs", "images"]) : TopKept aircraft object key := by
  simp only [List.mem_cons, List.not_mem_nil, or_false, not_or] at hne
  obtain ⟨hstart, hclose, hproduction, hengine, hperformance, hweights, hcosts, himages⟩ := hne
  exact ⟨fun h => absurd h hstart, fun h => absurd h hclose, fun h => absurd h hproduction,
    fun h => absurd h hengine, fun h => absurd h hperformance,
    fun h => (h.elim hweights hcosts).elim, fun h => absurd h himages⟩

/-- A key nobody reads is named. -/
theorem preserved_unknown {value : Json} (hunknown : key ∉ knownFields)
    (hget : Json.get object key = some value) :
    Preserved crates manufacturer aircraft object (.top key) := by
  rw [preserved_iff_changed]
  exact .inr (flags_normalizeObject.mpr (.inr (.inr (.inr (.inl
    (flags_checkFields.mpr ⟨hunknown, value, mem_of_lookup hget⟩))))))

/-! ### Sections at the top -/

theorem measurements_ne_nil {members : JsonObject} {part : String}
    {mapping : String → Option String} :
    (measurements (some members) part mapping).value ≠ [] ↔
      ∃ entry ∈ members, isEngineEntry part entry.1 = false ∧ (valueText entry.2).isSome := by
  refine Noted.collect_value_ne_nil.trans (exists_congr fun entry => and_congr_right fun _ => ?_)
  rw [measurement_value]
  rcases isEngineEntry part entry.1 with - | -
  · simp [Option.isSome_iff_ne_none]
  · simp

theorem costItems_ne_nil {members : JsonObject} :
    (costItems (some members)).value ≠ [] ↔ ∃ entry ∈ members, (valueText entry.2).isSome := by
  refine Noted.collect_value_ne_nil.trans (exists_congr fun entry => and_congr_right fun _ => ?_)
  rw [costItem_value]
  simp [Option.isSome_iff_ne_none]

theorem imageItem_value {image : Json} {position : ℕ} :
    (imageItem crates image position).value = image.asObject.bind fun object =>
      (textAt object "href").bind fun href =>
        if position < 2 ^ 15 then some (preparedImage crates object position href) else none := by
  unfold imageItem textAt
  rcases image.asObject with - | object
  · rfl
  · dsimp only [Option.bind_some]
    rcases (Json.get object "href").bind valueText with - | href
    · rfl
    · dsimp only [Option.bind_some]
      split_ifs <;> rfl

theorem imageItems_ne_nil {images : List Json} :
    (imageItems crates (some (.array images))).value ≠ [] ↔ ImageKept images := by
  have hprimary : ∀ items : List ImageMetadataInput, markPrimary items ≠ [] ↔ items ≠ [] := by
    rintro (- | ⟨first, rest⟩) <;> simp [markPrimary]
  refine (hprimary _).trans (Noted.collect_value_ne_nil.trans ?_)
  simp only [imageItem_value]
  constructor
  · rintro ⟨⟨image, position⟩, hentry, hitem⟩
    obtain ⟨item, hitem⟩ := Option.ne_none_iff_exists'.mp hitem
    obtain ⟨object, hobject, hitem⟩ := Option.bind_eq_some_iff.mp hitem
    obtain ⟨href, hhref, hitem⟩ := Option.bind_eq_some_iff.mp hitem
    obtain rfl := Json.asObject_eq_some.mp hobject
    refine ⟨position, object, List.mk_mem_zipIdx_iff_getElem?.mp hentry, ?_, by rw [hhref]; rfl⟩
    by_contra hposition
    rw [if_neg hposition] at hitem
    cases hitem
  · rintro ⟨position, object, himage, hposition, hhref⟩
    obtain ⟨href, hhref⟩ := Option.isSome_iff_exists.mp hhref
    refine ⟨(.object object, position), List.mk_mem_zipIdx_iff_getElem?.mpr himage, ?_⟩
    show (textAt object "href").bind _ ≠ none
    rw [hhref, Option.bind_some, if_pos hposition]
    exact Option.some_ne_none _

theorem recordOf_remove_start (h : statedStart aircraft object = (namedRange aircraft).1) :
    recordOf crates manufacturer aircraft .null (remove object "start_year")
      = recordOf crates manufacturer aircraft .null object := by
  have hstart : statedStart aircraft (remove object "start_year") = (namedRange aircraft).1 := by
    simp [statedStart, textAt, get_remove]
  simp only [recordOf, hstart, h]
  simp [textAt, numericAt, integerAt, sectionAt, proseOf, pageUrl, boolean, statedClose,
    statedInProduction, get_remove]

theorem recordOf_remove_close (h : statedClose aircraft object = (namedRange aircraft).2.1) :
    recordOf crates manufacturer aircraft .null (remove object "end_year")
      = recordOf crates manufacturer aircraft .null object := by
  have hclose : statedClose aircraft (remove object "end_year") = (namedRange aircraft).2.1 := by
    simp [statedClose, textAt, get_remove]
  simp only [recordOf, hclose, h]
  simp [textAt, numericAt, integerAt, sectionAt, proseOf, pageUrl, boolean, statedStart,
    statedInProduction, get_remove]

theorem recordOf_remove_production
    (h : statedInProduction aircraft object = (namedRange aircraft).2.2) :
    recordOf crates manufacturer aircraft .null (remove object "in_production")
      = recordOf crates manufacturer aircraft .null object := by
  have hproduction : statedInProduction aircraft (remove object "in_production")
      = (namedRange aircraft).2.2 := by
    simp [statedInProduction, boolean, get_remove]
  simp only [recordOf, hproduction, h]
  simp [textAt, numericAt, integerAt, sectionAt, proseOf, pageUrl, statedStart, statedClose,
    get_remove]

theorem recordOf_remove_performance :
    recordOf crates manufacturer aircraft .null (remove object "performance")
      = { recordOf crates manufacturer aircraft .null object with
          performance := []
          propulsion := { (recordOf crates manufacturer aircraft .null object).propulsion with
            engineCount := none } } := by
  simp [recordOf, textAt, numericAt, integerAt, sectionAt, proseOf, pageUrl, boolean, statedStart,
    statedClose, statedInProduction, get_remove, measurements]

theorem recordOf_remove_weights :
    recordOf crates manufacturer aircraft .null (remove object "weights")
      = { recordOf crates manufacturer aircraft .null object with weights := [] } := by
  simp [recordOf, textAt, numericAt, integerAt, sectionAt, proseOf, pageUrl, boolean, statedStart,
    statedClose, statedInProduction, get_remove, measurements]

theorem recordOf_remove_costs :
    recordOf crates manufacturer aircraft .null (remove object "ownership_costs")
      = { recordOf crates manufacturer aircraft .null object with operatingCosts := [] } := by
  simp [recordOf, textAt, numericAt, integerAt, sectionAt, proseOf, pageUrl, boolean, statedStart,
    statedClose, statedInProduction, get_remove, costItems]

theorem recordOf_remove_images :
    recordOf crates manufacturer aircraft .null (remove object "images")
      = { recordOf crates manufacturer aircraft .null object with images := [] } := by
  simp [recordOf, textAt, numericAt, integerAt, sectionAt, proseOf, pageUrl, boolean, statedStart,
    statedClose, statedInProduction, get_remove, imageItems]

theorem recordOf_remove_engine :
    recordOf crates manufacturer aircraft .null (remove object "engine")
      = { recordOf crates manufacturer aircraft .null object with
          propulsion :=
            { category := (proseOf object).bind propulsionCategory
              engineCount := (recordOf crates manufacturer aircraft .null object).propulsion.engineCount } } := by
  simp [recordOf, textAt, numericAt, integerAt, sectionAt, proseOf, pageUrl, boolean, statedStart,
    statedClose, statedInProduction, get_remove]

section

variable {r : PreparedAircraftRecord}

theorem without_performance :
    { r with performance := [], propulsion := { r.propulsion with engineCount := none } } = r ↔
      r.performance = [] ∧ r.propulsion.engineCount = none := by
  constructor
  · intro h
    rw [← h]
    exact ⟨rfl, rfl⟩
  · rintro ⟨hperformance, hcount⟩
    rw [← hperformance, ← hcount]

theorem without_weights : { r with weights := [] } = r ↔ r.weights = [] := by
  constructor
  · intro h
    rw [← h]
  · intro h
    rw [← h]

theorem without_costs : { r with operatingCosts := [] } = r ↔ r.operatingCosts = [] := by
  constructor
  · intro h
    rw [← h]
  · intro h
    rw [← h]

theorem without_images : { r with images := [] } = r ↔ r.images = [] := by
  constructor
  · intro h
    rw [← h]
  · intro h
    rw [← h]

end

theorem recordOf_engine_eq {engine : JsonObject} (h : sectionAt object "engine" = some engine) :
    { recordOf crates manufacturer aircraft .null object with
        propulsion :=
          { category := (proseOf object).bind propulsionCategory
            engineCount := (recordOf crates manufacturer aircraft .null object).propulsion.engineCount } }
      = recordOf crates manufacturer aircraft .null object ↔
    numericAt engine "horsepower" = none ∧ numericAt engine "thrust" = none ∧
      textAt engine "manufacturer" = none ∧ textAt engine "model" = none ∧
      integerAt engine "overhaul_ht" = none ∧ integerAt engine "years_before_overhaul" = none := by
  simp only [recordOf, h, Option.bind_some, PreparedAircraftRecord.mk.injEq,
    PropulsionInput.mk.injEq]
  simp only [true_and, and_true, eq_comm]
  tauto

theorem preserved_images_iff {value : Json} (hget : Json.get object "images" = some value)
    (hblank : value.isBlank = false) :
    Preserved crates manufacturer aircraft object (.top "images") ↔
      ∀ images, Json.get object "images" = some (.array images) → ImageKept images := by
  rw [preserved_iff_changed]
  show recordOf _ _ _ _ (remove object "images") ≠ _ ∨ Flags _ "images" ↔ _
  rw [flags_images hget, recordOf_remove_images, Ne, without_images]
  cases value with
  | array images =>
      simp only [recordOf, hget, Json.asArray, reduceCtorEq, or_false, Option.some.injEq,
        Json.array.injEq, forall_eq']
      exact imageItems_ne_nil
  | _ => simp [hget, Json.asArray]

/-- A section that is an object is preserved when something in it is read. -/
theorem preserved_part {value : Json} (hpath : key ∈ readFields)
    (hreading : (key, (nested object key).notes) ∈ readings crates aircraft object)
    (hget : Json.get object key = some value) (hblank : value.isBlank = false) {P : JsonObject → Prop}
    (hchanged : ∀ members, sectionAt object key = some members →
      (recordOf crates manufacturer aircraft .null (remove object key)
        ≠ recordOf crates manufacturer aircraft .null object ↔ P members)) :
    Preserved crates manufacturer aircraft object (.top key) ↔
      ∀ members, sectionAt object key = some members → P members := by
  rw [preserved_field hpath hreading (Answers.nested hget hblank), nested_value]
  rcases hsection : sectionAt object key with - | members
  · simp
  · simp [hchanged members hsection]

section

variable {value : Json} (hblank : value.isBlank = false)

include hblank

/-- The members read as they stand are preserved. -/
theorem preserved_read (hget : Json.get object key = some value)
    (hread : key ∈ ["source_link", "page_url", "title", "description", "papi_price_estimate",
      "for_sale_count"]) : Preserved crates manufacturer aircraft object (.top key) := by
  have hscalar : Answers (scalar (Json.get object key) key) := by
    rw [hget]
    exact Answers.scalar hblank
  have hnumeric : Answers (numeric (Json.get object key) key) := by
    rw [hget]
    exact Answers.numeric hblank
  have hcount : Answers (numericInteger Text.parseI32 (Json.get object key) key) := by
    rw [hget]
    exact Answers.numericInteger _ hblank
  -- each member has its reader, and a field of the record that only it decides
  simp only [List.mem_cons, List.not_mem_nil, or_false] at hread
  rcases hread with rfl | rfl | rfl | rfl | rfl | rfl
  · apply preserved_plain (by decide) (List.mem_of_getElem? (i := 9) rfl) hscalar
      (fun record => record.identity.sourceLink) (scalar_value _ _).symm
    simp [recordOf, textAt, get_remove]
  · apply preserved_plain (by decide) (List.mem_of_getElem? (i := 10) rfl)
      (Answers.pageUrl crates hget hblank) (fun record => record.identity.pageUrl) rfl
    simp [recordOf, pageUrl, get_remove]
  · apply preserved_plain (by decide) (List.mem_of_getElem? (i := 13) rfl) hscalar
      (fun record => record.identity.title) (scalar_value _ _).symm
    simp [recordOf, textAt, get_remove]
  · apply preserved_plain (by decide) (List.mem_of_getElem? (i := 0) rfl) hscalar
      (fun record => record.identity.description) (scalar_value _ _).symm
    simp [recordOf, textAt, get_remove]
  · apply preserved_plain (by decide) (List.mem_of_getElem? (i := 18) rfl) hnumeric
      (fun record => record.valuation.papiPriceEstimate) (numeric_value _ _).symm
    simp [recordOf, numericAt, textAt, get_remove]
  · apply preserved_plain (by decide) (List.mem_of_getElem? (i := 19) rfl) hcount
      (fun record => record.valuation.forSaleCount) (numericInteger_value _ _ _).symm
    simp [recordOf, integerAt, numericAt, textAt, get_remove]

theorem preserved_start_iff (hget : Json.get object "start_year" = some value) :
    Preserved crates manufacturer aircraft object (.top "start_year") ↔
      TopKept aircraft object "start_year" := by
  refine (preserved_named (by decide) (List.mem_of_getElem? (i := 3) rfl)
    (Answers.integer _ hget hblank) (fun record => record.lifecycle.productionStartYear)
    (by rw [integer_value]; rfl) ?_ ?_).trans ?_
  · simp [recordOf, statedStart, textAt, get_remove]
  · rw [integer_value]
    exact recordOf_remove_start
  · rw [integer_value]
    exact ⟨fun h => ⟨fun _ => h, by simp, by simp, by simp, by simp, by simp, by simp⟩,
      fun h => h.start rfl⟩

theorem preserved_close_iff (hget : Json.get object "end_year" = some value) :
    Preserved crates manufacturer aircraft object (.top "end_year") ↔
      TopKept aircraft object "end_year" := by
  refine (preserved_named (by decide) (List.mem_of_getElem? (i := 4) rfl)
    (Answers.integer _ hget hblank) (fun record => record.lifecycle.productionEndYear)
    (by rw [integer_value]; rfl) ?_ ?_).trans ?_
  · simp [recordOf, statedClose, textAt, get_remove]
  · rw [integer_value]
    exact recordOf_remove_close
  · rw [integer_value]
    exact ⟨fun h => ⟨by simp, fun _ => h, by simp, by simp, by simp, by simp, by simp⟩,
      fun h => h.close rfl⟩

omit hblank in
theorem preserved_production_iff (hget : Json.get object "in_production" = some value) :
    Preserved crates manufacturer aircraft object (.top "in_production") ↔
      TopKept aircraft object "in_production" := by
  refine (preserved_named (by decide) (List.mem_of_getElem? (i := 2) rfl)
    (Answers.boolean hget) (fun record => record.lifecycle.isInProduction) rfl ?_
    recordOf_remove_production).trans ?_
  · simp [recordOf, statedInProduction, boolean, get_remove]
  · exact ⟨fun h => ⟨by simp, by simp, fun _ => h, by simp, by simp, by simp, by simp⟩,
      fun h => h.production rfl⟩

/-- The section says something by a measurement, or by the count of engines. -/
theorem preserved_performanceSection_iff (hget : Json.get object "performance" = some value) :
    Preserved crates manufacturer aircraft object (.top "performance") ↔
      TopKept aircraft object "performance" := by
  refine (preserved_part (by decide) (List.mem_of_getElem? (i := 5) rfl) hget hblank
    fun members hmembers => ?_).trans
    ⟨fun h => ⟨by simp, by simp, by simp, by simp, fun _ => h, by simp, by simp⟩,
      fun h => h.performance rfl⟩
  rw [recordOf_remove_performance, Ne, without_performance, not_and_or, ← measurements_ne_nil,
    Option.isSome_iff_ne_none]
  simp only [recordOf, hmembers, Option.bind_some]
  exact Iff.rfl

theorem preserved_weightsSection_iff (hget : Json.get object "weights" = some value) :
    Preserved crates manufacturer aircraft object (.top "weights") ↔
      TopKept aircraft object "weights" := by
  refine (preserved_part (by decide) (List.mem_of_getElem? (i := 6) rfl) hget hblank
    fun members hmembers => ?_).trans
    ⟨fun h => ⟨by simp, by simp, by simp, by simp, by simp, fun _ => h, by simp⟩,
      fun h => h.parts (.inl rfl)⟩
  rw [recordOf_remove_weights, Ne, without_weights]
  simp only [recordOf, hmembers]
  refine measurements_ne_nil.trans (exists_congr fun entry => and_congr_right fun _ => ?_)
  simp [isEngineEntry]

theorem preserved_costsSection_iff (hget : Json.get object "ownership_costs" = some value) :
    Preserved crates manufacturer aircraft object (.top "ownership_costs") ↔
      TopKept aircraft object "ownership_costs" := by
  refine (preserved_part (by decide) (List.mem_of_getElem? (i := 8) rfl) hget hblank
    fun members hmembers => ?_).trans
    ⟨fun h => ⟨by simp, by simp, by simp, by simp, by simp, fun _ => h, by simp⟩,
      fun h => h.parts (.inr rfl)⟩
  rw [recordOf_remove_costs, Ne, without_costs]
  simp only [recordOf, hmembers]
  exact costItems_ne_nil

/-- The section says something by one of the members that are read of it. -/
theorem preserved_engineSection_iff (hget : Json.get object "engine" = some value) :
    Preserved crates manufacturer aircraft object (.top "engine") ↔
      TopKept aircraft object "engine" := by
  refine (preserved_part (by decide) (List.mem_of_getElem? (i := 7) rfl) hget hblank
    fun members hmembers => ?_).trans
    ⟨fun h => ⟨by simp, by simp, by simp, fun _ => h, by simp, by simp, by simp⟩,
      fun h => h.engine rfl⟩
  rw [recordOf_remove_engine, Ne, recordOf_engine_eq hmembers]
  simp only [EngineRead, Option.isSome_iff_ne_none]
  tauto

/-- **At the top**, a member is preserved exactly when it says more than the name and holds
something that is read. -/
theorem preserved_top_iff (hget : Json.get object key = some value)
    (hmanufacturer : key ≠ "manufacturer_name") (haircraft : key ≠ "aircraft_name") :
    Preserved crates manufacturer aircraft object (.top key) ↔ TopKept aircraft object key := by
  have hplain : key ∈ ["source_link", "page_url", "title", "description", "papi_price_estimate",
      "for_sale_count"] → key ∉ ["start_year", "end_year", "in_production", "engine",
        "performance", "weights", "ownership_costs", "images"] →
      (Preserved crates manufacturer aircraft object (.top key) ↔ TopKept aircraft object key) :=
    fun hread hnot => iff_of_true (preserved_read hblank hget hread) (topKept_of_ne hnot)
  by_cases hknown : key ∈ knownFields
  · simp only [knownFields, List.mem_cons, List.not_mem_nil, or_false] at hknown
    rcases hknown with rfl | rfl | rfl | rfl | rfl | rfl | rfl | rfl | rfl | rfl | rfl | rfl | rfl |
      rfl | rfl | rfl
    · exact absurd rfl hmanufacturer
    · exact absurd rfl haircraft
    -- the link, the page, the title, the description, the price and the count
    · exact hplain (by decide) (by decide)
    · exact hplain (by decide) (by decide)
    · exact hplain (by decide) (by decide)
    · exact hplain (by decide) (by decide)
    · exact hplain (by decide) (by decide)
    · exact hplain (by decide) (by decide)
    -- what the name may say as well
    · exact preserved_start_iff hblank hget
    · exact preserved_close_iff hblank hget
    · exact preserved_production_iff hget
    -- the sections
    · exact preserved_performanceSection_iff hblank hget
    · exact preserved_weightsSection_iff hblank hget
    · exact preserved_costsSection_iff hblank hget
    · exact preserved_engineSection_iff hblank hget
    · exact (preserved_images_iff hget hblank).trans
        ⟨fun h => ⟨by simp, by simp, by simp, by simp, by simp, by simp, fun _ => h⟩,
          fun h => h.images rfl⟩
  · have hread : ∀ field ∈ ["start_year", "end_year", "in_production", "engine", "performance",
        "weights", "ownership_costs", "images"], field ∈ knownFields := by decide
    exact iff_of_true (preserved_unknown hknown hget) (topKept_of_ne fun hin =>
      hknown (hread key hin))

end

/-! ### Members of a section -/

theorem isSome_get_iff {path : String} :
    (Json.get object path).isSome ↔ ∃ value, (path, value) ∈ object := by
  rw [Json.get, List.lookup_isSome_iff]
  constructor
  · rintro ⟨⟨name, value⟩, hentry, hname⟩
    obtain rfl : path = name := eq_of_beq hname
    exact ⟨value, hentry⟩
  · rintro ⟨value, hentry⟩
    exact ⟨(path, value), hentry, beq_self_eq_true path⟩

theorem sectionAt_update {members : JsonObject} {part : String}
    (h : sectionAt object part = some members) (field : String) :
    sectionAt (update object part (removeFrom key)) field
      = if field = part then some (remove members key) else sectionAt object field := by
  unfold sectionAt at h ⊢
  rw [get_update]
  split_ifs with hfield
  · obtain ⟨value, hget, hobject⟩ := Option.bind_eq_some_iff.mp h
    obtain rfl := Json.asObject_eq_some.mp hobject
    rw [hget]
    rfl
  · rfl

theorem recordOf_update_weights {members : JsonObject}
    (h : sectionAt object "weights" = some members) :
    recordOf crates manufacturer aircraft .null (update object "weights" (removeFrom key))
      = { recordOf crates manufacturer aircraft .null object with
          weights := (measurements (some (remove members key)) "weights" weightCode).value } := by
  simp [recordOf, textAt, numericAt, integerAt, sectionAt_update h, proseOf, pageUrl, boolean,
    statedStart, statedClose, statedInProduction, get_update]

theorem recordOf_update_costs {members : JsonObject}
    (h : sectionAt object "ownership_costs" = some members) :
    recordOf crates manufacturer aircraft .null (update object "ownership_costs" (removeFrom key))
      = { recordOf crates manufacturer aircraft .null object with
          operatingCosts := (costItems (some (remove members key))).value } := by
  simp [recordOf, textAt, numericAt, integerAt, sectionAt_update h, proseOf, pageUrl, boolean,
    statedStart, statedClose, statedInProduction, get_update]

theorem recordOf_update_performance {members : JsonObject}
    (h : sectionAt object "performance" = some members) :
    recordOf crates manufacturer aircraft .null (update object "performance" (removeFrom key))
      = { recordOf crates manufacturer aircraft .null object with
          performance := (measurements (some (remove members key)) "performance" perfCode).value
          propulsion := { (recordOf crates manufacturer aircraft .null object).propulsion with
            engineCount := (engineCountText (remove members key)).bind parseEngineCount } } := by
  simp [recordOf, textAt, numericAt, integerAt, sectionAt_update h, proseOf, pageUrl, boolean,
    statedStart, statedClose, statedInProduction, get_update]

theorem recordOf_update_engine {engine : JsonObject}
    (h : sectionAt object "engine" = some engine) :
    recordOf crates manufacturer aircraft .null (update object "engine" (removeFrom key))
      = { recordOf crates manufacturer aircraft .null object with
          propulsion := { (recordOf crates manufacturer aircraft .null object).propulsion with
            manufacturer := textAt (remove engine key) "manufacturer"
            model := textAt (remove engine key) "model"
            horsepower := numericAt (remove engine key) "horsepower"
            thrustNewtons := numericAt (remove engine key) "thrust"
            tboHours := integerAt (remove engine key) "overhaul_ht"
            tboYears := integerAt (remove engine key) "years_before_overhaul" } } := by
  simp [recordOf, textAt, numericAt, integerAt, sectionAt_update h, proseOf, pageUrl, boolean,
    statedStart, statedClose, statedInProduction, get_update]

theorem mem_remove {members : JsonObject} {entry : String × Json} :
    entry ∈ remove members key ↔ entry ∈ members ∧ entry.1 ≠ key := by
  simp [remove]

/-- A measurement that was read is missed. -/
theorem measurements_remove {members : JsonObject} {part raw : String}
    {mapping : String → Option String} {value : Json} (hget : Json.get members key = some value)
    (hengine : isEngineEntry part key = false) (hraw : valueText value = some raw) :
    (measurements (some (remove members key)) part mapping).value
      ≠ (measurements (some members) part mapping).value := by
  intro heq
  have hin : preparedMeasurement mapping key raw
      ∈ (measurements (some members) part mapping).value :=
    mem_measurements.mpr ⟨members, rfl, (key, value), mem_of_lookup hget, hengine, raw, hraw, rfl⟩
  rw [← heq] at hin
  obtain ⟨members', hmembers, entry, hentry, -, raw', -, hm⟩ := mem_measurements.mp hin
  obtain rfl := Option.mem_some_iff.mp hmembers
  exact (mem_remove.mp hentry).2 (congrArg MeasurementInput.sourceField hm)

theorem costItems_remove {members : JsonObject} {raw : String} {value : Json}
    (hget : Json.get members key = some value) (hraw : valueText value = some raw) :
    (costItems (some (remove members key))).value ≠ (costItems (some members)).value := by
  intro heq
  have hin : preparedCost key raw ∈ (costItems (some members)).value :=
    mem_costItems.mpr ⟨members, rfl, (key, value), mem_of_lookup hget, raw, hraw, rfl⟩
  rw [← heq] at hin
  obtain ⟨members', hmembers, entry, hentry, raw', -, hitem⟩ := mem_costItems.mp hin
  obtain rfl := Option.mem_some_iff.mp hmembers
  exact (mem_remove.mp hentry).2 (congrArg CostItemInput.sourceKey hitem)

/-- The engine entries of `performance` are no measurements. -/
theorem measurements_remove_engine {members : JsonObject} {part : String}
    {mapping : String → Option String} (hengine : isEngineEntry part key = true) :
    (measurements (some (remove members key)) part mapping).value
      = (measurements (some members) part mapping).value := by
  refine Noted.collect_value_filter ?_
  rintro ⟨name, value⟩ hname
  obtain rfl : name = key := by simpa using hname
  rw [measurement_value, if_pos hengine]

/-- A value that is no scalar is named. -/
theorem flags_measurements_of_none {members : JsonObject} {part : String}
    {mapping : String → Option String} {value : Json} (hget : Json.get members key = some value)
    (hblank : value.isBlank = false) (hengine : isEngineEntry part key = false)
    (hraw : valueText value = none) :
    Flags (measurements (some members) part mapping) (part ++ "." ++ key) := by
  refine Noted.Any.collect_iff.mpr ⟨(key, value), mem_of_lookup hget, ?_⟩
  unfold measurement
  rw [if_neg (by rw [hengine]; exact Bool.false_ne_true)]
  refine Noted.Any.bind_iff.mpr (.inl ?_)
  exact flags_scalar_of_none hblank hraw

theorem flags_costItems_of_none {members : JsonObject} {value : Json}
    (hget : Json.get members key = some value) (hblank : value.isBlank = false)
    (hraw : valueText value = none) :
    Flags (costItems (some members)) ("ownership_costs" ++ "." ++ key) := by
  refine Noted.Any.collect_iff.mpr ⟨(key, value), mem_of_lookup hget,
    Noted.Any.bind_iff.mpr (.inl ?_)⟩
  rw [← costPath_eq]
  exact flags_scalar_of_none hblank hraw

theorem ne_images (part : Section) : ¬ ∃ position, part.key = imagePath position := by
  rintro ⟨position, heq⟩
  refine ne_imagePath ?_ position heq
  cases part <;> decide

/-- A member of a section is preserved when deleting it changes the record, when a reader of
the section names it, or when a member of the record has its path for a name. -/
theorem preserved_inSection_iff {part : Section} :
    Preserved crates manufacturer aircraft object (.inSection part key) ↔
      (recordOf crates manufacturer aircraft .null (update object part.key (removeFrom key))
          ≠ recordOf crates manufacturer aircraft .null object ∨
        match part with
        | .engine => ∃ reading ∈ readings crates aircraft object,
            reading.1 = "engine" ++ "." ++ key ∧ reading.2 ≠ []
        | .performance => Flags (measurements (sectionAt object "performance") "performance"
            perfCode) ("performance" ++ "." ++ key)
        | .weights => Flags (measurements (sectionAt object "weights") "weights" weightCode)
            ("weights" ++ "." ++ key)
        | .ownershipCosts => Flags (costItems (sectionAt object "ownership_costs"))
            ("ownership_costs" ++ "." ++ key)) ∨
      (Json.get object (part.key ++ "." ++ key)).isSome := by
  rw [preserved_iff_changed, isSome_get_iff]
  show _ ∨ Flags _ (part.key ++ "." ++ key) ↔ _
  rw [flags_inSection (by cases part <;> decide) (by cases part <;> decide)]
  simp only [ne_images part, false_and, or_false]
  rw [or_comm (a := ∃ value, _), ← or_assoc]
  refine or_congr_left (or_congr_right ?_)
  cases part <;> simp [Section.key]

/-- A member of the engine that is read fills a field of its own. -/
theorem preserved_engine_of_reader {α : Type} {checked : Checked (Option α)} {path : String}
    (hpath : path = "engine" ++ "." ++ key)
    (hreading : (path, checked.notes) ∈ readings crates aircraft object)
    (hanswers : Answers checked) (read : PropulsionInput → Option α)
    (hread : read (recordOf crates manufacturer aircraft .null object).propulsion = checked.value)
    (hremoved : read (recordOf crates manufacturer aircraft .null
      (update object "engine" (removeFrom key))).propulsion = none) :
    Preserved crates manufacturer aircraft object (.inSection .engine key) := by
  refine preserved_inSection_iff.mpr (.inl ?_)
  rw [or_iff_not_imp_right]
  intro hsilent heq
  refine hsilent ⟨(path, checked.notes), hreading, hpath, hanswers.notes_ne_nil.mpr ?_⟩
  rw [← hread, ← congrArg PreparedAircraftRecord.propulsion heq]
  exact hremoved

section

variable {members : JsonObject} {value : Json} (hget : Json.get members key = some value)
  (hblank : value.isBlank = false)

include hget hblank

theorem preserved_weight (hmembers : sectionAt object "weights" = some members) :
    Preserved crates manufacturer aircraft object (.inSection .weights key) := by
  refine preserved_inSection_iff.mpr (.inl ?_)
  rcases hraw : valueText value with - | raw
  · refine .inr ?_
    show Flags (measurements (sectionAt object "weights") "weights" weightCode) _
    rw [hmembers]
    exact flags_measurements_of_none hget hblank (by simp [isEngineEntry]) hraw
  · refine .inl fun heq => ?_
    have hweights := congrArg PreparedAircraftRecord.weights
      ((recordOf_update_weights hmembers).symm.trans heq)
    simp only [recordOf, hmembers] at hweights
    exact measurements_remove hget (by simp [isEngineEntry]) hraw hweights

theorem preserved_cost (hmembers : sectionAt object "ownership_costs" = some members) :
    Preserved crates manufacturer aircraft object (.inSection .ownershipCosts key) := by
  refine preserved_inSection_iff.mpr (.inl ?_)
  rcases hraw : valueText value with - | raw
  · refine .inr ?_
    show Flags (costItems (sectionAt object "ownership_costs")) _
    rw [hmembers]
    exact flags_costItems_of_none hget hblank hraw
  · refine .inl fun heq => ?_
    have hcosts := congrArg PreparedAircraftRecord.operatingCosts
      ((recordOf_update_costs hmembers).symm.trans heq)
    simp only [recordOf, hmembers] at hcosts
    exact costItems_remove hget hraw hcosts

theorem preserved_performance (hmembers : sectionAt object "performance" = some members)
    (hengine : isEngineEntry "performance" key = false) :
    Preserved crates manufacturer aircraft object (.inSection .performance key) := by
  refine preserved_inSection_iff.mpr (.inl ?_)
  rcases hraw : valueText value with - | raw
  · refine .inr ?_
    show Flags (measurements (sectionAt object "performance") "performance" perfCode) _
    rw [hmembers]
    exact flags_measurements_of_none hget hblank hengine hraw
  · refine .inl fun heq => ?_
    have hperformance := congrArg PreparedAircraftRecord.performance
      ((recordOf_update_performance hmembers).symm.trans heq)
    simp only [recordOf, hmembers] at hperformance
    exact measurements_remove hget hengine hraw hperformance

omit hblank in
/-- An engine entry of `performance` matters for the engine count only. -/
theorem preserved_engineEntry_iff (hmembers : sectionAt object "performance" = some members)
    (hengine : isEngineEntry "performance" key = true) :
    Preserved crates manufacturer aircraft object (.inSection .performance key) ↔
      (key = "horsepower" ∧ statedCount members "horsepower" ≠ statedCount members "thrust" ∨
        key = "thrust" ∧ Json.get members "horsepower" = none ∧
          (statedCount members "thrust").isSome) ∨
      (Json.get object ("performance" ++ "." ++ key)).isSome := by
  rw [preserved_inSection_iff]
  refine or_congr_left ?_
  -- the entries of the engine raise no issue of the performance
  have hsilent : ¬ Flags (measurements (sectionAt object "performance") "performance" perfCode)
      ("performance" ++ "." ++ key) := by
    intro hflags
    obtain ⟨members', -, entry, -, hother, hpath⟩ := flags_measurements hflags
    obtain rfl := (path_injective (by decide) (by decide) hpath).2
    rw [hengine] at hother
    cases hother
  refine (or_iff_left hsilent).trans ?_
  show recordOf _ _ _ _ (update object "performance" (removeFrom key)) ≠ _ ↔ _
  rw [recordOf_update_performance hmembers, measurements_remove_engine hengine]
  -- so only the count of engines can tell the difference
  have hcount : ∀ {r : PreparedAircraftRecord} {list : List MeasurementInput} {count : Option ℤ},
      r.performance = list → ({ r with performance := list, propulsion :=
        { r.propulsion with engineCount := count } } ≠ r ↔ r.propulsion.engineCount ≠ count) := by
    rintro r list count rfl
    refine not_congr ⟨fun h => ?_, ?_⟩
    · rw [← h]
    · rintro rfl
      rfl
  refine (hcount (by simp only [recordOf, hmembers])).trans ?_
  simp only [recordOf, hmembers, Option.bind_some, engineCountText, get_remove, statedCount, textAt]
  obtain rfl | rfl : key = "horsepower" ∨ key = "thrust" := by
    simpa [isEngineEntry] using hengine
  · simp [hget]
  · -- the thrust is looked at where there is no horsepower
    rcases Json.get members "horsepower" with - | horsepower
    · simp [Option.isSome_iff_ne_none]
    · simp

theorem preserved_engine_iff (hmembers : sectionAt object "engine" = some members) :
    Preserved crates manufacturer aircraft object (.inSection .engine key) ↔
      key ∈ engineKeys ∨ (Json.get object ("engine" ++ "." ++ key)).isSome := by
  by_cases hkey : key ∈ engineKeys
  · refine iff_of_true ?_ (.inl hkey)
    simp only [engineKeys, List.mem_cons, List.not_mem_nil, or_false] at hkey
    -- a member with a reader is kept or named
    rcases hkey with rfl | rfl | rfl | rfl | rfl | rfl
    · refine preserved_engine_of_reader (by decide) (List.mem_of_getElem? (i := 11) rfl) ?_
        PropulsionInput.horsepower ?_ ?_
      · rw [hmembers, onObject, hget]
        exact Answers.numeric hblank
      · rw [onObject_value]
        simp only [numeric_value]
        rfl
      · rw [recordOf_update_engine hmembers]
        simp [numericAt, textAt, get_remove]
    · refine preserved_engine_of_reader (by decide) (List.mem_of_getElem? (i := 12) rfl) ?_
        PropulsionInput.thrustNewtons ?_ ?_
      · rw [hmembers, onObject, hget]
        exact Answers.numeric hblank
      · rw [onObject_value]
        simp only [numeric_value]
        rfl
      · rw [recordOf_update_engine hmembers]
        simp [numericAt, textAt, get_remove]
    · refine preserved_engine_of_reader (by decide) (List.mem_of_getElem? (i := 14) rfl) ?_
        PropulsionInput.manufacturer ?_ ?_
      · rw [hmembers, onObject, hget]
        exact Answers.scalar hblank
      · rw [onObject_value]
        simp only [scalar_value]
        rfl
      · rw [recordOf_update_engine hmembers]
        simp [textAt, get_remove]
    · refine preserved_engine_of_reader (by decide) (List.mem_of_getElem? (i := 15) rfl) ?_
        PropulsionInput.model ?_ ?_
      · rw [hmembers, onObject, hget]
        exact Answers.scalar hblank
      · rw [onObject_value]
        simp only [scalar_value]
        rfl
      · rw [recordOf_update_engine hmembers]
        simp [textAt, get_remove]
    · refine preserved_engine_of_reader (by decide) (List.mem_of_getElem? (i := 16) rfl) ?_
        PropulsionInput.tboHours ?_ ?_
      · rw [hmembers, onObject, hget]
        exact Answers.numericInteger _ hblank
      · rw [onObject_value]
        simp only [numericInteger_value]
        rfl
      · rw [recordOf_update_engine hmembers]
        simp [integerAt, numericAt, textAt, get_remove]
    · refine preserved_engine_of_reader (by decide) (List.mem_of_getElem? (i := 17) rfl) ?_
        PropulsionInput.tboYears ?_ ?_
      · rw [hmembers, onObject, hget]
        exact Answers.numericInteger _ hblank
      · rw [onObject_value]
        simp only [numericInteger_value]
        rfl
      · rw [recordOf_update_engine hmembers]
        simp [integerAt, numericAt, textAt, get_remove]
  · rw [preserved_inSection_iff]
    refine or_congr_left (iff_of_false ?_ hkey)
    -- no reader looks at this member, so nothing is missed without it
    have hnone : ¬ ∃ reading ∈ readings crates aircraft object,
        reading.1 = "engine" ++ "." ++ key ∧ reading.2 ≠ [] := by
      rintro ⟨reading, hreading, hpath, -⟩
      have hfields : ∀ path ∈ fieldPaths, sectionOf path ≠ some "engine".toList ∨
          ∃ name ∈ engineKeys, path = "engine" ++ "." ++ name := by decide
      rcases hfields _ (mem_fieldPaths hreading) with h | ⟨name, hname, h⟩
      · rw [hpath, sectionOf_append (by decide)] at h
        exact h rfl
      · rw [hpath] at h
        obtain rfl := (path_injective (by decide) (by decide) h).2
        exact hkey hname
    refine not_or.mpr ⟨not_not.mpr ?_, hnone⟩
    simp only [engineKeys, List.mem_cons, List.not_mem_nil, or_false, not_or] at hkey
    obtain ⟨hhorsepower, hthrust, hmanufacturer, hmodel, hhours, hyears⟩ := hkey
    show recordOf _ _ _ _ (update object "engine" (removeFrom key)) = _
    rw [recordOf_update_engine hmembers]
    simp [recordOf, hmembers, integerAt, numericAt, textAt, get_remove, Ne.symm hhorsepower,
      Ne.symm hthrust, Ne.symm hmanufacturer, Ne.symm hmodel, Ne.symm hhours, Ne.symm hyears]

end

/-! ### Members of an image -/

/-- An image beside which one leads. -/
def unmarked (image : ImageMetadataInput) : ImageMetadataInput := { image with isPrimary := false }

theorem map_unmarked_markPrimary (items : List ImageMetadataInput) :
    (markPrimary items).map unmarked = items.map unmarked := by
  rcases items with - | ⟨first, rest⟩ <;> rfl

theorem imageItem_unmarked {image : Json} {position : ℕ} {item : ImageMetadataInput}
    (h : (imageItem crates image position).value = some item) : unmarked item = item := by
  rw [imageItem_value] at h
  obtain ⟨object, -, h⟩ := Option.bind_eq_some_iff.mp h
  obtain ⟨href, -, h⟩ := Option.bind_eq_some_iff.mp h
  split_ifs at h
  rw [← Option.some.inj h]
  rfl

/-- The images of a list in which one image is changed are the same exactly when what is kept
of that image is. -/
theorem imageItems_modify {images : List Json} {position : ℕ} {image : Json} {change : Json → Json}
    (himage : images[position]? = some image) :
    (imageItems crates (some (.array (images.modify position change)))).value
        = (imageItems crates (some (.array images))).value ↔
      (imageItem crates (change image) position).value = (imageItem crates image position).value := by
  have hunmarked : ∀ entries : List (Json × ℕ), ((Noted.collect
      (fun entry => imageItem crates entry.1 entry.2) entries).value).map unmarked
        = (Noted.collect (fun entry => imageItem crates entry.1 entry.2) entries).value := by
    intro entries
    refine (List.map_congr_left fun item hitem => ?_).trans (List.map_id _)
    obtain ⟨entry, -, hentry⟩ := Noted.mem_collect_value.mp hitem
    exact imageItem_unmarked hentry
  have hmodify : (Noted.collect (fun entry => imageItem crates entry.1 entry.2)
      ((images.modify position change).zipIdx)).value
        = (Noted.collect (fun entry => imageItem crates entry.1 entry.2) images.zipIdx).value ↔
      (imageItem crates (change image) (0 + position)).value
        = (imageItem crates image (0 + position)).value := Noted.collect_zipIdx_modify himage
  rw [Nat.zero_add] at hmodify
  refine Iff.trans ?_ hmodify
  constructor
  · intro heq
    have hmap := congrArg (List.map unmarked) heq
    simp only [imageItems, Json.asArray, Noted.value_bind, Noted.value_pure,
      map_unmarked_markPrimary, hunmarked] at hmap
    exact hmap
  · exact congrArg markPrimary

theorem textAt_remove (object : JsonObject) (key field : String) :
    textAt (remove object key) field = if field = key then none else textAt object field := by
  rw [textAt, get_remove]
  split_ifs
  · rfl
  · rw [textAt]

theorem preparedImage_remove_eq {image image' : JsonObject} {position : ℕ} {href : String} :
    preparedImage crates image' position href = preparedImage crates image position href ↔
      textAt image' "title" = textAt image "title" ∧ textAt image' "holder" = textAt image "holder" ∧
        textAt image' "dimensions" = textAt image "dimensions" := by
  constructor
  · intro h
    exact ⟨congrArg ImageMetadataInput.title h, congrArg ImageMetadataInput.holder h,
      congrArg ImageMetadataInput.dimensionsRaw h⟩
  · rintro ⟨htitle, hholder, hdimensions⟩
    simp only [textAt] at htitle hholder hdimensions
    simp only [preparedImage, htitle, hholder, hdimensions]

/-- What is kept of an image without one of its members. -/
theorem imageItem_remove {image : JsonObject} {position : ℕ} {value : Json}
    (hget : Json.get image key = some value) :
    (imageItem crates (.object (remove image key)) position).value
        ≠ (imageItem crates (.object image) position).value ↔
      (textAt image "href").isSome ∧ position < 2 ^ 15 ∧
        key ∈ ["href", "title", "holder", "dimensions"] ∧ (textAt image key).isSome := by
  rw [imageItem_value, imageItem_value]
  simp only [Json.asObject, Option.bind_some]
  -- without its link the image is gone
  by_cases hhref : key = "href"
  · subst hhref
    rw [textAt, get_remove, if_pos rfl]
    rcases textAt image "href" with - | href
    · simp
    · by_cases hposition : position < 2 ^ 15 <;> simp
  · have hkept : textAt (remove image key) "href" = textAt image "href" := by
      rw [textAt, get_remove, if_neg (Ne.symm hhref), textAt]
    rw [hkept]
    rcases textAt image "href" with - | href
    · simp
    · simp only [Option.bind_some, Option.isSome_some, true_and]
      by_cases hposition : position < 2 ^ 15
      · rw [if_pos hposition, if_pos hposition, Ne, Option.some.injEq, preparedImage_remove_eq]
        simp only [textAt_remove, List.mem_cons, List.not_mem_nil, or_false, hhref, false_or,
          hposition, true_and]
        -- of the other members three have a field
        by_cases htitle : key = "title"
        · subst htitle
          rcases textAt image "title" with - | text <;> simp
        · by_cases hholder : key = "holder"
          · subst hholder
            rcases textAt image "holder" with - | text <;> simp
          · by_cases hdimensions : key = "dimensions"
            · subst hdimensions
              rcases textAt image "dimensions" with - | text <;> simp
            · simp [htitle, hholder, hdimensions, Ne.symm htitle, Ne.symm hholder,
                Ne.symm hdimensions]
      · rw [if_neg hposition, if_neg hposition]
        exact iff_of_false (fun h => h rfl) fun h => hposition h.1

theorem preserved_inImage_iff {image : JsonObject} {position : ℕ} {value : Json}
    (himage : imageAt object position = some image) (hget : Json.get image key = some value) :
    Preserved crates manufacturer aircraft object (.inImage position key) ↔
      ImageMemberKept object position key ∨
        (Json.get object (imagePath position ++ "." ++ key)).isSome := by
  obtain ⟨images, himages, hitem⟩ := Option.bind_eq_some_iff.mp himage
  obtain ⟨value', hvalue, harray⟩ := Option.bind_eq_some_iff.mp himages
  obtain ⟨json, hjson, hobject⟩ := Option.bind_eq_some_iff.mp hitem
  obtain rfl := Json.asObject_eq_some.mp hobject
  obtain rfl : value' = .array images := by
    cases value' <;> simp_all [Json.asArray]
  rw [preserved_iff_changed, isSome_get_iff]
  show recordOf _ _ _ _ (update object "images" (updateItem position (removeFrom key))) ≠ _ ∨
    Flags _ (imagePath position ++ "." ++ key) ↔ _
  have hchanged : recordOf crates manufacturer aircraft .null
      (update object "images" (updateItem position (removeFrom key)))
        ≠ recordOf crates manufacturer aircraft .null object ↔
      (imageItem crates (.object (remove image key)) position).value
        ≠ (imageItem crates (.object image) position).value := by
    have hupdate : recordOf crates manufacturer aircraft .null
        (update object "images" (updateItem position (removeFrom key)))
          = { recordOf crates manufacturer aircraft .null object with
              images := (imageItems crates
                (some (.array (images.modify position (removeFrom key))))).value } := by
      simp [recordOf, textAt, numericAt, integerAt, sectionAt, proseOf, pageUrl, boolean,
        statedStart, statedClose, statedInProduction, get_update, hvalue, updateItem]
    have hself : (recordOf crates manufacturer aircraft .null object).images
        = (imageItems crates (some (.array images))).value := by
      simp only [recordOf, hvalue]
    have hmodify : (imageItems crates
        (some (.array (images.modify position (removeFrom key))))).value
          = (imageItems crates (some (.array images))).value ↔
        (imageItem crates (.object (remove image key)) position).value
          = (imageItem crates (.object image) position).value := imageItems_modify hjson
    refine not_congr (Iff.trans ?_ hmodify)
    rw [hupdate]
    constructor
    · intro h
      rw [← hself, ← h]
    · intro h
      rw [h, ← hself]
  have hflags : Flags (normalizeObject crates manufacturer aircraft (.object object) object)
      (imagePath position ++ "." ++ key) ↔
      (∃ value, (imagePath position ++ "." ++ key, value) ∈ object) ∨
        Flags (imageItem crates (.object image) position) (imagePath position ++ "." ++ key) := by
    rw [flags_inSection (point_notMem_imagePath position)
      (fun heq => ne_imagePath (by decide) position heq.symm), hvalue, flags_images_key]
    have hsection : ∀ part : Section, imagePath position ≠ part.key :=
      fun part heq => ne_images part ⟨position, heq.symm⟩
    have hengine : imagePath position ≠ "engine" := hsection .engine
    have hperformance : imagePath position ≠ "performance" := hsection .performance
    have hweights : imagePath position ≠ "weights" := hsection .weights
    have hcosts : imagePath position ≠ "ownership_costs" := hsection .ownershipCosts
    simp only [hengine, hperformance, hweights, hcosts, false_and, false_or, hjson,
      Option.some.injEq, exists_eq_left', exists_apply_eq_apply', true_and]
  rw [hchanged, imageItem_remove hget, hflags, flags_image_object, ImageMemberKept]
  simp only [himage, Option.some.injEq, exists_eq_left']
  rw [show (Json.get image "href").bind valueText = textAt image "href" from rfl]
  rcases hhref : textAt image "href" with - | href
  · simp only [Option.isSome_none, Bool.false_eq_true, false_and, false_or]
    exact or_comm
  · simp only [Option.isSome_some, true_and]
    -- an image that is kept has an issue only where it has a text
    rw [or_comm (a := ∃ value, _), ← or_assoc]
    refine or_congr_left (or_iff_left_of_imp ?_)
    rintro ⟨hposition, ⟨rfl, hraw, -⟩ | ⟨rfl, -⟩⟩
    · exact ⟨hposition, by decide, Option.isSome_iff_ne_none.mpr hraw⟩
    · exact ⟨hposition, by decide, by rw [hhref]; rfl⟩

end

/-! ### Every member -/

/-- **Nothing is silently dropped** but what `Kept` leaves out: a member that states something
is read, or named by an issue, exactly when it is kept. -/
theorem preserved_iff_kept (crates : Crates) (manufacturer aircraft : String) (object : JsonObject)
    {member : Member} {value : Json} (hmember : member.value object = some value)
    (hstated : value.isBlank = false) (hmanufacturer : member ≠ .top "manufacturer_name")
    (haircraft : member ≠ .top "aircraft_name") :
    Preserved crates manufacturer aircraft object member ↔ Kept aircraft object member := by
  cases member with
  | top key =>
      refine preserved_top_iff hstated hmember ?_ ?_
      · rintro rfl
        exact hmanufacturer rfl
      · rintro rfl
        exact haircraft rfl
  | inSection part key =>
      obtain ⟨members, hmembers, hget⟩ := Option.bind_eq_some_iff.mp hmember
      cases part with
      | engine => exact preserved_engine_iff hget hstated hmembers
      | performance =>
          rcases hengine : isEngineEntry "performance" key with - | -
          · exact iff_of_true (preserved_performance hget hstated hmembers hengine)
              (.inl (.inl hengine))
          · refine (preserved_engineEntry_iff hget hmembers hengine).trans (or_congr_left ?_)
            have hmembers : sectionAt object "performance" = some members := hmembers
            simp [SectionKept, hengine, hmembers]
      | weights => exact iff_of_true (preserved_weight hget hstated hmembers) (.inl trivial)
      | ownershipCosts => exact iff_of_true (preserved_cost hget hstated hmembers) (.inl trivial)
  | inImage position key =>
      obtain ⟨image, himage, hget⟩ := Option.bind_eq_some_iff.mp hmember
      exact preserved_inImage_iff himage hget

/-- A record whose engine states its fuel. -/
def fuelled : JsonObject := [("engine", .object [("model", .string "O-320"), ("fuel", .string "Avgas")])]

theorem preserved_iff_kept_fuelled :
    Preserved PlanePhd.fleetCrates "Cessna" "172" fuelled (.inSection .engine "model") :=
  (preserved_iff_kept PlanePhd.fleetCrates "Cessna" "172" fuelled rfl (by decide) (by decide)
    (by decide)).mpr (.inl (show "model" ∈ engineKeys by decide))

/-- The fuel is dropped, and no issue says so. -/
theorem fuel_dropped : ¬ ∀ (crates : Crates) (manufacturer aircraft : String) (object : JsonObject)
    (member : Member) (value : Json), member.value object = some value → value.isBlank = false →
      member ≠ .top "manufacturer_name" → member ≠ .top "aircraft_name" →
      Preserved crates manufacturer aircraft object member := by
  intro h
  have hpreserved := h PlanePhd.fleetCrates "Cessna" "172" fuelled (.inSection .engine "fuel") _ rfl
    (by decide) (by decide) (by decide)
  have hmembers : sectionAt fuelled "engine"
      = some [("model", .string "O-320"), ("fuel", .string "Avgas")] := rfl
  have hget : Json.get [("model", Json.string "O-320"), ("fuel", .string "Avgas")] "fuel"
      = some (.string "Avgas") := rfl
  rcases (preserved_engine_iff hget (by decide) hmembers).mp hpreserved with hkey | hname
  · exact absurd hkey (by decide)
  · exact absurd hname (by decide +kernel)

end Preservation

end AircraftApi
