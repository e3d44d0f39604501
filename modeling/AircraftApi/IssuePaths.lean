/-
AircraftApi/IssuePaths.lean

Which paths the issues of a record name.

`flags_normalizeObject` takes the issues of an object apart by the reader they come
from.  A reader of one field names that field, so the readers are a list of paths
with the notes taken there (`readings`).  The readers of a section name the section
and the key, joined by a point; what stands before the first point of a path
(`sectionOf`) says which of them it is from.

A reader that is handed a value and returns nothing says so (`Answers`): that is
what no member can be lost by.
-/
import AircraftApi.PreparedRecord

namespace AircraftApi

namespace Curation

/-- An issue of the record names the path. -/
def Named (record : PreparedAircraftRecord) (path : String) : Prop :=
  ∃ found ∈ record.issues, found.fieldPath = path

end Curation

open Curation (Named)

/-! ### Paths -/

/-- What stands before the first point of a path, and what after it. -/
def splitPath (path : String) : Option (List Char × List Char) := Text.splitOnce '.' path.toList

/-- What stands before the first point of a path. -/
def sectionOf (path : String) : Option (List Char) := (splitPath path).map Prod.fst

/-- A section has no point in its name, so its paths split there. -/
theorem splitPath_append {part key : String} (h : '.' ∉ part.toList) :
    splitPath (part ++ "." ++ key) = some (part.toList, key.toList) := by
  rw [splitPath, Text.splitOnce_eq_some_iff]
  simp [String.toList_append, h]

theorem sectionOf_append {part key : String} (h : '.' ∉ part.toList) :
    sectionOf (part ++ "." ++ key) = some part.toList := by
  rw [sectionOf, splitPath_append h, Option.map_some]

/-- A path of a section is made of one key only. -/
theorem path_injective {part part' key key' : String} (h : '.' ∉ part.toList)
    (h' : '.' ∉ part'.toList) (heq : part ++ "." ++ key = part' ++ "." ++ key') :
    part = part' ∧ key = key' := by
  have hsplit : some (part.toList, key.toList) = some (part'.toList, key'.toList) :=
    (splitPath_append h).symm.trans ((congrArg splitPath heq).trans (splitPath_append h'))
  obtain ⟨hpart, hkey⟩ := Prod.mk.inj (Option.some.inj hsplit)
  exact ⟨String.toList_injective hpart, String.toList_injective hkey⟩

theorem imagePath_toList (position : ℕ) :
    (imagePath position).toList = "images[".toList ++ Nat.toDigits 10 position ++ [']'] := by
  show ("images[" ++ toString position ++ "]").toList = _
  rw [Nat.toString_eq_ofList_toDigits]
  simp [String.toList_append]

theorem imagePath_injective {i j : ℕ} (h : imagePath i = imagePath j) : i = j := by
  have hlist := congrArg String.toList h
  rw [imagePath_toList, imagePath_toList, List.append_assoc, List.append_assoc] at hlist
  have hdigits := List.append_cancel_right (List.append_cancel_left hlist)
  rw [← Nat.ofDigitChars_ten_toDigits (n := i), hdigits, Nat.ofDigitChars_ten_toDigits]

theorem point_notMem_imagePath (position : ℕ) : '.' ∉ (imagePath position).toList := by
  rw [imagePath_toList]
  intro h
  rcases List.mem_append.mp h with h | h
  · rcases List.mem_append.mp h with h | h
    · exact absurd h (by decide)
    · exact absurd (Nat.isDigit_of_mem_toDigits (by decide) (by decide) h) (by decide)
  · exact absurd h (by decide)

/-! ### Flags -/

/-- Some issue pushed names the path. -/
abbrev Flags {α : Type} (checked : Checked α) (path : String) : Prop :=
  Noted.Any (fun found => found.fieldPath = path) checked

theorem path_of_reads (paths : String → Prop) {α : Type} {checked : Checked α} {path : String}
    (hreads : Reads paths checked) (h : Flags checked path) : paths path := by
  obtain ⟨found, hfound, rfl⟩ := h
  exact (hreads found hfound).fieldPath

@[simp] theorem flags_orFault {α : Type} {value : Option α} {found : IngestIssue} {path : String} :
    Flags (orFault value found) path ↔ value = none ∧ found.fieldPath = path := by
  rcases value with - | a <;> simp [orFault]

theorem flags_fault {α : Type} {found : IngestIssue} {path : String} :
    Flags (Noted.fault found : Checked (Option α)) path ↔ found.fieldPath = path :=
  Noted.Any.fault_iff

@[simp] theorem warning_fieldPath (code path message : String) (raw : Option Json) :
    (warning code path message raw).fieldPath = path := rfl

section

variable (crates : Crates) (manufacturer aircraft : String) (raw : Json) (object : JsonObject)

/-- The readers of one field each: the path its issues name, and the issues. -/
def readings : List (String × List IngestIssue) :=
  [("description", (scalar (Json.get object "description") "description").notes),
    ("$.<aircraft>", (productionRange aircraft).notes),
    ("in_production", (boolean object "in_production").notes),
    ("start_year", (integer Text.parseI16 object "start_year").notes),
    ("end_year", (integer Text.parseI16 object "end_year").notes),
    ("performance", (nested object "performance").notes),
    ("weights", (nested object "weights").notes),
    ("engine", (nested object "engine").notes),
    ("ownership_costs", (nested object "ownership_costs").notes),
    ("source_link", (scalar (Json.get object "source_link") "source_link").notes),
    ("page_url", (pageUrl crates object).notes),
    ("engine.horsepower", (onObject (sectionAt object "engine") fun value =>
      numeric (Json.get value "horsepower") "engine.horsepower").notes),
    ("engine.thrust", (onObject (sectionAt object "engine") fun value =>
      numeric (Json.get value "thrust") "engine.thrust").notes),
    ("title", (scalar (Json.get object "title") "title").notes),
    ("engine.manufacturer", (onObject (sectionAt object "engine") fun value =>
      scalar (Json.get value "manufacturer") "engine.manufacturer").notes),
    ("engine.model", (onObject (sectionAt object "engine") fun value =>
      scalar (Json.get value "model") "engine.model").notes),
    ("engine.overhaul_ht", (onObject (sectionAt object "engine") fun value =>
      numericInteger Text.parseI32 (Json.get value "overhaul_ht") "engine.overhaul_ht").notes),
    ("engine.years_before_overhaul", (onObject (sectionAt object "engine") fun value =>
      numericInteger Text.parseI32 (Json.get value "years_before_overhaul")
        "engine.years_before_overhaul").notes),
    ("papi_price_estimate",
      (numeric (Json.get object "papi_price_estimate") "papi_price_estimate").notes),
    ("for_sale_count",
      (numericInteger Text.parseI32 (Json.get object "for_sale_count") "for_sale_count").notes)]

variable {crates manufacturer aircraft raw object}

/-- The readers name their paths. -/
theorem readings_path : ∀ reading ∈ readings crates aircraft object,
    ∀ found ∈ reading.2, found.fieldPath = reading.1 := by
  have hone : ∀ {α : Type} {path : String} {checked : Checked α}, Reads (· = path) checked →
      ∀ found ∈ checked.notes, found.fieldPath = path :=
    fun hreads found hfound => (hreads found hfound).fieldPath
  have hwarns : Warns (· = "$.<aircraft>") (productionRange aircraft) :=
    warns_productionRange aircraft rfl
  have hrange : ∀ found ∈ (productionRange aircraft).notes, found.fieldPath = "$.<aircraft>" :=
    fun found hfound => (hwarns found hfound).fieldPath
  unfold readings
  simp only [List.forall_mem_cons]
  refine ⟨hone (Reads.scalar _ rfl), hrange,
    hone (Reads.boolean _ rfl), hone (Reads.integer _ _ rfl), hone (Reads.integer _ _ rfl),
    hone (Reads.nested _ rfl), hone (Reads.nested _ rfl), hone (Reads.nested _ rfl),
    hone (Reads.nested _ rfl), hone (Reads.scalar _ rfl), hone (Reads.pageUrl _ _ rfl),
    hone (Reads.onObject fun _ => Reads.numeric _ rfl),
    hone (Reads.onObject fun _ => Reads.numeric _ rfl), hone (Reads.scalar _ rfl),
    hone (Reads.onObject fun _ => Reads.scalar _ rfl),
    hone (Reads.onObject fun _ => Reads.scalar _ rfl),
    hone (Reads.onObject fun _ => Reads.numericInteger _ _ rfl),
    hone (Reads.onObject fun _ => Reads.numericInteger _ _ rfl), hone (Reads.numeric _ rfl),
    hone (Reads.numericInteger _ _ rfl), ?_⟩
  intro reading h
  cases h

theorem mem_notes_normalizeObject {found : IngestIssue} :
    found ∈ (normalizeObject crates manufacturer aircraft raw object).notes ↔
      (∃ reading ∈ readings crates aircraft object, found ∈ reading.2) ∨
      found ∈ (checkName manufacturer "MANUFACTURER_NAME_EMPTY" "$.<manufacturer>"
        "manufacturer key must not be empty").notes ∨
      found ∈ (checkName aircraft "AIRCRAFT_NAME_EMPTY" "$.<manufacturer>.<aircraft>"
        "aircraft key must not be empty").notes ∨
      found ∈ (checkFields object).notes ∨
      found ∈ (checkYears (statedStart aircraft object) (statedClose aircraft object)).notes ∨
      found ∈ (measurements (sectionAt object "performance") "performance" perfCode).notes ∨
      found ∈ (measurements (sectionAt object "weights") "weights" weightCode).notes ∨
      found ∈ (costItems (sectionAt object "ownership_costs")).notes ∨
      found ∈ (imageItems crates (Json.get object "images")).notes := by
  simp only [normalizeObject, Noted.notes_bind, Noted.notes_pure, List.mem_append, nested_value,
    integer_value, readings, List.exists_mem_cons_iff, List.not_mem_nil, false_and, exists_false,
    or_false, statedStart, statedClose, namedRange]
  -- the readers come in another order here than in the source
  grind

/-- An issue on a path comes from the reader of that path, or from a reader of more than
one. -/
theorem flags_normalizeObject {path : String} :
    Flags (normalizeObject crates manufacturer aircraft raw object) path ↔
      (∃ reading ∈ readings crates aircraft object, reading.1 = path ∧ reading.2 ≠ []) ∨
      Flags (checkName manufacturer "MANUFACTURER_NAME_EMPTY" "$.<manufacturer>"
        "manufacturer key must not be empty") path ∨
      Flags (checkName aircraft "AIRCRAFT_NAME_EMPTY" "$.<manufacturer>.<aircraft>"
        "aircraft key must not be empty") path ∨
      Flags (checkFields object) path ∨
      Flags (checkYears (statedStart aircraft object) (statedClose aircraft object)) path ∨
      Flags (measurements (sectionAt object "performance") "performance" perfCode) path ∨
      Flags (measurements (sectionAt object "weights") "weights" weightCode) path ∨
      Flags (costItems (sectionAt object "ownership_costs")) path ∨
      Flags (imageItems crates (Json.get object "images")) path := by
  have hreadings : (∃ reading ∈ readings crates aircraft object,
      reading.1 = path ∧ reading.2 ≠ []) ↔
      ∃ found, (∃ reading ∈ readings crates aircraft object, found ∈ reading.2) ∧
        found.fieldPath = path := by
    constructor
    · rintro ⟨reading, hreading, rfl, hne⟩
      obtain ⟨found, hfound⟩ := List.exists_mem_of_ne_nil _ hne
      exact ⟨found, ⟨reading, hreading, hfound⟩, readings_path reading hreading found hfound⟩
    · rintro ⟨found, ⟨reading, hreading, hfound⟩, rfl⟩
      exact ⟨reading, hreading, (readings_path reading hreading found hfound).symm,
        List.ne_nil_of_mem hfound⟩
  rw [hreadings]
  simp only [Flags, Noted.Any, mem_notes_normalizeObject, or_and_right, exists_or]

@[simp] theorem flags_checkName {name code p message path : String} :
    Flags (checkName name code p message) path ↔
      (Text.trim name.toList).isEmpty = true ∧ p = path :=
  Noted.Any.noteIf_iff

/-- The keys nobody reads are named. -/
@[simp] theorem flags_checkFields {path : String} :
    Flags (checkFields object) path ↔ path ∉ knownFields ∧ ∃ value, (path, value) ∈ object := by
  simp only [checkFields, Noted.Any.bind_iff, Noted.Any.collect_iff, Noted.Any.noteIf_iff,
    Noted.Any.pure_iff, or_false, warning_fieldPath]
  constructor
  · rintro ⟨⟨key, value⟩, hentry, hunknown, rfl⟩
    exact ⟨by simpa using hunknown, value, hentry⟩
  · rintro ⟨hunknown, value, hentry⟩
    exact ⟨(path, value), hentry, by simpa using hunknown, rfl⟩

theorem flags_checkYears {start close : Option ℤ} {path : String}
    (h : Flags (checkYears start close) path) : path = "production_years" := by
  unfold checkYears at h
  split at h
  · exact (Noted.Any.pure_iff.mp h).elim
  · exact (Noted.Any.note_iff.mp h).symm

/-- Only an entry that is kept as a measurement, or is no scalar, is named. -/
theorem flags_measurements {part : String} {mapping : String → Option String}
    {members : Option JsonObject} {path : String} (h : Flags (measurements members part mapping) path) :
    ∃ object ∈ members, ∃ entry ∈ object, isEngineEntry part entry.1 = false ∧
      path = part ++ "." ++ entry.1 := by
  rcases members with - | object
  · exact (Noted.Any.pure_iff.mp h).elim
  · obtain ⟨entry, hentry, hflags⟩ := Noted.Any.collect_iff.mp h
    refine ⟨object, rfl, entry, hentry, ?_,
      path_of_reads (· = part ++ "." ++ entry.1) (Reads.measurement _ _ rfl) hflags⟩
    rw [Bool.eq_false_iff]
    intro hengine
    unfold measurement at hflags
    rw [if_pos hengine] at hflags
    exact Noted.Any.pure_iff.mp hflags

/-- A measurement that has its metric, its number and its unit. -/
structure Complete (m : MeasurementInput) : Prop where
  metric : m.metricCode.isSome
  number : m.numericValue.isSome
  unit : m.unitCode.isSome

theorem complete_iff {mapping : String → Option String} {field raw : String} :
    Complete (preparedMeasurement mapping field raw) ↔
      mapping field ≠ none ∧ (parseNumeric raw).any (fun text => !isNegative text) = true ∧
        (parseUnit raw).bind unitCode ≠ none ∧
        isMisfit (mapping field) ((parseUnit raw).bind unitCode) = false := by
  have hparts : Complete (preparedMeasurement mapping field raw) ↔
      (mapping field).isSome = true ∧
        ((parseNumeric raw).filter fun text => !isNegative text).isSome = true ∧
        (if isMisfit (mapping field) ((parseUnit raw).bind unitCode) then none
          else (parseUnit raw).bind unitCode).isSome = true :=
    ⟨fun h => ⟨h.metric, h.number, h.unit⟩, fun h => ⟨h.1, h.2.1, h.2.2⟩⟩
  rw [hparts, Option.isSome_filter, Option.isSome_iff_ne_none]
  rcases isMisfit (mapping field) ((parseUnit raw).bind unitCode) with - | -
  · simp [Option.isSome_iff_ne_none]
  · simp

/-- What is withheld from a measurement is named. -/
theorem flags_measurement {part : String} {mapping : String → Option String} {field raw : String}
    {value : Json} (hengine : isEngineEntry part field = false) (hraw : valueText value = some raw) :
    Flags (measurement part mapping field value) (part ++ "." ++ field) ↔
      ¬ Complete (preparedMeasurement mapping field raw) := by
  have hpath : toString part ++ toString "." ++ toString field = part ++ "." ++ field := rfl
  have hscalar : ¬ Flags (scalar (some value) s!"{part}.{field}") (part ++ "." ++ field) := by
    cases value <;> first | exact fun h => Noted.Any.pure_iff.mp h | cases hraw
  unfold measurement
  rw [if_neg (by rw [hengine]; exact Bool.false_ne_true), Flags, Noted.Any.bind_iff, scalar_value,
    Option.bind_some, hraw, or_iff_right hscalar, complete_iff]
  simp only [Noted.Any.bind_iff, Noted.Any.noteIf_iff, warning_fieldPath, hpath, and_true,
    Noted.Any.pure_iff, or_false]
  -- each way to be incomplete has a warning of its own
  rcases mapping field with - | metric
  · simp
  · rcases parseNumeric raw with - | text
    · simp
    · rcases parseUnit raw with - | rawUnit
      · simp
      · rw [Option.bind_some]
        generalize isMisfit (some metric) (unitCode rawUnit) = misfit
        simp only [Option.any_some]
        generalize isNegative text = negative
        rcases negative with - | - <;> rcases misfit with - | - <;> simp

theorem costPath_eq (key : String) :
    s!"ownership_costs.{key}" = "ownership_costs" ++ "." ++ key := by
  show "ownership_costs." ++ key = _
  rw [show "ownership_costs." = "ownership_costs" ++ "." from rfl]

theorem flags_costItems {members : Option JsonObject} {path : String}
    (h : Flags (costItems members) path) :
    ∃ object ∈ members, ∃ entry ∈ object, path = "ownership_costs" ++ "." ++ entry.1 := by
  rcases members with - | object
  · exact (Noted.Any.pure_iff.mp h).elim
  · obtain ⟨entry, hentry, hflags⟩ := Noted.Any.collect_iff.mp h
    exact ⟨object, rfl, entry, hentry,
      path_of_reads (· = "ownership_costs" ++ "." ++ entry.1)
        (Reads.costItem _ (costPath_eq entry.1)) hflags⟩

/-! ### Images -/

theorem imageField_eq (position : ℕ) {field key : String} (h : field = "." ++ key) :
    imagePath position ++ field = imagePath position ++ "." ++ key := by
  rw [h, String.append_assoc]

/-- The issues of an image are on its own paths. -/
theorem flags_imageItem {image : Json} {position : ℕ} {path : String}
    (h : Flags (imageItem crates image position) path) :
    path = imagePath position ∨ path = imagePath position ++ "." ++ "href" ∨
      path = imagePath position ++ "." ++ "dimensions" := by
  refine path_of_reads (fun path => path = imagePath position ∨
    path = imagePath position ++ "." ++ "href" ∨ path = imagePath position ++ "." ++ "dimensions")
    (Reads.imageItem crates image (.inl rfl) (.inr (.inl ?_)) (.inr (.inr ?_))) h
  · exact imageField_eq position (rfl)
  · exact imageField_eq position (rfl)

theorem path_of_imageItems {value : Option Json} {path : String}
    (h : Flags (imageItems crates value) path) :
    path = "images" ∨ ∃ position, path = imagePath position ∨
      ∃ name, path = imagePath position ++ "." ++ name := by
  refine path_of_reads (fun path => path = "images" ∨ ∃ position, path = imagePath position ∨
    ∃ name, path = imagePath position ++ "." ++ name)
    (Reads.imageItems crates value (.inl rfl) fun position => ⟨.inr ⟨position, .inl rfl⟩,
      .inr ⟨position, .inr ⟨"href", ?_⟩⟩, .inr ⟨position, .inr ⟨"dimensions", ?_⟩⟩⟩) h
  · exact imageField_eq position (rfl)
  · exact imageField_eq position (rfl)

/-- A path into an image is named by the issues of that image. -/
theorem flags_images_key {images : List Json} {position : ℕ} {key : String} :
    Flags (imageItems crates (some (.array images))) (imagePath position ++ "." ++ key) ↔
      ∃ image, images[position]? = some image ∧
        Flags (imageItem crates image position) (imagePath position ++ "." ++ key) := by
  have hitems : Flags (imageItems crates (some (.array images)))
      (imagePath position ++ "." ++ key) ↔
      ∃ entry ∈ images.zipIdx, Flags (imageItem crates entry.1 entry.2)
        (imagePath position ++ "." ++ key) := by
    simp only [imageItems, Json.asArray, Flags, Noted.Any.bind_iff, Noted.Any.collect_iff,
      Noted.Any.pure_iff, or_false]
  rw [hitems]
  constructor
  · rintro ⟨⟨image, other⟩, hentry, hflags⟩
    have hself : other = position := by
      have hpoint := point_notMem_imagePath
      rcases flags_imageItem hflags with heq | heq | heq
      · have hmem : '.' ∈ (imagePath other).toList := by
          rw [← heq]
          simp [String.toList_append]
        exact absurd hmem (hpoint other)
      · exact (imagePath_injective (path_injective (hpoint _) (hpoint _) heq).1).symm
      · exact (imagePath_injective (path_injective (hpoint _) (hpoint _) heq).1).symm
    subst hself
    exact ⟨image, List.mk_mem_zipIdx_iff_getElem?.mp hentry, hflags⟩
  · rintro ⟨image, himage, hflags⟩
    exact ⟨(image, position), List.mk_mem_zipIdx_iff_getElem?.mpr himage, hflags⟩

theorem imageField_eq_iff {position : ℕ} {field name key : String} (h : field = "." ++ name) :
    imagePath position ++ field = imagePath position ++ "." ++ key ↔ key = name := by
  rw [imageField_eq position h]
  constructor
  · intro heq
    exact (path_injective (point_notMem_imagePath _) (point_notMem_imagePath _) heq).2.symm
  · rintro rfl
    rfl

/-- What is named of an image that is an object. -/
theorem flags_image_object {object : JsonObject} {position : ℕ} {key : String} :
    Flags (imageItem crates (.object object) position) (imagePath position ++ "." ++ key) ↔
      match (Json.get object "href").bind valueText with
      | none => key = "href"
      | some href => position < 2 ^ 15 ∧
          (key = "dimensions" ∧ (preparedImage crates object position href).dimensionsRaw ≠ none ∧
              (preparedImage crates object position href).widthPx = none ∨
            key = "href" ∧ resolvedUrl crates href = none) := by
  have hhref : imagePath position ++ ".href" = imagePath position ++ "." ++ key ↔ key = "href" :=
    imageField_eq_iff (rfl)
  have hdimensions : imagePath position ++ ".dimensions" = imagePath position ++ "." ++ key ↔
      key = "dimensions" := imageField_eq_iff (rfl)
  unfold imageItem
  dsimp only [Json.asObject]
  rcases (Json.get object "href").bind valueText with - | href
  · -- without a link the image is left at once
    exact flags_fault.trans hhref
  · dsimp only
    by_cases hposition : position < 2 ^ 15
    · rw [if_pos hposition]
      simp only [Flags, Noted.Any.bind_iff, Noted.Any.noteIf_iff, Noted.Any.pure_iff, or_false,
        warning_fieldPath, hposition, true_and]
      refine or_congr ?_ ?_
      · rw [Bool.and_eq_true, Option.isSome_iff_ne_none, Option.isNone_iff_eq_none, and_comm]
        exact and_congr_left' hdimensions
      · refine flags_orFault.trans ?_
        rw [and_comm]
        exact and_congr_left' hhref
    · rw [if_neg hposition]
      simp only [hposition, false_and, iff_false]
      intro hflags
      -- the image beyond the column is named itself, and its path holds no point
      have hself : imagePath position = imagePath position ++ "." ++ key :=
        flags_fault.mp hflags
      have hpoint : '.' ∈ (imagePath position).toList := by
        rw [hself]
        simp [String.toList_append]
      exact point_notMem_imagePath position hpoint

/-! ### Paths of a section -/

/-- The paths of the readers of single fields. -/
def fieldPaths : List String := readerPaths ++ ["for_sale_count"]

theorem mem_fieldPaths {reading : String × List IngestIssue}
    (h : reading ∈ readings crates aircraft object) : reading.1 ∈ fieldPaths :=
  List.mem_map_of_mem (f := Prod.fst) h

theorem named_iff_flags {path : String} :
    Named (normalizeRecord crates manufacturer aircraft (.object object)) path ↔
      Flags (normalizeObject crates manufacturer aircraft (.object object) object) path := by
  rw [normalizeRecord_object]
  rfl

theorem ne_imagePath {part : String} (h : part.toList.head? ≠ some 'i') (position : ℕ) :
    part ≠ imagePath position := by
  rintro rfl
  rw [imagePath_toList] at h
  exact h rfl

/-- A path of a section is no field of its own. -/
theorem notMem_knownFields {part key : String} (hpart : '.' ∉ part.toList) :
    part ++ "." ++ key ∉ knownFields := by
  intro hin
  have hknown : ∀ field ∈ knownFields, sectionOf field = none := by decide
  have hnone := hknown _ hin
  rw [sectionOf_append hpart] at hnone
  cases hnone

/-- An issue on a path of a section comes from the readers of that section, or from a
member of the record of that name. -/
theorem mem_notes_inSection {part key : String} {found : IngestIssue} (hpart : '.' ∉ part.toList)
    (hname : part ≠ "$") (hpath : found.fieldPath = part ++ "." ++ key) :
    found ∈ (normalizeObject crates manufacturer aircraft raw object).notes ↔
      found ∈ (checkFields object).notes ∨
      (part = "engine" ∧ ∃ reading ∈ readings crates aircraft object, found ∈ reading.2) ∨
      (part = "performance" ∧
        found ∈ (measurements (sectionAt object "performance") "performance" perfCode).notes) ∨
      (part = "weights" ∧
        found ∈ (measurements (sectionAt object "weights") "weights" weightCode).notes) ∨
      (part = "ownership_costs" ∧ found ∈ (costItems (sectionAt object "ownership_costs")).notes) ∨
      ((∃ position, part = imagePath position) ∧
        found ∈ (imageItems crates (Json.get object "images")).notes) := by
  have hsection : sectionOf found.fieldPath = some part.toList := by
    rw [hpath]
    exact sectionOf_append hpart
  have hself : ∀ {part' key' : String}, '.' ∉ part'.toList →
      found.fieldPath = part' ++ "." ++ key' → part = part' :=
    fun hpart' heq => (path_injective hpart hpart' (hpath.symm.trans heq)).1
  -- the paths of the names begin with a dollar sign
  have hdollar : sectionOf found.fieldPath ≠ some "$".toList := by
    rw [hsection]
    intro h
    exact hname (String.toList_injective (Option.some.inj h))
  have hflags : ∀ {α : Type} {checked : Checked α}, found ∈ checked.notes →
      Flags checked found.fieldPath := fun hfound => ⟨found, hfound, rfl⟩
  rw [mem_notes_normalizeObject]
  constructor
  · rintro (⟨reading, hreading, hfound⟩ | hfound | hfound | htop | hyears | hperf | hweights |
      hcosts | himages)
    · refine .inr (.inl ⟨?_, reading, hreading, hfound⟩)
      -- of the readers only those of the engine are in a section
      have hfields : ∀ path ∈ fieldPaths, sectionOf path = none ∨
          sectionOf path = some "$".toList ∨ sectionOf path = some "engine".toList := by decide
      have hreader := hfields _ (mem_fieldPaths hreading)
      rw [← readings_path reading hreading found hfound] at hreader
      rcases hreader with h | h | h
      · rw [hsection] at h
        cases h
      · exact absurd h hdollar
      · rw [hsection] at h
        exact String.toList_injective (Option.some.inj h)
    · have hkey : sectionOf "$.<manufacturer>" = some "$".toList := by decide
      rw [(flags_checkName.mp (hflags hfound)).2] at hkey
      exact absurd hkey hdollar
    · have hkey : sectionOf "$.<manufacturer>.<aircraft>" = some "$".toList := by decide
      rw [(flags_checkName.mp (hflags hfound)).2] at hkey
      exact absurd hkey hdollar
    · exact .inl htop
    · have hyear : sectionOf "production_years" = none := by decide
      rw [flags_checkYears (hflags hyears), hyear] at hsection
      cases hsection
    · obtain ⟨members, -, entry, -, -, heq⟩ := flags_measurements (hflags hperf)
      exact .inr (.inr (.inl ⟨hself (by decide) heq, hperf⟩))
    · obtain ⟨members, -, entry, -, -, heq⟩ := flags_measurements (hflags hweights)
      exact .inr (.inr (.inr (.inl ⟨hself (by decide) heq, hweights⟩)))
    · obtain ⟨members, -, entry, -, heq⟩ := flags_costItems (hflags hcosts)
      exact .inr (.inr (.inr (.inr (.inl ⟨hself (by decide) heq, hcosts⟩))))
    · refine .inr (.inr (.inr (.inr (.inr ⟨?_, himages⟩))))
      rcases path_of_imageItems (hflags himages) with heq | ⟨position, heq | ⟨name, heq⟩⟩
      · have himage : sectionOf "images" = none := by decide
        rw [heq, himage] at hsection
        cases hsection
      · -- the path of an image holds no point, so it is in no section
        have hpoint : '.' ∈ (imagePath position).toList := by
          rw [← heq, hpath]
          simp [String.toList_append]
        exact absurd hpoint (point_notMem_imagePath position)
      · exact ⟨position, hself (point_notMem_imagePath position) heq⟩
  · rintro (htop | ⟨-, hreading⟩ | ⟨-, hperf⟩ | ⟨-, hweights⟩ | ⟨-, hcosts⟩ | ⟨-, himages⟩)
    · exact .inr (.inr (.inr (.inl htop)))
    · exact .inl hreading
    · exact .inr (.inr (.inr (.inr (.inr (.inl hperf)))))
    · exact .inr (.inr (.inr (.inr (.inr (.inr (.inl hweights))))))
    · exact .inr (.inr (.inr (.inr (.inr (.inr (.inr (.inl hcosts)))))))
    · exact .inr (.inr (.inr (.inr (.inr (.inr (.inr (.inr himages)))))))

/-- A path of a section is named by the readers of that section, or because the record has
a member of that name. -/
theorem flags_inSection {part key : String} (hpart : '.' ∉ part.toList) (hname : part ≠ "$") :
    Flags (normalizeObject crates manufacturer aircraft raw object) (part ++ "." ++ key) ↔
      (∃ value, (part ++ "." ++ key, value) ∈ object) ∨
      (part = "engine" ∧ ∃ reading ∈ readings crates aircraft object,
        reading.1 = part ++ "." ++ key ∧ reading.2 ≠ []) ∨
      (part = "performance" ∧ Flags (measurements (sectionAt object "performance") "performance"
        perfCode) (part ++ "." ++ key)) ∨
      (part = "weights" ∧ Flags (measurements (sectionAt object "weights") "weights" weightCode)
        (part ++ "." ++ key)) ∨
      (part = "ownership_costs" ∧ Flags (costItems (sectionAt object "ownership_costs"))
        (part ++ "." ++ key)) ∨
      ((∃ position, part = imagePath position) ∧
        Flags (imageItems crates (Json.get object "images")) (part ++ "." ++ key)) := by
  constructor
  · rintro ⟨found, hfound, hpath⟩
    rcases (mem_notes_inSection hpart hname hpath).mp hfound with h | ⟨hengine, reading, hreading, h⟩ |
      ⟨hself, h⟩ | ⟨hself, h⟩ | ⟨hself, h⟩ | ⟨hself, h⟩
    · exact .inl (flags_checkFields.mp ⟨found, h, hpath⟩).2
    · exact .inr (.inl ⟨hengine, reading, hreading,
        (readings_path reading hreading found h).symm.trans hpath, List.ne_nil_of_mem h⟩)
    · exact .inr (.inr (.inl ⟨hself, found, h, hpath⟩))
    · exact .inr (.inr (.inr (.inl ⟨hself, found, h, hpath⟩)))
    · exact .inr (.inr (.inr (.inr (.inl ⟨hself, found, h, hpath⟩))))
    · exact .inr (.inr (.inr (.inr (.inr ⟨hself, found, h, hpath⟩))))
  · have hmem : ∀ {found : IngestIssue}, found.fieldPath = part ++ "." ++ key → _ →
        Flags (normalizeObject crates manufacturer aircraft raw object) (part ++ "." ++ key) :=
      fun hpath h => ⟨_, (mem_notes_inSection hpart hname hpath).mpr h, hpath⟩
    rintro (htop | ⟨hengine, reading, hreading, hpath, hne⟩ | ⟨hself, found, h, hpath⟩ |
      ⟨hself, found, h, hpath⟩ | ⟨hself, found, h, hpath⟩ | ⟨hself, found, h, hpath⟩)
    · obtain ⟨found, h, hpath⟩ := flags_checkFields.mpr ⟨notMem_knownFields hpart, htop⟩
      exact hmem hpath (.inl h)
    · obtain ⟨found, h⟩ := List.exists_mem_of_ne_nil _ hne
      exact hmem ((readings_path reading hreading found h).trans hpath)
        (.inr (.inl ⟨hengine, reading, hreading, h⟩))
    · exact hmem hpath (.inr (.inr (.inl ⟨hself, h⟩)))
    · exact hmem hpath (.inr (.inr (.inr (.inl ⟨hself, h⟩))))
    · exact hmem hpath (.inr (.inr (.inr (.inr (.inl ⟨hself, h⟩)))))
    · exact hmem hpath (.inr (.inr (.inr (.inr (.inr ⟨hself, h⟩)))))

/-! ### Paths at the top -/

/-- The members at the top with a reader of their own. -/
def readFields : List String :=
  ["description", "in_production", "start_year", "end_year", "performance", "weights", "engine",
    "ownership_costs", "source_link", "page_url", "title", "papi_price_estimate", "for_sale_count"]

/-- One reader names one path. -/
theorem readings_unique {path : String} {notes notes' : List IngestIssue}
    (h : (path, notes) ∈ readings crates aircraft object)
    (h' : (path, notes') ∈ readings crates aircraft object) : notes = notes' := by
  have hnodup : ((readings crates aircraft object).map Prod.fst).Nodup :=
    show fieldPaths.Nodup by decide
  exact (Prod.mk.inj (List.inj_on_of_nodup_map hnodup h h' rfl)).2

/-- The path of a member at the top is named by its reader and by no other. -/
theorem flags_field {path : String} (hpath : path ∈ readFields) {notes : List IngestIssue}
    (hreading : (path, notes) ∈ readings crates aircraft object) :
    Flags (normalizeObject crates manufacturer aircraft raw object) path ↔ notes ≠ [] := by
  -- a field is read under a known key, in no section, and is no image
  have hfields : ∀ field ∈ readFields, field ∈ knownFields ∧ sectionOf field = none ∧
      field ≠ "production_years" ∧ field ≠ "images" ∧ field ≠ "$.<manufacturer>" ∧
      field ≠ "$.<manufacturer>.<aircraft>" ∧ field.toList.getLast? ≠ some ']' := by decide
  obtain ⟨hknown, hnone, hyears, himages, hmanufacturer, haircraft, hlast⟩ := hfields path hpath
  -- so no path of a section is its own
  have hnot : ∀ {part key : String}, '.' ∉ part.toList → path ≠ part ++ "." ++ key := by
    rintro part key hpart rfl
    rw [sectionOf_append hpart] at hnone
    cases hnone
  rw [flags_normalizeObject]
  constructor
  · rintro (⟨⟨path', notes'⟩, hreading', rfl, hne⟩ | h | h | h | h | h | h | h | h)
    · rwa [readings_unique hreading hreading']
    · exact absurd (flags_checkName.mp h).2.symm hmanufacturer
    · exact absurd (flags_checkName.mp h).2.symm haircraft
    · exact absurd hknown (flags_checkFields.mp h).1
    · exact absurd (flags_checkYears h) hyears
    · obtain ⟨members, -, entry, -, -, heq⟩ := flags_measurements h
      exact absurd heq (hnot (by decide))
    · obtain ⟨members, -, entry, -, -, heq⟩ := flags_measurements h
      exact absurd heq (hnot (by decide))
    · obtain ⟨members, -, entry, -, heq⟩ := flags_costItems h
      exact absurd heq (hnot (by decide))
    · rcases path_of_imageItems h with heq | ⟨position, heq | ⟨name, heq⟩⟩
      · exact absurd heq himages
      · rw [heq, imagePath_toList, List.getLast?_append] at hlast
        exact absurd rfl hlast
      · exact absurd heq (hnot (point_notMem_imagePath position))
  · intro hne
    exact .inl ⟨(path, notes), hreading, rfl, hne⟩

/-- The images are named as a whole when they are no list. -/
theorem flags_images {value : Json} (hget : Json.get object "images" = some value) :
    Flags (normalizeObject crates manufacturer aircraft raw object) "images" ↔
      value.asArray = none := by
  have hnot : ∀ {part key : String}, '.' ∉ part.toList → "images" ≠ part ++ "." ++ key := by
    intro part key hpart heq
    have hnone : sectionOf "images" = none := by decide
    rw [heq, sectionOf_append hpart] at hnone
    cases hnone
  -- the list is named itself only where it is none
  have hitems : Flags (imageItems crates (some value)) "images" ↔ value.asArray = none := by
    unfold imageItems
    dsimp only
    rcases value.asArray with - | images
    · simp
    · simp only [Flags, Noted.Any.bind_iff, Noted.Any.collect_iff, Noted.Any.pure_iff, or_false,
        reduceCtorEq, iff_false]
      rintro ⟨⟨image, position⟩, -, hflags⟩
      rcases flags_imageItem hflags with heq | heq | heq
      · -- the path of an image ends with a bracket
        have hlast := congrArg (fun path : String => path.toList.getLast?) heq
        dsimp only at hlast
        rw [imagePath_toList, List.getLast?_append, List.getLast?_singleton, Option.some_or] at hlast
        exact absurd hlast (by decide)
      · exact hnot (point_notMem_imagePath position) heq
      · exact hnot (point_notMem_imagePath position) heq
  rw [flags_normalizeObject, hget, hitems]
  constructor
  · rintro (⟨reading, hreading, hpath, -⟩ | h | h | h | h | h | h | h | h)
    · have hfields : "images" ∉ fieldPaths := by decide
      rw [← hpath] at hfields
      exact absurd (mem_fieldPaths hreading) hfields
    · exact absurd (flags_checkName.mp h).2 (by decide)
    · exact absurd (flags_checkName.mp h).2 (by decide)
    · exact absurd (by decide) (flags_checkFields.mp h).1
    · exact absurd (flags_checkYears h) (by decide)
    · obtain ⟨members, -, entry, -, -, heq⟩ := flags_measurements h
      exact absurd heq (hnot (by decide))
    · obtain ⟨members, -, entry, -, -, heq⟩ := flags_measurements h
      exact absurd heq (hnot (by decide))
    · obtain ⟨members, -, entry, -, heq⟩ := flags_costItems h
      exact absurd heq (hnot (by decide))
    · exact h
  · intro h
    exact .inr (.inr (.inr (.inr (.inr (.inr (.inr (.inr h)))))))

theorem forSale_mem_readings :
    ("for_sale_count", (numericInteger Text.parseI32 (Json.get object "for_sale_count")
      "for_sale_count").notes) ∈ readings crates aircraft object :=
  List.mem_of_getLast? rfl

theorem named_performance {key : String}
    (h : Flags (measurements (sectionAt object "performance") "performance" perfCode)
      ("performance" ++ "." ++ key)) :
    Named (normalizeRecord crates manufacturer aircraft (.object object))
      ("performance" ++ "." ++ key) :=
  named_iff_flags.mpr ((flags_inSection (by decide) (by decide)).mpr
    (.inr (.inr (.inl ⟨rfl, h⟩))))

theorem named_weight {key : String}
    (h : Flags (measurements (sectionAt object "weights") "weights" weightCode)
      ("weights" ++ "." ++ key)) :
    Named (normalizeRecord crates manufacturer aircraft (.object object))
      ("weights" ++ "." ++ key) :=
  named_iff_flags.mpr ((flags_inSection (by decide) (by decide)).mpr
    (.inr (.inr (.inr (.inl ⟨rfl, h⟩)))))

end

/-! ### Readers that answer -/

/-- A value that states nothing: null, or a sentinel. -/
def Json.isBlank : Json → Bool
  | .null => true
  | .string text => (parseSentinel text).isNone
  | _ => false

/-- A value that has a text states something. -/
theorem isBlank_of_valueText {value : Json} {text : String} (h : valueText value = some text) :
    value.isBlank = false := by
  cases value with
  | string raw =>
      have hraw : parseSentinel raw = some text := h
      simp [Json.isBlank, hraw]
  | null => cases h
  | _ => rfl

/-- A reader that returns a value or pushes an issue, and not both. -/
def Answers {α : Type} (checked : Checked (Option α)) : Prop :=
  checked.notes = [] ↔ checked.value ≠ none

namespace Answers

variable {α β : Type} {path : String} {object : JsonObject} {value : Json}

theorem notes_ne_nil {checked : Checked (Option α)} (h : Answers checked) :
    checked.notes ≠ [] ↔ checked.value = none := by
  rw [Ne, show checked.notes = [] ↔ _ from h, not_not]

theorem pure (a : α) : Answers (Pure.pure (some a)) := by
  simp [Answers]

theorem fault (found : IngestIssue) : Answers (Noted.fault found : Checked (Option α)) := by
  simp [Answers, Noted.fault]

theorem orFault (found : Option α) (issue : IngestIssue) :
    Answers (AircraftApi.orFault found issue) := by
  rcases found with - | a
  · exact fault issue
  · exact pure a

/-- The second step answers for what the first one returned. -/
theorem bind {read : Checked (Option α)} {next : Option α → Checked (Option β)}
    (hread : Answers read) (hnone : (next none).value = none)
    (hnext : ∀ a, Answers (next (some a))) : Answers (read >>= next) := by
  unfold Answers at hread hnext ⊢
  rw [Noted.notes_bind, Noted.value_bind, List.append_eq_nil_iff, hread]
  rcases read.value with - | a
  · simp [hnone]
  · simp [hnext a]

theorem scalar (hvalue : value.isBlank = false) :
    Answers (AircraftApi.scalar (some value) path) := by
  cases value with
  | null => cases hvalue
  | string text =>
      obtain ⟨stated, hstated⟩ : ∃ stated, parseSentinel text = some stated := by
        rcases h : parseSentinel text with - | stated
        · rw [Json.isBlank, h] at hvalue
          cases hvalue
        · exact ⟨stated, rfl⟩
      show Answers (Pure.pure (parseSentinel text))
      rw [hstated]
      exact pure stated
  | number n => exact pure _
  | bool b => exact pure _
  | array items => exact fault _
  | object members => exact fault _

theorem integer (parse : List Char → Option ℤ) (hget : Json.get object path = some value)
    (hvalue : value.isBlank = false) : Answers (AircraftApi.integer parse object path) := by
  unfold AircraftApi.integer
  rw [hget]
  exact (scalar hvalue).bind rfl fun _ => orFault _ _

theorem numeric (hvalue : value.isBlank = false) :
    Answers (AircraftApi.numeric (some value) path) :=
  (scalar hvalue).bind rfl fun _ => orFault _ _

theorem numericInteger (parse : List Char → Option ℤ) (hvalue : value.isBlank = false) :
    Answers (AircraftApi.numericInteger parse (some value) path) :=
  (numeric hvalue).bind rfl fun _ => orFault _ _

theorem boolean (hget : Json.get object path = some value) :
    Answers (AircraftApi.boolean object path) := by
  unfold AircraftApi.boolean
  rw [hget]
  cases value with
  | bool b => exact pure b
  | string text => exact orFault _ _
  | _ => exact fault _

theorem pageUrl (crates : Crates) (hget : Json.get object "page_url" = some value)
    (hvalue : value.isBlank = false) : Answers (AircraftApi.pageUrl crates object) := by
  unfold AircraftApi.pageUrl
  rw [hget]
  exact (scalar hvalue).bind rfl fun _ => orFault _ _

theorem nested (hget : Json.get object path = some value) (hvalue : value.isBlank = false) :
    Answers (AircraftApi.nested object path) := by
  unfold AircraftApi.nested
  rw [hget]
  cases value with
  | null => cases hvalue
  | object members => exact pure members
  | _ => exact fault _

end Answers

theorem flags_scalar_of_none {value : Json} {path : String} (hblank : value.isBlank = false)
    (hraw : valueText value = none) : Flags (scalar (some value) path) path := by
  have hnotes : (scalar (some value) path).notes ≠ [] :=
    (Answers.scalar hblank).notes_ne_nil.mpr (by rw [scalar_value]; exact hraw)
  obtain ⟨found, hfound⟩ := List.exists_mem_of_ne_nil _ hnotes
  have hreads : Reads (· = path) (scalar (some value) path) := Reads.scalar _ rfl
  exact ⟨found, hfound, (hreads found hfound).fieldPath⟩

end AircraftApi
