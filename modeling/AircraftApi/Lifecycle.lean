/-
AircraftApi/Lifecycle.lean

The production years of a variant over sequences of imports.

The upsert merges start, end, production flag, status and type column by column.
Together they amount to one rule: a record that states a start year replaces the
pair of years, any other keeps it (`years_merge`).  So the pair is always one
that some record stated (`statedYears`), status and type follow the columns they
are derived of (`Coherent`), and no merge is refused by the check of the years.
-/
import AircraftApi.Identity

namespace AircraftApi

namespace Identity

open Statements
open Transition (after transcript)

/-- The years of production of a record, from which to which. -/
abbrev Years := Option ℤ × Option ℤ

/-- The years a variant stores. -/
def Variant.years (row : Variant) : Years := (row.productionStartYear, row.productionEndYear)

/-- The years a record states. -/
def recordYears (record : PreparedAircraftRecord) : Years :=
  (record.lifecycle.productionStartYear, record.lifecycle.productionEndYear)

/-- The last pair of a list that has a start, or else the first one. -/
def statedYears (pairs : List Years) : Option Years :=
  (pairs.filter fun pair => pair.1.isSome).getLast?.or pairs.head?

/-- The years are in order, the status is the one of the production flag, and
there is a type exactly when there is a start year. -/
structure Coherent (row : Variant) : Prop where
  ordered : row.Ordered
  status : row.serviceStatusCode = serviceStatus row.isInProduction
  typed : row.variantTypeCode.isSome ↔ row.productionStartYear.isSome

/-! ### One merge -/

theorem statedYears_append (pairs : List Years) (pair : Years) :
    statedYears (pairs ++ [pair]) =
      match statedYears pairs with
      | some stored => some (if pair.1.isSome then pair else stored)
      | none => some pair := by
  unfold statedYears
  rw [List.filter_append, List.filter_singleton, List.head?_append]
  rcases hpair : pair.1.isSome with - | -
  · rw [cond_false, List.append_nil]
    generalize (pairs.filter fun pair => pair.1.isSome).getLast? = last
    generalize pairs.head? = first
    rcases last with - | last <;> rcases first with - | first <;> rfl
  · rw [cond_true, List.getLast?_concat]
    generalize ((pairs.filter fun pair => pair.1.isSome).getLast?).or pairs.head? = stated
    rcases stated with - | stated <;> rfl

theorem years_merge (stored row : Variant) :
    (stored.merge row).years
      = if row.years.1.isSome then row.years else stored.years := by
  rcases hstart : row.productionStartYear with - | start
  · simp [Variant.years, Variant.merge, hstart]
  · simp [Variant.years, Variant.merge, hstart]

/-- Either record's years are the merged ones, so both in order is enough. -/
theorem ordered_iff_years {row : Variant} :
    row.Ordered ↔ ∀ start ∈ row.years.1, ∀ close ∈ row.years.2, start ≤ close :=
  Iff.rfl

theorem Variant.Ordered.merge {stored row : Variant} (hstored : stored.Ordered)
    (hrow : row.Ordered) : (stored.merge row).Ordered := by
  rw [ordered_iff_years, years_merge]
  split_ifs
  · exact hrow
  · exact hstored

theorem serviceStatus_or (newer older : Option Bool) :
    serviceStatus (newer.or older) = (serviceStatus newer).or (serviceStatus older) := by
  rcases newer with - | - | - <;> rfl

theorem Coherent.merge {stored row : Variant} (hstored : Coherent stored) (hrow : Coherent row) :
    Coherent (stored.merge row) where
  ordered := hstored.ordered.merge hrow.ordered
  status := by
    show (if _ then _ else _) = serviceStatus (if _ then _ else _)
    split_ifs
    · exact hrow.status
    · rw [serviceStatus_or, hrow.status, hstored.status]
  typed := by
    show (row.variantTypeCode.or stored.variantTypeCode).isSome ↔
      (row.productionStartYear.or stored.productionStartYear).isSome
    rw [Option.isSome_or, Option.isSome_or, Bool.or_eq_true, Bool.or_eq_true]
    exact or_congr hrow.typed hstored.typed

/-! ### Records -/

/-- Of a record that `normalize_record` makes the status and the type are derived. -/
theorem coherent_proposed {sql : TextFunctions} {crates : Crates} {manufacturer aircraft : String}
    {raw : Json} {record : PreparedAircraftRecord} {variants : List Variant} {model : ℕ}
    (hrecord : record = normalizeRecord crates manufacturer aircraft raw)
    (hyears : ProductionYears.fault record.lifecycle.productionStartYear
      record.lifecycle.productionEndYear = none) :
    Coherent (proposedVariant sql variants model record) := by
  have hderived : record.lifecycle.serviceStatus = serviceStatus record.lifecycle.isInProduction ∧
      record.lifecycle.variantType = variantType record.lifecycle.productionStartYear := by
    rw [hrecord]
    unfold normalizeRecord
    split
    · exact ⟨rfl, rfl⟩
    · dsimp only
      rw [normalizeObject_value]
      exact ⟨rfl, rfl⟩
  refine ⟨(ProductionYears.fault_eq_none.mp hyears).1, hderived.1, ?_⟩
  show record.lifecycle.variantType.isSome ↔ record.lifecycle.productionStartYear.isSome
  rw [hderived.2]
  rcases record.lifecycle.productionStartYear with - | start <;> rfl

/-- The check of the years refuses no row whose years are in order. -/
theorem checks_ne_years {row : Variant} (h : row.Ordered) :
    row.checks ≠ .error (.check "chk_variant_production_years") := by
  intro herror
  rcases checks_error herror with hyear | ⟨hslug, -⟩ | hbound | ⟨-, hyears⟩
  · cases hyear
  · cases hslug
  · simp at hbound
  · exact hyears h

/-! ### Runs -/

section

variable {sql : TextFunctions} {db db' : Tables} {record : PreparedAircraftRecord}
variable {choice organization family model variantId : ℕ}

theorem Promoted.coherent (h : ∀ variant ∈ db.variants, Coherent variant)
    (hp : Promoted sql db record choice db' organization family model variantId)
    (hrow : Coherent (proposedVariant sql db.variants model record)) :
    ∀ variant ∈ db'.variants, Coherent variant := by
  rw [hp.variants_eq]
  exact forall_mem_upsert h hrow fun _ _ _ hstored => hstored.merge hrow

/-- The years stored under a key after a promotion. -/
theorem Promoted.years (h : Sound db)
    (hp : Promoted sql db record choice db' organization family model variantId) (key : String) :
    (lookup Variant.ingestKey db'.variants key).map Variant.years =
      if key = record.sourceRecordKey then
        match (lookup Variant.ingestKey db.variants key).map Variant.years with
        | some stored => some (if (recordYears record).1.isSome then recordYears record else stored)
        | none => some (recordYears record)
      else (lookup Variant.ingestKey db.variants key).map Variant.years := by
  have hproposed : (proposedVariant sql db.variants model record).ingestKey
      = record.sourceRecordKey := rfl
  rw [hp.lookup_variants h]
  by_cases hkey : key = record.sourceRecordKey
  · rw [if_pos hkey, if_pos hkey, Option.map_some, hkey, written, hproposed]
    rcases lookup Variant.ingestKey db.variants record.sourceRecordKey with - | stored
    · rfl
    · exact congrArg some (years_merge stored (proposedVariant sql db.variants model record))
  · rw [if_neg hkey, if_neg hkey]

/-- A promotion of a row whose years are in order, over rows whose are, is not
refused by their check. -/
theorem importIdentity_ne_years (h : ∀ variant ∈ db.variants, Coherent variant) {call : Import}
    (hrow : ∀ model, Coherent (proposedVariant sql db.variants model call.record)) :
    (importIdentity sql db call).2 ≠ some (.check "chk_variant_production_years") := by
  rcases importIdentity_cases sql db call with ⟨violation, heq, hwhy⟩ | ⟨_, _, _, _, _, heq, -⟩
  · rw [heq]
    rintro hyears
    cases hyears
    rcases hwhy with hlater | herror
    · cases hlater
    rcases promoteIdentity_error herror with ⟨hslug, -⟩ | ⟨model, herror⟩
    · cases hslug
    rcases upsertVariant_error herror with hchecks | ⟨stored, hstored, hchecks⟩ | ⟨hunique, -⟩ | hkeys
    · exact checks_ne_years (hrow model).ordered hchecks
    · exact checks_ne_years ((h stored (lookup_mem hstored).1).ordered.merge
        (hrow model).ordered) hchecks
    · cases hunique
    · obtain ⟨constraint, hkey⟩ := references_error hkeys
      cases hkey
  · rw [heq]
    exact nofun

end

/-- **Production years**: over every sequence of imports of normalized records
whose years are in order, none is refused by the check of the years, and under
every key is the last pair with a start year that a completed import of it
stated, or else the first import's, with the status of the stored flag and a
type exactly when there is a start year. -/
theorem lifecycle_merge (sql : TextFunctions) (crates : Crates) (organizations : List Organization)
    (calls : List Import)
    (hrecords : ∀ call ∈ calls, ∃ manufacturer aircraft raw,
      call.record = normalizeRecord crates manufacturer aircraft raw)
    (hyears : ∀ call ∈ calls, ProductionYears.fault call.record.lifecycle.productionStartYear
      call.record.lifecycle.productionEndYear = none) :
    (∀ answer ∈ transcript (importIdentity sql) (.seeded organizations) calls,
      answer.2 ≠ some (.check "chk_variant_production_years")) ∧
    (∀ key, (lookup Variant.ingestKey
          (after (importIdentity sql) (.seeded organizations) calls).variants key).map Variant.years
        = statedYears (((completed sql (.seeded organizations) calls).filter fun call =>
            call.record.sourceRecordKey = key).map fun call => recordYears call.record)) ∧
    ∀ variant ∈ (after (importIdentity sql) (.seeded organizations) calls).variants,
      Coherent variant := by
  induction calls using List.reverseRecOn with
  | nil =>
      exact ⟨fun _ h => absurd h List.not_mem_nil, fun _ => rfl,
        fun _ h => absurd h List.not_mem_nil⟩
  | append_singleton calls call ih =>
      obtain ⟨hanswers, hstored, hcoherent⟩ := ih
        (fun other hother => hrecords other (List.mem_append_left _ hother))
        (fun other hother => hyears other (List.mem_append_left _ hother))
      have hmem : call ∈ calls ++ [call] := List.mem_append_right _ (List.mem_singleton_self _)
      obtain ⟨manufacturer, aircraft, raw, hrecord⟩ := hrecords call hmem
      -- the row proposed has its years in order, as the record has
      have hrow : ∀ model, Coherent (proposedVariant sql
          (after (importIdentity sql) (.seeded organizations) calls).variants model call.record) :=
        fun model => coherent_proposed hrecord (hyears call hmem)
      have hsound := after_sound sql organizations calls
      rw [Transition.transcript_append_singleton, completed_append_singleton,
        Transition.after_append_singleton]
      have hrefused := importIdentity_ne_years hcoherent hrow
      generalize after (importIdentity sql) (.seeded organizations) calls = db at *
      refine ⟨?_, ?_, importIdentity_invariant hcoherent fun hp => hp.coherent hcoherent (hrow _)⟩
      · intro answer hanswer
        rcases List.mem_append.mp hanswer with hold | hnew
        · exact hanswers answer hold
        · rw [List.mem_singleton.mp hnew]
          exact hrefused
      · intro key
        rcases importIdentity_cases sql db call with
          ⟨violation, heq, -⟩ | ⟨db', _, _, _, _, heq, hp⟩
        · -- a promotion that is refused leaves the rows alone
          rw [heq]
          simpa using hstored key
        · rw [heq, hp.years hsound key, hstored key, List.filter_append, List.map_append]
          -- the years of a row are those of its own key
          by_cases hkey : key = call.record.sourceRecordKey
          · have hfilter : ([call].filter fun other => other.record.sourceRecordKey = key)
                = [call] := by
              simp [hkey]
            rw [if_pos hkey]
            show _ = statedYears (_ ++ ([call].filter _).map _)
            rw [hfilter]
            exact (statedYears_append _ _).symm
          · have hfilter : ([call].filter fun other => other.record.sourceRecordKey = key)
                = [] := by
              simpa using Ne.symm hkey
            rw [if_neg hkey]
            show _ = statedYears (_ ++ ([call].filter _).map _)
            rw [hfilter, List.map_nil, List.append_nil]

/-- SHA-256 on the one text hashed here, the names of the Cessna 310R. -/
def datedCrates : Crates where
  sha256 := fun _ =>
    [56, 132, 248, 139, 49, 144, 80, 183, 102, 88, 125, 215, 223, 182, 199, 189, 176, 88,
      205, 16, 99, 132, 63, 91, 182, 81, 249, 110, 20, 4, 73, 125]
  parseUrl := fun _ => none
  joinUrl := fun _ _ => none

/-- A record of the Cessna 310R with these years. -/
def datedRecord (years : JsonObject) : PreparedAircraftRecord :=
  normalizeRecord datedCrates "CESSNA" "310R" (.object years)

/-- Four imports of it: no years, a closed range, none again, and a range that
reopens later than the stored one ends. -/
def datedCalls : List Import :=
  [[], [("start_year", .string "1976"), ("end_year", .string "1980")], [],
    [("start_year", .string "1985")]].map fun years => ⟨datedRecord years, 0, true⟩

/-- The functions of the database on the texts of these imports. -/
def datedFunctions : TextFunctions where
  lower := Char.toLower
  upper := fun text => text.map Char.toUpper
  initcap := fun _ => "Cessna"
  md5 := fun _ => "7f5f1cf49d2f3f7c65a6bf7af9f67e2e".toList

example : (completed datedFunctions (.seeded []) datedCalls).length = 4 ∧
    (after (importIdentity datedFunctions) (.seeded []) datedCalls).variants.map Variant.years
      = [(some 1985, none)] := by decide +kernel

theorem lifecycle_merge_dated : ∃ variant,
    (after (importIdentity datedFunctions) (.seeded []) datedCalls).variants = [variant] ∧
      Coherent variant := by
  have hone : (after (importIdentity datedFunctions) (.seeded [])
      datedCalls).variants.length = 1 := by decide +kernel
  obtain ⟨variant, hvariants⟩ := List.length_eq_one_iff.mp hone
  refine ⟨variant, hvariants, (lifecycle_merge datedFunctions datedCrates [] datedCalls ?_ ?_).2.2
    variant (by rw [hvariants]; exact List.mem_singleton_self variant)⟩
  · intro call hcall
    obtain ⟨years, -, rfl⟩ := List.mem_map.mp hcall
    exact ⟨"CESSNA", "310R", .object years, rfl⟩
  · decide +kernel

end Identity

end AircraftApi
