/-
AircraftApi/Identity.lean

Whom a record is about: the organizations, families, models and variants
(`promote_identity`, `promote_variant`).

Each of the four tables is upserted by a key of its own: the first three by the
slug the record's names make, the variants by the ingest key.  A variant whose
slug another key holds is stored under the slug with a digest of its own key.

    promoteIdentity              the four statements, and what they refuse
    Promoted                     what a promotion does to the tables
    promoteIdentity_error        whom a refusal is by
    importIdentity               one import, rolled back if it is refused
    Sound                        what holds of the tables after every run

The bound integers are `i16` in the program, so their type refuses none of them.
The statements of the promotion after these are of other tables; `completes`
says whether they go through.
-/
import AircraftApi.PreparedRecord
import AircraftApi.Statements
import AircraftApi.Transition

namespace AircraftApi

namespace Identity

open Schema (YearValue landingGearTypes propulsionCategories serviceStatuses variantTypes)
open Slug (slugify slugText)
open Statements
open Transition (after transcript)

/-- The functions of the database on texts. -/
structure TextFunctions where
  lower : Char → Char
  upper : String → String
  initcap : String → String
  md5 : String → List Char

/-! ### Tables -/

/-- A manufacturer. -/
structure Organization where
  name : String
  slug : List Char
  nameAliases : List String
  deriving DecidableEq

/-- A family of a manufacturer. -/
structure Family where
  manufacturerOrgId : ℕ
  name : String
  slug : List Char
  deriving DecidableEq

/-- A model of a family. -/
structure Model where
  familyId : ℕ
  name : String
  slug : List Char
  deriving DecidableEq

/-- The columns of `variants` the adapter writes. -/
structure Variant where
  modelId : ℕ
  name : String
  slug : List Char
  description : Option String
  productionStartYear : Option ℤ
  productionEndYear : Option ℤ
  isInProduction : Option Bool
  passengerCapacity : Option ℤ
  crewCount : Option ℤ
  engineCount : Option ℤ
  sourcePath : Option String
  ingestKey : String
  propulsionCategoryCode : Option String
  serviceStatusCode : Option String
  landingGearTypeCode : Option String
  variantTypeCode : Option String
  deriving DecidableEq

/-- Who makes a variant. -/
structure VariantManufacturer where
  variantId : ℕ
  orgId : ℕ
  isPrimary : Bool
  deriving DecidableEq

/-- An open flag of a slug that was taken, and the slug the variant got. -/
structure SlugCollision where
  entityId : ℕ
  slug : List Char
  deriving DecidableEq

/-- The tables of the identities. -/
structure Tables where
  organizations : List Organization
  families : List Family
  models : List Model
  variants : List Variant
  variantManufacturers : List VariantManufacturer
  curationFlags : List SlugCollision
  deriving DecidableEq

/-- Before the first import: the organizations the migrations seed. -/
def Tables.seeded (organizations : List Organization) : Tables := ⟨organizations, [], [], [], [], []⟩

/-- Why the database refuses a statement: a domain, a check, a unique index, a
foreign key, or a statement of another table. -/
inductive Violation
  | domain (name : String)
  | check (constraint : String)
  | unique (constraint : String)
  | foreignKey (constraint : String)
  | later
  deriving DecidableEq

/-! ### Merges -/

/-- `SELECT DISTINCT unnest(stored || EXCLUDED)`. -/
def Organization.addAliases (stored excluded : Organization) : Organization :=
  { stored with nameAliases := (stored.nameAliases ++ excluded.nameAliases).dedup }

/-- A family met again goes to the manufacturer of the record. -/
def Family.reassign (stored excluded : Family) : Family :=
  { stored with manufacturerOrgId := excluded.manufacturerOrgId }

/-- A model met again goes to the family of the record. -/
def Model.reassign (stored excluded : Model) : Model :=
  { stored with familyId := excluded.familyId }

/-- A record that states a start year defines the whole production range, and
the status that is derived of it. -/
def Variant.merge (stored excluded : Variant) : Variant :=
  { stored with
    description := excluded.description
    engineCount := stored.engineCount.or excluded.engineCount
    productionStartYear := excluded.productionStartYear.or stored.productionStartYear
    productionEndYear :=
      if excluded.productionStartYear.isSome then excluded.productionEndYear
      else stored.productionEndYear
    isInProduction :=
      if excluded.productionStartYear.isSome then excluded.isInProduction
      else excluded.isInProduction.or stored.isInProduction
    propulsionCategoryCode := excluded.propulsionCategoryCode.or stored.propulsionCategoryCode
    serviceStatusCode :=
      if excluded.productionStartYear.isSome then excluded.serviceStatusCode
      else excluded.serviceStatusCode.or stored.serviceStatusCode
    landingGearTypeCode := excluded.landingGearTypeCode.or stored.landingGearTypeCode
    variantTypeCode := excluded.variantTypeCode.or stored.variantTypeCode }

/-! ### Constraints -/

instance : DecidablePred YearValue :=
  fun year => inferInstanceAs (Decidable (1900 ≤ year ∧ year ≤ 2100))

/-- `chk_variant_production_years`. -/
def Variant.Ordered (row : Variant) : Prop :=
  ∀ start ∈ row.productionStartYear, ∀ close ∈ row.productionEndYear, start ≤ close

instance (row : Variant) : Decidable row.Ordered :=
  inferInstanceAs (Decidable (∀ start ∈ row.productionStartYear,
    ∀ close ∈ row.productionEndYear, start ≤ close))

/-- The domains and checks of a row, the checks in the order of their names. -/
def Variant.checks (row : Variant) : Except Violation Unit := do
  require (∀ year ∈ row.productionStartYear, YearValue year) (.domain "year_value")
  require (∀ year ∈ row.productionEndYear, YearValue year) (.domain "year_value")
  require (slugText row.slug = true) (.domain "slug_text")
  require (∀ n ∈ row.crewCount, 0 ≤ n) (.check "chk_variant_crew")
  require (∀ n ∈ row.engineCount, 0 < n) (.check "chk_variant_engine_count")
  require (∀ n ∈ row.passengerCapacity, 0 ≤ n) (.check "chk_variant_passenger")
  require row.Ordered (.check "chk_variant_production_years")

/-- The foreign keys of a row to the vocabularies. -/
def Variant.references (row : Variant) : Except Violation Unit := do
  require (∀ code ∈ row.variantTypeCode, code ∈ variantTypes)
    (.foreignKey "variants_variant_type_code_fkey")
  require (∀ code ∈ row.serviceStatusCode, code ∈ serviceStatuses)
    (.foreignKey "variants_service_status_code_fkey")
  require (∀ code ∈ row.landingGearTypeCode, code ∈ landingGearTypes)
    (.foreignKey "variants_landing_gear_type_code_fkey")
  require (∀ code ∈ row.propulsionCategoryCode, code ∈ propulsionCategories)
    (.foreignKey "variants_propulsion_category_code_fkey")

/-! ### Statements -/

variable (sql : TextFunctions)

/-- The organizations the lookup matches. -/
def namesakes (organizations : List Organization) (name : String) : List ℕ :=
  (List.range organizations.length).filter fun id =>
    organizations[id]?.any fun organization =>
      name ∈ organization.nameAliases ∨ sql.upper organization.name = sql.upper name

/-- `SELECT id ... LIMIT 1`, which leaves open which of the matches it returns:
`choice` says. -/
def findOrganization (organizations : List Organization) (name : String) (choice : ℕ) :
    Option ℕ :=
  let matching := namesakes sql organizations name
  matching[choice % matching.length]?

/-- The row of a manufacturer that is not known yet. -/
def proposedOrganization (name : String) : Organization :=
  ⟨sql.initcap name, slugify sql.lower name.toList, [name]⟩

/-- The manufacturer of a name: the one found, or a new row. -/
def promoteOrganization (organizations : List Organization) (name : String) (choice : ℕ) :
    Except Violation (List Organization × ℕ) :=
  match findOrganization sql organizations name choice with
  | some id => .ok (organizations, id)
  | none => do
      let row := proposedOrganization sql name
      require (slugText row.slug = true) (.domain "slug_text")
      return upsert Organization.slug Organization.addAliases organizations row

/-- `slugify($2 || '-family')`. -/
def familySlug (identity : AircraftIdentityInput) : List Char :=
  slugify sql.lower (identity.manufacturerName.toList ++ "-family".toList)

/-- The row proposed for the family. -/
def proposedFamily (organization : ℕ) (identity : AircraftIdentityInput) : Family :=
  ⟨organization, sql.initcap identity.manufacturerName, familySlug sql identity⟩

/-- `slugify($3 || '-' || $2)`. -/
def modelSlug (identity : AircraftIdentityInput) : List Char :=
  slugify sql.lower
    (identity.manufacturerName.toList ++ "-".toList ++ identity.aircraftName.toList)

/-- The row proposed for the model. -/
def proposedModel (family : ℕ) (identity : AircraftIdentityInput) : Model :=
  ⟨family, identity.aircraftName, modelSlug sql identity⟩

/-- `slugify($3 || '-' || $2 || '-v1')`. -/
def candidateSlug (identity : AircraftIdentityInput) : List Char :=
  slugify sql.lower
    (identity.manufacturerName.toList ++ "-".toList ++ identity.aircraftName.toList ++ "-v1".toList)

/-- The candidate, with a digest of the key if a variant of another key holds it. -/
def variantSlug (variants : List Variant) (record : PreparedAircraftRecord) : List Char :=
  let candidate := candidateSlug sql record.identity
  if variants.any fun existing =>
      existing.slug = candidate ∧ existing.ingestKey ≠ record.sourceRecordKey then
    candidate ++ "-".toList ++ (sql.md5 record.sourceRecordKey).take 8
  else candidate

/-- The row proposed for the variant. -/
def proposedVariant (variants : List Variant) (model : ℕ) (record : PreparedAircraftRecord) :
    Variant where
  modelId := model
  name := record.identity.aircraftName
  slug := variantSlug sql variants record
  description := record.identity.description
  productionStartYear := record.lifecycle.productionStartYear
  productionEndYear := record.lifecycle.productionEndYear
  isInProduction := record.lifecycle.isInProduction
  passengerCapacity := record.lifecycle.passengerCapacity
  crewCount := record.lifecycle.crewCount
  engineCount := record.propulsion.engineCount
  sourcePath := record.identity.sourceLink
  ingestKey := record.sourceRecordKey
  propulsionCategoryCode := record.propulsion.category
  serviceStatusCode := record.lifecycle.serviceStatus
  landingGearTypeCode := record.lifecycle.landingGear
  variantTypeCode := record.lifecycle.variantType

/-- `INSERT INTO variants ... ON CONFLICT(ingest_key) DO UPDATE`.  The proposed
row is held to the checks even where it is only merged; the slug's index sees
the rows that are inserted. -/
def upsertVariant (variants : List Variant) (row : Variant) :
    Except Violation (List Variant × ℕ) := do
  row.checks
  match lookup Variant.ingestKey variants row.ingestKey with
  | some stored => (stored.merge row).checks
  | none => require (∀ stored ∈ variants, stored.slug ≠ row.slug) (.unique "variants_slug_key")
  (written Variant.ingestKey Variant.merge variants row).references
  return upsert Variant.ingestKey Variant.merge variants row

/-- The first manufacturer recorded for a variant keeps the primary role. -/
def linkPrimaryManufacturer (links : List VariantManufacturer) (variantId organization : ℕ) :
    List VariantManufacturer :=
  if links.any fun link => link.variantId = variantId ∧ link.isPrimary then links
  else (upsert (fun link => (link.variantId, link.orgId))
    (fun stored _ => { stored with isPrimary := true }) links
    ⟨variantId, organization, true⟩).1

/-- A variant whose slug was taken is flagged once. -/
def flagSlugCollision (flags : List SlugCollision) (variantId : ℕ) (slug : List Char) :
    List SlugCollision :=
  if flags.any fun flag => flag.entityId = variantId then flags else flags ++ [⟨variantId, slug⟩]

/-- Flags the variant if the slug it has is not the candidate. -/
def flagDisambiguated (flags : List SlugCollision) (variants : List Variant) (variantId : ℕ)
    (identity : AircraftIdentityInput) : List SlugCollision :=
  match variants[variantId]? with
  | some row =>
      if row.slug ≠ candidateSlug sql identity then flagSlugCollision flags variantId row.slug
      else flags
  | none => flags

/-- The variant of a record: its row, its manufacturer, and a flag if its slug was taken. -/
def promoteVariant (db : Tables) (model organization : ℕ) (record : PreparedAircraftRecord) :
    Except Violation (Tables × ℕ) := do
  let (variants, variantId) ← upsertVariant db.variants (proposedVariant sql db.variants model record)
  return ({ db with
    variants := variants
    variantManufacturers := linkPrimaryManufacturer db.variantManufacturers variantId organization
    curationFlags := flagDisambiguated sql db.curationFlags variants variantId record.identity },
    variantId)

/-- The identity of a record, from the manufacturer down to the variant. -/
def promoteIdentity (db : Tables) (record : PreparedAircraftRecord) (choice : ℕ) :
    Except Violation (Tables × ℕ) := do
  let (organizations, organization) ←
    promoteOrganization sql db.organizations record.identity.manufacturerName choice
  let proposed := proposedFamily sql organization record.identity
  require (slugText proposed.slug = true) (.domain "slug_text")
  let (families, family) := upsert Family.slug Family.reassign db.families proposed
  let proposed := proposedModel sql family record.identity
  require (slugText proposed.slug = true) (.domain "slug_text")
  let (models, model) := upsert Model.slug Model.reassign db.models proposed
  promoteVariant sql
    { db with organizations := organizations, families := families, models := models }
    model organization record

/-! ### Imports -/

/-- A promotion of a record. -/
structure Import where
  record : PreparedAircraftRecord
  /-- Which of the organizations of the name the lookup returns. -/
  choice : ℕ
  /-- Whether the later statements of the promotion go through. -/
  completes : Bool

/-- An import that is refused is rolled back. -/
def importIdentity (db : Tables) (call : Import) : Tables × Option Violation :=
  match promoteIdentity sql db call.record call.choice with
  | .error violation => (db, some violation)
  | .ok (db', _) => if call.completes then (db', none) else (db, some .later)

/-- The imports of a run that were not refused. -/
def completed (db : Tables) (calls : List Import) : List Import :=
  ((transcript (importIdentity sql) db calls).filter fun entry => entry.2.isNone).map Prod.fst

/-! ### What a promotion does -/

theorem keepsKey_family : KeepsKey Family.slug Family.reassign := fun _ _ _ => rfl

theorem keepsKey_model : KeepsKey Model.slug Model.reassign := fun _ _ _ => rfl

theorem keepsKey_variant : KeepsKey Variant.ingestKey Variant.merge := fun _ _ _ => rfl

section

variable {sql} {db db' : Tables} {record : PreparedAircraftRecord} {choice : ℕ}

/-- The promotion of a record to an organization, a family, a model and a variant. -/
structure Promoted (sql : TextFunctions) (db : Tables) (record : PreparedAircraftRecord)
    (choice : ℕ) (db' : Tables) (organization family model variantId : ℕ) : Prop where
  organizations : promoteOrganization sql db.organizations record.identity.manufacturerName choice
    = .ok (db'.organizations, organization)
  families : upsert Family.slug Family.reassign db.families
    (proposedFamily sql organization record.identity) = (db'.families, family)
  models : upsert Model.slug Model.reassign db.models (proposedModel sql family record.identity)
    = (db'.models, model)
  variants : upsertVariant db.variants (proposedVariant sql db.variants model record)
    = .ok (db'.variants, variantId)
  variantManufacturers : db'.variantManufacturers
    = linkPrimaryManufacturer db.variantManufacturers variantId organization
  curationFlags : db'.curationFlags
    = flagDisambiguated sql db.curationFlags db'.variants variantId record.identity

theorem promoteIdentity_ok {variantId : ℕ}
    (h : promoteIdentity sql db record choice = .ok (db', variantId)) :
    ∃ organization family model, Promoted sql db record choice db' organization family model
      variantId := by
  unfold promoteIdentity at h
  obtain ⟨⟨organizations, organization⟩, horganization, h⟩ := ok_of_bind h
  obtain ⟨-, -, h⟩ := ok_of_bind h
  obtain ⟨-, -, h⟩ := ok_of_bind h
  unfold promoteVariant at h
  obtain ⟨⟨variants, id⟩, hvariant, h⟩ := ok_of_bind h
  cases h
  exact ⟨organization, _, _, horganization, rfl, rfl, hvariant, rfl, rfl⟩

/-- What a promotion is refused by: a slug that is none, the checks of the
variant's row as it is proposed or merged, the slug's index, a foreign key. -/
theorem promoteIdentity_error {violation : Violation}
    (h : promoteIdentity sql db record choice = .error violation) :
    (violation = .domain "slug_text" ∧
      (slugText (slugify sql.lower record.identity.manufacturerName.toList) = false ∨
        slugText (familySlug sql record.identity) = false ∨
        slugText (modelSlug sql record.identity) = false)) ∨
    ∃ model, upsertVariant db.variants (proposedVariant sql db.variants model record)
      = .error violation := by
  unfold promoteIdentity at h
  rcases error_of_bind h with horganization | ⟨⟨organizations, organization⟩, -, h⟩
  · unfold promoteOrganization at horganization
    split at horganization
    · cases horganization
    · rcases error_of_bind horganization with hslug | ⟨⟨⟩, -, h⟩
      · obtain ⟨hnone, rfl⟩ := require_eq_error.mp hslug
        exact .inl ⟨rfl, .inl (Bool.eq_false_iff.mpr hnone)⟩
      · cases h
  rcases error_of_bind h with hfamily | ⟨-, -, h⟩
  · obtain ⟨hnone, rfl⟩ := require_eq_error.mp hfamily
    exact .inl ⟨rfl, .inr (.inl (Bool.eq_false_iff.mpr hnone))⟩
  rcases error_of_bind h with hmodel | ⟨-, -, h⟩
  · obtain ⟨hnone, rfl⟩ := require_eq_error.mp hmodel
    exact .inl ⟨rfl, .inr (.inr (Bool.eq_false_iff.mpr hnone))⟩
  unfold promoteVariant at h
  rcases error_of_bind h with hvariant | ⟨⟨variants, variantId⟩, -, h⟩
  · exact .inr ⟨_, hvariant⟩
  · cases h

theorem promoteOrganization_ok {organizations organizations' : List Organization} {name : String}
    {organization : ℕ}
    (h : promoteOrganization sql organizations name choice = .ok (organizations', organization)) :
    organizations.length ≤ organizations'.length ∧ organization < organizations'.length := by
  unfold promoteOrganization at h
  split at h
  · rename_i id hid
    cases h
    have hmem := List.mem_of_getElem? hid
    have hrange := (List.mem_filter.mp hmem).1
    exact ⟨le_rfl, List.mem_range.mp hrange⟩
  · obtain ⟨-, -, h⟩ := ok_of_bind h
    have hpair := Except.ok.inj h
    have hlength := length_le_upsert Organization.slug Organization.addAliases organizations
      (proposedOrganization sql name)
    have hid := lt_length_upsert Organization.slug Organization.addAliases organizations
      (proposedOrganization sql name)
    rw [hpair] at hlength hid
    exact ⟨hlength, hid⟩

end

section

variable {variants variants' : List Variant} {row : Variant} {variantId : ℕ}

/-- What a row fails, and what that says of it where it is not a bound. -/
theorem checks_error {violation : Violation} (h : row.checks = .error violation) :
    violation = .domain "year_value" ∨
      (violation = .domain "slug_text" ∧ slugText row.slug = false) ∨
      violation ∈ [.check "chk_variant_crew", .check "chk_variant_engine_count",
        .check "chk_variant_passenger"] ∨
      (violation = .check "chk_variant_production_years" ∧ ¬ row.Ordered) := by
  unfold Variant.checks at h
  rcases error_of_bind h with hstart | ⟨⟨⟩, -, h⟩
  · exact .inl (require_eq_error.mp hstart).2.symm
  rcases error_of_bind h with hclose | ⟨⟨⟩, -, h⟩
  · exact .inl (require_eq_error.mp hclose).2.symm
  rcases error_of_bind h with hslug | ⟨⟨⟩, -, h⟩
  · obtain ⟨hnone, rfl⟩ := require_eq_error.mp hslug
    exact .inr (.inl ⟨rfl, Bool.eq_false_iff.mpr hnone⟩)
  rcases error_of_bind h with hcrew | ⟨⟨⟩, -, h⟩
  · rw [← (require_eq_error.mp hcrew).2]
    simp
  rcases error_of_bind h with hengines | ⟨⟨⟩, -, h⟩
  · rw [← (require_eq_error.mp hengines).2]
    simp
  rcases error_of_bind h with hpassengers | ⟨⟨⟩, -, h⟩
  · rw [← (require_eq_error.mp hpassengers).2]
    simp
  · obtain ⟨hyears, rfl⟩ := require_eq_error.mp h
    exact .inr (.inr (.inr ⟨rfl, hyears⟩))

theorem references_error {violation : Violation} (h : row.references = .error violation) :
    ∃ constraint, violation = .foreignKey constraint := by
  unfold Variant.references at h
  iterate 3
    rcases error_of_bind h with hcode | ⟨⟨⟩, -, h⟩
    · exact ⟨_, (require_eq_error.mp hcode).2.symm⟩
  exact ⟨_, (require_eq_error.mp h).2.symm⟩

theorem upsertVariant_ok (h : upsertVariant variants row = .ok (variants', variantId)) :
    upsert Variant.ingestKey Variant.merge variants row = (variants', variantId) ∧
      row.checks = .ok () ∧
      (∀ stored, lookup Variant.ingestKey variants row.ingestKey = some stored →
        (stored.merge row).checks = .ok ()) ∧
      (lookup Variant.ingestKey variants row.ingestKey = none →
        ∀ stored ∈ variants, stored.slug ≠ row.slug) := by
  unfold upsertVariant at h
  obtain ⟨⟨⟩, hrow, h⟩ := ok_of_bind h
  rcases hfound : lookup Variant.ingestKey variants row.ingestKey with - | stored
  · rw [hfound] at h
    obtain ⟨⟨⟩, hslug, h⟩ := ok_of_bind h
    obtain ⟨-, -, h⟩ := ok_of_bind h
    exact ⟨Except.ok.inj h, hrow, fun _ hnone => absurd hnone (by simp),
      fun _ => require_eq_ok.mp hslug⟩
  · rw [hfound] at h
    obtain ⟨⟨⟩, hmerged, h⟩ := ok_of_bind h
    obtain ⟨-, -, h⟩ := ok_of_bind h
    refine ⟨Except.ok.inj h, hrow, ?_, fun hnone => absurd hnone (by simp)⟩
    rintro old hold
    rw [← Option.some.inj hold]
    exact hmerged

theorem upsertVariant_error {violation : Violation}
    (h : upsertVariant variants row = .error violation) :
    row.checks = .error violation ∨
      (∃ stored, lookup Variant.ingestKey variants row.ingestKey = some stored ∧
        (stored.merge row).checks = .error violation) ∨
      (violation = .unique "variants_slug_key" ∧
        lookup Variant.ingestKey variants row.ingestKey = none ∧
        ∃ stored ∈ variants, stored.slug = row.slug) ∨
      (written Variant.ingestKey Variant.merge variants row).references = .error violation := by
  unfold upsertVariant at h
  rcases error_of_bind h with hrow | ⟨⟨⟩, -, h⟩
  · exact .inl hrow
  refine .inr ?_
  rcases hfound : lookup Variant.ingestKey variants row.ingestKey with - | stored
  · rw [hfound] at h
    rcases error_of_bind h with hslug | ⟨⟨⟩, -, h⟩
    · obtain ⟨htaken, rfl⟩ := require_eq_error.mp hslug
      push Not at htaken
      exact .inr (.inl ⟨rfl, rfl, htaken⟩)
    · rcases error_of_bind h with hkeys | ⟨⟨⟩, -, h⟩
      · exact .inr (.inr hkeys)
      · cases h
  · rw [hfound] at h
    rcases error_of_bind h with hmerged | ⟨⟨⟩, -, h⟩
    · exact .inl ⟨stored, rfl, hmerged⟩
    · rcases error_of_bind h with hkeys | ⟨⟨⟩, -, h⟩
      · exact .inr (.inr hkeys)
      · cases h

end

/-! ### What holds of the tables -/

/-- No two families or models share a slug, and no two variants a key; a family
belongs to an organization, a model to a family, a variant to a model. -/
structure Sound (db : Tables) : Prop where
  familySlugs : (db.families.map Family.slug).Nodup
  modelSlugs : (db.models.map Model.slug).Nodup
  keys : (db.variants.map Variant.ingestKey).Nodup
  manufacturers : ∀ family ∈ db.families, family.manufacturerOrgId < db.organizations.length
  families : ∀ model ∈ db.models, model.familyId < db.families.length
  models : ∀ variant ∈ db.variants, variant.modelId < db.models.length

theorem sound_seeded (organizations : List Organization) : Sound (.seeded organizations) where
  familySlugs := List.nodup_nil
  modelSlugs := List.nodup_nil
  keys := List.nodup_nil
  manufacturers := fun _ h => absurd h List.not_mem_nil
  families := fun _ h => absurd h List.not_mem_nil
  models := fun _ h => absurd h List.not_mem_nil

section

variable {sql} {db db' : Tables} {record : PreparedAircraftRecord}
variable {choice organization family model variantId : ℕ}

theorem Promoted.sound (h : Sound db)
    (hp : Promoted sql db record choice db' organization family model variantId) : Sound db' := by
  obtain ⟨hgrown, horganization⟩ := promoteOrganization_ok hp.organizations
  have hfamilies := congrArg Prod.fst hp.families
  have hfamily := congrArg Prod.snd hp.families
  have hmodels := congrArg Prod.fst hp.models
  have hmodel := congrArg Prod.snd hp.models
  have hvariants := congrArg Prod.fst (upsertVariant_ok hp.variants).1
  have hfamilyGrown := length_le_upsert Family.slug Family.reassign db.families
    (proposedFamily sql organization record.identity)
  have hfamilyId := lt_length_upsert Family.slug Family.reassign db.families
    (proposedFamily sql organization record.identity)
  have hmodelGrown := length_le_upsert Model.slug Model.reassign db.models
    (proposedModel sql family record.identity)
  have hmodelId := lt_length_upsert Model.slug Model.reassign db.models
    (proposedModel sql family record.identity)
  dsimp only at hfamilies hfamily hmodels hmodel hvariants
  rw [hfamilies] at hfamilyGrown hfamilyId
  rw [hfamily] at hfamilyId
  rw [hmodels] at hmodelGrown hmodelId
  rw [hmodel] at hmodelId
  -- the keys stay unique, and every row still points into the table above it
  refine ⟨?_, ?_, ?_, ?_, ?_, ?_⟩
  · rw [← hfamilies]
    exact nodup_upsert keepsKey_family h.familySlugs
  · rw [← hmodels]
    exact nodup_upsert keepsKey_model h.modelSlugs
  · rw [← hvariants]
    exact nodup_upsert keepsKey_variant h.keys
  · rw [← hfamilies]
    refine forall_mem_upsert (fun stored hstored => ?_) horganization fun _ _ _ _ => horganization
    exact lt_of_lt_of_le (h.manufacturers stored hstored) hgrown
  · rw [← hmodels]
    refine forall_mem_upsert (fun stored hstored => ?_) hfamilyId fun _ _ _ _ => hfamilyId
    exact lt_of_lt_of_le (h.families stored hstored) hfamilyGrown
  · rw [← hvariants]
    refine forall_mem_upsert (fun stored hstored => ?_) hmodelId fun _ _ _ hstored => hstored
    exact lt_of_lt_of_le (h.models stored hstored) hmodelGrown

theorem Promoted.variants_eq
    (hp : Promoted sql db record choice db' organization family model variantId) :
    db'.variants = (upsert Variant.ingestKey Variant.merge db.variants
      (proposedVariant sql db.variants model record)).1 := by
  rw [(upsertVariant_ok hp.variants).1]

theorem Promoted.length_variants
    (hp : Promoted sql db record choice db' organization family model variantId) :
    db.variants.length ≤ db'.variants.length := by
  rw [hp.variants_eq]
  exact length_le_upsert _ _ _ _

/-- The id a promotion returns is the one of the row it wrote. -/
theorem Promoted.getElem?_variant
    (hp : Promoted sql db record choice db' organization family model variantId) :
    db'.variants[variantId]? = some (written Variant.ingestKey Variant.merge db.variants
      (proposedVariant sql db.variants model record)) := by
  have hrow := getElem?_upsert Variant.ingestKey Variant.merge db.variants
    (proposedVariant sql db.variants model record)
  rw [(upsertVariant_ok hp.variants).1] at hrow
  exact hrow

/-- The rows of the other keys stay where they are, and no other is there. -/
theorem Promoted.getElem?_variants_of_ne
    (hp : Promoted sql db record choice db' organization family model variantId) {i : ℕ}
    {variant : Variant} (hne : variant.ingestKey ≠ record.sourceRecordKey) :
    db'.variants[i]? = some variant ↔ db.variants[i]? = some variant := by
  rw [hp.variants_eq]
  exact ⟨fun h => getElem?_of_upsert_ne keepsKey_variant h hne, fun h => getElem?_upsert_of_ne h hne⟩

/-- After a promotion the key of the record finds the row it wrote, every other
key what it found before. -/
theorem Promoted.lookup_variants (h : Sound db)
    (hp : Promoted sql db record choice db' organization family model variantId) (key : String) :
    lookup Variant.ingestKey db'.variants key =
      if key = record.sourceRecordKey then
        some (written Variant.ingestKey Variant.merge db.variants
          (proposedVariant sql db.variants model record))
      else lookup Variant.ingestKey db.variants key := by
  rw [hp.variants_eq]
  exact lookup_upsert keepsKey_variant h.keys key

/-- An import is refused and rolled back, or promotes its record. -/
theorem importIdentity_cases (sql : TextFunctions) (db : Tables) (call : Import) :
    (∃ violation, importIdentity sql db call = (db, some violation) ∧
      (violation = .later ∨ promoteIdentity sql db call.record call.choice = .error violation)) ∨
    ∃ db' organization family model variantId, importIdentity sql db call = (db', none) ∧
      Promoted sql db call.record call.choice db' organization family model variantId := by
  rcases hresult : promoteIdentity sql db call.record call.choice with violation | ⟨db', variantId⟩
  · exact .inl ⟨violation, by rw [importIdentity, hresult], .inr rfl⟩
  · rcases hcompletes : call.completes with - | -
    · refine .inl ⟨.later, ?_, .inl rfl⟩
      rw [importIdentity, hresult, hcompletes]
      rfl
    · obtain ⟨organization, family, model, hp⟩ := promoteIdentity_ok hresult
      refine .inr ⟨db', organization, family, model, variantId, ?_, hp⟩
      rw [importIdentity, hresult, hcompletes]
      rfl

/-- **Step rule**: what every promotion keeps, every import keeps. -/
theorem importIdentity_invariant {P : Tables → Prop} {call : Import} (h : P db)
    (hstep : ∀ {db' organization family model variantId},
      Promoted sql db call.record call.choice db' organization family model variantId → P db') :
    P (importIdentity sql db call).1 := by
  rcases importIdentity_cases sql db call with ⟨violation, heq, -⟩ | ⟨db', _, _, _, _, heq, hp⟩
  · rw [heq]
    exact h
  · rw [heq]
    exact hstep hp

theorem importIdentity_sound {call : Import} (h : Sound db) :
    Sound (importIdentity sql db call).1 :=
  importIdentity_invariant h fun hp => hp.sound h

/-- The tables of every run are sound. -/
theorem after_sound (sql : TextFunctions) (organizations : List Organization) (calls : List Import) :
    Sound (after (importIdentity sql) (.seeded organizations) calls) :=
  Transition.after_invariant (fun _ _ => importIdentity_sound) (sound_seeded organizations) calls

theorem completed_append_singleton (db : Tables) (calls : List Import) (call : Import) :
    completed sql db (calls ++ [call]) = completed sql db calls ++
      if (importIdentity sql (after (importIdentity sql) db calls) call).2.isNone then [call]
      else [] := by
  unfold completed
  rw [Transition.transcript_append_singleton, List.filter_append, List.map_append,
    List.filter_singleton]
  rcases (importIdentity sql (after (importIdentity sql) db calls) call).2.isNone <;> rfl

end

/-- A record that states its names and nothing else. -/
def namedRecord (key manufacturer aircraft : String) : PreparedAircraftRecord where
  sourceRecordKey := key
  identity := { manufacturerName := manufacturer, aircraftName := aircraft }
  lifecycle := {}
  performance := []
  weights := []
  propulsion := {}
  valuation := {}
  operatingCosts := []
  images := []
  provenance := ⟨key, none, none, scrapedSourceConfidence⟩
  issues := []
  rawDocument := .object []

end Identity

end AircraftApi
