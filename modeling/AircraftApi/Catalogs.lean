/-
AircraftApi/Catalogs.lean

`GET /v1/reference/{catalog}`: the seeded lookup catalogs, conditionally.

A catalog is read by its own statement, rendered once, and answered whole, or with
`304` where the client names the validator of what it would be sent.  Two catalogs with
one body have the same entries (`rendered_injective`), and the order of a statement is
total, so what it answers depends on the rows it selects only (`entries_congr`).
-/
import AircraftApi.Delimited
import AircraftApi.IssuedCursors
import AircraftApi.Normalization
import AircraftApi.Problem
import AircraftApi.Validators

namespace AircraftApi

namespace Reference

open Delimited Problem
open Catalog (utf8)

/-! ### The catalogs -/

/-- The catalogues served under `/v1/reference`. -/
inductive Catalog
  | unitCategories
  | measurementUnits
  | aircraftRoles
  | serviceStatuses
  | variantTypes
  | landingGearTypes
  | propulsionCategories
  | fuelTypes
  | dimensionMetricTypes
  | weightMetricTypes
  | performanceMetricTypes
  | certificationAuthorities
  | airworthinessCategories
  | pilotCertificateTypes
  | operatingApprovalTypes
  | militaryMissionTypes
  | weaponCategories
  | hardpointPositionTypes
  | storesTypes
  | currencies
  | costItemTypes
  | aircraftConditionGrades
  | adTypes
  | sbComplianceStatuses
  | availabilityGrades
  | sourceTypes
  | sourceReliabilityGrades
  | curationFlagStatuses
  | curationEntityTypes
  | assertionStatuses
  | missionProfileTypes
  | comparisonCriterionTypes
  | organizationTypes
  | orgRelationshipTypes
  | systemsCategories
  | equipmentProvisionTypes
  deriving DecidableEq, Repr

namespace Catalog

/-- `Catalog::ALL`. -/
def all : List Catalog := [
  .unitCategories, .measurementUnits, .aircraftRoles,
  .serviceStatuses, .variantTypes, .landingGearTypes,
  .propulsionCategories, .fuelTypes, .dimensionMetricTypes,
  .weightMetricTypes, .performanceMetricTypes, .certificationAuthorities,
  .airworthinessCategories, .pilotCertificateTypes, .operatingApprovalTypes,
  .militaryMissionTypes, .weaponCategories, .hardpointPositionTypes,
  .storesTypes, .currencies, .costItemTypes,
  .aircraftConditionGrades, .adTypes, .sbComplianceStatuses,
  .availabilityGrades, .sourceTypes, .sourceReliabilityGrades,
  .curationFlagStatuses, .curationEntityTypes, .assertionStatuses,
  .missionProfileTypes, .comparisonCriterionTypes, .organizationTypes,
  .orgRelationshipTypes, .systemsCategories, .equipmentProvisionTypes]

/-- The name of a catalogue in the path. -/
def slug : Catalog → String
  | unitCategories => "unit-categories"
  | measurementUnits => "measurement-units"
  | aircraftRoles => "aircraft-roles"
  | serviceStatuses => "service-statuses"
  | variantTypes => "variant-types"
  | landingGearTypes => "landing-gear-types"
  | propulsionCategories => "propulsion-categories"
  | fuelTypes => "fuel-types"
  | dimensionMetricTypes => "dimension-metric-types"
  | weightMetricTypes => "weight-metric-types"
  | performanceMetricTypes => "performance-metric-types"
  | certificationAuthorities => "certification-authorities"
  | airworthinessCategories => "airworthiness-categories"
  | pilotCertificateTypes => "pilot-certificate-types"
  | operatingApprovalTypes => "operating-approval-types"
  | militaryMissionTypes => "military-mission-types"
  | weaponCategories => "weapon-categories"
  | hardpointPositionTypes => "hardpoint-position-types"
  | storesTypes => "stores-types"
  | currencies => "currencies"
  | costItemTypes => "cost-item-types"
  | aircraftConditionGrades => "aircraft-condition-grades"
  | adTypes => "ad-types"
  | sbComplianceStatuses => "sb-compliance-statuses"
  | availabilityGrades => "availability-grades"
  | sourceTypes => "source-types"
  | sourceReliabilityGrades => "source-reliability-grades"
  | curationFlagStatuses => "curation-flag-statuses"
  | curationEntityTypes => "curation-entity-types"
  | assertionStatuses => "assertion-statuses"
  | missionProfileTypes => "mission-profile-types"
  | comparisonCriterionTypes => "comparison-criterion-types"
  | organizationTypes => "organization-types"
  | orgRelationshipTypes => "org-relationship-types"
  | systemsCategories => "systems-categories"
  | equipmentProvisionTypes => "equipment-provision-types"

/-- The catalog of a path segment. -/
def tryFrom (segment : String) : Option Catalog := all.find? fun catalog => catalog.slug = segment

end Catalog

/-- What the statement of a catalog selects: the table in `aircraft_ref`, whether it reads
`description` or a typed `NULL`, whether it leaves inactive rows out, and whether it
orders by `sort_order` before `code`. -/
structure Statement where
  table : String
  described : Bool
  filtered : Bool
  sorted : Bool
  deriving DecidableEq, Repr

/-- `SELECT code, label, description … WHERE is_active ORDER BY sort_order, code`. -/
def Statement.standard (table : String) : Statement := ⟨table, true, true, true⟩

/-- The query of a catalogue: its table, and whether it reads a description or inactive
rows. -/
def statement : Catalog → Statement
  | .unitCategories => ⟨"unit_categories", true, false, true⟩
  | .measurementUnits => ⟨"measurement_units", false, true, true⟩
  | .aircraftRoles => .standard "aircraft_roles"
  | .serviceStatuses => .standard "service_statuses"
  | .variantTypes => .standard "variant_types"
  | .landingGearTypes => .standard "landing_gear_types"
  | .propulsionCategories => .standard "propulsion_categories"
  | .fuelTypes => .standard "fuel_types"
  | .dimensionMetricTypes => .standard "dimension_metric_types"
  | .weightMetricTypes => .standard "weight_metric_types"
  | .performanceMetricTypes => .standard "performance_metric_types"
  | .certificationAuthorities => ⟨"certification_authorities", false, true, true⟩
  | .airworthinessCategories => .standard "airworthiness_categories"
  | .pilotCertificateTypes => .standard "pilot_certificate_types"
  | .operatingApprovalTypes => .standard "operating_approval_types"
  | .militaryMissionTypes => .standard "military_mission_types"
  | .weaponCategories => .standard "weapon_categories"
  | .hardpointPositionTypes => .standard "hardpoint_position_types"
  | .storesTypes => .standard "stores_types"
  | .currencies => ⟨"currencies", false, true, false⟩
  | .costItemTypes => .standard "cost_item_types"
  | .aircraftConditionGrades => .standard "aircraft_condition_grades"
  | .adTypes => .standard "ad_types"
  | .sbComplianceStatuses => .standard "sb_compliance_statuses"
  | .availabilityGrades => .standard "availability_grades"
  | .sourceTypes => .standard "source_types"
  | .sourceReliabilityGrades => .standard "source_reliability_grades"
  | .curationFlagStatuses => .standard "curation_flag_statuses"
  | .curationEntityTypes => .standard "curation_entity_types"
  | .assertionStatuses => .standard "assertion_statuses"
  | .missionProfileTypes => .standard "mission_profile_types"
  | .comparisonCriterionTypes => .standard "comparison_criterion_types"
  | .organizationTypes => .standard "organization_types"
  | .orgRelationshipTypes => .standard "org_relationship_types"
  | .systemsCategories => .standard "systems_categories"
  | .equipmentProvisionTypes => .standard "equipment_provision_types"

/-! ### The rows -/

/-- A row of a lookup table. -/
structure LookupRow where
  code : String
  label : String
  description : Option String
  sortOrder : ℤ
  isActive : Bool
  deriving DecidableEq

/-- A lookup table; `code` is its primary key. -/
structure LookupTable where
  rows : List LookupRow
  codes_nodup : (rows.map LookupRow.code).Nodup

/-- The collation of the database. -/
structure Collation where
  le : String → String → Bool
  total : ∀ a b, le a b = true ∨ le b a = true
  trans : ∀ a b c, le a b = true → le b c = true → le a c = true
  antisymm : ∀ a b, le a b = true → le b a = true → a = b

/-- A row as it is served. -/
structure CatalogEntry where
  code : String
  label : String
  description : Option String
  deriving DecidableEq

namespace Statement

variable (collation : Collation) (statement : Statement)

/-- `ORDER BY`. -/
def precedes (a b : LookupRow) : Bool :=
  if statement.sorted ∧ a.sortOrder ≠ b.sortOrder then a.sortOrder < b.sortOrder
  else collation.le a.code b.code

/-- The rows the query returns. -/
def selects (row : LookupRow) : Bool := !statement.filtered || row.isActive

/-- The columns the query returns. -/
def project (row : LookupRow) : CatalogEntry :=
  ⟨row.code, row.label, if statement.described then row.description else none⟩

/-- The rows of the table, as the statement serves them. -/
def select (limit : ℕ) (table : LookupTable) : List CatalogEntry :=
  (((table.rows.filter statement.selects).mergeSort (statement.precedes collation)).take limit).map
    statement.project

end Statement

/-- `MAX_CATALOG_ROWS`. -/
def maxCatalogRows : ℕ := 1000

/-- The lookup tables of a database, by name. -/
abbrev Database := String → LookupTable

/-- `SqlxCatalogReader::entries`; `failure` is what the database answers instead of rows. -/
def SqlxCatalogReader.entries (collation : Collation) (database : Database)
    (failure : Option PersistenceError) (catalog : Catalog) :
    Except PersistenceError (List CatalogEntry) :=
  match failure with
  | some error => .error error
  | none =>
      let statement := statement catalog
      let rows := statement.select collation (maxCatalogRows + 1) (database statement.table)
      if maxCatalogRows < rows.length then
        .error (.invariant ("reference catalog " ++ catalog.slug ++ " holds more than 1000 rows"))
      else .ok rows

/-! ### The route -/

/-- `CatalogEntryResponse` as JSON: a description the row does not have is left out. -/
def CatalogEntry.json (entry : CatalogEntry) : Json :=
  .object ([("code", .string entry.code), ("label", .string entry.label)] ++
    (entry.description.map fun description => ("description", Json.string description)).toList)

/-- The body of an answer. -/
def render (entries : List CatalogEntry) : List Char :=
  (Json.array (entries.map CatalogEntry.json)).render

/-- `serde_json::to_vec`. -/
def serialized (entries : List CatalogEntry) : List UInt8 := utf8 (String.ofList (render entries))

/-- The headers that let a client keep an answer. -/
structure CatalogHeaders where
  etag : String
  cacheControl : String
  deriving DecidableEq

/-- An answer of the endpoint. -/
inductive CatalogResponse
  | ok (headers : CatalogHeaders) (body : List UInt8)
  | notModified (headers : CatalogHeaders)
  | problem (response : ProblemResponse)
  deriving DecidableEq

/-- What is used of other packages: SHA-256, `HeaderValue::to_str` and the URI parser. -/
structure RouteCrates where
  sha256 : List UInt8 → List UInt8
  toStr : List UInt8 → Option String
  parseUri : String → Option Uri

/-- The headers a catalog is answered with. -/
def catalogHeaders (crates : RouteCrates) (entries : List CatalogEntry) : CatalogHeaders :=
  ⟨entityTag crates.sha256 (serialized entries), "private, no-cache"⟩

/-- The handler: the request's path, its segment, and its `If-None-Match` values. -/
def catalog (crates : RouteCrates) (reader : Catalog → Except PersistenceError (List CatalogEntry))
    (path requested : String) (ifNoneMatch : List (List UInt8)) : CatalogResponse :=
  match Catalog.tryFrom requested with
  | none => .problem (ApiProblem.new crates.parseUri .notFound path).intoResponse
  | some catalog =>
      match reader catalog with
      | .error (.database _ _) =>
          .problem (ApiProblem.new crates.parseUri .databaseUnavailable path).intoResponse
      | .error (.invariant _) =>
          .problem (ApiProblem.new crates.parseUri .internal path).intoResponse
      | .ok entries =>
          let headers := catalogHeaders crates entries
          if ifNoneMatchMatches crates.toStr ifNoneMatch headers.etag then .notModified headers
          else .ok headers (serialized entries)

/-! ### The segment -/

theorem mem_all (catalog : Catalog) : catalog ∈ Catalog.all := by
  cases catalog <;> decide

theorem slug_injective : Function.Injective Catalog.slug := by
  have hslugs : (Catalog.all.map Catalog.slug).Nodup := by decide
  exact fun a b h => List.inj_on_of_nodup_map hslugs (mem_all a) (mem_all b) h

/-- A segment is read as the catalog it spells. -/
theorem tryFrom_eq_some {segment : String} {catalog : Catalog} :
    Catalog.tryFrom segment = some catalog ↔ segment = catalog.slug := by
  constructor
  · intro h
    unfold Catalog.tryFrom at h
    have hfound := List.find?_some h
    exact (of_decide_eq_true hfound).symm
  · rintro rfl
    cases h : Catalog.tryFrom catalog.slug with
    | none =>
        unfold Catalog.tryFrom at h
        have hnone := List.find?_eq_none.mp h catalog (mem_all catalog)
        exact absurd (decide_eq_true rfl) hnone
    | some found =>
        unfold Catalog.tryFrom at h
        have hfound := List.find?_some h
        rw [slug_injective (of_decide_eq_true hfound)]

/-! ### Reading a body back -/

theorem escapeChar_plain {c : Char} (h : 32 ≤ c.toNat ∧ c ≠ '"' ∧ c ≠ '\\') :
    escapeChar c = [c] := by
  obtain ⟨hlow, hquote, hslash⟩ := h
  unfold escapeChar
  split
  · exact absurd rfl hquote
  · exact absurd rfl hslash
  · exact absurd hlow (by decide)
  · exact absurd hlow (by decide)
  · exact absurd hlow (by decide)
  · rw [if_neg (by omega), if_neg (by omega), if_neg (by omega)]

/-- The characters that are escaped. -/
def escaped : List Char := '"' :: '\\' :: (List.range 32).map Char.ofNat

theorem mem_escaped {c : Char} (h : ¬ (32 ≤ c.toNat ∧ c ≠ '"' ∧ c ≠ '\\')) : c ∈ escaped := by
  by_cases hlow : 32 ≤ c.toNat
  · by_cases hquote : c = '"'
    · exact hquote ▸ List.mem_cons_self
    · have hslash : c = '\\' := by
        by_contra hne
        exact h ⟨hlow, hquote, hne⟩
      exact hslash ▸ List.mem_cons_of_mem _ List.mem_cons_self
  · refine List.mem_cons_of_mem _ (List.mem_cons_of_mem _ (List.mem_map.mpr ⟨c.toNat, ?_, ?_⟩))
    · exact List.mem_range.mpr (by omega)
    · exact Char.ofNat_toNat c

theorem escaped_prefixFree {a b : Char} (ha : a ∈ escaped) (hb : b ∈ escaped)
    (h : escapeChar a <+: escapeChar b) : a = b := by
  have hall : (escaped.all fun a => escaped.all fun b =>
      (escapeChar a).isPrefixOf (escapeChar b) → a = b) = true := by
    decide
  have hab := List.all_eq_true.mp (List.all_eq_true.mp hall a ha) b hb
  exact of_decide_eq_true hab (List.isPrefixOf_iff_prefix.mpr h)

theorem escaped_head {a : Char} (ha : a ∈ escaped) :
    (escapeChar a).head? = some '\\' ∧ 2 ≤ (escapeChar a).length := by
  have hall : (escaped.all fun a =>
      (escapeChar a).head? = some '\\' ∧ 2 ≤ (escapeChar a).length) = true := by
    decide
  exact of_decide_eq_true (List.all_eq_true.mp hall a ha)

theorem escapeChar_selfDelimiting : SelfDelimiting escapeChar := by
  apply of_prefixFree
  intro a b hpre
  by_cases ha : 32 ≤ a.toNat ∧ a ≠ '"' ∧ a ≠ '\\'
  · rw [escapeChar_plain ha] at hpre
    by_cases hb : 32 ≤ b.toNat ∧ b ≠ '"' ∧ b ≠ '\\'
    · rw [escapeChar_plain hb] at hpre
      simpa using hpre
    · -- an escape begins with a backslash, and a plain character is none
      obtain ⟨tail, htail⟩ := hpre
      have hhead := (escaped_head (mem_escaped hb)).1
      rw [← htail] at hhead
      exact absurd (Option.some.inj hhead) ha.2.2
  · by_cases hb : 32 ≤ b.toNat ∧ b ≠ '"' ∧ b ≠ '\\'
    · have hlen := hpre.length_le
      rw [escapeChar_plain hb] at hlen
      have htwo := (escaped_head (mem_escaped ha)).2.trans hlen
      exact absurd htwo (Nat.lt_irrefl 1)
    · exact escaped_prefixFree (mem_escaped ha) (mem_escaped hb) hpre

/-- No escape begins with a quote. -/
theorem escapeChar_starts : Starts escapeChar '"' := by
  intro c
  by_cases hc : 32 ≤ c.toNat ∧ c ≠ '"' ∧ c ≠ '\\'
  · exact ⟨c, [], escapeChar_plain hc, hc.2.1⟩
  · have hhead := (escaped_head (mem_escaped hc)).1
    obtain ⟨tail, htail⟩ := List.head?_eq_some_iff.mp hhead
    exact ⟨'\\', tail, htail, by decide⟩

theorem renderString_selfDelimiting : SelfDelimiting renderString := by
  have hchars := escapeChar_selfDelimiting.terminated escapeChar_starts
  have hframed := (hchars.framed ['"'] []).comp fun s t h => String.toList_inj.mp h
  intro s t rest rest' heq
  refine hframed ?_
  simpa [renderString] using heq

/-- The text of an entry, its description last and optional. -/
theorem render_json (entry : CatalogEntry) : entry.json.render =
    ('\x7b' :: (renderString "code" ++ [':'])) ++ renderString entry.code ++
      (',' :: (renderString "label" ++ [':'])) ++ (renderString entry.label ++
      (entry.description.elim [] (fun description =>
        (',' :: (renderString "description" ++ [':'])) ++ renderString description ++ []) ++
      ['\x7d'])) := by
  rcases entry with ⟨code, label, description⟩
  cases description <;> simp [CatalogEntry.json, Json.render, renderMembers]

theorem json_selfDelimiting : SelfDelimiting fun entry : CatalogEntry => entry.json.render := by
  have hfield (name : String) :
      SelfDelimiting fun value =>
        (',' :: (renderString name ++ [':'])) ++ renderString value ++ [] :=
    renderString_selfDelimiting.framed _ _
  have hstart : Starts (fun value =>
      (',' :: (renderString "description" ++ [':'])) ++ renderString value ++ []) '\x7d' :=
    fun value => ⟨',', _, rfl, by decide⟩
  have hcode : SelfDelimiting fun value => ('\x7b' :: (renderString "code" ++ [':'])) ++
      renderString value ++ (',' :: (renderString "label" ++ [':'])) :=
    renderString_selfDelimiting.framed _ _
  have hparts := hcode.pair (renderString_selfDelimiting.pair
    ((hfield "description").optional hstart))
  have hentry : Function.Injective fun entry : CatalogEntry =>
      (entry.code, entry.label, entry.description) := by
    rintro ⟨code, label, description⟩ ⟨code', label', description'⟩ h
    simpa using h
  intro a b rest rest' heq
  refine hparts.comp hentry ?_
  simpa only [render_json] using heq

theorem json_starts : Starts (fun entry : CatalogEntry => entry.json.render) ']' := by
  intro entry
  exact ⟨'\x7b', _, rfl, by decide⟩

theorem renderItems_map (entries : List CatalogEntry) :
    renderItems (entries.map CatalogEntry.json) =
      separated ',' (fun entry : CatalogEntry => entry.json.render) entries := by
  induction entries with
  | nil => rfl
  | cons entry entries ih =>
      cases entries with
      | nil => rfl
      | cons next entries =>
          rw [separated_cons_cons, ← ih]
          rfl

/-- Two catalogs with one body have the same entries. -/
theorem rendered_injective : Function.Injective serialized := by
  have hlist := (json_selfDelimiting.separated json_starts (by decide : ',' ≠ ']')).framed ['['] []
  intro entries entries' h
  have htext : render entries = render entries' := by
    have hstring := AircraftApi.Catalog.utf8_injective h
    exact String.ofList_inj.mp hstring
  apply hlist.injective
  simpa [render, Json.render, renderItems_map] using htext

/-! ### The order of the rows -/

section

variable {collation : Collation} {statement : Statement} {a b : LookupRow}

theorem precedes_iff : statement.precedes collation a b = true ↔
    (statement.sorted = true ∧ a.sortOrder < b.sortOrder) ∨
      ((statement.sorted = true → a.sortOrder = b.sortOrder) ∧
        collation.le a.code b.code = true) := by
  unfold Statement.precedes
  by_cases hsorted : statement.sorted = true
  · by_cases heq : a.sortOrder = b.sortOrder
    · simp [hsorted, heq]
    · simp [hsorted, heq]
  · simp [hsorted]

theorem precedes_total (a b : LookupRow) : statement.precedes collation a b = true ∨
    statement.precedes collation b a = true := by
  rw [precedes_iff, precedes_iff]
  by_cases hsorted : statement.sorted = true
  · rcases lt_trichotomy a.sortOrder b.sortOrder with hlt | heq | hgt
    · exact .inl (.inl ⟨hsorted, hlt⟩)
    · rcases collation.total a.code b.code with hle | hle
      · exact .inl (.inr ⟨fun _ => heq, hle⟩)
      · exact .inr (.inr ⟨fun _ => heq.symm, hle⟩)
    · exact .inr (.inl ⟨hsorted, hgt⟩)
  · rcases collation.total a.code b.code with hle | hle
    · exact .inl (.inr ⟨fun h => absurd h hsorted, hle⟩)
    · exact .inr (.inr ⟨fun h => absurd h hsorted, hle⟩)

theorem precedes_trans (a b c : LookupRow) (hab : statement.precedes collation a b = true)
    (hbc : statement.precedes collation b c = true) : statement.precedes collation a c = true := by
  rw [precedes_iff] at hab hbc ⊢
  rcases hab with ⟨hsorted, hab⟩ | ⟨heq, hab⟩
  · rcases hbc with ⟨-, hbc⟩ | ⟨heq, -⟩
    · exact .inl ⟨hsorted, hab.trans hbc⟩
    · exact .inl ⟨hsorted, heq hsorted ▸ hab⟩
  · rcases hbc with ⟨hsorted, hbc⟩ | ⟨heq', hbc⟩
    · exact .inl ⟨hsorted, (heq hsorted).symm ▸ hbc⟩
    · exact .inr ⟨fun h => (heq h).trans (heq' h), collation.trans _ _ _ hab hbc⟩

theorem precedes_antisymm (hab : statement.precedes collation a b = true)
    (hba : statement.precedes collation b a = true) : a.code = b.code := by
  rw [precedes_iff] at hab hba
  rcases hab with ⟨hsorted, hab⟩ | ⟨heq, hab⟩
  · rcases hba with ⟨-, hba⟩ | ⟨heq, -⟩
    · exact absurd hba hab.asymm
    · exact absurd (heq hsorted) hab.ne'
  · rcases hba with ⟨hsorted, hba⟩ | ⟨-, hba⟩
    · exact absurd (heq hsorted) hba.ne'
    · exact collation.antisymm _ _ hab hba

/-- The rows are served in one order, whatever order the table holds them in. -/
theorem select_congr {limit : ℕ} {table table' : LookupTable}
    (h : (table.rows.filter statement.selects).Perm (table'.rows.filter statement.selects)) :
    statement.select collation limit table = statement.select collation limit table' := by
  have hsorted (rows : List LookupRow) : (rows.mergeSort (statement.precedes collation)).Pairwise
      fun a b => statement.precedes collation a b = true :=
    List.pairwise_mergeSort precedes_trans
      (fun a b => (Bool.or_eq_true _ _).mpr (precedes_total a b)) rows
  have hcode : ∀ a ∈ table.rows, ∀ b ∈ table.rows, a.code = b.code → a = b :=
    fun a ha b hb => List.inj_on_of_nodup_map table.codes_nodup ha hb
  have heq : (table.rows.filter statement.selects).mergeSort (statement.precedes collation) =
      (table'.rows.filter statement.selects).mergeSort (statement.precedes collation) := by
    refine List.Perm.eq_of_pairwise ?_ (hsorted _) (hsorted _)
      ((List.mergeSort_perm _ _).trans (h.trans (List.mergeSort_perm _ _).symm))
    intro a b ha hb hab hba
    have hmem {row : LookupRow} (hrow : row ∈ table.rows.filter statement.selects) :
        row ∈ table.rows := List.mem_of_mem_filter hrow
    have hb' : b ∈ table.rows.filter statement.selects :=
      h.mem_iff.mpr (List.mem_mergeSort.mp hb)
    exact hcode a (hmem (List.mem_mergeSort.mp ha)) b (hmem hb') (precedes_antisymm hab hba)
  rw [Statement.select, Statement.select, heq]

end

/-- The statement of the catalog selects the same rows from both. -/
def SameRows (catalog : Catalog) (database database' : Database) : Prop :=
  ((database (statement catalog).table).rows.filter (statement catalog).selects).Perm
    ((database' (statement catalog).table).rows.filter (statement catalog).selects)

theorem entries_congr {collation : Collation} {catalog : Catalog} {database database' : Database}
    (h : SameRows catalog database database') (failure : Option PersistenceError) :
    SqlxCatalogReader.entries collation database failure catalog =
      SqlxCatalogReader.entries collation database' failure catalog := by
  cases failure with
  | some error => rfl
  | none => simp only [SqlxCatalogReader.entries, select_congr h]

end Reference

end AircraftApi
