/-
AircraftApi/Powerplants.lean

The engines of the variants over sequences of imports (`promote_engine`): the
catalogue of engines, one row a slug, and the powerplant that links a variant to
its engine as the standard and the primary one.

The link's upsert conflicts on the pair of variant and engine, while a variant
may have one primary row only.  So an engine whose name gives another slug than
the linked engine's is a second primary row, which `uq_vp_primary` refuses and
with it the artifact; the imports that state no engine, or the linked one, are
the `Steady` ones.

    Catalogued db                  what holds of the tables of every run
    importEngine_unique_iff        a unique index refuses an import exactly
                                   when it is not steady and its values load
    engine_imports_iff             the same of every run, and the primary
                                   powerplants after it
-/
import AircraftApi.Market
import AircraftApi.Transition

namespace AircraftApi

namespace Powerplants

open Curation (optionalNumeric)
open Numeric (rounded)
open Slug (slugify slugText)
open Transition (after transcript)

/-! ### Tables -/

/-- The columns of `engine_variants` the adapter writes. -/
structure EngineVariant where
  slug : List Char
  manufacturerNameRaw : String
  modelDesignation : String
  hpRated : Option ℚ
  ratedThrustN : Option ℚ
  thrustLbfDry : Option ℚ
  tboHours : Option ℤ
  tboYears : Option ℤ
  deriving DecidableEq

/-- Which engine a variant has, and how many. -/
structure VariantPowerplant where
  variantId : ℕ
  engineVariantId : ℕ
  engineCount : Option ℤ
  isStandard : Bool
  isOptional : Bool
  isPrimary : Bool
  sourceDocumentId : ℕ
  deriving DecidableEq

/-- The tables of the engines. -/
structure Tables where
  engineVariants : List EngineVariant
  variantPowerplants : List VariantPowerplant
  deriving DecidableEq

/-- No engine known. -/
def Tables.empty : Tables := ⟨[], []⟩

/-- Why the database refuses a statement: a unique index, or a value its column
does not take. -/
inductive Refusal
  | unique (index : String)
  | value
  deriving DecidableEq

/-! ### Statements -/

variable (lower : Char → Char)

/-- `slugify($1 || '-' || $2)`. -/
def engineSlug (manufacturer model : String) : List Char :=
  slugify lower (manufacturer.toList ++ "-".toList ++ model.toList)

/-- The row an import proposes, none for a value out of its column: slug_text,
the casts, chk_ev_hp_nonneg, chk_ev_thrust_nonneg and chk_ev_tbo. -/
def proposedEngine (engine : PropulsionInput) (manufacturer model : String) :
    Option EngineVariant := do
  let hp ← optionalNumeric engine.horsepower
  let thrust ← optionalNumeric engine.thrustNewtons
  let pounds := thrust.map fun q => rounded 2 (q * (224809 / 1000000))
  if slugText (engineSlug lower manufacturer model) ∧ hp.all (0 ≤ ·) ∧ thrust.all (0 ≤ ·) ∧
      pounds.all (0 ≤ ·) ∧ engine.tboHours.all (0 < ·) ∧ engine.tboYears.all (0 < ·) then
    some ⟨engineSlug lower manufacturer model, manufacturer, model, hp, thrust, pounds,
      engine.tboHours, engine.tboYears⟩
  else none

/-- `COALESCE(EXCLUDED, stored)`: what the newer run states wins. -/
def EngineVariant.coalesce (stored excluded : EngineVariant) : EngineVariant :=
  { stored with
    hpRated := excluded.hpRated.or stored.hpRated
    ratedThrustN := excluded.ratedThrustN.or stored.ratedThrustN
    thrustLbfDry := excluded.thrustLbfDry.or stored.thrustLbfDry
    tboHours := excluded.tboHours.or stored.tboHours
    tboYears := excluded.tboYears.or stored.tboYears }

/-- `INSERT INTO engine_variants ... ON CONFLICT(slug) DO UPDATE ... RETURNING id`. -/
def upsertEngine (db : Tables) (row : EngineVariant) : Except Refusal (Tables × ℕ) :=
  match db.engineVariants.findIdx? fun stored => stored.slug = row.slug with
  | some id =>
      .ok ({ db with engineVariants := db.engineVariants.modify id (·.coalesce row) }, id)
  | none =>
      if db.engineVariants.any fun stored =>
          stored.manufacturerNameRaw = row.manufacturerNameRaw ∧
            stored.modelDesignation = row.modelDesignation then
        .error (.unique "uq_engine_variant_raw_dedup")
      else .ok ({ db with engineVariants := db.engineVariants ++ [row] }, db.engineVariants.length)

/-- `INSERT INTO variant_powerplants ... ON CONFLICT(variant_id,engine_variant_id)
DO UPDATE`; chk_vp_engine_count comes before the indexes. -/
def upsertPowerplant (db : Tables) (row : VariantPowerplant) : Except Refusal Tables :=
  if row.engineCount.any (· < 1) then .error .value
  else
    match db.variantPowerplants.findIdx? fun stored =>
        stored.variantId = row.variantId ∧ stored.engineVariantId = row.engineVariantId with
    | some id =>
        .ok { db with variantPowerplants := db.variantPowerplants.modify id fun stored =>
          { stored with engineCount := row.engineCount.or stored.engineCount } }
    | none =>
        if row.isPrimary ∧ db.variantPowerplants.any fun stored =>
            stored.variantId = row.variantId ∧ stored.isPrimary then
          .error (.unique "uq_vp_primary")
        else if row.isStandard ∧ db.variantPowerplants.any fun stored =>
            stored.variantId = row.variantId ∧ stored.isStandard then
          .error (.unique "uq_vp_standard_per_variant")
        else .ok { db with variantPowerplants := db.variantPowerplants ++ [row] }

/-- The engine of a record, if it names a model. -/
def promoteEngine (db : Tables) (engine : PropulsionInput) (variantId documentId : ℕ) :
    Except Refusal Tables :=
  match engine.model with
  | none => .ok db
  | some model =>
    match proposedEngine lower engine (engine.manufacturer.getD "unknown") model with
    | none => .error .value
    | some row => do
      let (db, engineId) ← upsertEngine db row
      upsertPowerplant db ⟨variantId, engineId, engine.engineCount, true, false, true, documentId⟩

/-! ### Runs -/

/-- The import of an engine from an artifact. -/
structure Import where
  engine : PropulsionInput
  variantId : ℕ
  documentId : ℕ

/-- An import that is refused is rolled back. -/
def importEngine (db : Tables) (call : Import) : Tables × Option Refusal :=
  match promoteEngine lower db call.engine call.variantId call.documentId with
  | .ok db' => (db', none)
  | .error refusal => (db, some refusal)

/-- The primary powerplants of a variant. -/
def Tables.primaries (db : Tables) (variantId : ℕ) : List VariantPowerplant :=
  db.variantPowerplants.filter fun row => row.variantId = variantId ∧ row.isPrimary

/-- The import states no engine model, or one whose slug is the one of the
engine already linked to the variant, if one is. -/
def Steady (db : Tables) (call : Import) : Prop :=
  ∀ model ∈ call.engine.model, ∀ row ∈ db.variantPowerplants, row.variantId = call.variantId →
    ∀ engine, db.engineVariants[row.engineVariantId]? = some engine →
      engine.slug = engineSlug lower (call.engine.manufacturer.getD "unknown") model

/-- The import states an engine model, and the values load, those of the engine
and its count. -/
def Loads (call : Import) : Prop :=
  ∃ model ∈ call.engine.model,
    proposedEngine lower call.engine (call.engine.manufacturer.getD "unknown") model ≠ none ∧
      call.engine.engineCount.all (1 ≤ ·)

/-- Every import of the list whose values load is steady in the state it finds. -/
def Steadily : Tables → List Import → Prop
  | _, [] => True
  | db, call :: calls =>
      (Loads lower call → Steady lower db call) ∧ Steadily (importEngine lower db call).1 calls

/-! ### What holds of the tables -/

/-- An engine's slug is made of its names, and no two share one; a powerplant
links its variant to an engine of the catalogue as the primary and standard
one, and no variant has two. -/
structure Catalogued (db : Tables) : Prop where
  named : ∀ engine ∈ db.engineVariants,
    engine.slug = engineSlug lower engine.manufacturerNameRaw engine.modelDesignation
  slugs : (db.engineVariants.map EngineVariant.slug).Nodup
  linked : ∀ row ∈ db.variantPowerplants, row.engineVariantId < db.engineVariants.length ∧
    row.isPrimary = true ∧ row.isStandard = true
  one : (db.variantPowerplants.map VariantPowerplant.variantId).Nodup

theorem catalogued_empty : Catalogued lower .empty where
  named := by
    intro engine hengine
    cases hengine
  slugs := List.nodup_nil
  linked := by
    intro row hrow
    cases hrow
  one := List.nodup_nil

section

variable {lower}
variable {db : Tables} {row : EngineVariant}

theorem proposedEngine_named {engine : PropulsionInput} {manufacturer model : String}
    (h : proposedEngine lower engine manufacturer model = some row) :
    row.slug = engineSlug lower row.manufacturerNameRaw row.modelDesignation ∧
      row.slug = engineSlug lower manufacturer model := by
  unfold proposedEngine at h
  obtain ⟨hp, -, h⟩ := Option.bind_eq_some_iff.mp h
  obtain ⟨thrust, -, h⟩ := Option.bind_eq_some_iff.mp h
  dsimp only at h
  split_ifs at h
  cases h
  exact ⟨rfl, rfl⟩

/-- The catalogue takes every engine: no other row has the names of its slug. -/
theorem upsertEngine_ok (h : Catalogued lower db)
    (hrow : row.slug = engineSlug lower row.manufacturerNameRaw row.modelDesignation) :
    ∃ db' id, upsertEngine db row = .ok (db', id) ∧ Catalogued lower db' ∧
      db'.variantPowerplants = db.variantPowerplants ∧
      (∃ engine, db'.engineVariants[id]? = some engine ∧ engine.slug = row.slug) ∧
      ∀ (i : ℕ) (engine : EngineVariant), db.engineVariants[i]? = some engine →
        ∃ engine', db'.engineVariants[i]? = some engine' ∧ engine'.slug = engine.slug := by
  unfold upsertEngine
  split
  · rename_i id hid
    -- the row that stands keeps its slug and names
    have hsame : (db.engineVariants.modify id (·.coalesce row)).map EngineVariant.slug
        = db.engineVariants.map EngineVariant.slug := by
      apply List.ext_getElem?
      intro i
      rw [List.getElem?_map, List.getElem?_map, List.getElem?_modify]
      rcases db.engineVariants[i]? with - | engine
      · rfl
      · split_ifs <;> rfl
    have hlookup : ∀ (i : ℕ) (engine : EngineVariant), db.engineVariants[i]? = some engine →
        ∃ engine', (db.engineVariants.modify id (·.coalesce row))[i]? = some engine' ∧
          engine'.slug = engine.slug := by
      intro i engine hengine
      rw [List.getElem?_modify, hengine]
      split_ifs
      · exact ⟨_, rfl, rfl⟩
      · exact ⟨engine, rfl, rfl⟩
    refine ⟨_, id, rfl, ⟨?_, by rw [hsame]; exact h.slugs, ?_, h.one⟩, rfl, ?_, hlookup⟩
    · intro engine hengine
      obtain ⟨i, hi⟩ := List.mem_iff_getElem?.mp hengine
      rw [List.getElem?_modify] at hi
      obtain ⟨stored, hstored, hmodified⟩ := Option.map_eq_some_iff.mp hi
      have hnamed := h.named stored (List.mem_of_getElem? hstored)
      split_ifs at hmodified
      · rw [← hmodified]
        exact hnamed
      · rw [← hmodified]
        exact hnamed
    · intro stored hstored
      rw [List.length_modify]
      exact h.linked stored hstored
    · obtain ⟨hlt, hslug, -⟩ := List.findIdx?_eq_some_iff_getElem.mp hid
      obtain ⟨engine', hengine', hkept⟩ := hlookup id _ (List.getElem?_eq_getElem hlt)
      exact ⟨engine', hengine', hkept.trans (of_decide_eq_true hslug)⟩
  · rename_i hid
    have hnew : ∀ stored ∈ db.engineVariants, stored.slug ≠ row.slug := by
      simpa using List.findIdx?_eq_none_iff.mp hid
    have hnames : (db.engineVariants.any fun stored =>
        stored.manufacturerNameRaw = row.manufacturerNameRaw ∧
          stored.modelDesignation = row.modelDesignation) = false := by
      rw [List.any_eq_false]
      intro stored hstored hsame
      obtain ⟨hmanufacturer, hmodel⟩ := of_decide_eq_true hsame
      refine hnew stored hstored ?_
      rw [h.named stored hstored, hmanufacturer, hmodel, hrow]
    refine ⟨_, _, if_neg (by rw [hnames]; exact Bool.false_ne_true), ⟨?_, ?_, ?_, h.one⟩, rfl,
      ⟨row, ?_, rfl⟩, ?_⟩
    · intro engine hengine
      rcases List.mem_append.mp hengine with hold | hengine
      · exact h.named engine hold
      · rw [List.mem_singleton.mp hengine]
        exact hrow
    · rw [List.map_append, List.nodup_append]
      refine ⟨h.slugs, List.nodup_singleton _, ?_⟩
      intro slug hslug other hother heq
      obtain ⟨stored, hstored, rfl⟩ := List.mem_map.mp hslug
      exact hnew stored hstored (heq.trans (List.mem_singleton.mp hother))
    · intro stored hstored
      obtain ⟨hid, hflags⟩ := h.linked stored hstored
      exact ⟨by rw [List.length_append]; omega, hflags⟩
    · exact List.getElem?_concat_length
    · intro i engine hengine
      refine ⟨engine, ?_, rfl⟩
      rw [List.getElem?_append_left (List.getElem?_eq_some_iff.mp hengine).1, hengine]

/-- The slug finds the engine. -/
theorem getElem?_inj_of_slug (h : Catalogued lower db) {i j : ℕ} {engine other : EngineVariant}
    (hi : db.engineVariants[i]? = some engine) (hj : db.engineVariants[j]? = some other)
    (hslug : engine.slug = other.slug) : i = j := by
  refine (List.getElem?_inj ?_ h.slugs).mp ?_
  · rw [List.length_map]
    exact (List.getElem?_eq_some_iff.mp hi).1
  · rw [List.getElem?_map, List.getElem?_map, hi, hj, Option.map_some, Option.map_some, hslug]

/-- The primary link of a variant with none, or with this very engine. -/
theorem upsertPowerplant_ok (h : Catalogued lower db) (link : VariantPowerplant)
    (hengine : link.engineVariantId < db.engineVariants.length)
    (hflags : link.isPrimary = true ∧ link.isStandard = true)
    (hcount : link.engineCount.any (· < 1) = false)
    (hsame : ∀ stored ∈ db.variantPowerplants, stored.variantId = link.variantId →
      stored.engineVariantId = link.engineVariantId) :
    ∃ db', upsertPowerplant db link = .ok db' ∧ Catalogued lower db' ∧
      ∀ variantId, variantId ∈ db'.variantPowerplants.map VariantPowerplant.variantId ↔
        variantId = link.variantId ∨
          variantId ∈ db.variantPowerplants.map VariantPowerplant.variantId := by
  unfold upsertPowerplant
  rw [if_neg (by rw [hcount]; exact Bool.false_ne_true)]
  split
  · rename_i id hid
    obtain ⟨hlt, hpair, -⟩ := List.findIdx?_eq_some_iff_getElem.mp hid
    have hpair := of_decide_eq_true hpair
    -- only the count of the row changes
    have hrows : ∀ stored ∈ db.variantPowerplants.modify id (fun stored : VariantPowerplant =>
          { stored with engineCount := link.engineCount.or stored.engineCount }),
        ∃ old ∈ db.variantPowerplants, stored.variantId = old.variantId ∧
          stored.engineVariantId = old.engineVariantId ∧ stored.isPrimary = old.isPrimary ∧
          stored.isStandard = old.isStandard := by
      intro stored hstored
      obtain ⟨i, hi⟩ := List.mem_iff_getElem?.mp hstored
      rw [List.getElem?_modify] at hi
      obtain ⟨old, hold, hmodified⟩ := Option.map_eq_some_iff.mp hi
      refine ⟨old, List.mem_of_getElem? hold, ?_⟩
      split_ifs at hmodified
      · rw [← hmodified]
        exact ⟨rfl, rfl, rfl, rfl⟩
      · rw [← hmodified]
        exact ⟨rfl, rfl, rfl, rfl⟩
    have hids : (db.variantPowerplants.modify id fun stored : VariantPowerplant =>
          { stored with engineCount := link.engineCount.or stored.engineCount }).map
            VariantPowerplant.variantId
        = db.variantPowerplants.map VariantPowerplant.variantId := by
      apply List.ext_getElem?
      intro i
      rw [List.getElem?_map, List.getElem?_map, List.getElem?_modify]
      rcases db.variantPowerplants[i]? with - | stored
      · rfl
      · split_ifs <;> rfl
    refine ⟨_, rfl, ⟨h.named, h.slugs, ?_, by rw [hids]; exact h.one⟩, ?_⟩
    · intro stored hstored
      obtain ⟨old, hold, -, hlink, hprimary, hstandard⟩ := hrows stored hstored
      rw [hlink, hprimary, hstandard]
      exact h.linked old hold
    · intro variantId
      rw [hids]
      refine ⟨Or.inr, ?_⟩
      rintro (rfl | hmem)
      · exact List.mem_map.mpr ⟨_, List.getElem_mem hlt, hpair.1⟩
      · exact hmem
  · rename_i hid
    have hnone : ∀ stored ∈ db.variantPowerplants, stored.variantId ≠ link.variantId := by
      intro stored hstored hvariant
      have hpair := List.findIdx?_eq_none_iff.mp hid stored hstored
      exact of_decide_eq_false hpair ⟨hvariant, hsame stored hstored hvariant⟩
    have hfree : ∀ flag : VariantPowerplant → Bool,
        (db.variantPowerplants.any fun stored =>
          stored.variantId = link.variantId ∧ flag stored) = false := by
      intro flag
      rw [List.any_eq_false]
      intro stored hstored hsome
      exact hnone stored hstored (of_decide_eq_true hsome).1
    rw [if_neg (by rw [hfree]; simp), if_neg (by rw [hfree]; simp)]
    refine ⟨_, rfl, ⟨h.named, h.slugs, ?_, ?_⟩, ?_⟩
    · intro stored hstored
      rcases List.mem_append.mp hstored with hold | hnew
      · exact h.linked stored hold
      · rw [List.mem_singleton.mp hnew]
        exact ⟨hengine, hflags⟩
    · rw [List.map_append, List.nodup_append]
      refine ⟨h.one, List.nodup_singleton _, ?_⟩
      intro id hid other hother heq
      obtain ⟨stored, hstored, rfl⟩ := List.mem_map.mp hid
      exact hnone stored hstored (heq.trans (List.mem_singleton.mp hother))
    · intro variantId
      rw [List.map_append, List.mem_append, or_comm]
      simp

/-- The primary link of a variant that has another engine. -/
theorem upsertPowerplant_unique (h : Catalogued lower db) {link : VariantPowerplant}
    (hflags : link.isPrimary = true)
    (hcount : link.engineCount.any (· < 1) = false)
    (hother : ∃ stored ∈ db.variantPowerplants, stored.variantId = link.variantId ∧
      stored.engineVariantId ≠ link.engineVariantId) :
    upsertPowerplant db link = .error (.unique "uq_vp_primary") := by
  obtain ⟨stored, hstored, hvariant, hne⟩ := hother
  unfold upsertPowerplant
  rw [if_neg (by rw [hcount]; exact Bool.false_ne_true)]
  split
  · -- the variant has one row, and it is not this engine's
    rename_i id hid
    obtain ⟨hlt, hpair, -⟩ := List.findIdx?_eq_some_iff_getElem.mp hid
    have hpair := of_decide_eq_true hpair
    have hrow : db.variantPowerplants[id] = stored :=
      List.inj_on_of_nodup_map h.one (List.getElem_mem hlt) hstored (hpair.1.trans hvariant.symm)
    rw [hrow] at hpair
    exact absurd hpair.2 hne
  · have hprimary : (db.variantPowerplants.any fun stored =>
        stored.variantId = link.variantId ∧ stored.isPrimary) = true :=
      List.any_eq_true.mpr ⟨stored, hstored,
        decide_eq_true ⟨hvariant, (h.linked stored hstored).2.1⟩⟩
    rw [if_pos ⟨hflags, hprimary⟩]

end

/-! ### One import -/

section

variable {lower}
variable {db : Tables} {call : Import}

/-- The variants that have a powerplant. -/
def Tables.powered (db : Tables) : List ℕ := db.variantPowerplants.map VariantPowerplant.variantId

/-- What an import does: none without a model; refused for its values; linked
when steady; or refused by the index of primaries. -/
inductive Outcome (lower : Char → Char) (db : Tables) (call : Import) : Tables × Option Refusal → Prop
  | unstated : call.engine.model = none → Outcome lower db call (db, none)
  | refused : call.engine.model ≠ none → ¬ Loads lower call →
      Outcome lower db call (db, some .value)
  | linked {db'} : Loads lower call → Steady lower db call → Catalogued lower db' →
      (∀ variantId, variantId ∈ db'.powered ↔
        variantId = call.variantId ∨ variantId ∈ db.powered) →
      Outcome lower db call (db', none)
  | second : Loads lower call → ¬ Steady lower db call →
      Outcome lower db call (db, some (.unique "uq_vp_primary"))

theorem importEngine_outcome (h : Catalogued lower db) (call : Import) :
    Outcome lower db call (importEngine lower db call) := by
  rcases hmodel : call.engine.model with - | model
  · have hnone : importEngine lower db call = (db, none) := by
      rw [importEngine, promoteEngine, hmodel]
    rw [hnone]
    exact .unstated hmodel
  have hsome : call.engine.model ≠ none := by
    rw [hmodel]
    exact Option.some_ne_none model
  rcases hrow : proposedEngine lower call.engine (call.engine.manufacturer.getD "unknown") model
    with - | row
  · have hrefused : importEngine lower db call = (db, some .value) := by
      simp only [importEngine, promoteEngine, hmodel, hrow]
    rw [hrefused]
    refine .refused hsome ?_
    rintro ⟨model', hmodel', hloads, -⟩
    rw [hmodel, Option.mem_some] at hmodel'
    exact hloads (hmodel' ▸ hrow)
  obtain ⟨hnamed, hslug⟩ := proposedEngine_named hrow
  obtain ⟨db₁, id, hupsert, h₁, hsame, ⟨engine, hengine, hengineSlug⟩, hkept⟩ :=
    upsertEngine_ok h hnamed
  have himport : importEngine lower db call =
      match upsertPowerplant db₁
        ⟨call.variantId, id, call.engine.engineCount, true, false, true, call.documentId⟩ with
      | .ok db' => (db', none)
      | .error refusal => (db, some refusal) := by
    simp only [importEngine, promoteEngine, hmodel, hrow, hupsert]
    rfl
  by_cases hcount : call.engine.engineCount.any (· < 1) = true
  · have hrefused : importEngine lower db call = (db, some .value) := by
      rw [himport, upsertPowerplant, if_pos hcount]
    rw [hrefused]
    refine .refused hsome ?_
    rintro ⟨-, -, -, hall⟩
    rw [Option.any_eq_true] at hcount
    obtain ⟨count, hsomeCount, hlow⟩ := hcount
    rw [hsomeCount, Option.all_some, decide_eq_true_eq] at hall
    exact absurd (of_decide_eq_true hlow) (by omega)
  have hcount : call.engine.engineCount.any (· < 1) = false := Bool.eq_false_iff.mpr hcount
  have hloads : Loads lower call := by
    refine ⟨model, hmodel, by rw [hrow]; exact Option.some_ne_none row, ?_⟩
    rw [Option.any_eq_false] at hcount
    rw [Option.all_eq_true]
    intro count hsomeCount
    have hlow := of_decide_eq_false (hcount count hsomeCount)
    exact decide_eq_true (by omega)
  -- the engine linked to the variant, if one is, has the slug of its stored row
  have hlinks : ∀ stored ∈ db.variantPowerplants, ∃ old new,
      db.engineVariants[stored.engineVariantId]? = some old ∧
        db₁.engineVariants[stored.engineVariantId]? = some new ∧ new.slug = old.slug := by
    intro stored hstored
    have hold := List.getElem?_eq_getElem (h.linked stored hstored).1
    obtain ⟨new, hnew, hslugs⟩ := hkept _ _ hold
    exact ⟨_, new, hold, hnew, hslugs⟩
  by_cases hsteady : Steady lower db call
  · obtain ⟨db', hlinked, h', hpowered⟩ := upsertPowerplant_ok h₁
      ⟨call.variantId, id, call.engine.engineCount, true, false, true, call.documentId⟩
      (List.getElem?_eq_some_iff.mp hengine).1 ⟨rfl, rfl⟩ hcount (by
        intro stored hstored hvariant
        rw [hsame] at hstored
        obtain ⟨old, new, hold, hnew, hslugs⟩ := hlinks stored hstored
        refine getElem?_inj_of_slug h₁ hnew hengine ?_
        rw [hslugs, hengineSlug, hslug]
        exact hsteady model hmodel stored hstored hvariant old hold)
    rw [himport, hlinked]
    refine .linked hloads hsteady h' ?_
    rw [hsame] at hpowered
    exact hpowered
  · have hother : ∃ stored ∈ db.variantPowerplants, stored.variantId = call.variantId ∧
        stored.engineVariantId ≠ id := by
      by_contra hnone
      push Not at hnone
      refine hsteady fun model' hmodel' stored hstored hvariant old hold => ?_
      rw [hmodel, Option.mem_some] at hmodel'
      obtain ⟨old', new, hold', hnew, hslugs⟩ := hlinks stored hstored
      rw [hold, Option.some.injEq] at hold'
      rw [hnone stored hstored hvariant, hengine, Option.some.injEq] at hnew
      rw [hold', ← hslugs, ← hnew, hengineSlug, hslug, hmodel']
    have hrefused : importEngine lower db call = (db, some (.unique "uq_vp_primary")) := by
      rw [himport, upsertPowerplant_unique h₁ rfl hcount (by rw [hsame]; exact hother)]
    rw [hrefused]
    exact .second hloads hsteady

theorem importEngine_catalogued (h : Catalogued lower db) :
    Catalogued lower (importEngine lower db call).1 := by
  have houtcome := importEngine_outcome h call
  generalize importEngine lower db call = answer at houtcome ⊢
  cases houtcome with
  | unstated => exact h
  | refused => exact h
  | linked _ _ h' => exact h'
  | second => exact h

theorem importEngine_unique_iff (h : Catalogued lower db) :
    (∃ index, (importEngine lower db call).2 = some (.unique index)) ↔
      Loads lower call ∧ ¬ Steady lower db call := by
  have houtcome := importEngine_outcome h call
  generalize importEngine lower db call = answer at houtcome ⊢
  cases houtcome with
  | unstated hmodel =>
      refine ⟨by rintro ⟨index, ⟨⟩⟩, ?_⟩
      rintro ⟨⟨model, hsome, -⟩, -⟩
      rw [hmodel] at hsome
      cases hsome
  | refused _ hloads => exact ⟨by rintro ⟨index, ⟨⟩⟩, fun hunique => absurd hunique.1 hloads⟩
  | linked _ hsteady => exact ⟨by rintro ⟨index, ⟨⟩⟩, fun hunique => absurd hsteady hunique.2⟩
  | second hloads hsteady => exact ⟨fun _ => ⟨hloads, hsteady⟩, fun _ => ⟨_, rfl⟩⟩

/-- Of an import that the index of primaries refuses the variant has its engine. -/
theorem importEngine_powered (h : Catalogued lower db) (variantId : ℕ) :
    variantId ∈ (importEngine lower db call).1.powered ↔
      variantId ∈ db.powered ∨ call.variantId = variantId ∧ Loads lower call := by
  have houtcome := importEngine_outcome h call
  generalize importEngine lower db call = answer at houtcome ⊢
  cases houtcome with
  | unstated hmodel =>
      refine ⟨.inl, ?_⟩
      rintro (hmem | ⟨-, model, hsome, -⟩)
      · exact hmem
      · rw [hmodel] at hsome
        cases hsome
  | refused _ hloads => exact ⟨.inl, fun hmem => hmem.resolve_right fun hnew => hloads hnew.2⟩
  | linked hloads _ _ hpowered =>
      rw [hpowered, or_comm, eq_comm]
      exact or_congr_right ⟨fun heq => ⟨heq, hloads⟩, And.left⟩
  | second _ hsteady =>
      refine ⟨.inl, ?_⟩
      rintro (hmem | ⟨rfl, -⟩)
      · exact hmem
      · by_contra hnone
        refine hsteady fun model hmodel row hrow hvariant => ?_
        exact absurd (List.mem_map.mpr ⟨row, hrow, hvariant⟩) hnone

theorem primaries_length (h : Catalogued lower db) (variantId : ℕ) :
    (db.primaries variantId).length = if variantId ∈ db.powered then 1 else 0 := by
  have hfilter : db.primaries variantId =
      db.variantPowerplants.filter fun row => row.variantId == variantId := by
    refine List.filter_congr fun row hrow => ?_
    rw [Bool.eq_iff_iff, decide_eq_true_iff, beq_iff_eq]
    exact and_iff_left (h.linked row hrow).2.1
  rw [hfilter, ← List.countP_eq_length_filter, Tables.powered, ← List.Nodup.count h.one,
    List.count, List.countP_map]
  rfl

end

/-! ### Runs of imports -/

section

variable {lower}

theorem after_catalogued (calls : List Import) :
    Catalogued lower (after (importEngine lower) .empty calls) :=
  Transition.after_invariant (fun _ _ => importEngine_catalogued) (catalogued_empty lower) calls

/-- After a run the variants with an engine are those that some import stated
one for. -/
theorem after_powered (calls : List Import) (variantId : ℕ) :
    variantId ∈ (after (importEngine lower) .empty calls).powered ↔
      ∃ call ∈ calls, call.variantId = variantId ∧ Loads lower call := by
  induction calls using List.reverseRecOn with
  | nil => simp [Tables.empty, Tables.powered]
  | append_singleton calls call ih =>
      rw [Transition.after_append_singleton, importEngine_powered (after_catalogued calls), ih]
      simp [or_and_right, exists_or]

theorem no_unique_iff_steadily (calls : List Import) {db : Tables} (h : Catalogued lower db) :
    (∀ answer ∈ transcript (importEngine lower) db calls, ∀ index,
        answer.2 ≠ some (.unique index)) ↔ Steadily lower db calls := by
  induction calls generalizing db with
  | nil => simp [Steadily]
  | cons call calls ih =>
      rw [transcript, List.forall_mem_cons, Steadily, ih (importEngine_catalogued h)]
      refine and_congr_left' ?_
      rw [← not_exists, importEngine_unique_iff h, not_and, not_not]

end

/-- **Imports of engines**: in every run no unique index refuses an import
exactly when each import whose values load is steady, and after it each variant
has at most one primary powerplant, one exactly once an import stated it an
engine whose values load. -/
theorem engine_imports_iff (calls : List Import) :
    ((∀ answer ∈ transcript (importEngine lower) .empty calls, ∀ index,
        answer.2 ≠ some (.unique index)) ↔ Steadily lower .empty calls) ∧
      ∀ variantId,
        ((after (importEngine lower) .empty calls).primaries variantId).length ≤ 1 ∧
        (((after (importEngine lower) .empty calls).primaries variantId).length = 1 ↔
          ∃ call ∈ calls, call.variantId = variantId ∧ Loads lower call) := by
  refine ⟨no_unique_iff_steadily calls (catalogued_empty lower), fun variantId => ?_⟩
  rw [primaries_length (after_catalogued calls), ← after_powered]
  split_ifs with hpowered
  · exact ⟨le_rfl, fun _ => hpowered, fun _ => rfl⟩
  · exact ⟨Nat.zero_le 1, fun hone => absurd hone (by decide),
      fun hmem => absurd hmem hpowered⟩

/-- A variant whose second artifact names the engine otherwise. -/
def remotored : List Import :=
  [⟨{ manufacturer := some "Lycoming", model := some "O-320", engineCount := some 1 }, 7, 0⟩,
    ⟨{ manufacturer := some "Lycoming", model := some "IO-360" }, 7, 1⟩]

/-- The second artifact is refused. -/
theorem remotored_refused : ¬ ∀ calls : List Import, (∀ call ∈ calls, call.variantId = 7) →
    ∀ answer ∈ transcript (importEngine Char.toLower) .empty calls, ∀ index,
      answer.2 ≠ some (.unique index) := by
  intro h
  have hrefused : ∃ answer ∈ transcript (importEngine Char.toLower) .empty remotored,
      answer.2 = some (.unique "uq_vp_primary") := by
    refine ⟨(transcript (importEngine Char.toLower) .empty remotored)[1], List.getElem_mem _, ?_⟩
    decide +kernel
  obtain ⟨answer, hanswer, hunique⟩ := hrefused
  exact h remotored (by decide) answer hanswer _ hunique

end Powerplants

end AircraftApi
