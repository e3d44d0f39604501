/-
AircraftApi/Lineage.lean

The model, family and manufacturer of a variant, and what imports of other
records do to them.

The three are found from the variant by ids, so they change only where a row on
the way is assigned to another parent.  An import does that to two rows: the
family of the slug its manufacturer makes, and the model of the slug its names
make.  Different names can make one slug, so other variants may hang from them
(`Isolated` says when none is moved).

    lineage_iff          one import moves no variant of another key exactly
                         when it is isolated
    identity_isolation   the same at every state of every run, and over runs
                         whose imports are isolated
-/
import AircraftApi.Identity

namespace AircraftApi

namespace Identity

open Statements
open Transition (System)

/-- The ids of the model, the family and the manufacturer of the variant of a
key. -/
def Tables.lineage (db : Tables) (key : String) : Option (ℕ × ℕ × ℕ) := do
  let variant ← lookup Variant.ingestKey db.variants key
  let model ← db.models[variant.modelId]?
  let family ← db.families[model.familyId]?
  return (variant.modelId, model.familyId, family.manufacturerOrgId)

/-- The organization a manufacturer's name resolves to. -/
def resolvedOrganization (sql : TextFunctions) (organizations : List Organization) (name : String)
    (choice : ℕ) : ℕ :=
  match findOrganization sql organizations name choice with
  | some id => id
  | none => (upsert Organization.slug Organization.addAliases organizations
      (proposedOrganization sql name)).2

/-- No variant of another key hangs from a model with the slug of this record's
names that is of another family than this record's, or from a family with this
record's slug that is of another organization than the one its manufacturer
resolves to. -/
def Isolated (sql : TextFunctions) (db : Tables) (call : Import) : Prop :=
  ∀ variant ∈ db.variants, variant.ingestKey ≠ call.record.sourceRecordKey →
    ∀ model, db.models[variant.modelId]? = some model →
      ∀ family, db.families[model.familyId]? = some family →
        (model.slug = modelSlug sql call.record.identity →
          family.slug = familySlug sql call.record.identity) ∧
        (family.slug = familySlug sql call.record.identity →
          family.manufacturerOrgId = resolvedOrganization sql db.organizations
            call.record.identity.manufacturerName call.choice)

/-- The imports that are not refused. -/
def imports (sql : TextFunctions) (organizations : List Organization) : System Tables Import where
  init := fun db => db = .seeded organizations
  step := fun db call db' => importIdentity sql db call = (db', none)

/-! ### One import -/

section

variable {sql : TextFunctions} {db db' : Tables} {record : PreparedAircraftRecord}
variable {choice organization family model variantId : ℕ}

theorem Promoted.organization_eq
    (hp : Promoted sql db record choice db' organization family model variantId) :
    organization = resolvedOrganization sql db.organizations record.identity.manufacturerName
      choice := by
  have horganization := hp.organizations
  rcases hfind : findOrganization sql db.organizations record.identity.manufacturerName choice
    with - | id
  · rw [promoteOrganization, hfind] at horganization
    rw [resolvedOrganization, hfind]
    obtain ⟨-, -, hupsert⟩ := ok_of_bind horganization
    exact (congrArg Prod.snd (Except.ok.inj hupsert)).symm
  · rw [promoteOrganization, hfind] at horganization
    rw [resolvedOrganization, hfind]
    exact (congrArg Prod.snd (Except.ok.inj horganization)).symm

/-- A family after a promotion. -/
theorem Promoted.getElem?_families (h : Sound db)
    (hp : Promoted sql db record choice db' organization family model variantId) {i : ℕ}
    {stored : Family} (hi : db.families[i]? = some stored) :
    db'.families[i]? = some (if stored.slug = familySlug sql record.identity then
      { stored with manufacturerOrgId := organization } else stored) := by
  have hupsert := getElem?_upsert_of Family.reassign
    (proposedFamily sql organization record.identity) h.familySlugs hi
  rw [hp.families] at hupsert
  exact hupsert

/-- A model after a promotion. -/
theorem Promoted.getElem?_models (h : Sound db)
    (hp : Promoted sql db record choice db' organization family model variantId) {i : ℕ}
    {stored : Model} (hi : db.models[i]? = some stored) :
    db'.models[i]? = some (if stored.slug = modelSlug sql record.identity then
      { stored with familyId := family } else stored) := by
  have hupsert := getElem?_upsert_of Model.reassign
    (proposedModel sql family record.identity) h.modelSlugs hi
  rw [hp.models] at hupsert
  exact hupsert

/-- The family the record's model is assigned to is the one of its slug. -/
theorem Promoted.family_iff (h : Sound db)
    (hp : Promoted sql db record choice db' organization family model variantId) {i : ℕ}
    {stored : Family} (hi : db.families[i]? = some stored) :
    i = family ↔ stored.slug = familySlug sql record.identity := by
  have hid := upsert_id_iff Family.reassign
    (proposedFamily sql organization record.identity) h.familySlugs hi
  rw [hp.families] at hid
  exact hid

theorem Promoted.getElem?_family
    (hp : Promoted sql db record choice db' organization family model variantId) :
    ∃ stored, db'.families[family]? = some stored := by
  have hupsert := getElem?_upsert Family.slug Family.reassign db.families
    (proposedFamily sql organization record.identity)
  rw [hp.families] at hupsert
  exact ⟨_, hupsert⟩

/-- In sound tables a variant has a model, and that a family. -/
theorem Sound.parents (h : Sound db) {variant : Variant} (hvariant : variant ∈ db.variants) :
    ∃ model, db.models[variant.modelId]? = some model ∧
      ∃ family, db.families[model.familyId]? = some family := by
  have hmodel := List.getElem?_eq_getElem (h.models variant hvariant)
  have hfamily := List.getElem?_eq_getElem (h.families _ (List.mem_of_getElem? hmodel))
  exact ⟨_, hmodel, _, hfamily⟩

theorem lineage_of {key : String} {variant : Variant} {model : Model} {family : Family}
    (hvariant : lookup Variant.ingestKey db.variants key = some variant)
    (hmodel : db.models[variant.modelId]? = some model)
    (hfamily : db.families[model.familyId]? = some family) :
    db.lineage key = some (variant.modelId, model.familyId, family.manufacturerOrgId) := by
  simp only [Tables.lineage, hvariant, hmodel, hfamily, bind, Option.bind, pure]

/-- One variant of another key: it stays where it is exactly when its model, if
it is the record's, is of the record's family, and its family, if it is the
record's, of the record's organization. -/
theorem Promoted.lineage_iff (h : Sound db)
    (hp : Promoted sql db record choice db' organization family model variantId) {key : String}
    (hkey : key ≠ record.sourceRecordKey) {variant : Variant} {itsModel : Model} {itsFamily : Family}
    (hvariant : lookup Variant.ingestKey db.variants key = some variant)
    (hmodel : db.models[variant.modelId]? = some itsModel)
    (hfamily : db.families[itsModel.familyId]? = some itsFamily) :
    db'.lineage key = db.lineage key ↔
      (itsModel.slug = modelSlug sql record.identity →
        itsFamily.slug = familySlug sql record.identity) ∧
      (itsFamily.slug = familySlug sql record.identity →
        itsFamily.manufacturerOrgId = organization) := by
  have hvariant' : lookup Variant.ingestKey db'.variants key = some variant := by
    rw [hp.lookup_variants h, if_neg hkey, hvariant]
  have hmodel' := hp.getElem?_models h hmodel
  have hfamily' := hp.getElem?_families h hfamily
  rw [lineage_of hvariant hmodel hfamily]
  by_cases hsame : itsModel.familyId = family
  · -- the model stays with its family, whether it is the record's or not
    have hslug := (hp.family_iff h hfamily).mp hsame
    have hstays : (if itsModel.slug = modelSlug sql record.identity then
        { itsModel with familyId := family } else itsModel).familyId = itsModel.familyId := by
      split_ifs
      · exact hsame.symm
      · rfl
    rw [if_pos hslug] at hfamily'
    rw [lineage_of hvariant' hmodel' (by rw [hstays]; exact hfamily'), hstays]
    simp only [hslug, implies_true, true_and, true_implies, Option.some.injEq, Prod.mk.injEq]
    exact eq_comm
  · have hslug : itsFamily.slug ≠ familySlug sql record.identity :=
      fun hslug => hsame ((hp.family_iff h hfamily).mpr hslug)
    rw [if_neg hslug] at hfamily'
    by_cases hmoved : itsModel.slug = modelSlug sql record.identity
    · obtain ⟨other, hother⟩ := hp.getElem?_family
      rw [if_pos hmoved] at hmodel'
      rw [lineage_of hvariant' hmodel' hother]
      refine iff_of_false (fun heq => ?_) fun hiff => hslug (hiff.1 hmoved)
      rw [Option.some.injEq, Prod.mk.injEq, Prod.mk.injEq] at heq
      exact hsame heq.2.1.symm
    · rw [if_neg hmoved] at hmodel'
      rw [lineage_of hvariant' hmodel' hfamily']
      exact iff_of_true rfl ⟨fun hmoved' => absurd hmoved' hmoved, fun hslug' => absurd hslug' hslug⟩

/-- A promotion moves no variant of another key exactly when it is isolated. -/
theorem lineage_iff {call : Import} (h : Sound db)
    (hp : Promoted sql db call.record call.choice db' organization family model variantId) :
    (∀ key ≠ call.record.sourceRecordKey, db'.lineage key = db.lineage key) ↔
      Isolated sql db call := by
  constructor
  · intro hkept variant hvariant hother itsModel hmodel itsFamily hfamily
    rw [← hp.organization_eq]
    exact (hp.lineage_iff h hother (lookup_of_mem h.keys hvariant) hmodel hfamily).mp
      (hkept _ hother)
  · intro hisolated key hkey
    rcases hvariant : lookup Variant.ingestKey db.variants key with - | variant
    · have hvariant' : lookup Variant.ingestKey db'.variants key = none := by
        rw [hp.lookup_variants h, if_neg hkey, hvariant]
      simp only [Tables.lineage, hvariant, hvariant', bind, Option.bind]
    · obtain ⟨hmem, rfl⟩ := lookup_mem hvariant
      obtain ⟨itsModel, hmodel, itsFamily, hfamily⟩ := h.parents hmem
      refine (hp.lineage_iff h hkey hvariant hmodel hfamily).mpr ?_
      rw [hp.organization_eq]
      exact hisolated variant hmem hkey itsModel hmodel itsFamily hfamily

/-! ### Runs -/

theorem imports_step {organizations : List Organization} {call : Import}
    (h : (imports sql organizations).step db call db') :
    ∃ organization family model variantId,
      Promoted sql db call.record call.choice db' organization family model variantId := by
  rcases importIdentity_cases sql db call with ⟨violation, heq, -⟩ | ⟨_, _, _, _, _, heq, hp⟩
  · cases heq.symm.trans h
  · cases heq.symm.trans h
    exact ⟨_, _, _, _, hp⟩

theorem sound_of_reachable {organizations : List Organization}
    (h : (imports sql organizations).Reachable db) : Sound db := by
  refine h.invariant (P := Sound) ?_ ?_
  · rintro _ rfl
    exact sound_seeded organizations
  · intro db call db' hsound hstep
    obtain ⟨_, _, _, _, hp⟩ := imports_step hstep
    exact hp.sound hsound

end

/-- **Whom variants belong to**: at every state of every run, an import leaves the
model, family and manufacturer of the variants of all other keys as they are
exactly when it is isolated; and over a run of such imports, of keys other than
its own, a variant stays where it is. -/
theorem identity_isolation (sql : TextFunctions) (organizations : List Organization) :
    (∀ db, (imports sql organizations).Reachable db → ∀ call db',
      (imports sql organizations).step db call db' →
        ((∀ key ≠ call.record.sourceRecordKey, db'.lineage key = db.lineage key) ↔
          Isolated sql db call)) ∧
    ∀ db, (imports sql organizations).Reachable db → ∀ key db',
      ((imports sql organizations).guard fun db call =>
          key ≠ call.record.sourceRecordKey ∧ Isolated sql db call).Steps db db' →
        db'.lineage key = db.lineage key := by
  have hstep : ∀ db, (imports sql organizations).Reachable db → ∀ call db',
      (imports sql organizations).step db call db' →
        ((∀ key ≠ call.record.sourceRecordKey, db'.lineage key = db.lineage key) ↔
          Isolated sql db call) := by
    intro db hreachable call db' hstep
    obtain ⟨_, _, _, _, hp⟩ := imports_step hstep
    exact lineage_iff (sound_of_reachable hreachable) hp
  refine ⟨hstep, fun db hreachable key db' hrun => ?_⟩
  have hboth : (imports sql organizations).Reachable db' ∧ db'.lineage key = db.lineage key := by
    induction hrun with
    | refl => exact ⟨hreachable, rfl⟩
    | tail _ hlast ih =>
        obtain ⟨call, ⟨hkey, hisolated⟩, hlast⟩ := hlast
        exact ⟨ih.1.step hlast,
          ((hstep _ ih.1 call _ hlast).mpr hisolated key hkey).trans ih.2⟩
  exact hboth.2

/-- The keys of the aircraft `C` of `A-B` and of the aircraft `B-C` of `A`. -/
def doubleKey : String := "763072a107deba4e8f6574b63eff859141bb93e213983503ee4390f205763d0a"

def singleKey : String := "37fe2770b8ec923bfae67279a451a0495703a3fad8b9909e64999cbc03c548ed"

/-- The functions of the database, `md5` on these two keys. -/
def hyphenFunctions : TextFunctions where
  lower := Char.toLower
  upper := fun text => text.map Char.toUpper
  initcap := id
  md5 := fun text =>
    if text = doubleKey then "2de0b96c905bbe2aaf05326fec6a0139".toList
    else "d1ac56a9f38cf489cb96750f2ee50770".toList

def doubleCall : Import := ⟨namedRecord doubleKey "A-B" "C", 0, true⟩

def singleCall : Import := ⟨namedRecord singleKey "A" "B-C", 0, true⟩

/-- The tables after the first of the two, and after both. -/
def afterDouble : Tables := (importIdentity hyphenFunctions (.seeded []) doubleCall).1

def afterBoth : Tables := (importIdentity hyphenFunctions afterDouble singleCall).1

/-- Neither import is refused, and the second moves the key of the first. -/
theorem hyphen_run :
    (importIdentity hyphenFunctions (.seeded []) doubleCall).2 = none ∧
      (importIdentity hyphenFunctions afterDouble singleCall).2 = none ∧
      afterBoth.lineage doubleKey ≠ afterDouble.lineage doubleKey := by
  decide +kernel

theorem double_completes : importIdentity hyphenFunctions (.seeded []) doubleCall
    = (afterDouble, none) := by
  rw [← hyphen_run.1]
  rfl

theorem single_completes : importIdentity hyphenFunctions afterDouble singleCall
    = (afterBoth, none) := by
  rw [← hyphen_run.2.1]
  rfl

theorem double_reachable : (imports hyphenFunctions []).Reachable afterDouble :=
  .step (.init rfl) double_completes

theorem double_moved : afterBoth.lineage doubleKey ≠ afterDouble.lineage doubleKey :=
  hyphen_run.2.2

theorem identity_isolation_double : ¬ Isolated hyphenFunctions afterDouble singleCall := by
  intro hisolated
  refine double_moved (((identity_isolation hyphenFunctions []).1 afterDouble double_reachable
    singleCall afterBoth single_completes).mpr hisolated doubleKey ?_)
  decide +kernel

/-- The second import takes the model of the first over to its own family. -/
theorem isolation_fails : ¬ ∀ (sql : TextFunctions) (organizations : List Organization) db,
    (imports sql organizations).Reachable db → ∀ call db',
      (imports sql organizations).step db call db' →
        ∀ key ≠ call.record.sourceRecordKey, db'.lineage key = db.lineage key := by
  intro h
  refine double_moved (h hyphenFunctions [] afterDouble double_reachable singleCall afterBoth
    single_completes doubleKey ?_)
  decide +kernel

end Identity

end AircraftApi
