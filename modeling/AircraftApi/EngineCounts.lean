/-
AircraftApi/EngineCounts.lean

The number of engines a variant's row states and the one its primary powerplant
states, over sequences of imports.

Both are bound to the count the record states.  The row keeps the first count it
was given, the powerplant takes the latest, and it is written only by a record
that states an engine model.

    Tracked              what either column holds, in terms of the records
                         imported under the key
    engine_count_iff     they agree throughout a run exactly when every record
                         with a model states the count stated first
-/
import AircraftApi.Identity
import AircraftApi.Powerplants

namespace AircraftApi

namespace EngineCounts

open Identity (Promoted Sound TextFunctions Variant promoteIdentity promoteIdentity_ok sound_seeded)
open Powerplants (Catalogued VariantPowerplant catalogued_empty promoteEngine)
open Statements
open Transition (exec)

/-- The identities and the engines. -/
structure Tables where
  identity : Identity.Tables
  power : Powerplants.Tables

/-- Before the first import. -/
def Tables.seeded (organizations : List Identity.Organization) : Tables :=
  ⟨.seeded organizations, .empty⟩

/-- A promotion of a record read from a document. -/
structure Import extends Identity.Import where
  documentId : ℕ

variable (sql : TextFunctions)

/-- `promote_identity`, and `promote_engine` for the variant it returns; none for
an import that is refused. -/
def importAircraft (db : Tables) (call : Import) : Option Tables :=
  match promoteIdentity sql db.identity call.record call.choice with
  | .error _ => none
  | .ok (identity, variantId) =>
      match promoteEngine sql.lower db.power call.record.propulsion variantId call.documentId with
      | .error _ => none
      | .ok power => if call.completes then some ⟨identity, power⟩ else none

/-- Where the variant of the key and its primary powerplant both state a count,
it is the same. -/
def Agrees (db : Tables) (key : String) : Prop :=
  ∀ (id : ℕ) (variant : Variant), db.identity.variants[id]? = some variant →
    variant.ingestKey = key → ∀ link ∈ db.power.primaries id,
      ∀ n ∈ variant.engineCount, ∀ m ∈ link.engineCount, n = m

/-- The engines the records imported under a key state. -/
def enginesOf (key : String) (calls : List Import) : List PropulsionInput :=
  (calls.filter fun call => call.record.sourceRecordKey = key).map fun call =>
    call.record.propulsion

/-- The counts that are stated, in order. -/
def statedCounts (engines : List PropulsionInput) : List ℤ :=
  engines.filterMap PropulsionInput.engineCount

/-- A record that states a model and a count states the count stated first. -/
def Consistent (engines : List PropulsionInput) : Prop :=
  ∀ engine ∈ engines, engine.model.isSome → ∀ n ∈ engine.engineCount,
    (statedCounts engines).head? = some n

/-- The count of the powerplant those records leave, if they leave one. -/
def linkedCount (engines : List PropulsionInput) : Option (Option ℤ) :=
  let modelled := engines.filter fun engine => engine.model.isSome
  if modelled.isEmpty then none else some (statedCounts modelled).getLast?

theorem statedCounts_append (engines others : List PropulsionInput) :
    (statedCounts (engines ++ others)).head?
      = (statedCounts engines).head?.or (statedCounts others).head? := by
  unfold statedCounts
  rw [List.filterMap_append, List.head?_append]

theorem statedCounts_singleton (engine : PropulsionInput) :
    (statedCounts [engine]).head? = engine.engineCount := by
  unfold statedCounts
  rcases hcount : engine.engineCount with - | n <;> simp [hcount]

theorem linkedCount_append (engines : List PropulsionInput) (engine : PropulsionInput) :
    linkedCount (engines ++ [engine]) =
      if engine.model.isSome then some (engine.engineCount.or (linkedCount engines).join)
      else linkedCount engines := by
  unfold linkedCount statedCounts
  dsimp only
  rw [List.filter_append, List.filter_singleton]
  generalize engines.filter (fun engine => engine.model.isSome) = modelled
  rcases engine.model.isSome with - | -
  · rw [cond_false, List.append_nil]
    rfl
  · rw [cond_true, List.filterMap_append, List.getLast?_append]
    rcases modelled with - | ⟨first, rest⟩
    · rcases hcount : engine.engineCount with - | n <;> simp [hcount]
    · rcases hcount : engine.engineCount with - | n <;> simp [hcount]

/-! ### The powerplant -/

section

variable {lower : Char → Char} {db db' : Powerplants.Tables}

/-- `COALESCE(EXCLUDED.engine_count, stored)`. -/
def coalesceCount (stored excluded : VariantPowerplant) : VariantPowerplant :=
  { stored with engineCount := excluded.engineCount.or stored.engineCount }

theorem keepsKey_powerplant : KeepsKey VariantPowerplant.variantId coalesceCount :=
  fun _ _ _ => rfl

/-- A variant has one powerplant, so an upsert of a primary one that is not
refused is an upsert by the variant alone. -/
theorem upsertPowerplant_eq (h : Catalogued lower db) {link : VariantPowerplant}
    (hprimary : link.isPrimary = true) (hok : Powerplants.upsertPowerplant db link = .ok db') :
    db'.variantPowerplants
      = (upsert VariantPowerplant.variantId coalesceCount db.variantPowerplants link).1 := by
  unfold Powerplants.upsertPowerplant at hok
  by_cases hcount : link.engineCount.any (· < 1) = true
  · rw [if_pos hcount] at hok
    cases hok
  rw [if_neg hcount] at hok
  split at hok
  · rename_i id hid
    obtain ⟨hlt, hpair, -⟩ := List.findIdx?_eq_some_iff_getElem.mp hid
    obtain ⟨hvariant, -⟩ := of_decide_eq_true hpair
    have hrow := List.getElem?_eq_getElem hlt
    have hsame := (upsert_id_iff coalesceCount link h.one hrow).mpr hvariant
    cases hok
    rcases upsert_cases VariantPowerplant.variantId coalesceCount db.variantPowerplants link with
      ⟨other, stored, hother, -, -, heq⟩ | ⟨hnew, -⟩
    · have hid : id = other := by
        rw [heq] at hsame
        exact hsame
      rw [← hid, hrow, Option.some.injEq] at hother
      rw [heq, ← hid, ← hother]
      show db.variantPowerplants.modify id (coalesceCount · link) = _
      rw [List.modify_eq_set_getElem?, hrow]
      rfl
    · exact absurd hvariant (lookup_eq_none.mp hnew _ (List.mem_of_getElem? hrow))
  · split_ifs at hok with hprimaries
    cases hok
    -- no powerplant of the variant is primary, so there is none
    rcases upsert_cases VariantPowerplant.variantId coalesceCount db.variantPowerplants link with
      ⟨other, stored, hother, hvariant, -, -⟩ | ⟨-, heq⟩
    · refine absurd ⟨hprimary, ?_⟩ hprimaries
      have hmem := List.mem_of_getElem? hother
      exact List.any_eq_true.mpr ⟨stored, hmem,
        decide_eq_true ⟨hvariant, (h.linked stored hmem).2.1⟩⟩
    · rw [heq]

theorem primaries_eq (h : Catalogued lower db) (id : ℕ) :
    db.primaries id
      = (lookup VariantPowerplant.variantId db.variantPowerplants id).toList := by
  rw [← filter_key h.one]
  refine List.filter_congr fun link hlink => ?_
  rw [decide_eq_decide]
  exact and_iff_left (h.linked link hlink).2.1

/-- What the import of an engine leaves: the catalogue in order, and for its
variant, if it states a model, a powerplant with its count or the one before. -/
theorem promoteEngine_ok (h : Catalogued lower db) {engine : PropulsionInput}
    {variantId documentId : ℕ}
    (hok : promoteEngine lower db engine variantId documentId = .ok db') :
    Catalogued lower db' ∧
      (∀ link ∈ db'.variantPowerplants, link.variantId = variantId ∨
        ∃ old ∈ db.variantPowerplants, old.variantId = link.variantId) ∧
      ∀ id, (lookup VariantPowerplant.variantId db'.variantPowerplants id).map
          VariantPowerplant.engineCount =
        if id = variantId ∧ engine.model.isSome then
          some (engine.engineCount.or ((lookup VariantPowerplant.variantId db.variantPowerplants
            id).map VariantPowerplant.engineCount).join)
        else (lookup VariantPowerplant.variantId db.variantPowerplants id).map
          VariantPowerplant.engineCount := by
  have hcatalogued : Catalogued lower
      (Powerplants.importEngine lower db ⟨engine, variantId, documentId⟩).1 :=
    Powerplants.importEngine_catalogued h
  simp only [Powerplants.importEngine, hok] at hcatalogued
  refine ⟨hcatalogued, ?_⟩
  unfold promoteEngine at hok
  -- without a model nothing is written
  rcases hmodel : engine.model with - | model
  · rw [hmodel] at hok
    cases hok
    exact ⟨fun link hlink => .inr ⟨link, hlink, rfl⟩, fun id => by simp⟩
  rw [hmodel] at hok
  dsimp only at hok
  split at hok
  · cases hok
  rename_i row hrow
  obtain ⟨hnamed, -⟩ := Powerplants.proposedEngine_named hrow
  obtain ⟨db₁, engineId, hengine, h₁, hsame, -⟩ := Powerplants.upsertEngine_ok h hnamed
  rw [hengine] at hok
  -- the link is the only row written for the variant
  have hrows := upsertPowerplant_eq h₁ rfl hok
  rw [hsame] at hrows
  have hone := h.one
  constructor
  · intro link hlink
    rw [hrows] at hlink
    rcases mem_upsert hlink with rfl | hold
    · exact .inl (key_written keepsKey_powerplant _ _)
    · exact .inr ⟨link, hold, rfl⟩
  · intro id
    rw [hrows, lookup_upsert keepsKey_powerplant hone]
    by_cases hid : id = variantId
    · rw [if_pos hid, if_pos ⟨hid, rfl⟩, hid, written]
      rcases lookup VariantPowerplant.variantId db.variantPowerplants variantId with - | stored
      · simp
      · rfl
    · rw [if_neg hid, if_neg fun hboth => hid hboth.1]

end

/-! ### One import -/

section

variable {sql} {db db' : Tables} {call : Import} {key : String} {engines : List PropulsionInput}

theorem importAircraft_ok (h : importAircraft sql db call = some db') :
    ∃ organization family model variantId,
      Promoted sql db.identity call.record call.choice db'.identity organization family model
        variantId ∧
      promoteEngine sql.lower db.power call.record.propulsion variantId call.documentId
        = .ok db'.power := by
  unfold importAircraft at h
  rcases hidentity : promoteIdentity sql db.identity call.record call.choice with
    violation | ⟨identity, variantId⟩
  · simp [hidentity] at h
  rcases hpower : promoteEngine sql.lower db.power call.record.propulsion variantId
    call.documentId with refusal | power
  · simp [hidentity, hpower] at h
  simp only [hidentity, hpower] at h
  split_ifs at h
  obtain ⟨organization, family, model, hp⟩ := promoteIdentity_ok hidentity
  cases h
  exact ⟨organization, family, model, variantId, hp, hpower⟩

/-- The tables after imports whose records under the key state these engines. -/
structure Tracked (sql : TextFunctions) (key : String) (db : Tables)
    (engines : List PropulsionInput) : Prop where
  sound : Sound db.identity
  catalogued : Catalogued sql.lower db.power
  linked : ∀ link ∈ db.power.variantPowerplants, link.variantId < db.identity.variants.length
  stored : (∃ variant ∈ db.identity.variants, variant.ingestKey = key) ↔ engines ≠ []
  counts : ∀ (id : ℕ) (variant : Variant), db.identity.variants[id]? = some variant →
    variant.ingestKey = key →
      variant.engineCount = (statedCounts engines).head? ∧
      (lookup VariantPowerplant.variantId db.power.variantPowerplants id).map
        VariantPowerplant.engineCount = linkedCount engines

theorem tracked_seeded (sql : TextFunctions) (key : String)
    (organizations : List Identity.Organization) :
    Tracked sql key (.seeded organizations) [] where
  sound := sound_seeded organizations
  catalogued := catalogued_empty sql.lower
  linked := fun _ h => absurd h List.not_mem_nil
  stored := by simp [Tables.seeded, Identity.Tables.seeded]
  counts := by simp [Tables.seeded, Identity.Tables.seeded]

/-- An import links an engine to no variant but its own, which is stored. -/
theorem importAircraft_linked {variantId : ℕ}
    (h : ∀ link ∈ db.power.variantPowerplants, link.variantId < db.identity.variants.length)
    (hlength : db.identity.variants.length ≤ db'.identity.variants.length)
    (hid : variantId < db'.identity.variants.length)
    (hlinks : ∀ link ∈ db'.power.variantPowerplants, link.variantId = variantId ∨
      ∃ old ∈ db.power.variantPowerplants, old.variantId = link.variantId) :
    ∀ link ∈ db'.power.variantPowerplants, link.variantId < db'.identity.variants.length := by
  intro link hlink
  rcases hlinks link hlink with hown | ⟨old, hold, hsame⟩
  · rw [hown]
    exact hid
  · rw [← hsame]
    exact lt_of_lt_of_le (h old hold) hlength

/-- An import of a record of another key leaves the counts under this one. -/
theorem Tracked.other (h : Tracked sql key db engines)
    (hother : call.record.sourceRecordKey ≠ key) (hok : importAircraft sql db call = some db') :
    Tracked sql key db' engines := by
  obtain ⟨organization, family, model, variantId, hp, hpower⟩ := importAircraft_ok hok
  obtain ⟨hcatalogued, hlinks, hcounts⟩ := promoteEngine_ok h.catalogued hpower
  have hrow := hp.getElem?_variant
  have hstays : ∀ {i : ℕ} {variant : Variant}, variant.ingestKey = key →
      (db'.identity.variants[i]? = some variant ↔ db.identity.variants[i]? = some variant) :=
    fun hkey => hp.getElem?_variants_of_ne (hkey ▸ hother.symm)
  refine ⟨hp.sound h.sound, hcatalogued, importAircraft_linked h.linked hp.length_variants
    (List.getElem?_eq_some_iff.mp hrow).1 hlinks, ?_, ?_⟩
  · rw [← h.stored]
    simp only [List.mem_iff_getElem?]
    constructor
    · rintro ⟨variant, ⟨i, hi⟩, hkey⟩
      exact ⟨variant, ⟨i, (hstays hkey).mp hi⟩, hkey⟩
    · rintro ⟨variant, ⟨i, hi⟩, hkey⟩
      exact ⟨variant, ⟨i, (hstays hkey).mpr hi⟩, hkey⟩
  · intro i variant hi hkey
    have hne : i ≠ variantId := by
      rintro rfl
      rw [hrow, Option.some.injEq] at hi
      have hwritten : variant.ingestKey = call.record.sourceRecordKey := by
        rw [← hi]
        exact key_written Identity.keepsKey_variant _ _
      exact hother (hwritten.symm.trans hkey)
    rw [hcounts, if_neg fun hboth => hne hboth.1]
    exact h.counts i variant ((hstays hkey).mp hi) hkey

/-- An import of a record of the key adds its engine. -/
theorem Tracked.own (h : Tracked sql key db engines)
    (hown : call.record.sourceRecordKey = key) (hok : importAircraft sql db call = some db') :
    Tracked sql key db' (engines ++ [call.record.propulsion]) := by
  obtain ⟨organization, family, model, variantId, hp, hpower⟩ := importAircraft_ok hok
  obtain ⟨hcatalogued, hlinks, hcounts⟩ := promoteEngine_ok h.catalogued hpower
  have hrow := hp.getElem?_variant
  have hsound := hp.sound h.sound
  have hkeyed := key_written Identity.keepsKey_variant db.identity.variants
    (Identity.proposedVariant sql db.identity.variants model call.record)
  refine ⟨hsound, hcatalogued, importAircraft_linked h.linked hp.length_variants
    (List.getElem?_eq_some_iff.mp hrow).1 hlinks, ?_, ?_⟩
  · refine iff_of_true ⟨_, List.mem_of_getElem? hrow, hkeyed.trans hown⟩ (by simp)
  · intro i variant hi hkey
    have hsame : i = variantId := by
      refine (List.getElem?_inj ?_ hsound.keys).mp ?_
      · rw [List.length_map]
        exact (List.getElem?_eq_some_iff.mp hi).1
      · rw [List.getElem?_map, List.getElem?_map, hi, hrow, Option.map_some, Option.map_some, hkey,
          hkeyed]
        exact congrArg some hown.symm
    rw [hsame, hrow, Option.some.injEq] at hi
    rw [hsame, hcounts, ← hi, statedCounts_append, statedCounts_singleton, linkedCount_append]
    -- the row before, if there was one, and its powerplant
    have hbefore : (written Variant.ingestKey Variant.merge db.identity.variants
          (Identity.proposedVariant sql db.identity.variants model call.record)).engineCount
        = (statedCounts engines).head?.or call.record.propulsion.engineCount ∧
        (lookup VariantPowerplant.variantId db.power.variantPowerplants variantId).map
          VariantPowerplant.engineCount = linkedCount engines := by
      have hupsert := (Identity.upsertVariant_ok hp.variants).1
      rcases upsert_cases Variant.ingestKey Variant.merge db.identity.variants
        (Identity.proposedVariant sql db.identity.variants model call.record) with
        ⟨id, stored, hid, hstored, hfound, heq⟩ | ⟨hnew, heq⟩
      · obtain ⟨hcount, hlinked⟩ := h.counts id stored hid (hstored.trans hown)
        have hsame : id = variantId := by
          rw [heq] at hupsert
          exact congrArg Prod.snd hupsert
        rw [written_of_lookup hfound, ← hsame, hlinked]
        refine ⟨?_, rfl⟩
        show stored.engineCount.or _ = _
        rw [hcount]
        rfl
      · have hengines : engines = [] := by
          by_contra hne
          obtain ⟨variant, hvariant, hkey⟩ := h.stored.mpr hne
          exact lookup_eq_none.mp hnew variant hvariant (hkey.trans hown.symm)
        have hsame : db.identity.variants.length = variantId := by
          rw [heq] at hupsert
          exact congrArg Prod.snd hupsert
        have hfree : lookup VariantPowerplant.variantId db.power.variantPowerplants variantId
            = none := by
          rw [lookup_eq_none, ← hsame]
          exact fun link hlink => Nat.ne_of_lt (h.linked link hlink)
        rw [written_of_new hnew, hfree, hengines]
        exact ⟨rfl, rfl⟩
    rw [hbefore.2]
    exact ⟨hbefore.1, by simp only [true_and]⟩

end

/-! ### Runs -/

section

variable {sql} {organizations : List Identity.Organization} {calls : List Import} {db : Tables}

theorem enginesOf_append (key : String) (calls others : List Import) :
    enginesOf key (calls ++ others) = enginesOf key calls ++ enginesOf key others := by
  unfold enginesOf
  rw [List.filter_append, List.map_append]

theorem tracked_of_exec (h : exec (importAircraft sql) (.seeded organizations) calls = some db)
    (key : String) : Tracked sql key db (enginesOf key calls) := by
  induction calls using List.reverseRecOn generalizing db with
  | nil =>
      cases h
      exact tracked_seeded sql key organizations
  | append_singleton calls call ih =>
      obtain ⟨before, hbefore, hlast⟩ := Transition.exec_append_singleton h
      rw [enginesOf_append]
      by_cases hkey : call.record.sourceRecordKey = key
      · have hone : enginesOf key [call] = [call.record.propulsion] := by simp [enginesOf, hkey]
        rw [hone]
        exact (ih hbefore).own hkey hlast
      · have hnone : enginesOf key [call] = [] := by simp [enginesOf, hkey]
        rw [hnone, List.append_nil]
        exact (ih hbefore).other hkey hlast

/-- What the two columns hold after a run. -/
theorem agrees_iff (h : exec (importAircraft sql) (.seeded organizations) calls = some db)
    (key : String) :
    Agrees db key ↔ ∀ n ∈ (statedCounts (enginesOf key calls)).head?,
      ∀ m ∈ (linkedCount (enginesOf key calls)).join, n = m := by
  have htracked := tracked_of_exec h key
  constructor
  · intro hagrees n hn m hm
    have hne : enginesOf key calls ≠ [] := by
      intro hnone
      rw [hnone] at hn
      cases hn
    obtain ⟨variant, hvariant, hkey⟩ := htracked.stored.mpr hne
    obtain ⟨id, hid⟩ := List.mem_iff_getElem?.mp hvariant
    obtain ⟨hcount, hlinked⟩ := htracked.counts id variant hid hkey
    rcases hlink : lookup VariantPowerplant.variantId db.power.variantPowerplants id with - | link
    · rw [hlink] at hlinked
      rw [← hlinked] at hm
      cases hm
    · rw [hlink, Option.map_some] at hlinked
      rw [← hlinked] at hm
      refine hagrees id variant hid hkey link ?_ n (hcount ▸ hn) m hm
      rw [primaries_eq htracked.catalogued, hlink]
      exact List.mem_singleton_self link
  · intro hsame id variant hid hkey link hlink n hn m hm
    obtain ⟨hcount, hlinked⟩ := htracked.counts id variant hid hkey
    rw [primaries_eq htracked.catalogued, Option.mem_toList] at hlink
    rw [hlink, Option.map_some] at hlinked
    refine hsame n (hcount ▸ hn) m ?_
    rw [← hlinked]
    exact hm

/-- The count of the powerplant is one that a record with a model states. -/
theorem mem_linkedCount {engines : List PropulsionInput} {m : ℤ}
    (h : m ∈ (linkedCount engines).join) :
    ∃ engine ∈ engines, engine.model.isSome ∧ m ∈ engine.engineCount := by
  unfold linkedCount statedCounts at h
  dsimp only at h
  split_ifs at h
  · cases h
  · obtain ⟨engine, hengine, hcount⟩ := List.mem_filterMap.mp (List.mem_of_getLast? h)
    obtain ⟨hmem, hmodel⟩ := List.mem_filter.mp hengine
    exact ⟨engine, hmem, hmodel, hcount⟩

end

/-- **Engine counts**: over every run of imports, of whatever records, the row of
a variant and its primary powerplant agree in the count after each of them
exactly when every record of the variant that states an engine model and a count
states the count that was stated first. -/
theorem engine_count_iff (sql : TextFunctions) (organizations : List Identity.Organization)
    (calls : List Import) (last : Tables)
    (hrun : exec (importAircraft sql) (.seeded organizations) calls = some last) (key : String) :
    (∀ earlier later db, calls = earlier ++ later →
      exec (importAircraft sql) (.seeded organizations) earlier = some db → Agrees db key) ↔
    Consistent (enginesOf key calls) := by
  constructor
  · intro hagrees engine hengine hmodel n hn
    obtain ⟨call, hcall, rfl⟩ := List.mem_map.mp hengine
    obtain ⟨hmem, hkey⟩ := List.mem_filter.mp hcall
    obtain ⟨before, later, rfl⟩ := List.append_of_mem hmem
    -- look at the store right after the record that states the count
    have hsplit : before ++ call :: later = (before ++ [call]) ++ later :=
      (List.append_cons before call later)
    rw [hsplit] at hrun ⊢
    rw [Transition.exec_append] at hrun
    obtain ⟨db, hdb, -⟩ := Option.bind_eq_some_iff.mp hrun
    have hsame := (agrees_iff hdb key).mp (hagrees _ later db hsplit hdb)
    have hone : enginesOf key [call] = [call.record.propulsion] := by
      unfold enginesOf
      rw [List.filter_singleton, hkey]
      rfl
    rw [enginesOf_append] at hsame
    rw [enginesOf_append, enginesOf_append, hone, statedCounts_append]
    rw [hone, linkedCount_append, if_pos hmodel, statedCounts_append, statedCounts_singleton,
      Option.mem_def.mp hn] at hsame
    rw [statedCounts_append, statedCounts_singleton, Option.mem_def.mp hn]
    rcases hfirst : (statedCounts (enginesOf key before)).head? with - | first
    · rfl
    · rw [hsame first (by rw [hfirst]; rfl) n rfl]
      rfl
  · rintro hconsistent earlier later db rfl hdb
    -- a stored count was stated by some record, and all state the first
    rw [agrees_iff hdb key]
    intro n hn m hm
    obtain ⟨engine, hengine, hmodel, hcount⟩ := mem_linkedCount hm
    have hfirst := hconsistent engine (by
      rw [enginesOf_append]
      exact List.mem_append_left _ hengine) hmodel m hcount
    rw [enginesOf_append, statedCounts_append, Option.mem_def.mp hn] at hfirst
    exact Option.some.inj hfirst

/-- The key of the Hawker 800XP. -/
def hawkerKey : String := "ae259ebe26ba5fdb2f2b351f83960c868bcdd8eacc660c5d3208b028c734df20"

/-- The functions of the database on the texts of these imports. -/
def hawkerFunctions : TextFunctions where
  lower := Char.toLower
  upper := fun text => text.map Char.toUpper
  initcap := fun _ => "Hawker"
  md5 := fun _ => "2598bf6d62ef6eb69984e98ce01b76e7".toList

/-- An import of the Hawker 800XP from an artifact that states this count. -/
def hawkerCall (count : ℤ) (documentId : ℕ) : Import where
  record :=
    { Identity.namedRecord hawkerKey "HAWKER" "800XP" with
      propulsion :=
        { manufacturer := some "Honeywell", model := some "TFE731-5BR", engineCount := some count } }
  choice := 0
  completes := true
  documentId := documentId

/-- The first artifact states one engine, the second two. -/
def hawkerCalls : List Import := [hawkerCall 1 0, hawkerCall 2 1]

theorem hawkerCalls_complete : ∃ last,
    exec (importAircraft hawkerFunctions) (.seeded []) hawkerCalls = some last :=
  Option.isSome_iff_exists.mp (by decide +kernel)

theorem enginesOf_hawker : enginesOf hawkerKey hawkerCalls
    = [(hawkerCall 1 0).record.propulsion, (hawkerCall 2 1).record.propulsion] := by
  unfold enginesOf
  rw [List.filter_eq_self.mpr (by decide +kernel)]
  rfl

theorem engine_count_iff_hawker : ∃ last,
    exec (importAircraft hawkerFunctions) (.seeded []) hawkerCalls = some last ∧
      ¬ ∀ earlier later db, hawkerCalls = earlier ++ later →
        exec (importAircraft hawkerFunctions) (.seeded []) earlier = some db →
          Agrees db hawkerKey := by
  obtain ⟨last, hlast⟩ := hawkerCalls_complete
  refine ⟨last, hlast, fun hagrees => ?_⟩
  have hconsistent := (engine_count_iff hawkerFunctions [] hawkerCalls last hlast hawkerKey).mp
    hagrees
  rw [enginesOf_hawker] at hconsistent
  have hfirst := hconsistent (hawkerCall 2 1).record.propulsion (by simp) rfl 2 rfl
  exact absurd hfirst (by decide)

theorem engine_counts_differ : ¬ ∀ (sql : TextFunctions) organizations (calls : List Import) last key,
    (∀ call ∈ calls, call.record.sourceRecordKey = key) →
    (∀ call ∈ calls, ∀ other ∈ calls,
      call.record.propulsion.manufacturer = other.record.propulsion.manufacturer ∧
        call.record.propulsion.model = other.record.propulsion.model) →
    exec (importAircraft sql) (.seeded organizations) calls = some last → Agrees last key := by
  intro h
  obtain ⟨last, hlast⟩ := hawkerCalls_complete
  have hagrees := h hawkerFunctions [] hawkerCalls last hawkerKey (by decide +kernel)
    (by decide +kernel) hlast
  rw [agrees_iff hlast, enginesOf_hawker] at hagrees
  exact absurd (hagrees 1 rfl 2 rfl) (by decide)

end EngineCounts

end AircraftApi
