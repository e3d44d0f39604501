/-
AircraftApi/Installer.lean

`database/install.sql` as psql runs it: any number of installers, of any revision, on one
database, each of which may be cut off after any statement.

An installer takes the advisory lock, and for each migration asks whether its version is
recorded, applies the file, and records the version.  The file commits before the version
is recorded, so an installer that ends between the two leaves a migration behind that is
applied and not recorded.  The next installer applies it again, and most files are one-time
DDL that then fails: no installer of it completes any more until the database is mended by
hand.  Which files can be applied again is a parameter, `repeats`.

    recorded_in_order   what is recorded, applied and complete in every run
    applied_once        the runs in which no installer ends between the two
    install_completes   one installer, left alone, where nothing is left behind
    Stuck.not_complete  where something is, no installer of it completes
-/
import AircraftApi.Transition

namespace AircraftApi

namespace Installer

open Transition (System exec)

/-! ### The script -/

/-- A statement of the script. -/
inductive Statement
  | migration (version file : String)
  | seed (file : String)
  deriving DecidableEq, Repr

/-- The migrations of a script. -/
def versions (script : List Statement) : List String :=
  script.filterMap fun
    | .migration version _ => some version
    | .seed _ => none

/-- The `\ir` directives of `install.sql`. -/
def installSql : List Statement := [
  .migration "001" "001_extensions_schemas_domains_triggers.sql",
  .migration "002" "002_core_reference_tables.sql",
  .seed "001_reference_units.sql",
  .seed "002_lookup_seed_data.sql",
  .migration "003" "003_geography_operators_organizations.sql",
  .migration "004" "004_aircraft_identity_taxonomy.sql",
  .migration "005" "005_certification_operating_approvals.sql",
  .migration "006" "006_dimensions_cabin_cargo_hangar_fit.sql",
  .migration "007" "007_weight_balance_payload_loading.sql",
  .migration "008" "008_performance_metrics_conditions.sql",
  .migration "009" "009_propulsion_engines_rotors_stcs.sql",
  .migration "010" "010_avionics_equipment_systems.sql",
  .migration "011" "011_military_sensors_stores_loadouts.sql",
  .migration "012" "012_ownership_cost_valuation_market.sql",
  .migration "013" "013_maintenance_reliability_supportability.sql",
  .migration "014" "014_sources_provenance_curation_audit.sql",
  .migration "015" "015_mission_profiles_comparison_scoring.sql",
  .seed "003_mission_profile_seed_data.sql",
  .migration "016" "016_read_models_views_indexes.sql",
  .migration "017" "017_rust_ingestion_adapter.sql",
  .migration "018" "018_staged_aircraft_variant_fk.sql",
  .migration "019" "019_weight_metrics_curation_gate.sql",
  .migration "020" "020_market_curation_gate.sql",
  .migration "021" "021_validate_measurement_assertion_foreign_keys.sql",
  .migration "022" "022_read_model_refresh_requests.sql",
  .migration "023" "023_backfill_ingestion_identity_projections.sql",
  .migration "024" "024_promote_existing_manufacturer_links.sql",
  .migration "025" "025_authentication_schema.sql",
  .migration "026" "026_source_license_terms.sql",
  .migration "027" "027_ownership_cost_summary_fuel_code.sql",
  .migration "028" "028_variant_powerplant_engine_count_optional.sql",
  .migration "029" "029_wikidata_country_of_origin.sql",
  .migration "030" "030_wikidata_model_first_flight.sql",
  .migration "031" "031_ownership_cost_annual_contribution.sql",
  .seed "004_authentication_seed_data.sql"
]

/-! ### The installers -/

/-- Where psql stands in its script. -/
inductive Session
  | idle
  | waiting (script : List Statement)
  | installing (script rest : List Statement)
  | applying (version : String) (script rest : List Statement)
  | recording (version : String) (script rest : List Statement)
  | complete (script : List Statement)
  deriving DecidableEq

/-- The session has the advisory lock. -/
def Session.holds : Session → Bool
  | installing _ _ => true
  | applying _ _ _ => true
  | recording _ _ _ => true
  | _ => false

/-- The migrations that were committed, in order, the rows of `aircraft_schema_migrations`,
and the sessions. -/
structure State (ι : Type*) where
  applied : List String
  recorded : List String
  sessions : ι → Session
  lock : Option ι

variable {ι : Type*} [DecidableEq ι]

/-- An empty database, no session. -/
def State.init : State ι := ⟨[], [], fun _ => .idle, none⟩

/-- What a session does next, or what happens to it. -/
inductive Action (ι : Type*)
  | connect (p : ι) (script : List Statement)
  | acquire (p : ι)
  | check (p : ι)
  | seed (p : ι)
  | apply (p : ι)
  | record (p : ι)
  | finish (p : ι)
  | kill (p : ι)

/-- The session goes on. -/
def State.move (s : State ι) (p : ι) (session : Session) : State ι :=
  { s with sessions := Function.update s.sessions p session }

/-- The session ends, and gives the lock back if it has it. -/
def State.quit (s : State ι) (p : ι) : State ι :=
  { s.move p .idle with lock := if s.lock = some p then none else s.lock }

/-- One statement of an installer.  Revisions share their history, so the migrations of a
script are the first ones of it.  A statement that fails ends the session, as `kill` does
(`ON_ERROR_STOP`); a file that is applied already fails unless it can be repeated. -/
def step (history : List String) (repeats : String → Bool) (s : State ι) :
    Action ι → Option (State ι)
  | .connect p script =>
      match s.sessions p with
      | .idle | .complete _ =>
          if versions script <+: history then some (s.move p (.waiting script)) else none
      | _ => none
  | .acquire p =>
      match s.sessions p, s.lock with
      | .waiting script, none => some { s.move p (.installing script script) with lock := some p }
      | _, _ => none
  | .check p =>
      match s.sessions p with
      | .installing script (.migration version _ :: rest) =>
          if version ∈ s.recorded then some (s.move p (.installing script rest))
          else some (s.move p (.applying version script rest))
      | _ => none
  | .seed p =>
      match s.sessions p with
      | .installing script (.seed _ :: rest) => some (s.move p (.installing script rest))
      | _ => none
  | .apply p =>
      match s.sessions p with
      | .applying version script rest =>
          if version ∈ s.applied ∧ repeats version = false then some (s.quit p)
          else some
            { s.move p (.recording version script rest) with applied := s.applied ++ [version] }
      | _ => none
  | .record p =>
      match s.sessions p with
      | .recording version script rest =>
          -- the primary key of `aircraft_schema_migrations`
          if version ∈ s.recorded then none
          else some
            { s.move p (.installing script rest) with recorded := s.recorded ++ [version] }
      | _ => none
  | .finish p =>
      match s.sessions p with
      | .installing script [] => some { s.move p (.complete script) with lock := none }
      | _ => none
  | .kill p => some (s.quit p)

/-- The sessions act in any order. -/
def system (history : List String) (repeats : String → Bool) : System (State ι) (Action ι) :=
  .ofStep .init (step history repeats)

/-! ### What is applied -/

/-- The second list, each element at least once in its place. -/
inductive Replays {α : Type*} : List α → List α → Prop
  | nil : Replays [] []
  | first {l ms} (v : α) : Replays l ms → Replays (l ++ [v]) (ms ++ [v])
  | again {l ms} (v : α) : Replays l (ms ++ [v]) → Replays (l ++ [v]) (ms ++ [v])

/-- What was applied is what is recorded, and maybe the migration that comes next. -/
def Applied (history applied recorded : List String) : Prop :=
  Replays applied recorded ∨
    ∃ version, recorded ++ [version] <+: history ∧ Replays applied (recorded ++ [version])

/-- What a session may rely on. -/
def Session.Ok (history applied recorded : List String) : Session → Prop
  | idle => True
  | waiting script => versions script <+: history
  | installing script rest => versions script <+: history ∧
      ∃ ran, script = ran ++ rest ∧ versions ran <+: recorded
  | applying version script rest => versions script <+: history ∧
      ∃ ran file, script = ran ++ .migration version file :: rest ∧ versions ran = recorded
  | recording version script rest => versions script <+: history ∧
      (∃ ran file, script = ran ++ .migration version file :: rest ∧ versions ran = recorded) ∧
      Replays applied (recorded ++ [version])
  | complete script => versions script <+: history ∧ versions script <+: recorded

/-- The lock has one holder, what is recorded is the beginning of the history, and every
session is where that allows. -/
structure Inv (history : List String) (s : State ι) : Prop where
  held : ∀ p, (s.sessions p).holds = true ↔ s.lock = some p
  recorded : s.recorded <+: history
  applied : Applied history s.applied s.recorded
  sessions : ∀ p, (s.sessions p).Ok history s.applied s.recorded

section

variable {history applied recorded : List String} {script ran rest : List Statement}
  {version file : String}

theorem versions_append (ran rest : List Statement) :
    versions (ran ++ rest) = versions ran ++ versions rest := List.filterMap_append

/-- Where a migration stands in a script, it comes next in the history. -/
theorem next_of_script (h : versions (ran ++ .migration version file :: rest) <+: history) :
    versions ran ++ [version] <+: history := by
  have hsplit : versions (ran ++ .migration version file :: rest) =
      versions ran ++ [version] ++ versions rest := by
    rw [versions_append, List.append_assoc]
    rfl
  rw [hsplit] at h
  exact (List.prefix_append _ _).trans h

/-- Two prefixes of the history: they are equal, or the shorter one goes on as the history
does. -/
theorem eq_or_next {l : List String} (hl : l ++ [version] <+: history) (hle : l <+: recorded)
    (hrecorded : recorded <+: history) : l = recorded ∨ l ++ [version] <+: recorded := by
  rcases List.prefix_or_prefix_of_prefix hl hrecorded with hnext | hback
  · exact .inr hnext
  · rcases List.prefix_concat_iff.mp hback with heq | hback
    · exact .inr (heq ▸ List.prefix_rfl)
    · exact .inl (hle.eq_of_length_le hback.length_le)

theorem eq_of_next {l : List String} {other : String} (hl : l ++ [version] <+: history)
    (hother : l ++ [other] <+: history) : other = version := by
  have hlength : (l ++ [other]).length = (l ++ [version]).length := by simp
  have heq := List.IsPrefix.eq_of_length (List.prefix_of_prefix_length_le hother hl
    (Nat.le_of_eq hlength)) hlength
  simpa using heq

/-- The next migration is applied, for the first time or again. -/
theorem Applied.apply (h : Applied history applied recorded)
    (hnext : recorded ++ [version] <+: history) :
    Replays (applied ++ [version]) (recorded ++ [version]) := by
  rcases h with h | ⟨other, hother, h⟩
  · exact .first version h
  · rw [eq_of_next hnext hother] at h
    exact .again version h

/-- A session without the lock relies on nothing that an installer changes. -/
theorem Session.Ok.frame {session : Session} {applied' recorded' : List String}
    (h : session.Ok history applied recorded) (hfree : session.holds = false)
    (hgrows : recorded <+: recorded') : session.Ok history applied' recorded' := by
  cases session with
  | idle => trivial
  | waiting script => exact h
  | complete script => exact ⟨h.1, h.2.trans hgrows⟩
  | installing script rest => cases hfree
  | applying version script rest => cases hfree
  | recording version script rest => cases hfree

end

/-! ### One statement -/

section

variable {history : List String} {repeats : String → Bool} {s s' : State ι} {p : ι}

/-- What a session does to the state: it moves, and it takes, keeps or frees the lock; only
with the lock does it write. -/
theorem Inv.update (h : Inv history s) {session : Session} {lock : Option ι}
    {applied recorded : List String}
    (hlock : lock = s.lock ∨ s.lock = none ∨ s.lock = some p)
    (hheld : session.holds = true ↔ lock = some p)
    (hothers : ∀ q ≠ p, lock = some q → s.lock = some q)
    (hwrites : applied = s.applied ∧ recorded = s.recorded ∨
      s.lock = some p ∧ s.recorded <+: recorded)
    (hrecorded : recorded <+: history) (happlied : Applied history applied recorded)
    (hok : session.Ok history applied recorded) :
    Inv history ⟨applied, recorded, Function.update s.sessions p session, lock⟩ where
  recorded := hrecorded
  applied := happlied
  held := by
    intro q
    show (Function.update s.sessions p session q).holds = true ↔ lock = some q
    by_cases hq : q = p
    · subst hq
      rw [Function.update_self]
      exact hheld
    · rw [Function.update_of_ne hq, h.held q]
      refine ⟨fun hmine => ?_, hothers q hq⟩
      -- the lock is kept, taken while it was free, or given back by its holder
      rcases hlock with rfl | hfree | hmine'
      · exact hmine
      · rw [hfree] at hmine
        cases hmine
      · rw [hmine'] at hmine
        exact absurd (Option.some.inj hmine).symm hq
  sessions := by
    intro q
    show (Function.update s.sessions p session q).Ok history applied recorded
    by_cases hq : q = p
    · subst hq
      rw [Function.update_self]
      exact hok
    · rw [Function.update_of_ne hq]
      -- only the holder of the lock writes
      rcases hwrites with ⟨rfl, rfl⟩ | ⟨hmine, hgrows⟩
      · exact h.sessions q
      · refine (h.sessions q).frame ?_ hgrows
        rw [Bool.eq_false_iff]
        intro hholds
        rw [h.held q, hmine] at hholds
        exact hq (Option.some.inj hholds).symm

omit [DecidableEq ι] in
theorem inv_init (history : List String) : Inv history (State.init : State ι) where
  held := by simp [State.init, Session.holds]
  recorded := List.nil_prefix
  applied := .inl .nil
  sessions := fun _ => trivial

/-- A session that has what it relies on moves on, and leaves the lock and the tables. -/
theorem Inv.move (h : Inv history s) {session : Session}
    (hholds : session.holds = (s.sessions p).holds)
    (hok : session.Ok history s.applied s.recorded) : Inv history (s.move p session) :=
  h.update (.inl rfl) (by rw [hholds, h.held p]) (fun _ _ heq => heq) (.inl ⟨rfl, rfl⟩) h.recorded
    h.applied hok

theorem Inv.quit (h : Inv history s) : Inv history (s.quit p) := by
  unfold State.quit
  by_cases hmine : s.lock = some p
  · rw [if_pos hmine]
    exact h.update (.inr (.inr hmine)) (by simp [Session.holds]) (by simp) (.inl ⟨rfl, rfl⟩)
      h.recorded h.applied trivial
  · rw [if_neg hmine]
    exact h.update (.inl rfl) (by simp [Session.holds, hmine]) (fun _ _ heq => heq)
      (.inl ⟨rfl, rfl⟩) h.recorded h.applied trivial

omit [DecidableEq ι] in
/-- The session whose turn it is has the lock. -/
theorem Inv.mine (h : Inv history s) {session : Session} (hsession : s.sessions p = session)
    (hholds : session.holds = true) : s.lock = some p :=
  (h.held p).mp (by rw [hsession, hholds])

theorem inv_connect (h : Inv history s) {script : List Statement}
    (hstep : step history repeats s (.connect p script) = some s') : Inv history s' := by
  simp only [step] at hstep
  split at hstep
  · rename_i hsession
    split_ifs at hstep with hscript
    exact Option.some.inj hstep ▸ h.move (by rw [hsession]; rfl) hscript
  · rename_i hsession
    split_ifs at hstep with hscript
    exact Option.some.inj hstep ▸ h.move (by rw [hsession]; rfl) hscript
  · cases hstep

theorem inv_acquire (h : Inv history s)
    (hstep : step history repeats s (.acquire p) = some s') : Inv history s' := by
  simp only [step] at hstep
  split at hstep
  · rename_i script hsession hlock
    have hok := h.sessions p
    rw [hsession] at hok
    rw [← Option.some.inj hstep]
    exact h.update (.inr (.inl hlock)) (by simp [Session.holds])
      (fun q hq heq => absurd (Option.some.inj heq).symm hq) (.inl ⟨rfl, rfl⟩) h.recorded
      h.applied ⟨hok, [], rfl, List.nil_prefix⟩
  · cases hstep

theorem inv_check (hnodup : history.Nodup) (h : Inv history s)
    (hstep : step history repeats s (.check p) = some s') : Inv history s' := by
  simp only [step] at hstep
  split at hstep
  · rename_i script version file rest hsession
    have hok := h.sessions p
    rw [hsession] at hok
    obtain ⟨hscript, ran, rfl, hran⟩ := hok
    have hnext := next_of_script hscript
    have hcases := eq_or_next hnext hran h.recorded
    split_ifs at hstep with hrecorded
    · -- recorded: what ran is recorded with it, as the history has it once
      rw [← Option.some.inj hstep]
      refine h.move (by rw [hsession]; rfl) ⟨hscript, ran ++ [.migration version file], by simp, ?_⟩
      rcases hcases with heq | hcases
      · rw [← heq] at hrecorded
        have htwice := (List.nodup_append.mp (List.Nodup.sublist hnext.sublist hnodup)).2.2
        exact absurd rfl (htwice version hrecorded version (List.mem_singleton_self version))
      · rw [versions_append]
        exact hcases
    · rw [← Option.some.inj hstep]
      refine h.move (by rw [hsession]; rfl) ⟨hscript, ran, file, rfl, ?_⟩
      rcases hcases with heq | hcases
      · exact heq
      · exact absurd (hcases.subset (List.mem_append_right _ (List.mem_singleton_self version)))
          hrecorded
  · cases hstep

theorem inv_seed (h : Inv history s) (hstep : step history repeats s (.seed p) = some s') :
    Inv history s' := by
  simp only [step] at hstep
  split at hstep
  · rename_i script file rest hsession
    have hok := h.sessions p
    rw [hsession] at hok
    obtain ⟨hscript, ran, rfl, hran⟩ := hok
    rw [← Option.some.inj hstep]
    refine h.move (by rw [hsession]; rfl) ⟨hscript, ran ++ [.seed file], by simp, ?_⟩
    rw [versions_append]
    simpa [versions] using hran
  · cases hstep

theorem inv_apply (h : Inv history s) (hstep : step history repeats s (.apply p) = some s') :
    Inv history s' := by
  simp only [step] at hstep
  split at hstep
  · rename_i version script rest hsession
    split_ifs at hstep with hfails
    · exact Option.some.inj hstep ▸ h.quit
    · have hok := h.sessions p
      have hmine := h.mine hsession rfl
      rw [hsession] at hok
      obtain ⟨hscript, ran, file, rfl, hran⟩ := hok
      have hnext : s.recorded ++ [version] <+: history := hran ▸ next_of_script hscript
      have happlied := h.applied.apply hnext
      rw [← Option.some.inj hstep]
      exact h.update (.inl rfl) (by simp [Session.holds, State.move, hmine]) (fun _ _ heq => heq)
        (.inr ⟨hmine, List.prefix_rfl⟩) h.recorded (.inr ⟨version, hnext, happlied⟩)
        ⟨hscript, ⟨ran, file, rfl, hran⟩, happlied⟩
  · cases hstep

theorem inv_record (h : Inv history s) (hstep : step history repeats s (.record p) = some s') :
    Inv history s' := by
  simp only [step] at hstep
  split at hstep
  · rename_i version script rest hsession
    have hok := h.sessions p
    have hmine := h.mine hsession rfl
    rw [hsession] at hok
    obtain ⟨hscript, ⟨ran, file, rfl, hran⟩, happlied⟩ := hok
    split_ifs at hstep
    rw [← Option.some.inj hstep]
    refine h.update (.inl rfl) (by simp [Session.holds, State.move, hmine]) (fun _ _ heq => heq)
      (.inr ⟨hmine, List.prefix_append _ _⟩) (hran ▸ next_of_script hscript) (.inl happlied)
      ⟨hscript, ran ++ [.migration version file], by simp, ?_⟩
    rw [versions_append, hran]
    exact List.prefix_rfl
  · cases hstep

theorem inv_finish (h : Inv history s) (hstep : step history repeats s (.finish p) = some s') :
    Inv history s' := by
  simp only [step] at hstep
  split at hstep
  · rename_i script hsession
    have hok := h.sessions p
    have hmine := h.mine hsession rfl
    rw [hsession] at hok
    obtain ⟨hscript, ran, rfl, hran⟩ := hok
    rw [← Option.some.inj hstep]
    refine h.update (.inr (.inr hmine)) (by simp [Session.holds]) (by simp)
      (.inl ⟨rfl, rfl⟩) h.recorded h.applied ⟨hscript, ?_⟩
    rwa [List.append_nil]
  · cases hstep

theorem inv_step (hnodup : history.Nodup) (h : Inv history s) {action : Action ι}
    (hstep : step history repeats s action = some s') : Inv history s' := by
  cases action with
  | connect p script => exact inv_connect h hstep
  | acquire p => exact inv_acquire h hstep
  | check p => exact inv_check hnodup h hstep
  | seed p => exact inv_seed h hstep
  | apply p => exact inv_apply h hstep
  | record p => exact inv_record h hstep
  | finish p => exact inv_finish h hstep
  | kill p => exact Option.some.inj hstep ▸ h.quit

theorem inv_of_reachable (hnodup : history.Nodup) (h : (system history repeats).Reachable s) :
    Inv history s := by
  apply h.invariant
  · rintro _ rfl
    exact inv_init history
  · exact fun hs hstep => inv_step hnodup hs hstep

omit [DecidableEq ι] in
theorem holder_unique (h : Inv history s) {q : ι} (hp : (s.sessions p).holds = true)
    (hq : (s.sessions q).holds = true) : p = q := by
  have hmine := (h.held p).mp hp
  rw [(h.held q).mp hq] at hmine
  exact (Option.some.inj hmine).symm

end

/-- **Installers**: in every run of any number of installers of any revisions, cut off
anywhere, one at a time installs; the versions recorded are the first of the history; what
was applied is these in order, none left out, and at most the next one beyond them; and an
installer that completes has all of its migrations recorded. -/
theorem recorded_in_order {history : List String} {repeats : String → Bool}
    (hnodup : history.Nodup) {s : State ι} (h : (system history repeats).Reachable s) :
    (∀ p q, (s.sessions p).holds = true → (s.sessions q).holds = true → p = q) ∧
      s.recorded <+: history ∧ Applied history s.applied s.recorded ∧
      ∀ p script, s.sessions p = .complete script → versions script <+: s.recorded ∧
        (versions script = history → s.recorded = history) := by
  have hinv := inv_of_reachable hnodup h
  refine ⟨fun p q => holder_unique hinv, hinv.recorded, hinv.applied, ?_⟩
  intro p script hcomplete
  have hok := hinv.sessions p
  rw [hcomplete] at hok
  refine ⟨hok.2, fun heq => ?_⟩
  have hall : history <+: s.recorded := heq ▸ hok.2
  exact hinv.recorded.eq_of_length_le hall.length_le

/-! ### Runs in which nothing is left behind -/

/-- No installer ends between a migration and its record. -/
def Undisturbed (s : State ι) : Action ι → Prop
  | .kill p => ∀ version script rest, s.sessions p ≠ .recording version script rest
  | _ => True

/-- What is applied is recorded, or is about to be. -/
def Once (s : State ι) : Prop :=
  s.applied = s.recorded ∨ ∃ p version script rest,
    s.sessions p = .recording version script rest ∧ s.applied = s.recorded ++ [version]

section

variable {history : List String} {repeats : String → Bool} {s s' : State ι} {p : ι}

/-- A session that is not recording moves. -/
theorem Once.move (h : Once s)
    (hnot : ∀ version script rest, s.sessions p ≠ .recording version script rest)
    (session : Session) (lock : Option ι) : Once { s.move p session with lock := lock } := by
  rcases h with h | ⟨q, version, script, rest, hsession, happlied⟩
  · exact .inl h
  · refine .inr ⟨q, version, script, rest, ?_, happlied⟩
    have hq : q ≠ p := by
      rintro rfl
      exact hnot version script rest hsession
    show Function.update s.sessions p session q = _
    rw [Function.update_of_ne hq, hsession]

theorem Replays.mem {α : Type*} {l ms : List α} (h : Replays l ms) : ∀ v ∈ ms, v ∈ l := by
  induction h with
  | nil => exact fun _ hv => hv
  | first v _ ih =>
      intro w hw
      rcases List.mem_append.mp hw with hw | hw
      · exact List.mem_append_left _ (ih w hw)
      · exact List.mem_append_right _ hw
  | again v _ ih => exact fun w hw => List.mem_append_left _ (ih w hw)

theorem once_step (hinv : Inv history s) (h : Once s) {action : Action ι}
    (hguard : Undisturbed s action) (hstep : step history repeats s action = some s') :
    Once s' := by
  cases action with
  | kill p =>
      rw [← Option.some.inj hstep]
      exact h.move hguard _ _
  | apply p =>
      simp only [step] at hstep
      split at hstep
      · rename_i version script rest hsession
        split_ifs at hstep
        · exact Option.some.inj hstep ▸ h.move (by simp [hsession]) _ _
        · rw [← Option.some.inj hstep]
          rcases h with h | ⟨q, other, script', rest', hother, -⟩
          · refine .inr ⟨p, version, script, rest, Function.update_self _ _ _, ?_⟩
            show s.applied ++ [version] = s.recorded ++ [version]
            rw [h]
          · -- one session at a time has the lock
            have hq := holder_unique hinv (p := p) (q := q) (by rw [hsession]; rfl)
              (by rw [hother]; rfl)
            rw [hq, hother] at hsession
            cases hsession
      · cases hstep
  | record p =>
      simp only [step] at hstep
      split at hstep
      · rename_i version script rest hsession
        have hok := hinv.sessions p
        rw [hsession] at hok
        split_ifs at hstep with hrecorded
        rw [← Option.some.inj hstep]
        rcases h with h | ⟨q, other, script', rest', hother, happlied⟩
        · have hmem := hok.2.2.mem version (List.mem_append_right _ (List.mem_singleton_self _))
          rw [h] at hmem
          exact absurd hmem hrecorded
        · have hq := holder_unique hinv (p := p) (q := q) (by rw [hsession]; rfl)
            (by rw [hother]; rfl)
          rw [← hq, hsession] at hother
          obtain ⟨rfl, -, -⟩ := Session.recording.inj hother
          exact .inl happlied
      · cases hstep
  | connect p script =>
      simp only [step] at hstep
      split at hstep
      · rename_i hsession
        split_ifs at hstep
        exact Option.some.inj hstep ▸ h.move (by simp [hsession]) _ _
      · rename_i hsession
        split_ifs at hstep
        exact Option.some.inj hstep ▸ h.move (by simp [hsession]) _ _
      · cases hstep
  | acquire p =>
      simp only [step] at hstep
      split at hstep
      · rename_i script hsession hlock
        exact Option.some.inj hstep ▸ h.move (by simp [hsession]) _ _
      · cases hstep
  | check p =>
      simp only [step] at hstep
      split at hstep
      · rename_i script version file rest hsession
        split_ifs at hstep
        · exact Option.some.inj hstep ▸ h.move (by simp [hsession]) _ _
        · exact Option.some.inj hstep ▸ h.move (by simp [hsession]) _ _
      · cases hstep
  | seed p =>
      simp only [step] at hstep
      split at hstep
      · rename_i script file rest hsession
        exact Option.some.inj hstep ▸ h.move (by simp [hsession]) _ _
      · cases hstep
  | finish p =>
      simp only [step] at hstep
      split at hstep
      · rename_i script hsession
        exact Option.some.inj hstep ▸ h.move (by simp [hsession]) _ _
      · cases hstep

end

/-- **No migration twice**: in the runs in which no installer ends between a migration and
its record, what is applied is the first migrations of the history, each once and in order,
and all of it is recorded but for one that is about to be. -/
theorem applied_once {history : List String} {repeats : String → Bool}
    (hnodup : history.Nodup) {s : State ι}
    (h : ((system history repeats).guard Undisturbed).Reachable s) :
    s.applied <+: history ∧ s.recorded <+: s.applied ∧
      s.applied.length ≤ s.recorded.length + 1 := by
  have honce : Inv history s ∧ Once s := by
    induction h with
    | init hinit => exact hinit ▸ ⟨inv_init history, .inl rfl⟩
    | step _ hstep ih =>
        exact ⟨inv_step hnodup ih.1 hstep.2, once_step ih.1 ih.2 hstep.1 hstep.2⟩
  obtain ⟨hinv, happlied | ⟨p, version, script, rest, hsession, happlied⟩⟩ := honce
  · rw [happlied]
    exact ⟨hinv.recorded, List.prefix_rfl, Nat.le_succ _⟩
  · have hok := hinv.sessions p
    rw [hsession] at hok
    obtain ⟨hscript, ⟨ran, file, rfl, hran⟩, -⟩ := hok
    rw [happlied]
    exact ⟨hran ▸ next_of_script hscript, List.prefix_append _ _, by simp⟩

/-! ### One installer, left alone -/

/-- The migrations of a script that are not recorded. -/
def missing (script : List Statement) (recorded : List String) : List String :=
  (versions script).filter (· ∉ recorded)

section

variable {history : List String} {repeats : String → Bool} {s : State ι} {p : ι}
  {script rest : List Statement}

/-- Statements that lead to a state from which more lead on. -/
theorem exec_trans {s₁ s₂ : State ι} {actions more : List (Action ι)}
    (h : exec (step history repeats) s actions = some s₁)
    (hmore : exec (step history repeats) s₁ more = some s₂) :
    exec (step history repeats) s (actions ++ more) = some s₂ := by
  rw [Transition.exec_append, h]
  exact hmore

theorem missing_record {version : String} (hnot : version ∉ versions rest)
    (recorded : List String) :
    missing rest (recorded ++ [version]) = missing rest recorded := by
  apply List.filter_congr
  intro other hother
  have hne : other ≠ version := fun heq => hnot (heq ▸ hother)
  simp [hne]

/-- A statement of this session, and not its end by force. -/
def Action.IsOf (p : ι) : Action ι → Prop
  | .connect q _ => q = p
  | .acquire q => q = p
  | .check q => q = p
  | .seed q => q = p
  | .apply q => q = p
  | .record q => q = p
  | .finish q => q = p
  | .kill _ => False

/-- No migration that is missing was left behind by an installer that was cut off, unless
its file can be applied again. -/
def Clean (repeats : String → Bool) (script : List Statement) (s : State ι) : Prop :=
  ∀ version ∈ missing script s.recorded, version ∈ s.applied → repeats version = true

/-- From the lock on, an installer applies and records what is missing. -/
theorem run_installing (hsession : s.sessions p = .installing script rest)
    (hlock : s.lock = some p) (hnodup : (versions rest).Nodup) (hclean : Clean repeats rest s) :
    ∃ actions s', (∀ action ∈ actions, action.IsOf p) ∧
      exec (step history repeats) s actions = some s' ∧
      s'.sessions p = .installing script [] ∧ s'.lock = some p ∧
      s'.recorded = s.recorded ++ missing rest s.recorded ∧
      s'.applied = s.applied ++ missing rest s.recorded := by
  induction rest generalizing s with
  | nil =>
      exact ⟨[], s, List.forall_mem_nil _, rfl, hsession, hlock, by simp [missing, versions],
        by simp [missing, versions]⟩
  | cons statement rest ih =>
      cases statement with
      | seed file =>
          have hstep : step history repeats s (.seed p) =
              some (s.move p (.installing script rest)) := by
            simp only [step, hsession]
          obtain ⟨actions, s', hown, hrun, hdone⟩ := ih
            (s := s.move p (.installing script rest)) (Function.update_self _ _ _) hlock hnodup
            hclean
          exact ⟨.seed p :: actions, s', List.forall_mem_cons.mpr ⟨rfl, hown⟩,
            by rw [exec, hstep]; exact hrun, hdone⟩
      | migration version file =>
          obtain ⟨hnot, hrest⟩ := List.nodup_cons.mp hnodup
          by_cases hrecorded : version ∈ s.recorded
          · have hstep : step history repeats s (.check p) =
                some (s.move p (.installing script rest)) := by
              simp only [step, hsession, if_pos hrecorded]
            have hskip : missing (.migration version file :: rest) s.recorded =
                missing rest s.recorded := by
              simp [missing, versions, hrecorded]
            have hcleanRest : Clean repeats rest (s.move p (.installing script rest)) :=
              fun other hother => hclean other (hskip ▸ hother)
            obtain ⟨actions, s', hown, hrun, hend, hheld, hdone⟩ := ih
              (s := s.move p (.installing script rest)) (Function.update_self _ _ _) hlock hrest
              hcleanRest
            rw [hskip]
            exact ⟨.check p :: actions, s', List.forall_mem_cons.mpr ⟨rfl, hown⟩,
              by rw [exec, hstep]; exact hrun, hend, hheld, hdone⟩
          · -- three statements: the question, the file, the record
            let asked := s.move p (.applying version script rest)
            let committed := { asked.move p (.recording version script rest) with
              applied := s.applied ++ [version] }
            let noted := { committed.move p (.installing script rest) with
              recorded := s.recorded ++ [version] }
            have hone : missing (.migration version file :: rest) s.recorded =
                version :: missing rest s.recorded := by
              simp [missing, versions, hrecorded]
            have hpasses : ¬ (version ∈ s.applied ∧ repeats version = false) := by
              rintro ⟨happlied, honce⟩
              rw [hclean version (hone ▸ List.mem_cons_self) happlied] at honce
              cases honce
            have hasked : step history repeats s (.check p) = some asked := by
              simp only [step, hsession, if_neg hrecorded]
              rfl
            have hcommitted : step history repeats asked (.apply p) = some committed := by
              have happlying : asked.sessions p = .applying version script rest :=
                Function.update_self _ _ _
              simp only [step, happlying]
              exact if_neg hpasses
            have hnoted : step history repeats committed (.record p) = some noted := by
              have hrecording : committed.sessions p = .recording version script rest :=
                Function.update_self _ _ _
              simp only [step, hrecording]
              exact if_neg hrecorded
            -- the one applied now is not missing any more
            have hcleanRest : Clean repeats rest noted := by
              intro other hother happlied
              rw [show noted.recorded = s.recorded ++ [version] from rfl,
                missing_record hnot] at hother
              rcases List.mem_append.mp happlied with happlied | heq
              · exact hclean other (hone ▸ List.mem_cons_of_mem _ hother) happlied
              · rw [List.mem_singleton.mp heq] at hother
                exact absurd (List.mem_filter.mp hother).1 hnot
            obtain ⟨actions, s', hown, hrun, hend, hheld, hrecords, happlies⟩ := ih (s := noted)
              (Function.update_self _ _ _) hlock hrest hcleanRest
            refine ⟨.check p :: .apply p :: .record p :: actions, s', ?_, ?_, hend, hheld, ?_, ?_⟩
            · simp only [List.forall_mem_cons]
              exact ⟨rfl, rfl, rfl, hown⟩
            · rw [exec, hasked, Option.bind_some, exec, hcommitted, Option.bind_some, exec, hnoted]
              exact hrun
            · rw [hrecords, hone]
              show s.recorded ++ [version] ++ missing rest (s.recorded ++ [version]) = _
              rw [missing_record hnot, List.append_assoc]
              rfl
            · rw [happlies, hone]
              show s.applied ++ [version] ++ missing rest (s.recorded ++ [version]) = _
              rw [missing_record hnot, List.append_assoc]
              rfl

end

/-- **An installer that is left alone completes**: from every state that installers reach
and in which none has the lock, unless a migration that it misses was left behind applied
and cannot be applied again, its own statements run to the end, and it applies and records
the migrations of its script that are not recorded, and no others. -/
theorem install_completes {history : List String} {repeats : String → Bool}
    (hnodup : history.Nodup) {s : State ι} (h : (system history repeats).Reachable s)
    (hfree : s.lock = none) {p : ι} (hidle : s.sessions p = .idle) {script : List Statement}
    (hscript : versions script <+: history) (hclean : Clean repeats script s) :
    ∃ actions s', (∀ action ∈ actions, action.IsOf p) ∧
      exec (step history repeats) s actions = some s' ∧ s'.sessions p = .complete script ∧
      s'.lock = none ∧ s'.recorded = s.recorded ++ missing script s.recorded ∧
      s'.applied = s.applied ++ missing script s.recorded ∧
      versions script <+: s'.recorded := by
  let waiting := s.move p (.waiting script)
  let begun := { waiting.move p (.installing script script) with lock := some p }
  have hwaiting : step history repeats s (.connect p script) = some waiting := by
    simp only [step, hidle, if_pos hscript]
    rfl
  have hbegun : step history repeats waiting (.acquire p) = some begun := by
    simp [step, waiting, begun, State.move, hfree]
  obtain ⟨actions, s', hown, hrun, hend, hheld, hrecorded, happlied⟩ := run_installing (s := begun)
    (Function.update_self _ _ _) rfl (hnodup.sublist hscript.sublist) hclean
  -- the script is through, and its session may finish
  have hfinish : step history repeats s' (.finish p) =
      some { s'.move p (.complete script) with lock := none } := by
    simp only [step, hend]
  have hall : exec (step history repeats) s
      (.connect p script :: .acquire p :: (actions ++ [.finish p])) =
      some { s'.move p (.complete script) with lock := none } := by
    rw [exec, hwaiting, Option.bind_some, exec, hbegun]
    refine exec_trans hrun ?_
    rw [exec, hfinish]
    rfl
  have hok := (inv_of_reachable hnodup (h.exec hall)).sessions p
  have hcomplete : ({ s'.move p (.complete script) with lock := none } : State ι).sessions p =
      .complete script := Function.update_self _ _ _
  rw [hcomplete] at hok
  refine ⟨_, _, ?_, hall, hcomplete, rfl, hrecorded, happlied, hok.2⟩
  simp only [List.forall_mem_cons, List.forall_mem_append]
  exact ⟨rfl, rfl, hown, rfl, List.forall_mem_nil _⟩

/-! ### A migration left behind -/

/-- The migration is applied and not recorded, its file cannot be applied again, and the
session that applied it is gone. -/
structure Stuck (repeats : String → Bool) (version : String) (s : State ι) : Prop where
  applied : version ∈ s.applied
  unrecorded : version ∉ s.recorded
  once : repeats version = false
  gone : ∀ p script rest, s.sessions p ≠ .recording version script rest

section

variable {history : List String} {repeats : String → Bool} {s s' : State ι} {p : ι}
  {version : String}

/-- A session that does not begin to record the migration moves. -/
theorem Stuck.move (h : Stuck repeats version s) {session : Session} {lock : Option ι}
    {applied : List String} (happlied : s.applied ⊆ applied)
    (hnot : ∀ script rest, session ≠ .recording version script rest) :
    Stuck repeats version { s.move p session with lock := lock, applied := applied } where
  applied := happlied h.applied
  unrecorded := h.unrecorded
  once := h.once
  gone := by
    intro q script rest
    show Function.update s.sessions p session q ≠ _
    by_cases hq : q = p
    · rw [hq, Function.update_self]
      exact hnot script rest
    · rw [Function.update_of_ne hq]
      exact h.gone q script rest

theorem stuck_step (h : Stuck repeats version s) {action : Action ι}
    (hstep : step history repeats s action = some s') : Stuck repeats version s' := by
  cases action with
  | apply p =>
      simp only [step] at hstep
      split at hstep
      · rename_i next script rest hsession
        split_ifs at hstep with hfails
        · exact Option.some.inj hstep ▸ h.move (fun _ hv => hv) (by simp)
        · rw [← Option.some.inj hstep]
          refine h.move (List.subset_append_left _ _) ?_
          -- another one: of this one the file fails
          intro script' rest' heq
          obtain ⟨rfl, -, -⟩ := Session.recording.inj heq
          exact hfails ⟨h.applied, h.once⟩
      · cases hstep
  | record p =>
      simp only [step] at hstep
      split at hstep
      · rename_i next script rest hsession
        split_ifs at hstep
        rw [← Option.some.inj hstep]
        have hmoved : Stuck repeats version
            { s.move p (.installing script rest) with lock := s.lock, applied := s.applied } :=
          h.move (fun _ hv => hv) (by simp)
        refine ⟨hmoved.applied, ?_, hmoved.once, hmoved.gone⟩
        intro hmem
        rcases List.mem_append.mp hmem with hmem | heq
        · exact h.unrecorded hmem
        · rw [List.mem_singleton.mp heq] at h
          exact h.gone p script rest hsession
      · cases hstep
  | connect p script =>
      simp only [step] at hstep
      split at hstep
      · split_ifs at hstep
        exact Option.some.inj hstep ▸ h.move (fun _ hv => hv) (by simp)
      · split_ifs at hstep
        exact Option.some.inj hstep ▸ h.move (fun _ hv => hv) (by simp)
      · cases hstep
  | acquire p =>
      simp only [step] at hstep
      split at hstep
      · exact Option.some.inj hstep ▸ h.move (fun _ hv => hv) (by simp)
      · cases hstep
  | check p =>
      simp only [step] at hstep
      split at hstep
      · split_ifs at hstep
        · exact Option.some.inj hstep ▸ h.move (fun _ hv => hv) (by simp)
        · exact Option.some.inj hstep ▸ h.move (fun _ hv => hv) (by simp)
      · cases hstep
  | seed p =>
      simp only [step] at hstep
      split at hstep
      · exact Option.some.inj hstep ▸ h.move (fun _ hv => hv) (by simp)
      · cases hstep
  | finish p =>
      simp only [step] at hstep
      split at hstep
      · exact Option.some.inj hstep ▸ h.move (fun _ hv => hv) (by simp)
      · cases hstep
  | kill p => exact Option.some.inj hstep ▸ h.move (fun _ hv => hv) (by simp)

/-- From then on no installer that has the migration in its script completes. -/
theorem Stuck.not_complete (hnodup : history.Nodup) (hs : (system history repeats).Reachable s)
    (h : Stuck repeats version s) {actions : List (Action ι)}
    (hrun : exec (step history repeats) s actions = some s') {script : List Statement}
    (hscript : version ∈ versions script) : s'.sessions p ≠ .complete script := by
  have hstuck : Stuck repeats version s' := by
    induction actions generalizing s with
    | nil => exact Option.some.inj hrun ▸ h
    | cons action actions ih =>
        obtain ⟨mid, hstep, hrest⟩ := Option.bind_eq_some_iff.mp hrun
        exact ih (hs.step hstep) (stuck_step h hstep) hrest
  intro hcomplete
  have hok := (inv_of_reachable hnodup (hs.exec hrun)).sessions p
  rw [hcomplete] at hok
  exact hstuck.unrecorded (hok.2.subset hscript)

end

/-! ### The script of the repository -/

theorem nodup_installSql : (versions installSql).Nodup := by
  decide +kernel

/-- As the notes on the database have it, no file can be applied again. -/
def oneTime (_ : String) : Bool := false

/-- Two installers; the first one has recorded a migration and applied the next. -/
def twoMigrations : List (Action Bool) :=
  [.connect true installSql, .connect false installSql, .acquire true, .check true, .apply true,
    .record true, .check true, .apply true]

def begun : State Bool :=
  (exec (step (versions installSql) oneTime) .init twoMigrations).getD .init

theorem exec_begun :
    exec (step (versions installSql) oneTime) .init twoMigrations = some begun := by
  rfl

theorem recorded_in_order_begun : begun.recorded = ["001"] ∧ begun.applied = ["001", "002"] ∧
    begun.recorded <+: versions installSql ∧
    Applied (versions installSql) begun.applied begun.recorded :=
  have h := recorded_in_order nodup_installSql
    (Transition.reachable_of_exec twoMigrations exec_begun)
  ⟨rfl, rfl, h.2.1, h.2.2.1⟩

theorem applied_once_begun : begun.applied <+: versions installSql :=
  (applied_once nodup_installSql (Transition.reachable_guard_of_exec twoMigrations
    (by simp [twoMigrations, Undisturbed]) exec_begun)).1

/-- The first installer ends behind a record. -/
def firstMigration : List (Action Bool) :=
  [.connect true installSql, .acquire true, .check true, .apply true, .record true, .kill true]

def interrupted : State Bool :=
  (exec (step (versions installSql) oneTime) .init firstMigration).getD .init

theorem exec_interrupted :
    exec (step (versions installSql) oneTime) .init firstMigration = some interrupted := by
  rfl

theorem install_completes_installSql : ∃ actions s', (∀ action ∈ actions, action.IsOf false) ∧
    exec (step (versions installSql) oneTime) interrupted actions = some s' ∧
      s'.sessions false = .complete installSql ∧ s'.lock = none ∧
      s'.recorded = ["001"] ++ missing installSql ["001"] ∧
      s'.applied = ["001"] ++ missing installSql ["001"] ∧
      versions installSql <+: s'.recorded :=
  install_completes nodup_installSql (Transition.reachable_of_exec firstMigration exec_interrupted)
    rfl rfl List.prefix_rfl (by unfold Clean; decide +kernel)

/-- An installer that ends before the record leaves a migration behind that fails in the next
one, which skips what is recorded. -/
example : ((exec (step (versions installSql) oneTime) begun
    [.kill true, .acquire false, .check false, .check false, .apply false]).map fun s =>
    (s.applied, s.sessions false)) = some (["001", "002"], .idle) := by
  decide +kernel

end Installer

end AircraftApi
