/-
AircraftApi/StagedNames.lean

The names under which an artifact's records are staged.

The preflight tells records apart by the digest of their two keys as the
document spells them; `staged_aircraft` is unique in the names as
`normalize_record` trims them.  So two keys that differ in white space at their
ends are two records for the preflight and one row for the table, which refuses
the second.  Nothing else is: an accepted artifact repeats no key
(`preflight_keys`).

    stageAll runId table records    the statements that stage the records
    SpelledOnce entries             no two keys of a document trim alike
    staged_names_iff                an accepted artifact is staged exactly then
-/
import AircraftApi.PlanePhd
import AircraftApi.PreparedRecord

namespace AircraftApi

namespace PlanePhd

variable {crates : Crates} {deserialize : List UInt8 → Document}

/-! ### The preflight and the keys -/

theorem Tally.errors_add_key {tally : Tally} {record : PreparedAircraftRecord}
    (h : (tally.add record).errors = []) :
    record.sourceRecordKey ∉ tally.sourceKeys ∧
      (tally.add record).sourceKeys = record.sourceRecordKey :: tally.sourceKeys := by
  have htally := (Tally.errors_add h).1
  have hseen : tally.sourceKeys.contains record.sourceRecordKey = false := by
    by_contra hseen
    rw [Bool.not_eq_false] at hseen
    -- the list of errors has room for the duplicate
    have hroom : tally.errors ++ (errorsOf record).take (100 - tally.errors.length) = [] := by
      have hclean := List.find?_eq_none.mp (Tally.errors_add h).2
      rw [htally, errorsOf, List.filter_eq_nil_iff.mpr hclean]
      rfl
    unfold Tally.add at h
    dsimp only at h
    rw [hroom, hseen] at h
    cases h
  refine ⟨fun hmem => ?_, ?_⟩
  · rw [List.contains_iff_mem.mpr hmem] at hseen
    cases hseen
  · unfold Tally.add
    dsimp only
    rw [hseen]
    rfl

theorem Tally.foldl_add_keys {records : List PreparedAircraftRecord} {tally : Tally}
    (h : (records.foldl Tally.add tally).errors = []) :
    (records.map (·.sourceRecordKey)).Nodup ∧
      ∀ record ∈ records, record.sourceRecordKey ∉ tally.sourceKeys := by
  induction records generalizing tally with
  | nil => exact ⟨List.nodup_nil, fun _ hrecord => by cases hrecord⟩
  | cons record records ih =>
      obtain ⟨hnodup, hfresh⟩ := ih h
      have hrest : (records.foldl Tally.add (tally.add record)).errors = [] := h
      obtain ⟨hnew, hkeys⟩ := Tally.errors_add_key (Tally.foldl_add hrest).1
      rw [hkeys] at hfresh
      refine ⟨List.nodup_cons.mpr ⟨fun hmem => ?_, hnodup⟩, List.forall_mem_cons.mpr ⟨hnew, ?_⟩⟩
      · obtain ⟨other, hother, heq⟩ := List.mem_map.mp hmem
        exact hfresh other hother (heq ▸ List.mem_cons_self)
      · intro other hother hmem
        exact hfresh other hother (List.mem_cons_of_mem _ hmem)

/-- An accepted artifact repeats no source record key. -/
theorem preflight_keys {bytes : List UInt8} {summary : PreflightSummary}
    (h : preflight crates deserialize bytes = .ok summary) :
    ((recordsOf crates deserialize bytes).map (·.sourceRecordKey)).Nodup := by
  have houtcome := (preflight_ok crates deserialize h).1
  unfold preflight at h
  rw [parseRecords_eq, houtcome] at h
  dsimp only at h
  split_ifs at h with hcount herrors
  exact (Tally.foldl_add_keys (not_not.mp herrors)).1

/-! ### Staging -/

/-- The columns of `staged_aircraft` its constraints read. -/
structure StagedAircraft where
  ingestRunId : ℤ
  sourceRecordKey : String
  manufacturerNameRaw : String
  aircraftNameRaw : String
  deriving DecidableEq

/-- The unique constraints of the table. -/
inductive Constraint
  | names
  | sourceKey
  deriving DecidableEq

/-- The row staged for a record. -/
def stagedRow (runId : ℤ) (record : PreparedAircraftRecord) : StagedAircraft where
  ingestRunId := runId
  sourceRecordKey := record.sourceRecordKey
  manufacturerNameRaw := record.identity.manufacturerName
  aircraftNameRaw := record.identity.aircraftName

/-- `INSERT INTO aircraft_ingest.staged_aircraft`. -/
def stage (runId : ℤ) (table : List StagedAircraft) (record : PreparedAircraftRecord) :
    Except Constraint (List StagedAircraft) :=
  let row := stagedRow runId record
  if table.any fun stored => stored.ingestRunId = row.ingestRunId ∧
      stored.manufacturerNameRaw = row.manufacturerNameRaw ∧
      stored.aircraftNameRaw = row.aircraftNameRaw then
    .error .names
  else if table.any fun stored => stored.ingestRunId = row.ingestRunId ∧
      stored.sourceRecordKey = row.sourceRecordKey then
    .error .sourceKey
  else .ok (table ++ [row])

/-- The statements of a run, up to the first that is refused. -/
def stageAll (runId : ℤ) : List StagedAircraft → List PreparedAircraftRecord →
    Except Constraint (List StagedAircraft)
  | table, [] => .ok table
  | table, record :: records => do
      let table ← stage runId table record
      stageAll runId table records

/-- The names a record is staged under. -/
def stagedName (record : PreparedAircraftRecord) : String × String :=
  (record.identity.manufacturerName, record.identity.aircraftName)

/-- No row of the run has the names of the record. -/
def Unnamed (runId : ℤ) (table : List StagedAircraft) (record : PreparedAircraftRecord) : Prop :=
  ∀ stored ∈ table, stored.ingestRunId = runId →
    (stored.manufacturerNameRaw, stored.aircraftNameRaw) ≠ stagedName record

/-- No row of the run has the key of the record. -/
def Unkeyed (runId : ℤ) (table : List StagedAircraft) (record : PreparedAircraftRecord) : Prop :=
  ∀ stored ∈ table, stored.ingestRunId = runId → stored.sourceRecordKey ≠ record.sourceRecordKey

section

variable {runId : ℤ} {table : List StagedAircraft} {record : PreparedAircraftRecord}

theorem stage_error (h : ¬ Unnamed runId table record) :
    stage runId table record = .error .names := by
  unfold Unnamed at h
  push Not at h
  obtain ⟨stored, hstored, hrun, hnames⟩ := h
  obtain ⟨hmanufacturer, haircraft⟩ := Prod.mk.injEq .. ▸ hnames
  exact if_pos (List.any_eq_true.mpr
    ⟨stored, hstored, decide_eq_true ⟨hrun, hmanufacturer, haircraft⟩⟩)

/-- A row that is new in its key and its names is appended. -/
theorem stage_ok (hkey : Unkeyed runId table record) (hnames : Unnamed runId table record) :
    stage runId table record = .ok (table ++ [stagedRow runId record]) := by
  unfold stage
  rw [if_neg, if_neg]
  · intro hany
    obtain ⟨stored, hstored, hsame⟩ := List.any_eq_true.mp hany
    obtain ⟨hrun, hsame⟩ := of_decide_eq_true hsame
    exact hkey stored hstored hrun hsame
  · intro hany
    obtain ⟨stored, hstored, hsame⟩ := List.any_eq_true.mp hany
    obtain ⟨hrun, hmanufacturer, haircraft⟩ := of_decide_eq_true hsame
    refine hnames stored hstored hrun ?_
    rw [hmanufacturer, haircraft]
    rfl

/-- Records of different keys are staged unless two of them, or one of them and
a row of the run, have the same names. -/
theorem stageAll_cases {records : List PreparedAircraftRecord}
    (hkeys : (records.map (·.sourceRecordKey)).Nodup)
    (hfresh : ∀ record ∈ records, Unkeyed runId table record) :
    let named := (records.map stagedName).Nodup ∧ ∀ record ∈ records, Unnamed runId table record
    stageAll runId table records = .error .names ∧ ¬ named ∨
      (∃ table', stageAll runId table records = .ok table') ∧ named := by
  induction records generalizing table with
  | nil => exact .inr ⟨⟨table, rfl⟩, List.nodup_nil, fun _ hrecord => by cases hrecord⟩
  | cons record records ih =>
      obtain ⟨hkey, hfresh⟩ := List.forall_mem_cons.mp hfresh
      obtain ⟨hrepeated, hkeys⟩ := List.nodup_cons.mp hkeys
      by_cases hnames : Unnamed runId table record
      · have hstage := stage_ok hkey hnames
        -- the row joins the table for the records after it
        have hlater : ∀ other ∈ records, Unkeyed runId (table ++ [stagedRow runId record]) other := by
          intro other hother stored hstored hrun
          rcases List.mem_append.mp hstored with hold | hnew
          · exact hfresh other hother stored hold hrun
          · rw [List.mem_singleton.mp hnew]
            intro heq
            exact hrepeated (List.mem_map.mpr ⟨other, hother, heq.symm⟩)
        have hiff : ((records.map stagedName).Nodup ∧
              ∀ other ∈ records, Unnamed runId (table ++ [stagedRow runId record]) other) ↔
            ((record :: records).map stagedName).Nodup ∧
              ∀ other ∈ record :: records, Unnamed runId table other := by
          constructor
          · rintro ⟨hnodup, hall⟩
            refine ⟨List.nodup_cons.mpr ⟨fun hmem => ?_, hnodup⟩,
              List.forall_mem_cons.mpr ⟨hnames, fun other hother stored hstored =>
                hall other hother stored (List.mem_append_left _ hstored)⟩⟩
            obtain ⟨other, hother, heq⟩ := List.mem_map.mp hmem
            exact hall other hother _ (List.mem_append_right _ (List.mem_singleton_self _)) rfl
              heq.symm
          · rintro ⟨hnodup, hall⟩
            obtain ⟨hrepeated, hnodup⟩ := List.nodup_cons.mp hnodup
            refine ⟨hnodup, fun other hother stored hstored hstoredRun => ?_⟩
            rcases List.mem_append.mp hstored with hold | hnew
            · exact hall other (List.mem_cons_of_mem _ hother) stored hold hstoredRun
            · rw [List.mem_singleton.mp hnew]
              intro heq
              exact hrepeated (List.mem_map.mpr ⟨other, hother, heq.symm⟩)
        have hrun : stageAll runId table (record :: records)
            = stageAll runId (table ++ [stagedRow runId record]) records := by
          rw [stageAll, hstage]
          rfl
        rw [hrun]
        dsimp only
        rw [← hiff]
        exact ih hkeys hlater
      · refine .inl ⟨?_, fun hnamed => hnames (hnamed.2 record List.mem_cons_self)⟩
        rw [stageAll, stage_error hnames]
        rfl

end

/-! ### The documents that are staged -/

/-- No two keys of a document, manufacturer and aircraft, differ only in the
white space around them. -/
def SpelledOnce (entries : List (String × String × Json)) : Prop :=
  ∀ e ∈ entries, ∀ e' ∈ entries,
    trimmed e.1 = trimmed e'.1 → trimmed e.2.1 = trimmed e'.2.1 → (e.1, e.2.1) = (e'.1, e'.2.1)

theorem normalizeRecord_names (manufacturer aircraft : String) (raw : Json) :
    (normalizeRecord crates manufacturer aircraft raw).sourceRecordKey
        = sourceRecordKey crates manufacturer aircraft ∧
      stagedName (normalizeRecord crates manufacturer aircraft raw)
        = (trimmed manufacturer, trimmed aircraft) := by
  cases raw with
  | object members =>
      rw [normalizeRecord_object]
      exact ⟨rfl, rfl⟩
  | _ => exact ⟨rfl, rfl⟩

/-- The names of an accepted artifact are distinct exactly when its keys are
spelled once. -/
theorem names_nodup_iff {bytes : List UInt8} {summary : PreflightSummary}
    (h : preflight crates deserialize bytes = .ok summary) :
    ((recordsOf crates deserialize bytes).map stagedName).Nodup ↔
      SpelledOnce (deserialize bytes).entries := by
  have hkeys := preflight_keys h
  unfold recordsOf at hkeys ⊢
  generalize (deserialize bytes).entries = entries at hkeys ⊢
  have hnames : (entries.map fun entry => normalizeRecord crates entry.1 entry.2.1 entry.2.2).map
      stagedName = (entries.map fun entry => (entry.1, entry.2.1)).map fun key =>
        (trimmed key.1, trimmed key.2) := by
    rw [List.map_map, List.map_map]
    exact List.map_congr_left fun entry _ => (normalizeRecord_names _ _ _).2
  have hraw : (entries.map fun entry => (entry.1, entry.2.1)).Nodup := by
    rw [List.map_map] at hkeys
    refine List.Nodup.of_map (fun key => sourceRecordKey crates key.1 key.2) ?_
    rw [List.map_map]
    convert hkeys using 2
    funext entry
    exact (normalizeRecord_names _ _ _).1.symm
  rw [hnames, List.nodup_map_iff_inj_on hraw]
  simp only [List.forall_mem_map, Prod.mk.injEq, and_imp, SpelledOnce]

/-- **Staged names**: of an artifact that the preflight accepts, the names are
pairwise distinct, and a new run stages every record, exactly when no two keys of
the document trim alike; otherwise the constraint of the names refuses one. -/
theorem staged_names_iff {bytes : List UInt8} {summary : PreflightSummary}
    (h : preflight crates deserialize bytes = .ok summary) {runId : ℤ}
    {table : List StagedAircraft} (hrun : ∀ stored ∈ table, stored.ingestRunId ≠ runId) :
    let records := recordsOf crates deserialize bytes
    let once := SpelledOnce (deserialize bytes).entries
    ((records.map stagedName).Nodup ↔ once) ∧
      ((∃ table', stageAll runId table records = .ok table') ↔ once) ∧
      (stageAll runId table records = .error .names ↔ ¬ once) := by
  intro records once
  have hnames := names_nodup_iff h
  have hclear : ∀ record ∈ records, Unnamed runId table record :=
    fun _ _ stored hstored heq => absurd heq (hrun stored hstored)
  refine ⟨hnames, ?_⟩
  rcases stageAll_cases (preflight_keys h) fun _ _ stored hstored heq =>
      absurd heq (hrun stored hstored) with ⟨herror, hnamed⟩ | ⟨⟨table', hok⟩, hnamed, -⟩
  · have honce : ¬ once := fun honce => hnamed ⟨hnames.mpr honce, hclear⟩
    rw [herror]
    refine ⟨iff_of_false ?_ honce, iff_of_true rfl honce⟩
    rintro ⟨table', ⟨⟩⟩
  · have honce : once := hnames.mp hnamed
    rw [hok]
    refine ⟨iff_of_true ⟨table', rfl⟩ honce, iff_of_false ?_ (not_not.mpr honce)⟩
    rintro ⟨⟩

/-- The three records of the document are staged, as no two of its keys trim alike. -/
theorem staged_names_iff_fleet :
    ((recordsOf fleetCrates fleetDocument fleetBytes).map stagedName).Nodup ∧
      ∃ table', stageAll 1 [] (recordsOf fleetCrates fleetDocument fleetBytes) = .ok table' := by
  have hnew : ∀ stored ∈ ([] : List StagedAircraft), stored.ingestRunId ≠ 1 := by simp
  have hiff := staged_names_iff preflight_fleet hnew
  have honce : SpelledOnce (fleetDocument fleetBytes).entries := by
    simp only [fleetDocument, SpelledOnce]
    decide +kernel
  exact ⟨hiff.1.mpr honce, hiff.2.1.mpr honce⟩

/-! ### Two spellings -/

/-- The document `{"Cessna":{"172":{}}," Cessna":{"172":{}}}`. -/
def spacedBytes : List UInt8 :=
  "\x7b\"Cessna\":\x7b\"172\":\x7b\x7d\x7d,\" Cessna\":\x7b\"172\":\x7b\x7d\x7d\x7d".toUTF8.data.toList

def spacedDocument (_ : List UInt8) : Document :=
  ⟨[("Cessna", "172", .object []), (" Cessna", "172", .object [])], .ok ()⟩

/-- SHA-256 on the three texts hashed for this document: those of the keys and
the list of the two. -/
def spacedSha256 (bytes : List UInt8) : List UInt8 :=
  if bytes.length = 19 then
    [132, 112, 109, 50, 111, 235, 148, 49, 242, 21, 45, 254, 219, 90, 104, 205, 122, 95, 69,
      89, 69, 126, 206, 138, 151, 153, 100, 219, 148, 59, 86, 188]
  else if bytes.length = 20 then
    [123, 205, 57, 237, 47, 178, 220, 109, 234, 23, 18, 41, 208, 65, 186, 106, 45, 253, 179,
      190, 149, 176, 77, 226, 58, 203, 172, 250, 200, 24, 209, 242]
  else
    [134, 108, 129, 52, 26, 17, 45, 30, 176, 179, 74, 1, 207, 175, 225, 252, 116, 152, 15, 171,
      164, 245, 137, 102, 150, 175, 222, 192, 232, 137, 144, 4]

def spacedCrates : Crates := ⟨spacedSha256, fun _ => none, fun _ _ => none⟩

def spacedSummary : PreflightSummary where
  recordCount := 2
  warningCount := 0
  recordKeysSha256 := "866c81341a112d1eb0b34a01cfafe1fc74980faba4f5896696afdec0e8899004"

/-- The preflight takes two records of one name, and the table refuses the second. -/
theorem spaced_names_repeated : ¬ ∀ (crates : Crates) (deserialize : List UInt8 → Document)
    (bytes : List UInt8) (summary : PreflightSummary),
      preflight crates deserialize bytes = .ok summary →
      ((recordsOf crates deserialize bytes).map stagedName).Nodup ∧
        ∀ runId : ℤ, stageAll runId [] (recordsOf crates deserialize bytes) ≠ .error .names := by
  intro h
  have haccepted : preflight spacedCrates spacedDocument spacedBytes = .ok spacedSummary := by
    decide +kernel
  exact (h _ _ _ _ haccepted).2 1 (by decide +kernel)

end PlanePhd

end AircraftApi
