/-
AircraftApi/MigrationGate.lean

`xtask migrations check`: the gate over `database/`, before any of it is run.

It reads the migrations with their lock, the installer, the validations, the versions the
history validation expects and the linter's exclusions, and lists every violation it
finds.  Each check has a lemma that says when it finds none.  Names of three digits in
order have their numbers in order (`digits_le`), and the installer's directives are the
migrations one by one (`installs_iff`).
-/
import AircraftApi.ImportService
import AircraftApi.Issuance
import AircraftApi.MigrationLedger

namespace AircraftApi

namespace MigrationGate

open Text ImportService
open Problem (isAsciiHexDigit)
open MigrationLedger (ledgerVersions)
open Catalog (readUtf8)

/-! ### The files -/

theorem lawful_name : LawfulBEq (List Char) := inferInstance

/-- Whether a file is among others. -/
scoped instance decidableMem (file : List Char) (files : List (List Char)) :
    Decidable (file ∈ files) :=
  @List.instDecidableMemOfLawfulBEq _ _ lawful_name file files

/-- An entry of the lock: a file and the digest it had. -/
structure LockedMigration where
  file : List Char
  sha256 : List Char

/-- The lock file. -/
structure MigrationLock where
  schemaVersion : ℕ
  migrations : List LockedMigration

/-- A migration file with its content and the number it begins with. -/
structure Migration where
  file : List Char
  content : List UInt8
  version : ℕ
  deriving DecidableEq

/-- What is checked: the files of `database/migrations` by name, `migrations.lock.json`,
`install.sql`, the names in `database/validation`, its
`000_migration_history_validation.sql`, and `.squawk.toml`. -/
structure Repository where
  migrations : List (List Char × List UInt8)
  names_nodup : (migrations.map Prod.fst).Nodup
  lock : List UInt8
  installer : List UInt8
  validations : List (List Char)
  historyLedger : List UInt8
  squawk : List UInt8

/-- SHA-256, the JSON reader, and how a list of texts is written for debugging. -/
structure GateCrates where
  sha256 : List UInt8 → List UInt8
  parseLock : List UInt8 → Option MigrationLock
  debug : List (List Char) → String

/-- Why the check ends: a file it cannot read, a lock it cannot, or the violations found. -/
inductive Failure
  | unreadable (label : List Char)
  | notJson (label : String)
  | unsupported (schemaVersion : ℕ)
  | policy (violations : List String)
  deriving DecidableEq

/-! ### Names and versions -/

/-- `Path::extension` is `sql`. -/
def hasSqlExtension (name : List Char) : Bool := ".sql".toList <:+ name ∧ 4 < name.length

/-- `str::parse::<u16>`. -/
def parseU16 (s : List Char) : Option ℕ := parseUnsigned 65535 s

/-- The number a file name begins with: three digits before the first underscore, and a
name behind it. -/
def migrationVersion (file : List Char) : Option ℕ :=
  (splitOnce '_' file).bind fun parts =>
    if (String.ofList parts.1).utf8ByteSize ≠ 3 ∨ parts.2 = ".sql".toList ∨
        hasSqlExtension parts.2 = false then none
    else parseU16 parts.1

/-- `{:03}`. -/
def padded (version : ℕ) : List Char :=
  let digits := Nat.toDigits 10 version
  List.replicate (3 - digits.length) '0' ++ digits

/-- The migration files, in the order of their names. -/
def readMigrations (files : List (List Char × List UInt8)) : List Migration :=
  ((files.filter fun file => hasSqlExtension file.1).mergeSort fun a b => a.1 ≤ b.1).map
    fun file => ⟨file.1, file.2, (migrationVersion file.1).getD 0⟩

/-- The characters of a file name. -/
def isNameChar (c : Char) : Bool := c.isLower ∨ c.isDigit ∨ c = '_' ∨ c = '.'

/-- The file name is a number and lower-case characters. -/
def validName (m : Migration) : Bool := (migrationVersion m.file).isSome ∧ m.file.all isNameChar

/-- `versions` is the map of the versions seen so far, the last one of each first. -/
def checkNamesAndVersions : List (ℕ × List Char) → List Migration → List String
  | _, [] => []
  | versions, m :: rest =>
      let file := String.ofList m.file
      if validName m then
        let more := checkNamesAndVersions ((m.version, m.file) :: versions) rest
        match versions.lookup m.version with
        | some other =>
            let version := String.ofList (padded m.version)
            let previous := String.ofList other
            s!"migration version {version} is duplicated by {previous} and {file}" :: more
        | none => more
      else
        s!"{file} must use NNN_lowercase_description.sql naming" ::
          checkNamesAndVersions versions rest

/-! ### The lock -/

/-- The lock, of the one layout there is. -/
def readLock (crates : GateCrates) (bytes : List UInt8) : Except Failure MigrationLock :=
  match crates.parseLock bytes with
  | none => .error (.notJson "migrations.lock.json")
  | some lock =>
      if lock.schemaVersion = 1 then .ok lock else .error (.unsupported lock.schemaVersion)

/-- The digest a file is locked at; the last entry of a name counts. -/
def MigrationLock.lookup (lock : MigrationLock) (file : List Char) : Option (List Char) :=
  (lock.migrations.reverse.find? fun locked => locked.file = file).map LockedMigration.sha256

/-- The digest of a content, as hexadecimal digits. -/
def digest (crates : GateCrates) (content : List UInt8) : List Char :=
  (crates.sha256 content).flatMap hexByte

/-- What is wrong with the digest the lock holds for a file. -/
def checksum (crates : GateCrates) (lock : MigrationLock) (m : Migration) : Option String :=
  (lock.lookup m.file).bind fun expected =>
    let file := String.ofList m.file
    if expected.length ≠ 64 ∨ expected.all isAsciiHexDigit = false then
      some s!"{file} has an invalid locked SHA-256"
    else
      let actual := digest crates m.content
      if actual ≠ expected then
        let expected := String.ofList expected
        let actual := String.ofList actual
        some s!"{file} checksum changed: expected {expected}, found {actual}"
      else none

/-- The lock holds every file, holds no other, and has the digest of each. -/
def checkLock (crates : GateCrates) (migrations : List Migration) (lock : MigrationLock) :
    List String :=
  let files := migrations.map Migration.file
  let locked := (lock.migrations.map LockedMigration.file).dedup
  ((files.filter (· ∉ locked)).map fun file =>
      let missing := String.ofList file
      s!"{missing} is missing from database/migrations.lock.json") ++
    ((locked.filter (· ∉ files)).map fun file =>
      let stale := String.ofList file
      s!"database/migrations.lock.json references missing {stale}") ++
    migrations.filterMap (checksum crates lock)

/-! ### Transactions -/

/-- `fs::read_to_string`. -/
def readToString (label : List Char) (bytes : List UInt8) : Except Failure (List Char) :=
  match readUtf8 bytes with
  | some text => .ok text.toList
  | none => .error (.unreadable label)

/-- The file has a line BEGIN and a line COMMIT. -/
def transactional (sql : List Char) : Bool :=
  "BEGIN;".toList ∈ (lines sql).map trim ∧ "COMMIT;".toList ∈ (lines sql).map trim

/-- Every file is a transaction; one that is no text ends the check. -/
def checkTransactions : List Migration → Except Failure (List String)
  | [] => .ok []
  | m :: rest => do
      let sql ← readToString m.file m.content
      let more ← checkTransactions rest
      if transactional sql then .ok more
      else
        let file := String.ofList m.file
        .ok (s!"{file} must contain an explicit BEGIN/COMMIT transaction" :: more)

/-! ### The installer -/

/-- The line is a comment. -/
def isComment (line : List Char) : Bool := "--".toList <+: line

/-- The `\ir` directives, with the numbers of their lines. -/
def directives (installer : List Char) : List (ℕ × List Char) :=
  (lines installer).zipIdx.filterMap fun line =>
    if isComment (trim line.1) then none
    else (stripPrefix "\\ir migrations/".toList (trim line.1)).map fun file => (line.2, file)

/-- The lines that include a file. -/
def positions (directives : List (ℕ × List Char)) (file : List Char) : List ℕ :=
  (directives.filter fun directive => directive.2 = file).map Prod.fst

/-- `previous` is the position of the last migration that stands once. -/
def checkOrder (directives : List (ℕ × List Char)) : Option ℕ → List Migration → List String
  | _, [] => []
  | previous, m :: rest =>
      let file := String.ofList m.file
      match positions directives m.file with
      | [position] =>
          let more := checkOrder directives (some position) rest
          if previous.any fun before => position ≤ before then
            s!"database/install.sql applies {file} out of order" :: more
          else more
      | found =>
          let count := found.length
          s!"database/install.sql must include {file} exactly once; found {count}" ::
            checkOrder directives previous rest

/-- `LEDGER_INSERT_PREFIX`. -/
def ledgerInsert : List Char :=
  "INSERT INTO public.aircraft_schema_migrations(version) VALUES ('".toList

/-- The versions the installer records, line by line. -/
def recordedVersions (installer : List Char) : List (List Char) :=
  (((lines installer).map trim).filter fun line => !isComment line).filterMap fun line =>
    ((stripPrefix ledgerInsert line).bind (splitOnce '\'')).map Prod.fst

/-- The versions of the migrations, in apply order. -/
def shippedVersions (migrations : List Migration) : List (List Char) :=
  migrations.map fun m => padded m.version

/-- The installer includes every file once and in order, no other one, and records the
versions shipped. -/
def checkInstaller (crates : GateCrates) (migrations : List Migration) (installer : List Char) :
    List String :=
  let found := directives installer
  let recorded := crates.debug (recordedVersions installer)
  let shipped := crates.debug (shippedVersions migrations)
  checkOrder found none migrations ++
    ((found.filter fun directive => directive.2 ∉ migrations.map Migration.file).map
      fun directive =>
        let file := String.ofList directive.2
        s!"database/install.sql references unknown migration {file}") ++
    if recordedVersions installer = shippedVersions migrations then []
    else
      [s!"database/install.sql records ledger versions {recorded}, but database/migrations/ " ++
        s!"ships {shipped}"]

/-! ### Validations, the history and the linter -/

/-- Some validation script is numbered as the migration. -/
def hasCompanion (validations : List (List Char)) (m : Migration) : Bool :=
  validations.any fun file => (padded m.version ++ ['_']) <+: file ∧ hasSqlExtension file

/-- Every migration from 017 on has a validation script. -/
def checkValidations (migrations : List Migration) (validations : List (List Char)) : List String :=
  ((migrations.filter fun m => 17 ≤ m.version).filter fun m => !hasCompanion validations m).map
    fun m =>
      let file := String.ofList m.file
      let version := String.ofList (padded m.version)
      s!"{file} requires a database/validation/{version}_*.sql companion"

/-- The script that validates the history expects the versions shipped. -/
def checkHistoryLedger (crates : GateCrates) (migrations : List Migration) (sql : List Char) :
    List String :=
  match ledgerVersions sql with
  | none =>
      ["000_migration_history_validation.sql must declare expected_versions as an " ++
        "ARRAY[...] literal"]
  | some declared =>
      let expects := crates.debug declared
      let shipped := crates.debug (shippedVersions migrations)
      if declared = shippedVersions migrations then []
      else
        [s!"000_migration_history_validation.sql expects versions {expects}, but " ++
          s!"database/migrations/ ships {shipped}"]

/-- The files `.squawk.toml` excludes. -/
def exclusions (squawk : List Char) : List (List Char) :=
  (lines squawk).filterMap fun line =>
    (stripPrefix "\"**/".toList (trim line)).bind fun rest =>
      (stripSuffix ',' rest).bind (stripSuffix '"')

/-- The migrations up to 016, which the linter leaves alone. -/
def baseline (migrations : List Migration) : List (List Char) :=
  (migrations.filter fun m => m.version ≤ 16).map Migration.file

/-- A set of files, as `BTreeSet` lists it. -/
def ascending (files : List (List Char)) : List (List Char) :=
  files.dedup.mergeSort fun a b => a ≤ b

/-- The linter leaves out the baseline and nothing else. -/
def checkSquawkExclusions (crates : GateCrates) (migrations : List Migration)
    (squawk : List Char) : List String :=
  let actual := exclusions squawk
  let expected := baseline migrations
  let unexpected := crates.debug (ascending (actual.filter (· ∉ expected)))
  let missing := crates.debug (ascending (expected.filter (· ∉ actual)))
  if actual.toFinset = expected.toFinset then []
  else
    [s!"Squawk exclusions must equal the immutable 001-016 baseline; " ++
      s!"unexpected: {unexpected}; missing: {missing}"]

/-! ### The gate -/

/-- All checks in the order of the source: a file that cannot be read ends them, a
violation does not. -/
def check (crates : GateCrates) (repository : Repository) : Except Failure Unit := do
  let migrations := readMigrations repository.migrations
  let lock ← readLock crates repository.lock
  let names := checkNamesAndVersions [] migrations
  let locked := checkLock crates migrations lock
  let transactions ← checkTransactions migrations
  let installer ← readToString "install.sql".toList repository.installer
  let installs := checkInstaller crates migrations installer
  let validations := checkValidations migrations repository.validations
  let sql ← readToString "000_migration_history_validation.sql".toList repository.historyLedger
  let history := checkHistoryLedger crates migrations sql
  let squawk ← readToString ".squawk.toml".toList repository.squawk
  let exclusions := checkSquawkExclusions crates migrations squawk
  let violations :=
    names ++ locked ++ transactions ++ installs ++ validations ++ history ++ exclusions
  if violations = [] then .ok ()
  else .error (.policy (violations.mergeSort fun a b => a ≤ b))

/-! ### Once each, in order -/

section

variable {ds ds' : List (ℕ × List Char)} {ms : List Migration} {m : Migration}

/-- The order depends on the lines of the migrations only. -/
theorem checkOrder_congr (h : ∀ m ∈ ms, positions ds m.file = positions ds' m.file)
    (previous : Option ℕ) : checkOrder ds previous ms = checkOrder ds' previous ms := by
  induction ms generalizing previous with
  | nil => rfl
  | cons m ms ih =>
      have hrest := ih fun m' hm' => h m' (List.mem_cons_of_mem _ hm')
      rw [checkOrder, checkOrder, h m List.mem_cons_self]
      split
      · rw [hrest]
      · rw [hrest]

/-- A migration is in order when it is included once, behind the one before it. -/
theorem checkOrder_cons (previous : Option ℕ) : checkOrder ds previous (m :: ms) = [] ↔
    ∃ position, positions ds m.file = [position] ∧ (∀ before ∈ previous, before < position) ∧
      checkOrder ds (some position) ms = [] := by
  rw [checkOrder]
  constructor
  · intro h
    split at h
    · rename_i position hposition
      split_ifs at h with hbefore
      refine ⟨position, hposition, fun before hmem => ?_, h⟩
      rw [Option.mem_def.mp hmem] at hbefore
      simpa using hbefore
    · cases h
  · rintro ⟨position, hposition, hbefore, hrest⟩
    have hnot : ¬ (previous.any fun before => decide (position ≤ before)) = true := by
      rcases previous with - | before
      · simp
      · have hlt := hbefore before rfl
        simpa using hlt
    simp only [hposition, if_neg hnot]
    exact hrest

/-- The migrations behind a position stand once each, behind it. -/
theorem checkOrder_behind {position : ℕ} (h : checkOrder ds (some position) ms = []) :
    ∀ m ∈ ms, ∃ later, positions ds m.file = [later] ∧ position < later := by
  induction ms generalizing position with
  | nil => exact fun _ hm => absurd hm List.not_mem_nil
  | cons first ms ih =>
      obtain ⟨next, hnext, hbefore, hrest⟩ := (checkOrder_cons _).mp h
      have hlt := hbefore position rfl
      intro m hm
      rcases List.mem_cons.mp hm with rfl | hm
      · exact ⟨next, hnext, hlt⟩
      · obtain ⟨later, hlater, hbehind⟩ := ih hrest m hm
        exact ⟨later, hlater, hlt.trans hbehind⟩

/-- One more inclusion is one more line of its file. -/
theorem positions_cons (n : ℕ) (f file : List Char) : positions ((n, f) :: ds) file =
    if f = file then n :: positions ds file else positions ds file := by
  unfold positions
  rw [List.filter_cons]
  by_cases h : f = file
  · simp [h]
  · simp [h]

/-- A line of a file is an inclusion of it. -/
theorem mem_positions {n : ℕ} {file : List Char} : n ∈ positions ds file ↔ (n, file) ∈ ds := by
  simp [positions]

/-- The inclusion of another file changes no line. -/
theorem positions_skip {n : ℕ} {file : List Char} (hnot : file ∉ ms.map Migration.file) :
    ∀ m ∈ ms, positions ((n, file) :: ds) m.file = positions ds m.file := by
  intro m hm
  rw [positions_cons, if_neg]
  exact fun heq => hnot (heq ▸ List.mem_map_of_mem hm)

/-- Files in order, and no unknown one: the installer includes them as listed. -/
theorem installs_of_checkOrder (hlines : ds.Pairwise fun a b => a.1 < b.1)
    (hfiles : (ms.map Migration.file).Nodup) {previous : Option ℕ}
    (h : checkOrder ds previous ms = []) (hknown : ∀ d ∈ ds, d.2 ∈ ms.map Migration.file) :
    ds.map Prod.snd = ms.map Migration.file := by
  induction ms generalizing ds previous with
  | nil =>
      cases ds with
      | nil => rfl
      | cons d ds => exact absurd (hknown d List.mem_cons_self) List.not_mem_nil
  | cons m ms ih =>
      obtain ⟨hfirst, hrest⟩ := List.nodup_cons.mp hfiles
      obtain ⟨position, hposition, -, hmore⟩ := (checkOrder_cons _).mp h
      have hmem : (position, m.file) ∈ ds := mem_positions.mp (by rw [hposition]; simp)
      cases ds with
      | nil => cases hmem
      | cons d ds =>
          obtain ⟨n, f⟩ := d
          obtain ⟨hmin, htail⟩ := List.pairwise_cons.mp hlines
          have hhead : f = m.file := by
            by_contra hne
            obtain ⟨m', hm', hfile⟩ : ∃ m' ∈ ms, m'.file = f := by
              rcases List.mem_cons.mp (hknown (n, f) List.mem_cons_self) with hf | hf
              · exact absurd hf hne
              · exact List.mem_map.mp hf
            -- the first directive would be one behind the first migration
            obtain ⟨later, hlater, hbehind⟩ := checkOrder_behind hmore m' hm'
            have hn : n ∈ positions ((n, f) :: ds) m'.file :=
              mem_positions.mpr (hfile ▸ List.mem_cons_self)
            rw [hlater, List.mem_singleton] at hn
            rcases List.mem_cons.mp hmem with heq | hmem
            · exact hne (Prod.mk.inj heq).2.symm
            · have hbefore : n < position := hmin _ hmem
              omega
          subst hhead
          rw [positions_cons, if_pos rfl] at hposition
          obtain ⟨rfl, hnone⟩ := List.cons.inj hposition
          rw [checkOrder_congr (positions_skip hfirst)] at hmore
          rw [List.map_cons, List.map_cons]
          refine congrArg _ (ih htail hrest hmore ?_)
          intro d hd
          rcases List.mem_cons.mp (hknown d (List.mem_cons_of_mem _ hd)) with hf | hf
          · have hagain : d.1 ∈ positions ds m.file := mem_positions.mpr (hf ▸ hd)
            rw [hnone] at hagain
            cases hagain
          · exact hf

/-- Inclusions as listed are in order. -/
theorem checkOrder_of_installs (hlines : ds.Pairwise fun a b => a.1 < b.1)
    (hfiles : (ms.map Migration.file).Nodup) {previous : Option ℕ}
    (hprevious : ∀ before ∈ previous, ∀ d ∈ ds, before < d.1)
    (h : ds.map Prod.snd = ms.map Migration.file) : checkOrder ds previous ms = [] := by
  induction ms generalizing ds previous with
  | nil => rfl
  | cons m ms ih =>
      obtain ⟨hfirst, hrest⟩ := List.nodup_cons.mp hfiles
      cases ds with
      | nil => cases h
      | cons d ds =>
          obtain ⟨n, f⟩ := d
          obtain ⟨hmin, htail⟩ := List.pairwise_cons.mp hlines
          obtain ⟨rfl, hmap⟩ := List.cons.inj h
          have hnone : positions ds m.file = [] := by
            rw [List.eq_nil_iff_forall_not_mem]
            intro n' hn'
            exact hfirst (hmap ▸ List.mem_map_of_mem (f := Prod.snd) (mem_positions.mp hn'))
          refine (checkOrder_cons _).mpr ⟨n, ?_, ?_, ?_⟩
          · rw [positions_cons, if_pos rfl, hnone]
          · exact fun before hbefore => hprevious before hbefore _ List.mem_cons_self
          · rw [checkOrder_congr (positions_skip hfirst)]
            refine ih htail hrest ?_ hmap
            rintro before hbefore d hd
            exact Option.some.inj hbefore ▸ hmin d hd

/-- The directives are the migrations, one by one. -/
theorem installs_iff (hlines : ds.Pairwise fun a b => a.1 < b.1)
    (hfiles : (ms.map Migration.file).Nodup) :
    (checkOrder ds none ms = [] ∧ ∀ d ∈ ds, d.2 ∈ ms.map Migration.file) ↔
      ds.map Prod.snd = ms.map Migration.file := by
  constructor
  · exact fun h => installs_of_checkOrder hlines hfiles h.1 h.2
  · intro h
    refine ⟨checkOrder_of_installs hlines hfiles (by simp) h, fun d hd => ?_⟩
    exact h ▸ List.mem_map_of_mem hd

end

/-! ### Names and numbers -/

section

variable {ms : List Migration} {a b : Migration}

/-- No violation: every name is well formed, and no number stands twice. -/
theorem checkNames_eq_nil (versions : List (ℕ × List Char)) :
    checkNamesAndVersions versions ms = [] ↔ (∀ m ∈ ms, validName m = true) ∧
      (ms.map Migration.version).Nodup ∧
      ∀ m ∈ ms, m.version ∉ versions.map Prod.fst := by
  induction ms generalizing versions with
  | nil => simp [checkNamesAndVersions]
  | cons m ms ih =>
      -- the number is new
      have hlookup : versions.lookup m.version = none ↔ m.version ∉ versions.map Prod.fst := by
        rw [List.lookup_eq_none_iff]
        simp only [List.mem_map, not_exists, not_and]
        constructor
        · exact fun h entry hentry heq => bne_iff_ne.mp (h entry hentry) heq.symm
        · exact fun h entry hentry => bne_iff_ne.mpr fun heq => h entry hentry heq.symm
      rw [checkNamesAndVersions]
      by_cases hvalid : validName m = true
      · simp only [if_pos hvalid]
        -- a number met before is a violation, the first of its kind is not
        rcases hfound : versions.lookup m.version with - | other
        · have hnew := hlookup.mp hfound
          simp only [ih, List.map_cons, List.mem_cons, List.nodup_cons, forall_eq_or_imp]
          constructor
          · rintro ⟨hnames, hdistinct, hapart⟩
            refine ⟨⟨hvalid, hnames⟩, ⟨fun hmem => ?_, hdistinct⟩, hnew, ?_⟩
            · obtain ⟨m', hm', heq⟩ := List.mem_map.mp hmem
              exact hapart m' hm' (.inl heq)
            · exact fun m' hm' hmem => hapart m' hm' (.inr hmem)
          · rintro ⟨⟨-, hnames⟩, ⟨hfirst, hdistinct⟩, -, hapart⟩
            refine ⟨hnames, hdistinct, fun m' hm' hmem => ?_⟩
            rcases hmem with heq | hmem
            · exact hfirst (heq ▸ List.mem_map_of_mem hm')
            · exact hapart m' hm' hmem
        · have hold : ¬ m.version ∉ versions.map Prod.fst := by
            rw [← hlookup, hfound]
            exact Option.some_ne_none other
          refine iff_of_false (by simp) ?_
          rintro ⟨-, -, hapart⟩
          exact hold (hapart m List.mem_cons_self)
      · rw [if_neg hvalid]
        refine iff_of_false (by simp) ?_
        rintro ⟨hnames, -⟩
        exact hvalid (hnames m List.mem_cons_self)

/-- Small letters, digits, the underscore and the point. -/
theorem isNameChar_code {c : Char} (h : isNameChar c = true) :
    (97 ≤ c.toNat ∧ c.toNat ≤ 122) ∨ (48 ≤ c.toNat ∧ c.toNat ≤ 57) ∨ c.toNat = 95 ∨
      c.toNat = 46 := by
  rcases of_decide_eq_true h with h | h | rfl | rfl
  · simp only [Char.isLower, Bool.and_eq_true, decide_eq_true_eq] at h
    exact .inl h
  · simp only [Char.isDigit, Bool.and_eq_true, decide_eq_true_eq] at h
    exact .inr (.inl h)
  · exact .inr (.inr (.inl rfl))
  · exact .inr (.inr (.inr rfl))

/-- File names are ASCII. -/
theorem isNameChar_ascii {c : Char} (h : isNameChar c = true) : c.toNat ≤ 126 := by
  have hcode := isNameChar_code h
  omega

/-- Three digits of a name. -/
theorem validName_digits (h : validName a = true) : ∃ x y z rest,
    a.file = x :: y :: z :: '_' :: rest ∧ (x.isDigit ∧ y.isDigit ∧ z.isDigit) ∧
      migrationVersion a.file =
        some (100 * (x.toNat - 48) + 10 * (y.toNat - 48) + (z.toNat - 48)) := by
  obtain ⟨hversion, hchars⟩ := of_decide_eq_true h
  obtain ⟨version, hversion⟩ := Option.isSome_iff_exists.mp hversion
  have hparsed := hversion
  obtain ⟨⟨start, description⟩, hsplit, hrest⟩ := Option.bind_eq_some_iff.mp hversion
  obtain ⟨hfile, -⟩ := splitOnce_eq_some_iff.mp hsplit
  split_ifs at hrest with hshape
  simp only [not_or, ne_eq, not_not] at hshape
  have hstart : ∀ c ∈ start, isNameChar c = true := fun c hc =>
    List.all_eq_true.mp hchars c (hfile ▸ List.mem_append_left _ hc)
  -- the name is ASCII, so three bytes are three characters
  have hlength : start.length = 3 := by
    rw [← Catalog.size_of_ascii fun c hc => isNameChar_ascii (hstart c hc)]
    exact hshape.1
  obtain ⟨x, y, z, rfl⟩ := List.length_eq_three.mp hlength
  -- a sign would be taken by the parser, but is no character of a name
  have hplus : x ≠ '+' := by
    rintro rfl
    exact absurd (hstart '+' List.mem_cons_self) (by decide)
  have hdigits : natural [x, y, z] = some version := by
    unfold parseU16 parseUnsigned at hrest
    split at hrest
    · rename_i digits heq
      exact absurd (List.cons.inj heq).1 hplus
    · exact (Option.filter_eq_some_iff.mp hrest).1
  unfold natural at hdigits
  split_ifs at hdigits with hall
  refine ⟨x, y, z, description, hfile, by simpa using hall.2, ?_⟩
  rw [hparsed, ← hdigits]
  show some (10 * (10 * (10 * 0 + (x.toNat - 48)) + (y.toNat - 48)) + (z.toNat - 48)) = _
  congr 1
  omega

/-- Where names of three digits are in order, so are their numbers. -/
theorem digits_le {x y z x' y' z' : Char} {rest rest' : List Char}
    (hdigits : x.isDigit ∧ y.isDigit ∧ z.isDigit) (hdigits' : x'.isDigit ∧ y'.isDigit ∧ z'.isDigit)
    (h : x :: y :: z :: rest ≤ x' :: y' :: z' :: rest') :
    100 * (x.toNat - 48) + 10 * (y.toNat - 48) + (z.toNat - 48) ≤
      100 * (x'.toNat - 48) + 10 * (y'.toNat - 48) + (z'.toNat - 48) := by
  have hrange : ∀ c : Char, c.isDigit → 48 ≤ c.toNat ∧ c.toNat ≤ 57 := by
    intro c hc
    simp only [Char.isDigit, Bool.and_eq_true, decide_eq_true_eq] at hc
    exact hc
  have hlt : ∀ c d : Char, c.toNat < d.toNat → c < d := fun c d hcd => hcd
  have heq : ∀ c d : Char, c.toNat = d.toNat → c = d := fun c d => Char.toNat_inj.mp
  by_contra hnot
  apply not_lt.mpr h
  have hx := hrange x hdigits.1
  have hy := hrange y hdigits.2.1
  have hz := hrange z hdigits.2.2
  have hx' := hrange x' hdigits'.1
  have hy' := hrange y' hdigits'.2.1
  have hz' := hrange z' hdigits'.2.2
  rcases lt_trichotomy x'.toNat x.toNat with hxs | hxs | hxs
  · exact List.cons_lt_cons_iff.mpr (.inl (hlt _ _ hxs))
  · rcases lt_trichotomy y'.toNat y.toNat with hys | hys | hys
    · exact List.cons_lt_cons_iff.mpr (.inr ⟨heq _ _ hxs, List.cons_lt_cons_iff.mpr
        (.inl (hlt _ _ hys))⟩)
    · have hzs : z'.toNat < z.toNat := by omega
      exact List.cons_lt_cons_iff.mpr (.inr ⟨heq _ _ hxs, List.cons_lt_cons_iff.mpr
        (.inr ⟨heq _ _ hys, List.cons_lt_cons_iff.mpr (.inl (hlt _ _ hzs))⟩)⟩)
    · omega
  · omega

end

section

variable {files : List (List Char × List UInt8)} {m : Migration}

/-- The number of a migration is that of its file name. -/
theorem version_readMigrations (h : m ∈ readMigrations files) :
    m.version = (migrationVersion m.file).getD 0 := by
  obtain ⟨file, -, rfl⟩ := List.mem_map.mp h
  rfl

/-- The files are sorted by name, and none stands twice. -/
theorem files_readMigrations (hnodup : (files.map Prod.fst).Nodup) :
    ((readMigrations files).map Migration.file).Pairwise (· ≤ ·) ∧
      ((readMigrations files).map Migration.file).Nodup := by
  have hmap : (readMigrations files).map Migration.file = ((files.filter fun file =>
      hasSqlExtension file.1).mergeSort fun a b => a.1 ≤ b.1).map Prod.fst := by
    rw [readMigrations, List.map_map]
    rfl
  rw [hmap]
  constructor
  · rw [List.pairwise_map]
    refine (List.pairwise_mergeSort ?_ ?_ _).imp fun h => of_decide_eq_true h
    · intro a b c hab hbc
      exact decide_eq_true ((of_decide_eq_true hab).trans (of_decide_eq_true hbc))
    · intro a b
      rw [Bool.or_eq_true, decide_eq_true_eq, decide_eq_true_eq]
      exact le_total a.1 b.1
  · have hperm := (List.mergeSort_perm (files.filter fun file => hasSqlExtension file.1)
      fun a b => a.1 ≤ b.1).map Prod.fst
    rw [hperm.nodup_iff]
    exact hnodup.sublist (List.filter_sublist.map _)

/-- With names in order, distinct numbers ascend. -/
theorem ascending_readMigrations (hnodup : (files.map Prod.fst).Nodup)
    (hvalid : ∀ m ∈ readMigrations files, validName m = true) :
    ((readMigrations files).map Migration.version).Nodup ↔
      ((readMigrations files).map Migration.version).Pairwise (· < ·) := by
  constructor
  · intro hdistinct
    have hsorted := (files_readMigrations hnodup).1
    rw [List.pairwise_map] at hsorted ⊢
    rw [List.Nodup, List.pairwise_map] at hdistinct
    refine (hsorted.and hdistinct).imp_of_mem ?_
    rintro a b ha hb ⟨hle, hne⟩
    obtain ⟨x, y, z, rest, hfile, hdigits, hversion⟩ := validName_digits (hvalid a ha)
    obtain ⟨x', y', z', rest', hfile', hdigits', hversion'⟩ := validName_digits (hvalid b hb)
    have hle' : a.version ≤ b.version := by
      rw [version_readMigrations ha, version_readMigrations hb, hversion, hversion']
      rw [hfile, hfile'] at hle
      exact digits_le hdigits hdigits' hle
    exact lt_of_le_of_ne hle' hne
  · exact fun h => h.imp ne_of_lt

end

/-! ### What the checks leave -/

section

variable {crates : GateCrates} {ms : List Migration} {lock : MigrationLock} {m : Migration}

/-- The inclusions are listed as the lines come. -/
theorem directives_ascending (installer : List Char) :
    (directives installer).Pairwise fun a b => a.1 < b.1 := by
  have hlines : (lines installer).zipIdx.Pairwise fun a b => a.2 < b.2 := by
    rw [← List.pairwise_map (f := Prod.snd) (R := (· < ·)), List.zipIdx_map_snd]
    exact List.pairwise_lt_range'
  refine hlines.filterMap _ ?_
  rintro a b hlt d hd d' hd'
  have hline : ∀ line : List Char × ℕ, ∀ d, (if isComment (trim line.1) then none
      else (stripPrefix "\\ir migrations/".toList (trim line.1)).map fun file =>
        (line.2, file)) = some d → d.1 = line.2 := by
    intro line d hd
    split_ifs at hd
    obtain ⟨file, -, rfl⟩ := Option.map_eq_some_iff.mp hd
    rfl
  rw [hline a d hd, hline b d' hd']
  exact hlt

/-- A digest is sixty-four hexadecimal digits. -/
theorem digest_spec (hsha : ∀ bytes, (crates.sha256 bytes).length = 32) (content : List UInt8) :
    (digest crates content).length = 64 ∧
      (digest crates content).all isAsciiHexDigit = true := by
  constructor
  · rw [digest, Authentication.length_flatMap_hexByte, hsha]
  · rw [List.all_eq_true]
    intro c hc
    obtain ⟨byte, -, hbyte⟩ := List.mem_flatMap.mp hc
    exact Authentication.hexByte_hex byte c hbyte

/-- No violation: the digest in the lock, if there is one, is that of the content. -/
theorem checksum_eq_none (hsha : ∀ bytes, (crates.sha256 bytes).length = 32) :
    checksum crates lock m = none ↔
      ∀ expected ∈ lock.lookup m.file, expected = digest crates m.content := by
  rcases h : lock.lookup m.file with - | expected
  · simp [checksum, h]
  · obtain ⟨hlength, hhex⟩ := digest_spec hsha m.content
    simp only [checksum, h, Option.bind_some, Option.mem_some_iff, forall_eq']
    constructor
    · intro hnone
      split_ifs at hnone with hshape hsame
      exact (not_not.mp hsame).symm
    · rintro rfl
      rw [if_neg, if_neg (not_not.mpr rfl)]
      simp [hlength, hhex]

/-- The lock knows the files it holds. -/
theorem lookup_isSome (file : List Char) :
    (lock.lookup file).isSome ↔ file ∈ lock.migrations.map LockedMigration.file := by
  rw [MigrationLock.lookup, Option.isSome_map, List.find?_isSome]
  simp

/-- Every migration is locked at its digest, and nothing else is locked. -/
theorem checkLock_eq_nil (hsha : ∀ bytes, (crates.sha256 bytes).length = 32) :
    checkLock crates ms lock = [] ↔
      (∀ file, (lock.lookup file).isSome ↔ file ∈ ms.map Migration.file) ∧
        ∀ m ∈ ms, lock.lookup m.file = some (digest crates m.content) := by
  have hsums : ms.filterMap (checksum crates lock) = [] ↔
      ∀ m ∈ ms, ∀ expected ∈ lock.lookup m.file, expected = digest crates m.content := by
    rw [List.filterMap_eq_nil_iff]
    exact forall₂_congr fun m _ => checksum_eq_none hsha
  rw [checkLock, List.append_eq_nil_iff, List.append_eq_nil_iff, List.map_eq_nil_iff,
    List.map_eq_nil_iff, List.filter_eq_nil_iff, List.filter_eq_nil_iff, hsums]
  simp only [List.mem_dedup, decide_eq_true_eq, not_not]
  constructor
  · rintro ⟨⟨hmissing, hstale⟩, hsame⟩
    have hlocked : ∀ file, (lock.lookup file).isSome ↔ file ∈ ms.map Migration.file := fun file =>
      (lookup_isSome file).trans ⟨hstale file, hmissing file⟩
    refine ⟨hlocked, fun m hm => ?_⟩
    obtain ⟨expected, hexpected⟩ := Option.isSome_iff_exists.mp
      ((hlocked m.file).mpr (List.mem_map_of_mem hm))
    rw [hexpected, hsame m hm expected hexpected]
  · rintro ⟨hlocked, hsame⟩
    refine ⟨⟨fun file hfile => ?_, fun file hfile => ?_⟩, fun m hm expected hexpected => ?_⟩
    · exact (lookup_isSome file).mp ((hlocked file).mpr hfile)
    · exact (hlocked file).mp ((lookup_isSome file).mpr hfile)
    · rw [hsame m hm] at hexpected
      exact (Option.some.inj hexpected).symm

/-- A file is read as text when its bytes are UTF-8. -/
theorem readToString_eq_ok {label : List Char} {bytes : List UInt8} {text : List Char} :
    readToString label bytes = .ok text ↔
      ∃ read, readUtf8 bytes = some read ∧ text = read.toList := by
  rw [readToString]
  rcases readUtf8 bytes with - | read
  · simp
  · simp [eq_comm]

/-- No violation: every file is text and a transaction. -/
theorem checkTransactions_eq_nil : checkTransactions ms = .ok [] ↔
    ∀ m ∈ ms, ∃ read, readUtf8 m.content = some read ∧ transactional read.toList = true := by
  induction ms with
  | nil => simp [checkTransactions]
  | cons m ms ih =>
      rw [List.forall_mem_cons, ← ih, checkTransactions, readToString]
      rcases readUtf8 m.content with - | read
      · exact iff_of_false nofun fun h => nomatch h.1
      · rcases hmore : checkTransactions ms with failure | more
        · exact iff_of_false nofun fun h => nomatch h.2
        · by_cases hsql : transactional read.toList = true
          · have hdone : (∃ read', some read = some read' ∧ transactional read'.toList = true) :=
              ⟨read, rfl, hsql⟩
            rw [and_iff_right hdone]
            show (if transactional read.toList then _ else _) = _ ↔ _
            rw [if_pos hsql]
          · refine iff_of_false (fun h => ?_) ?_
            · change (if transactional read.toList then _ else _) = _ at h
              rw [if_neg hsql] at h
              cases h
            · rintro ⟨⟨read', hread, hsql'⟩, -⟩
              exact hsql (Option.some.inj hread ▸ hsql')

/-- No violation: the inclusions are the files, the versions recorded those shipped. -/
theorem checkInstaller_eq_nil {installer : List Char} (hfiles : (ms.map Migration.file).Nodup) :
    checkInstaller crates ms installer = [] ↔
      (directives installer).map Prod.snd = ms.map Migration.file ∧
        recordedVersions installer = shippedVersions ms := by
  rw [checkInstaller, List.append_eq_nil_iff, List.append_eq_nil_iff, List.map_eq_nil_iff,
    List.filter_eq_nil_iff, ← installs_iff (directives_ascending installer) hfiles]
  simp only [decide_eq_true_eq, not_not]
  refine and_congr_right fun _ => ?_
  split_ifs with h
  · exact iff_of_true rfl h
  · exact iff_of_false not_false h

/-- No violation: from 017 on every migration has its companion. -/
theorem checkValidations_eq_nil {validations : List (List Char)} :
    checkValidations ms validations = [] ↔
      ∀ m ∈ ms, 17 ≤ m.version → hasCompanion validations m = true := by
  rw [checkValidations, List.map_eq_nil_iff, List.filter_eq_nil_iff]
  simp

/-- No violation: the versions expected are those shipped. -/
theorem checkHistoryLedger_eq_nil {sql : List Char} : checkHistoryLedger crates ms sql = [] ↔
    ledgerVersions sql = some (shippedVersions ms) := by
  rw [checkHistoryLedger]
  rcases ledgerVersions sql with - | declared
  · simp
  · simp only [Option.some.injEq]
    split_ifs with h
    · exact iff_of_true rfl h
    · exact iff_of_false not_false h

/-- No violation: the files left out are those of the baseline. -/
theorem checkSquawkExclusions_eq_nil {squawk : List Char} :
    checkSquawkExclusions crates ms squawk = [] ↔
      ∀ file, file ∈ exclusions squawk ↔ file ∈ baseline ms := by
  have hsets : (exclusions squawk).toFinset = (baseline ms).toFinset ↔
      ∀ file, file ∈ exclusions squawk ↔ file ∈ baseline ms := by
    simp only [Finset.ext_iff, List.mem_toFinset]
  rw [checkSquawkExclusions, ← hsets]
  split_ifs with h
  · exact iff_of_true rfl h
  · exact iff_of_false not_false h

end

end MigrationGate

end AircraftApi
