/-
AircraftApi/GateAcceptance.lean

What `xtask migrations check` accepts, and what comes of it.

It passes exactly the repositories whose parts agree (`check_ok_iff`): the migrations are
named and numbered in order, unchanged since they were locked, and installed and recorded
once each in that order.  So where `install.sql` has the form of the repository's
(`InBlocks`), an installer of it that completes leaves the history that its validation
expects (`accepted_install_validates`), whatever other installers ran before it and wherever
they were cut off.
-/
import AircraftApi.InstallScript

namespace AircraftApi

namespace MigrationGate

open Text ImportService
open MigrationLedger (ledgerVersions)
open Catalog (readUtf8 utf8)

/-! ### What the gate accepts -/

/-- The files of a repository that are read whole. -/
structure Parts where
  lock : MigrationLock
  installer : List Char
  history : List Char
  squawk : List Char

/-- The files of a repository that can be read, and what they say. -/
structure Repository.Reads (repository : Repository) (crates : GateCrates) (parts : Parts) :
    Prop where
  lock : readLock crates repository.lock = .ok parts.lock
  installer : readToString "install.sql".toList repository.installer = .ok parts.installer
  history : readToString "000_migration_history_validation.sql".toList repository.historyLedger =
    .ok parts.history
  squawk : readToString ".squawk.toml".toList repository.squawk = .ok parts.squawk

/-- The parts of a repository agree on its migrations. -/
structure Consistent (crates : GateCrates) (ms : List Migration)
    (validations : List (List Char)) (parts : Parts) : Prop where
  named : ∀ m ∈ ms, validName m = true
  numbered : (ms.map Migration.version).Pairwise (· < ·)
  locked : ∀ file, (parts.lock.lookup file).isSome ↔ file ∈ ms.map Migration.file
  unchanged : ∀ m ∈ ms, parts.lock.lookup m.file = some (digest crates m.content)
  transactional : ∀ m ∈ ms, ∃ read, readUtf8 m.content = some read ∧
    transactional read.toList = true
  installed : (directives parts.installer).map Prod.snd = ms.map Migration.file
  recorded : recordedVersions parts.installer = shippedVersions ms
  validated : ∀ m ∈ ms, 17 ≤ m.version → hasCompanion validations m = true
  expected : ledgerVersions parts.history = some (shippedVersions ms)
  excluded : ∀ file, file ∈ exclusions parts.squawk ↔ file ∈ baseline ms

section

variable {crates : GateCrates} {repository : Repository}

/-- The gate passes where every file can be read and no check finds a violation. -/
theorem check_passes : check crates repository = .ok () ↔ ∃ parts, repository.Reads crates parts ∧
    checkNamesAndVersions [] (readMigrations repository.migrations) = [] ∧
    checkLock crates (readMigrations repository.migrations) parts.lock = [] ∧
    checkTransactions (readMigrations repository.migrations) = .ok [] ∧
    checkInstaller crates (readMigrations repository.migrations) parts.installer = [] ∧
    checkValidations (readMigrations repository.migrations) repository.validations = [] ∧
    checkHistoryLedger crates (readMigrations repository.migrations) parts.history = [] ∧
    checkSquawkExclusions crates (readMigrations repository.migrations) parts.squawk = [] := by
  rw [check]
  -- the files that can end the check, in the order they are read
  rcases hlock : readLock crates repository.lock with failure | lock
  · refine iff_of_false nofun ?_
    rintro ⟨parts, hreads, -⟩
    cases hlock.symm.trans hreads.lock
  rcases htransactions : checkTransactions (readMigrations repository.migrations) with
    failure | transactions
  · exact iff_of_false nofun nofun
  rcases hinstaller : readToString "install.sql".toList repository.installer with
    failure | installer
  · refine iff_of_false nofun ?_
    rintro ⟨parts, hreads, -⟩
    cases hinstaller.symm.trans hreads.installer
  rcases hhistory : readToString "000_migration_history_validation.sql".toList
      repository.historyLedger with failure | history
  · refine iff_of_false nofun ?_
    rintro ⟨parts, hreads, -⟩
    cases hhistory.symm.trans hreads.history
  rcases hsquawk : readToString ".squawk.toml".toList repository.squawk with failure | squawk
  · refine iff_of_false nofun ?_
    rintro ⟨parts, hreads, -⟩
    cases hsquawk.symm.trans hreads.squawk
  -- all files are read; what is left is the list of violations
  show (if _ = [] then _ else _) = _ ↔ _
  constructor
  · intro h
    split_ifs at h with hnone
    simp only [List.append_eq_nil_iff] at hnone
    obtain ⟨⟨⟨⟨⟨⟨hnames, hlocked⟩, rfl⟩, hinstalls⟩, hvalidations⟩, hexpected⟩, hexcluded⟩ := hnone
    exact ⟨⟨lock, installer, history, squawk⟩, ⟨hlock, hinstaller, hhistory, hsquawk⟩, hnames,
      hlocked, rfl, hinstalls, hvalidations, hexpected, hexcluded⟩
  · rintro ⟨⟨lock', installer', history', squawk'⟩, hreads, hnames, hlocked, hnone, hinstalls,
      hvalidations, hexpected, hexcluded⟩
    obtain rfl := Except.ok.inj (hlock.symm.trans hreads.lock)
    obtain rfl := Except.ok.inj (hinstaller.symm.trans hreads.installer)
    obtain rfl := Except.ok.inj (hhistory.symm.trans hreads.history)
    obtain rfl := Except.ok.inj (hsquawk.symm.trans hreads.squawk)
    obtain rfl := Except.ok.inj hnone
    rw [if_pos]
    simp only [List.append_eq_nil_iff]
    exact ⟨⟨⟨⟨⟨⟨hnames, hlocked⟩, trivial⟩, hinstalls⟩, hvalidations⟩, hexpected⟩, hexcluded⟩

theorem numbered_iff : checkNamesAndVersions [] (readMigrations repository.migrations) = [] ↔
    (∀ m ∈ readMigrations repository.migrations, validName m = true) ∧
      ((readMigrations repository.migrations).map Migration.version).Pairwise (· < ·) := by
  rw [checkNames_eq_nil]
  constructor
  · rintro ⟨hvalid, hdistinct, -⟩
    exact ⟨hvalid, (ascending_readMigrations repository.names_nodup hvalid).mp hdistinct⟩
  · rintro ⟨hvalid, hnumbered⟩
    exact ⟨hvalid, (ascending_readMigrations repository.names_nodup hvalid).mpr hnumbered, by simp⟩

/-- **The gate**: it passes exactly the repositories that it can read and in which the
migrations are named and ascend in number, are the files of the lock, at their digests, are
transactional, installed and recorded once each in their order, validated from the
seventeenth on and expected by the history, and in which the linter skips those up to the
sixteenth and no others. -/
theorem check_ok_iff (hsha : ∀ bytes, (crates.sha256 bytes).length = 32) :
    check crates repository = .ok () ↔ ∃ parts, repository.Reads crates parts ∧
      Consistent crates (readMigrations repository.migrations) repository.validations parts := by
  have hfiles := (files_readMigrations repository.names_nodup).2
  rw [check_passes]
  refine exists_congr fun parts => and_congr_right fun _ => ?_
  rw [numbered_iff, checkLock_eq_nil hsha, checkTransactions_eq_nil, checkInstaller_eq_nil hfiles,
    checkValidations_eq_nil, checkHistoryLedger_eq_nil, checkSquawkExclusions_eq_nil]
  constructor
  · rintro ⟨⟨hnamed, hnumbered⟩, ⟨hlocked, hunchanged⟩, htransactional, ⟨hinstalled, hrecorded⟩,
      hvalidated, hexpected, hexcluded⟩
    exact ⟨hnamed, hnumbered, hlocked, hunchanged, htransactional, hinstalled, hrecorded,
      hvalidated, hexpected, hexcluded⟩
  · intro h
    exact ⟨⟨h.named, h.numbered⟩, ⟨h.locked, h.unchanged⟩, h.transactional,
      ⟨h.installed, h.recorded⟩, h.validated, h.expected, h.excluded⟩

end

/-! ### Two migrations -/

/-- A migration that changes nothing. -/
def emptyMigration : String := "BEGIN;\nCOMMIT;\n"

def emptyDigest : String := "cd9cf0971f79cb424a67ff0d93db0b805cb4d461ed4a2c3cf496fdf46ea7b7ae"

def curationGates : MigrationLock where
  schemaVersion := 1
  migrations := [
    ⟨"019_weight_metrics_curation_gate.sql".toList, emptyDigest.toList⟩,
    ⟨"020_market_curation_gate.sql".toList, emptyDigest.toList⟩]

def lockDocument : String :=
  "\x7b\"schema_version\": 1, \"migrations\": [" ++
    "\x7b\"file\": \"019_weight_metrics_curation_gate.sql\", \"sha256\": \"" ++ emptyDigest ++
    "\"\x7d, \x7b\"file\": \"020_market_curation_gate.sql\", \"sha256\": \"" ++ emptyDigest ++
    "\"\x7d]\x7d"

/-- The blocks of the two, and a seed behind them. -/
def curationParts : List Part := [
  .remark 0 (some " The gates of the curation of measurements and of the market.".toList),
  .migration "019".toList "019_weight_metrics_curation_gate.sql".toList,
  .remark 0 none,
  .migration "020".toList "020_market_curation_gate.sql".toList,
  .remark 0 none,
  .seed "004_authentication_seed_data.sql".toList]

def curationInstaller : List Char :=
  ended (opening ++ (curationParts.flatMap Part.lines ++ closing))

theorem inBlocks_curation : InBlocks curationInstaller curationParts where
  text := rfl
  valid := by
    intro part hpart
    fin_cases hpart
    · rintro text ⟨⟩
      simp
    · exact ⟨Part.word_iff.mpr rfl, Part.word_iff.mpr rfl⟩
    · rintro text ⟨⟩
    · exact ⟨Part.word_iff.mpr rfl, Part.word_iff.mpr rfl⟩
    · rintro text ⟨⟩
    · exact Part.word_iff.mpr rfl

def curationHistory : String :=
  "DECLARE\n    expected_versions CONSTANT TEXT[] := ARRAY[\n        '019', '020'\n    ];\nBEGIN\n"

def curationCrates : GateCrates where
  sha256 bytes :=
    if bytes = utf8 emptyMigration then
      [0xcd, 0x9c, 0xf0, 0x97, 0x1f, 0x79, 0xcb, 0x42, 0x4a, 0x67, 0xff, 0x0d, 0x93, 0xdb, 0x0b,
        0x80, 0x5c, 0xb4, 0xd4, 0x61, 0xed, 0x4a, 0x2c, 0x3c, 0xf4, 0x96, 0xfd, 0xf4, 0x6e, 0xa7,
        0xb7, 0xae]
    else List.replicate 32 0
  parseLock bytes := if bytes = utf8 lockDocument then some curationGates else none
  debug texts := ", ".intercalate (texts.map String.ofList)

def curationRepository : Repository where
  migrations := [
    ("019_weight_metrics_curation_gate.sql".toList, utf8 emptyMigration),
    ("020_market_curation_gate.sql".toList, utf8 emptyMigration),
    ("README.md".toList, [])]
  names_nodup := by decide +kernel
  lock := utf8 lockDocument
  installer := utf8 (String.ofList curationInstaller)
  validations := ["019_weight_metrics_curation_gate_validation.sql".toList,
    "020_market_curation_gate_validation.sql".toList]
  historyLedger := utf8 curationHistory
  squawk := utf8 "excluded_paths = []\n"

theorem length_sha256 (bytes : List UInt8) : (curationCrates.sha256 bytes).length = 32 := by
  show (if bytes = utf8 emptyMigration then _ else _ : List UInt8).length = 32
  split_ifs
  · rfl
  · rfl

theorem readToString_utf8 (label : List Char) (text : String) :
    readToString label (utf8 text) = .ok text.toList :=
  readToString_eq_ok.mpr ⟨text, Catalog.readUtf8_utf8 text, rfl⟩

theorem readMigrations_curation : readMigrations curationRepository.migrations = [
    ⟨"019_weight_metrics_curation_gate.sql".toList, utf8 emptyMigration, 19⟩,
    ⟨"020_market_curation_gate.sql".toList, utf8 emptyMigration, 20⟩] := by
  have hsql : curationRepository.migrations.filter (fun file => hasSqlExtension file.1) = [
      ("019_weight_metrics_curation_gate.sql".toList, utf8 emptyMigration),
      ("020_market_curation_gate.sql".toList, utf8 emptyMigration)] := by
    decide +kernel
  rw [readMigrations, hsql, List.mergeSort_of_pairwise (by decide +kernel)]
  decide +kernel

theorem readInstaller_curation :
    readToString "install.sql".toList curationRepository.installer = .ok curationInstaller := by
  simp only [curationRepository, readToString_utf8, String.toList_ofList]

theorem check_curation : check curationCrates curationRepository = .ok () := by
  refine check_passes.mpr ⟨⟨curationGates, curationInstaller, curationHistory.toList,
    "excluded_paths = []\n".toList⟩, ⟨?_, ?_, ?_, ?_⟩, ?_, ?_, ?_, ?_, ?_, ?_, ?_⟩
  · show readLock curationCrates (utf8 lockDocument) = _
    simp [readLock, curationCrates, curationGates]
  · exact readInstaller_curation
  · simp only [curationRepository, readToString_utf8]
  · simp only [curationRepository, readToString_utf8]
  · rw [readMigrations_curation]
    decide +kernel
  · rw [readMigrations_curation]
    decide +kernel
  · rw [readMigrations_curation, checkTransactions_eq_nil]
    intro m hm
    refine ⟨emptyMigration, ?_, by decide +kernel⟩
    fin_cases hm
    · exact Catalog.readUtf8_utf8 _
    · exact Catalog.readUtf8_utf8 _
  · rw [readMigrations_curation, checkInstaller_eq_nil (by decide +kernel),
      directives_inBlocks inBlocks_curation, recordedVersions_inBlocks inBlocks_curation]
    exact ⟨rfl, by decide +kernel⟩
  · rw [readMigrations_curation]
    decide +kernel
  · rw [readMigrations_curation]
    decide +kernel
  · rw [readMigrations_curation]
    decide +kernel

theorem check_ok_iff_curation : ∃ parts, curationRepository.Reads curationCrates parts ∧
    Consistent curationCrates (readMigrations curationRepository.migrations)
      curationRepository.validations parts :=
  (check_ok_iff length_sha256).mp check_curation

/-! ### What an accepted installer leaves -/

/-- The assertion of `000_migration_history_validation.sql`: `array_agg(version ORDER BY
version)` is what is expected. -/
def historyValid (expected recorded : List String) : Bool :=
  recorded.mergeSort (· ≤ ·) = expected

/-- The versions that `000_migration_history_validation.sql` expects. -/
def expectedVersions (declared : List (List Char)) : List String := declared.map String.ofList

section

variable {ι : Type*} [DecidableEq ι] {crates : GateCrates} {repository : Repository}
  {ms : List Migration}

theorem padded_digits {version : ℕ} (h : version < 1000) : ∃ x y z, padded version = [x, y, z] ∧
    (x.isDigit ∧ y.isDigit ∧ z.isDigit) ∧
      100 * (x.toNat - 48) + 10 * (y.toNat - 48) + (z.toNat - 48) = version := by
  let digits (version : ℕ) : List Char :=
    [version / 100, version / 10 % 10, version % 10].map Nat.digitChar
  have hall : ∀ version < 1000, padded version = digits version := by
    decide +kernel
  have hdigit : ∀ d < 10, (Nat.digitChar d).isDigit ∧ (Nat.digitChar d).toNat - 48 = d := by
    decide
  obtain ⟨hx, hhundreds⟩ := hdigit (version / 100) (by omega)
  obtain ⟨hy, htens⟩ := hdigit (version / 10 % 10) (by omega)
  obtain ⟨hz, hones⟩ := hdigit (version % 10) (by omega)
  refine ⟨_, _, _, hall version h, ⟨hx, hy, hz⟩, ?_⟩
  rw [hhundreds, htens, hones]
  omega

theorem padded_lt {a b : ℕ} (hlt : a < b) (hb : b < 1000) : padded a < padded b := by
  obtain ⟨x, y, z, hpadded, hdigits, hvalue⟩ := padded_digits (hlt.trans hb)
  obtain ⟨x', y', z', hpadded', hdigits', hvalue'⟩ := padded_digits hb
  rw [hpadded, hpadded', ← not_le]
  intro hle
  have hback := digits_le hdigits' hdigits hle
  omega

theorem version_lt (hvalid : ∀ m ∈ ms, validName m = true)
    (hversion : ∀ m ∈ ms, m.version = (migrationVersion m.file).getD 0) :
    ∀ m ∈ ms, m.version < 1000 := by
  intro m hm
  obtain ⟨x, y, z, rest, -, ⟨hx, hy, hz⟩, hparsed⟩ := validName_digits (hvalid m hm)
  have hrange : ∀ c : Char, c.isDigit → c.toNat ≤ 57 := by
    intro c hc
    simp only [Char.isDigit, Bool.and_eq_true, decide_eq_true_eq] at hc
    exact hc.2
  rw [hversion m hm, hparsed, Option.getD_some]
  have hx := hrange x hx
  have hy := hrange y hy
  have hz := hrange z hz
  omega

/-- The versions ascend as texts too. -/
theorem expected_ascending (hvalid : ∀ m ∈ readMigrations repository.migrations, validName m = true)
    (hnumbered : ((readMigrations repository.migrations).map Migration.version).Pairwise (· < ·)) :
    (expectedVersions (shippedVersions (readMigrations repository.migrations))).Pairwise
      (· < ·) := by
  have hbound := version_lt hvalid fun m hm => version_readMigrations hm
  rw [List.pairwise_map] at hnumbered
  rw [expectedVersions, shippedVersions, List.map_map, List.pairwise_map]
  refine hnumbered.imp_of_mem ?_
  intro a b _ hb hlt
  rw [String.lt_iff_toList_lt]
  simpa using padded_lt hlt (hbound b hb)

/-- **An accepted installer validates**: an installer in blocks that the gate accepts
applies the migrations of the repository, each once and in order, and records each under its
own version, as the history expects; so in every run of installers of this history, an
installer of it that completes leaves a history that its validation accepts. -/
theorem accepted_install_validates (h : check crates repository = .ok ()) {installer : List Char}
    (hread : readToString "install.sql".toList repository.installer = .ok installer)
    {blocks : List Part} (hblocks : InBlocks installer blocks) :
    ∃ parts declared, repository.Reads crates parts ∧
      ledgerVersions parts.history = some declared ∧
      blocks.filterMap Part.block =
        (readMigrations repository.migrations).map (fun m => (padded m.version, m.file)) ∧
      Installer.versions (script blocks) = expectedVersions declared ∧
      (expectedVersions declared).Nodup ∧
      ∀ repeats, ∀ s : Installer.State ι,
        (Installer.system (expectedVersions declared) repeats).Reachable s →
        ∀ p, s.sessions p = .complete (script blocks) →
          historyValid (expectedVersions declared) s.recorded = true := by
  obtain ⟨parts, hreads, hnames, -, -, hinstaller, -, hhistory, -⟩ := check_passes.mp h
  have hfiles := (files_readMigrations repository.names_nodup).2
  obtain ⟨hvalid, hnumbered⟩ := numbered_iff.mp hnames
  obtain rfl : parts.installer = installer := Except.ok.inj (hreads.installer.symm.trans hread)
  obtain ⟨hinstalled, hrecorded⟩ := (checkInstaller_eq_nil hfiles).mp hinstaller
  rw [directives_inBlocks hblocks] at hinstalled
  rw [recordedVersions_inBlocks hblocks] at hrecorded
  have happlied := List.zip_of_prod hrecorded hinstalled
  rw [shippedVersions, List.zip_map'] at happlied
  have hdeclared := checkHistoryLedger_eq_nil.mp hhistory
  have hascending := expected_ascending hvalid hnumbered
  have hnodup := hascending.imp ne_of_lt
  have hscript := versions_script blocks
  rw [hrecorded] at hscript
  refine ⟨parts, _, hreads, hdeclared, happlied, hscript, hnodup,
    fun repeats s hs p hcomplete => ?_⟩
  -- the installer has recorded all of its script, and nobody more than the history
  have hinv := Installer.inv_of_reachable hnodup hs
  have hok := hinv.sessions p
  rw [hcomplete] at hok
  have hall : s.recorded = expectedVersions (shippedVersions
      (readMigrations repository.migrations)) := by
    refine hinv.recorded.eq_of_length_le ?_
    rw [expectedVersions, ← hscript]
    exact hok.2.length_le
  rw [historyValid, decide_eq_true_eq, hall]
  refine List.mergeSort_of_pairwise (hascending.imp fun hlt => ?_)
  exact decide_eq_true hlt.le

end

theorem accepted_install_validates_curation : ∃ parts declared,
    curationRepository.Reads curationCrates parts ∧
      ledgerVersions parts.history = some declared ∧
      curationParts.filterMap Part.block =
        (readMigrations curationRepository.migrations).map (fun m => (padded m.version, m.file)) ∧
      Installer.versions (script curationParts) = expectedVersions declared ∧
      (expectedVersions declared).Nodup ∧
      ∀ repeats, ∀ s : Installer.State Bool,
        (Installer.system (expectedVersions declared) repeats).Reachable s →
        ∀ p, s.sessions p = .complete (script curationParts) →
          historyValid (expectedVersions declared) s.recorded = true :=
  accepted_install_validates check_curation readInstaller_curation inBlocks_curation

end MigrationGate

end AircraftApi
