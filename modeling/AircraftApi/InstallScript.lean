/-
AircraftApi/InstallScript.lean

The form of `install.sql`: what the gate's line scanners read of it is what psql runs.

The gate looks for two kinds of lines, wherever they stand.  psql runs a line only where
the text around it lets it: not in a block comment, not under a false `\if`.  In the form
of the repository's installer the two agree.  It takes the lock, and for each migration
has a block that asks whether the version is recorded, applies the file and records the
version; seeds, comments and blank lines stand between the blocks, and nothing else.

    InBlocks installer parts    the text has this form, with these parts
    script parts                what psql runs of it
    directives_inBlocks         the directives the gate reads are the files of the blocks
    recordedVersions_inBlocks   the versions it reads are those of the blocks
-/
import AircraftApi.Installer
import AircraftApi.MigrationGate

namespace AircraftApi

namespace MigrationGate

open Text

/-! ### The form -/

/-- Up to the first block: errors end the run, the lock is taken, the ledger exists. -/
def opening : List (List Char) := [
  "-- Canonical dependency-aware installer for psql.".toList,
  "-- Run with: psql -X -v ON_ERROR_STOP=1 \"$DATABASE_URL\" -f database/install.sql".toList,
  "\\set ON_ERROR_STOP on".toList,
  [],
  "-- Serialize installers for this database. The advisory lock is held by the".toList,
  "-- psql session across the per-migration transactions and is released".toList,
  "-- automatically if the session terminates because a migration fails.".toList,
  ("SELECT pg_advisory_lock(hashtextextended(current_database() || ':aircraft-install'" ++
    ", 0));").toList,
  [],
  "CREATE TABLE IF NOT EXISTS public.aircraft_schema_migrations (".toList,
  "    version TEXT PRIMARY KEY,".toList,
  "    applied_at TIMESTAMPTZ NOT NULL DEFAULT now()".toList,
  ");".toList,
  "COMMENT ON TABLE public.aircraft_schema_migrations IS".toList,
  "    'Records successfully applied Aircraft Management Engine SQL migrations.';".toList,
  []]

/-- Behind the last block: the lock is given back. -/
def closing : List (List Char) := [
  "\\echo 'Database schema and canonical seed installation complete.'".toList,
  ("SELECT pg_advisory_unlock(hashtextextended(current_database() || ':aircraft-install'" ++
    ", 0));").toList]

/-- What stands between the two: blocks, seeds, and lines that are blank or a comment. -/
inductive Part
  | migration (version file : List Char)
  | seed (file : List Char)
  | remark (indent : ℕ) (comment : Option (List Char))

namespace Part

/-- A comment, or nothing. -/
def dashed : Option (List Char) → List Char
  | none => []
  | some text => '-' :: '-' :: text

/-- The lines of a part, as the installer has them. -/
def lines : Part → List (List Char)
  | migration version file => [
      "SELECT NOT EXISTS (".toList,
      "    SELECT 1 FROM public.aircraft_schema_migrations WHERE version = '".toList ++
        (version ++ ['\'']),
      ") AS apply_migration \\gset".toList,
      "\\if :apply_migration".toList,
      "\\echo 'Applying migration ".toList ++ (version ++ (": ".toList ++ (file ++ ['\'']))),
      "\\ir migrations/".toList ++ file,
      ledgerInsert ++ (version ++ "');".toList),
      "\\else".toList,
      "\\echo 'Skipping applied migration ".toList ++ (version ++ ['\'']),
      "\\endif".toList]
  | seed file => ["\\ir seeds/".toList ++ file]
  | remark indent comment => [List.replicate indent ' ' ++ dashed comment]

/-- A name of the characters the gate takes in the name of a file: psql reads it as one word,
also in quotes, and has nothing in it to expand. -/
def Word (name : List Char) : Prop := ∀ c ∈ name, isNameChar c = true

theorem word_iff {name : List Char} : Word name ↔ name.all isNameChar = true :=
  List.all_eq_true.symm

theorem isNameChar_plain {c : Char} (h : isNameChar c = true) : isWhite c = false ∧ c ≠ '\'' := by
  refine ⟨?_, ?_⟩
  · have hcode := isNameChar_code h
    rw [isWhite, decide_eq_false_iff_not]
    omega
  · rintro rfl
    exact absurd h (by decide)

/-- A word has neither white space nor a quote. -/
theorem Word.plain {name : List Char} (h : Word name) : ∀ c ∈ name, isWhite c = false ∧ c ≠ '\'' :=
  fun c hc => isNameChar_plain (h c hc)

/-- The names are words, and a comment has no character that would end it for psql. -/
def Valid : Part → Prop
  | migration version file => Word version ∧ Word file
  | seed file => Word file
  | remark _ comment => ∀ text ∈ comment, ∀ c ∈ text, 32 ≤ c.toNat

/-- What psql runs of it. -/
def statement : Part → Option Installer.Statement
  | migration version file => some (.migration (String.ofList version) (String.ofList file))
  | seed file => some (.seed (String.ofList file))
  | remark _ _ => none

/-- What a block records, and the file it applies. -/
def block : Part → Option (List Char × List Char)
  | migration version file => some (version, file)
  | _ => none

end Part

/-- The text is an installer of this form. -/
structure InBlocks (installer : List Char) (parts : List Part) : Prop where
  text : installer = ended (opening ++ (parts.flatMap Part.lines ++ closing))
  valid : ∀ part ∈ parts, part.Valid

/-- The statements of an installer, in the order psql meets them. -/
def script (parts : List Part) : List Installer.Statement := parts.filterMap Part.statement

/-! ### Line by line -/

/-- The file of a directive that stands in a line. -/
def directiveOf (line : List Char) : Option (List Char) :=
  if isComment line then none else stripPrefix "\\ir migrations/".toList line

/-- The version a line records. -/
def recordOf (line : List Char) : Option (List Char) :=
  if isComment line then none
  else ((stripPrefix ledgerInsert line).bind (splitOnce '\'')).map Prod.fst

theorem directives_files (installer : List Char) :
    (directives installer).map Prod.snd = ((lines installer).map trim).filterMap directiveOf := by
  have hfile : ∀ line : List Char × ℕ, ((if isComment (trim line.1) then none
      else (stripPrefix "\\ir migrations/".toList (trim line.1)).map fun file =>
        (line.2, file)) : Option (ℕ × List Char)).map Prod.snd = directiveOf (trim line.1) := by
    intro line
    unfold directiveOf
    split_ifs
    · rfl
    · rcases stripPrefix "\\ir migrations/".toList (trim line.1) with - | file <;> rfl
  rw [directives, List.map_filterMap, List.filterMap_map]
  simp only [hfile]
  conv_rhs => rw [← List.zipIdx_map_fst 0 (lines installer), List.filterMap_map]
  rfl

theorem recordedVersions_lines (installer : List Char) :
    recordedVersions installer = ((lines installer).map trim).filterMap recordOf := by
  rw [recordedVersions, List.filterMap_filter]
  congr 1
  funext line
  unfold recordOf
  rcases isComment line with - | - <;> rfl

/-- Of a line that trimmed begins otherwise, neither is read. -/
theorem plain_line (line : List Char)
    (hdirective : "\\ir migrations/".toList.isPrefixOf (line.dropWhile isWhite) = false)
    (hrecord : ledgerInsert.isPrefixOf (line.dropWhile isWhite) = false) :
    directiveOf (trim line) = none ∧ recordOf (trim line) = none := by
  have hstrip : ∀ start : List Char, start.isPrefixOf (line.dropWhile isWhite) = false →
      stripPrefix start (trim line) = none := by
    intro start hstart
    rw [stripPrefix_eq_none_iff]
    intro hprefix
    have hlonger := hprefix.trans (List.rdropWhile_prefix isWhite (line.dropWhile isWhite))
    rw [List.isPrefixOf_iff_prefix.mpr hlonger] at hstart
    cases hstart
  unfold directiveOf recordOf
  rw [hstrip _ hdirective, hstrip _ hrecord]
  exact ⟨ite_self _, ite_self _⟩

/-- A text with no white space at its ends is trimmed already. -/
theorem trim_self {line : List Char} (hhead : ∀ c ∈ line.head?, isWhite c = false)
    (hlast : ∀ c ∈ line.getLast?, isWhite c = false) : trim line = line := by
  have hself : strip isWhite ([] ++ (line ++ [])) = line := strip_append nofun nofun hhead hlast
  rwa [List.nil_append, List.append_nil] at hself

/-- The lines of a text of ended lines are these, trimmed. -/
theorem map_trim_lines_ended {ls : List (List Char)} (h : ∀ line ∈ ls, '\n' ∉ line) :
    (lines (ended ls)).map trim = ls.map trim := by
  have hsplit : (ended ls).splitOn '\n' = ls ++ [[]] := by
    have hjoin : ended ls = ['\n'].intercalate (ls ++ [[]]) := by
      rw [intercalate_around]
      simp [below]
    rw [hjoin]
    refine List.splitOn_intercalate '\n' (fun line hline => ?_) (by simp)
    rcases List.mem_append.mp hline with hline | hline
    · exact h line hline
    · rw [List.mem_singleton.mp hline]
      exact List.not_mem_nil
  rw [lines, hsplit]
  simp only [List.dropLast_concat, List.getLast?_concat, ne_eq, not_true_eq_false,
    decide_false, Option.filter_some, Bool.false_eq_true, if_false, Option.toList_none,
    List.append_nil, List.map_map]
  exact List.map_congr_left fun line _ => trim_return line

namespace Part

variable {part : Part} {name version file : List Char}

theorem newline_word (h : Word name) : '\n' ∉ name := by
  intro hmem
  exact absurd (h.plain '\n' hmem).1 (by decide)

theorem newline_lines (h : part.Valid) : ∀ line ∈ part.lines, '\n' ∉ line := by
  cases part with
  | migration version file =>
      have hversion := newline_word h.1
      have hfile := newline_word h.2
      have hinsert : '\n' ∉ ledgerInsert := by decide +kernel
      simp [lines, hversion, hfile, hinsert]
  | seed file =>
      have hfile : '\n' ∉ file := newline_word h
      simp [lines, hfile]
  | remark indent comment =>
      rcases comment with - | text
      · simp [lines, dashed]
      · have htext : '\n' ∉ text := fun hmem => absurd (h text rfl '\n' hmem) (by decide)
        simp [lines, dashed, htext]

theorem dropWhile_indent (indent : ℕ) (s : List Char) :
    (List.replicate indent ' ' ++ s).dropWhile isWhite = s.dropWhile isWhite := by
  refine List.dropWhile_append_of_pos fun c hc => ?_
  rw [List.eq_of_mem_replicate hc]
  decide

/-- The line that applies a file. -/
theorem directive_line (h : Word file) :
    directiveOf (trim ("\\ir migrations/".toList ++ file)) = some file ∧
      recordOf (trim ("\\ir migrations/".toList ++ file)) = none := by
  have htrim : trim ("\\ir migrations/".toList ++ file) = "\\ir migrations/".toList ++ file := by
    refine trim_self (by rintro c ⟨⟩; decide) fun c hc => ?_
    rw [List.getLast?_append] at hc
    rcases hfile : file.getLast? with - | d
    · rw [hfile] at hc
      cases hc
      decide
    · rw [hfile] at hc
      rw [← Option.some.inj hc]
      exact (h.plain d (List.mem_of_getLast? hfile)).1
  rw [htrim]
  constructor
  · unfold directiveOf
    rw [stripPrefix_eq_some_iff.mpr rfl]
    exact if_neg Bool.false_ne_true
  · unfold recordOf
    rw [stripPrefix_eq_none_iff.mpr fun hprefix => ?_]
    · exact ite_self _
    · obtain ⟨rest, hrest⟩ := hprefix
      exact absurd (List.cons.inj hrest).1 (by decide)

/-- The line that records a version. -/
theorem record_line (h : Word version) :
    directiveOf (trim (ledgerInsert ++ (version ++ "');".toList))) = none ∧
      recordOf (trim (ledgerInsert ++ (version ++ "');".toList))) = some version := by
  have htrim : trim (ledgerInsert ++ (version ++ "');".toList)) =
      ledgerInsert ++ (version ++ "');".toList) := by
    refine trim_self (by rintro c ⟨⟩; decide) fun c hc => ?_
    rw [← List.append_assoc, List.getLast?_append_of_ne_nil _ (by simp)] at hc
    cases hc
    decide
  rw [htrim]
  constructor
  · unfold directiveOf
    rw [stripPrefix_eq_none_iff.mpr fun hprefix => ?_]
    · exact ite_self _
    · obtain ⟨rest, hrest⟩ := hprefix
      exact absurd (List.cons.inj hrest).1 (by decide)
  · have hquote : splitOnce '\'' (version ++ "');".toList) = some (version, ");".toList) :=
      splitOnce_eq_some_iff.mpr ⟨rfl, fun hmem => (h.plain _ hmem).2 rfl⟩
    unfold recordOf
    rw [stripPrefix_eq_some_iff.mpr rfl, Option.bind_some, hquote]
    exact if_neg Bool.false_ne_true

/-- A block is read as the file it applies and the version it records, the rest as
nothing. -/
theorem read_lines (h : part.Valid) :
    (part.lines.map trim).filterMap directiveOf = (part.block.map Prod.snd).toList ∧
      (part.lines.map trim).filterMap recordOf = (part.block.map Prod.fst).toList := by
  cases part with
  | migration version file =>
      obtain ⟨hdirective, hnoRecord⟩ := directive_line h.2
      obtain ⟨hnoDirective, hrecord⟩ := record_line h.1
      -- the other lines of the block begin neither way
      have hselect := plain_line "SELECT NOT EXISTS (".toList rfl rfl
      have hask := plain_line
        ("    SELECT 1 FROM public.aircraft_schema_migrations WHERE version = '".toList ++
          (version ++ ['\''])) rfl rfl
      have hset := plain_line ") AS apply_migration \\gset".toList rfl rfl
      have hif := plain_line "\\if :apply_migration".toList rfl rfl
      have happly := plain_line ("\\echo 'Applying migration ".toList ++
        (version ++ (": ".toList ++ (file ++ ['\''])))) rfl rfl
      have helse := plain_line "\\else".toList rfl rfl
      have hskip := plain_line
        ("\\echo 'Skipping applied migration ".toList ++ (version ++ ['\''])) rfl rfl
      have hend := plain_line "\\endif".toList rfl rfl
      constructor
      · simp only [lines, List.map_cons, List.map_nil, List.filterMap_cons, List.filterMap_nil,
          hselect.1, hask.1, hset.1, hif.1, happly.1, hdirective, hnoDirective, helse.1, hskip.1,
          hend.1]
        rfl
      · simp only [lines, List.map_cons, List.map_nil, List.filterMap_cons, List.filterMap_nil,
          hselect.2, hask.2, hset.2, hif.2, happly.2, hnoRecord, hrecord, helse.2, hskip.2, hend.2]
        rfl
  | seed file =>
      have hseed := plain_line ("\\ir seeds/".toList ++ file) rfl rfl
      simp only [lines, List.map_cons, List.map_nil, List.filterMap_cons, List.filterMap_nil, hseed]
      exact ⟨rfl, rfl⟩
  | remark indent comment =>
      have hnone : directiveOf (trim (List.replicate indent ' ' ++ dashed comment)) = none ∧
          recordOf (trim (List.replicate indent ' ' ++ dashed comment)) = none := by
        have hplain := plain_line (List.replicate indent ' ' ++ dashed comment)
        rw [dropWhile_indent] at hplain
        -- behind the blanks there is nothing, or the two dashes
        rcases comment with - | text
        · exact hplain rfl rfl
        · exact hplain rfl rfl
      simp [lines, block, hnone]

end Part

/-! ### What the gate reads -/

/-- The lines before the first block and behind the last, none of which is read. -/
theorem plain_ends : ∀ line ∈ opening ++ closing,
    '\n' ∉ line ∧ directiveOf (trim line) = none ∧ recordOf (trim line) = none := by
  have hbegins : ∀ line ∈ opening ++ closing, '\n' ∉ line ∧
      "\\ir migrations/".toList.isPrefixOf (line.dropWhile isWhite) = false ∧
        ledgerInsert.isPrefixOf (line.dropWhile isWhite) = false := by decide +kernel
  intro line hline
  obtain ⟨hnewline, hdirective, hrecord⟩ := hbegins line hline
  exact ⟨hnewline, plain_line line hdirective hrecord⟩

theorem newline_inBlocks {parts : List Part} (h : ∀ part ∈ parts, part.Valid) :
    ∀ line ∈ opening ++ (parts.flatMap Part.lines ++ closing), '\n' ∉ line := by
  intro line hline
  rcases List.mem_append.mp hline with hline | hline
  · exact (plain_ends line (List.mem_append_left _ hline)).1
  rcases List.mem_append.mp hline with hline | hline
  · obtain ⟨part, hpart, hline⟩ := List.mem_flatMap.mp hline
    exact Part.newline_lines (h part hpart) line hline
  · exact (plain_ends line (List.mem_append_right _ hline)).1

/-- A scan that reads neither end of the text is one of the parts. -/
theorem scan_inBlocks {installer : List Char} {parts : List Part} (h : InBlocks installer parts)
    {scan : List Char → Option (List Char)}
    (hends : ∀ line ∈ opening ++ closing, scan (trim line) = none) :
    ((lines installer).map trim).filterMap scan =
      parts.flatMap fun part => (part.lines.map trim).filterMap scan := by
  have hopening : (opening.map trim).filterMap scan = [] := by
    rw [List.filterMap_map, List.filterMap_eq_nil_iff]
    exact fun line hline => hends line (List.mem_append_left _ hline)
  have hclosing : (closing.map trim).filterMap scan = [] := by
    rw [List.filterMap_map, List.filterMap_eq_nil_iff]
    exact fun line hline => hends line (List.mem_append_right _ hline)
  rw [h.text, map_trim_lines_ended (newline_inBlocks h.valid), List.map_append, List.map_append,
    List.filterMap_append, List.filterMap_append, hopening, hclosing, List.nil_append,
    List.append_nil, List.map_flatMap, List.filterMap_flatMap]

theorem flatMap_toList {parts : List Part} {scan : List Char → Option (List Char)}
    {part : Part → Option (List Char)}
    (h : ∀ p ∈ parts, (p.lines.map trim).filterMap scan = (part p).toList) :
    (parts.flatMap fun p => (p.lines.map trim).filterMap scan) = parts.filterMap part := by
  rw [List.flatMap_congr h, List.filterMap_eq_flatMap_toList]

theorem directives_inBlocks {installer : List Char} {parts : List Part}
    (h : InBlocks installer parts) :
    (directives installer).map Prod.snd = (parts.filterMap Part.block).map Prod.snd := by
  rw [List.map_filterMap, directives_files,
    scan_inBlocks h fun line hline => (plain_ends line hline).2.1]
  exact flatMap_toList fun part hpart => (Part.read_lines (h.valid part hpart)).1

theorem recordedVersions_inBlocks {installer : List Char} {parts : List Part}
    (h : InBlocks installer parts) :
    recordedVersions installer = (parts.filterMap Part.block).map Prod.fst := by
  rw [List.map_filterMap, recordedVersions_lines,
    scan_inBlocks h fun line hline => (plain_ends line hline).2.2]
  exact flatMap_toList fun part hpart => (Part.read_lines (h.valid part hpart)).2

/-- The migrations psql runs are those of the blocks. -/
theorem versions_script (parts : List Part) :
    Installer.versions (script parts) =
      ((parts.filterMap Part.block).map Prod.fst).map String.ofList := by
  rw [Installer.versions, script, List.filterMap_filterMap, List.map_filterMap, List.map_filterMap]
  apply List.filterMap_congr
  rintro (⟨version, file⟩ | file | ⟨indent, comment⟩) - <;> rfl

end MigrationGate

end AircraftApi
