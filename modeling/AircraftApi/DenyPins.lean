/-
AircraftApi/DenyPins.lean

The allowlist of build scripts in `deny.toml`, and its repair: `deny-pins --fix`.

The list is taken out of the manifest as a text, and put back as one: what stands
between the opening text and a bracket that begins a line (`split`).  The lockfile says
which pins are still live (`mem_resolvedVersions`).
-/
import AircraftApi.Lines

namespace AircraftApi.DenyPins

open Text

/-! ### The tool -/

/-- The manifest's file. -/
def denyManifest : List Char := "deny.toml".toList

/-- The line that opens the allowlist. -/
def listOpening : List Char := "allow-build-scripts = [".toList

/-- What the tool ends the list with. -/
def listClosing : Char := ']'

/-- A set of pins, in its order. -/
def sorted (pins : Finset (List Char)) : List (List Char) := pins.sort (· ≤ ·)

@[simp] theorem mem_sorted {pins : Finset (List Char)} {pin : List Char} :
    pin ∈ sorted pins ↔ pin ∈ pins := Finset.mem_sort _

/-- Indentation of one allowlist entry. -/
def entryIndent : List Char := "    ".toList

/-- A crate rejected for shipping an unapproved build script. -/
structure Offender where
  name : List Char
  version : List Char
  checksum : Option (List Char)
  deriving DecidableEq, Repr

/-- The pin of a package at a version. -/
def Offender.pin (offender : Offender) : List Char := offender.name ++ '@' :: offender.version

/-- Why the tool leaves the manifest alone. -/
inductive Refusal
  | noList
  | unterminated
  | outOfDate (report : List Char)
  deriving DecidableEq, Repr

/-- What the tool says. -/
def Refusal.message : Refusal → List Char
  | .noList => denyManifest ++ " has no `".toList ++ listOpening ++ "` list".toList
  | .unterminated => denyManifest ++ " has an unterminated `".toList ++ listOpening ++
      "` list".toList
  | .outOfDate report => report ++
      "\nRun `cargo xtask deny-pins --fix` to update the list, then review the diff.".toList

/-- The body of the list and what stands around it: before the opening text, between it
and a bracket that begins a line, and behind that. -/
def split (manifest : List Char) : Except Refusal (List Char × List Char × List Char) :=
  match splitOnceAt listOpening manifest with
  | none => .error .noList
  | some (head, body) =>
    match splitOnceAt ['\n', listClosing] body with
    | none => .error .unterminated
    | some (entries, tail) => .ok (head, entries, tail)

/-- `line.trim_end_matches(',').trim_matches('"')`. -/
def unquote (line : List Char) : List Char := strip (· = '"') (line.rdropWhile (· = ','))

/-- The pins of the list: its lines that are neither empty nor comments, unquoted. -/
def parsePins (manifest : List Char) : Except Refusal (Finset (List Char)) := do
  let (_, entries, _) ← split manifest
  return ((((lines entries).map trim).filter (· ≠ [])).filter (·.head? ≠ some '#')).map unquote
    |>.toFinset

/-- One row of the rewritten list. -/
def entryLine (entry : List Char) : List Char := entryIndent ++ '"' :: entry ++ ['"', ',']

/-- The manifest with the list written anew. -/
def rewrite (manifest : List Char) (updated : Finset (List Char)) :
    Except Refusal (List Char) := do
  let (head, _, tail) ← split manifest
  let entries := ['\n'].intercalate ((sorted updated).map entryLine)
  return head ++ listOpening ++ '\n' :: entries ++ ['\n', listClosing] ++ tail

/-- The name last read and not yet used, and what is resolved so far. -/
abbrev Scan := Option (List Char) × Finset (List Char)

/-- How a line of the lock file begins that names a package. -/
def nameKey : List Char := "name = ".toList

/-- How the line with its version begins. -/
def versionKey : List Char := "version = ".toList

/-- A version belongs to the package named before it. -/
def scanLine (state : Scan) (line : List Char) : Scan :=
  match stripPrefix nameKey line, stripPrefix versionKey line with
  | some package, _ => (some (strip (· = '"') package), state.2)
  | none, some version =>
    match state.1 with
    | some package => (none, insert (package ++ '@' :: strip (· = '"') version) state.2)
    | none => state
  | none, none => state

/-- Every `name@version` the lockfile resolves. -/
def resolvedVersions (lockfile : List Char) : Finset (List Char) :=
  ((lines lockfile).foldl scanLine (none, ∅)).2

/-- The pins an offender supersedes: an entry for the same crate that the lockfile no
longer resolves. -/
def displaced (pinned : Finset (List Char)) (offenders : List Offender)
    (resolved : Finset (List Char)) : Finset (List Char) :=
  pinned.filter fun pin =>
    (∃ parts ∈ splitOnce '@' pin, parts.1 ∈ (offenders.map Offender.name).toFinset) ∧
      pin ∉ resolved

/-- The pins as they should be: the displaced ones out, the offenders' in. -/
def apply (pinned : Finset (List Char)) (offenders : List Offender)
    (displaced : Finset (List Char)) : Finset (List Char) :=
  pinned.filter (· ∉ displaced) ∪ (offenders.map Offender.pin).toFinset

/-- What the tool reports of the offenders. -/
def render (displaced : Finset (List Char)) (offenders : List Offender) : List Char :=
  let superseded (offender : Offender) : Option (List Char) :=
    (sorted displaced).find? fun pin =>
      (splitOnce '@' pin).any fun parts => parts.1 = offender.name
  ['\n'].intercalate ("build-script pins are out of date:".toList ::
    offenders.flatMap fun offender =>
      (match superseded offender with
        | some previous => "  ".toList ++ previous ++ " -> ".toList ++ offender.pin
        | none => "  + ".toList ++ offender.pin ++ " (not previously pinned)".toList) ::
      (offender.checksum.map fun checksum =>
        "      build script checksum ".toList ++ checksum).toList)

/-- What the tool did. -/
inductive Outcome
  | upToDate (pins : ℕ)
  | rewrote (report manifest : List Char)
  deriving DecidableEq, Repr

/-- One run: `offenders` are what the run of `cargo deny` reports, in their order. -/
def check (manifest lockfile : List Char) (offenders : List Offender) (fix : Bool) :
    Except Refusal Outcome := do
  let pinned ← parsePins manifest
  if offenders = [] then
    return .upToDate pinned.card
  let displaced := displaced pinned offenders (resolvedVersions lockfile)
  let updated := apply pinned offenders displaced
  let report := render displaced offenders
  if fix then
    let rewritten ← rewrite manifest updated
    return .rewrote report rewritten
  throw (.outOfDate report)

/-- The manifest after a run with `--fix`. -/
def fixed (manifest lockfile : List Char) (offenders : List Offender) : List Char :=
  match check manifest lockfile offenders true with
  | .ok (.rewrote _ rewritten) => rewritten
  | _ => manifest

/-! ### The lockfile -/

/-- The last of the name and version lines is a name line, of this package. -/
def Names (lines : List (List Char)) (package : List Char) : Prop :=
  ∃ above name below, lines = above ++ (nameKey ++ name) :: below ∧
    (∀ line ∈ below, ¬ nameKey <+: line ∧ ¬ versionKey <+: line) ∧
    package = strip (· = '"') name

/-- A version line below a name line, neither between them, spells the pin. -/
def ResolvesIn (lines : List (List Char)) (pin : List Char) : Prop :=
  ∃ above version below package, lines = above ++ (versionKey ++ version) :: below ∧
    Names above package ∧ pin = package ++ '@' :: strip (· = '"') version

/-- The lockfile resolves this `name@version`. -/
def Resolves (lockfile pin : List Char) : Prop := ResolvesIn (lines lockfile) pin

variable {ls : List (List Char)} {line package pin : List Char}

theorem names_concat : Names (ls ++ [line]) package ↔
    (∃ name, line = nameKey ++ name ∧ package = strip (· = '"') name) ∨
      (¬ nameKey <+: line ∧ ¬ versionKey <+: line) ∧ Names ls package := by
  constructor
  · rintro ⟨above, name, below, hls, hbelow, rfl⟩
    rcases below.eq_nil_or_concat' with rfl | ⟨below, last, rfl⟩
    · obtain ⟨-, hline⟩ := List.append_inj' hls rfl
      exact .inl ⟨name, List.singleton_inj.mp hline, rfl⟩
    · rw [← List.cons_append, ← List.append_assoc] at hls
      obtain ⟨rfl, hline⟩ := List.append_inj' hls rfl
      obtain rfl := List.singleton_inj.mp hline
      have hrest : ∀ line ∈ below, ¬ nameKey <+: line ∧ ¬ versionKey <+: line :=
        fun line hl => hbelow line (List.mem_append_left _ hl)
      exact .inr ⟨hbelow line (by simp), above, name, below, rfl, hrest, rfl⟩
  · rintro (⟨name, rfl, rfl⟩ | ⟨hline, above, name, below, rfl, hbelow, rfl⟩)
    · exact ⟨ls, name, [], rfl, by simp, rfl⟩
    · refine ⟨above, name, below ++ [line], by simp, fun other hother => ?_, rfl⟩
      rcases List.mem_append.mp hother with hother | hother
      · exact hbelow other hother
      · rwa [List.mem_singleton.mp hother]

theorem resolvesIn_concat : ResolvesIn (ls ++ [line]) pin ↔
    ResolvesIn ls pin ∨ ∃ version package, line = versionKey ++ version ∧ Names ls package ∧
      pin = package ++ '@' :: strip (· = '"') version := by
  constructor
  · rintro ⟨above, version, below, package, hls, hnames, rfl⟩
    rcases below.eq_nil_or_concat' with rfl | ⟨below, last, rfl⟩
    · obtain ⟨rfl, hline⟩ := List.append_inj' hls rfl
      exact .inr ⟨version, package, List.singleton_inj.mp hline, hnames, rfl⟩
    · rw [← List.cons_append, ← List.append_assoc] at hls
      obtain ⟨rfl, -⟩ := List.append_inj' hls rfl
      exact .inl ⟨above, version, below, package, rfl, hnames, rfl⟩
  · rintro (⟨above, version, below, package, rfl, hnames, rfl⟩ |
      ⟨version, package, rfl, hnames, rfl⟩)
    · exact ⟨above, version, below ++ [line], package, by simp, hnames, rfl⟩
    · exact ⟨ls, version, [], package, rfl, hnames, rfl⟩

/-- No line is both. -/
theorem not_versionKey (name version : List Char) : nameKey ++ name ≠ versionKey ++ version := by
  intro h
  exact absurd (List.cons.inj h).1 (by decide)

/-- The scan knows the package named last, and what the lines read so far resolve. -/
theorem foldl_scanLine (ls : List (List Char)) :
    (∀ package, (ls.foldl scanLine (none, ∅)).1 = some package ↔ Names ls package) ∧
      ∀ pin, pin ∈ (ls.foldl scanLine (none, ∅)).2 ↔ ResolvesIn ls pin := by
  induction ls using List.reverseRecOn with
  | nil => simp [Names, ResolvesIn]
  | append_singleton ls line ih =>
      obtain ⟨hopen, hmem⟩ := ih
      rw [List.foldl_append, List.foldl_cons, List.foldl_nil]
      generalize ls.foldl scanLine (none, ∅) = state at hopen hmem
      simp only [names_concat, resolvesIn_concat]
      rw [scanLine]
      rcases hname : stripPrefix nameKey line with - | name
      · have hnot : ¬ nameKey <+: line := stripPrefix_eq_none_iff.mp hname
        have hno : ∀ name, line ≠ nameKey ++ name := fun name h =>
          hnot (h ▸ List.prefix_append nameKey name)
        rcases hversion : stripPrefix versionKey line with - | version
        · have hneither : ¬ versionKey <+: line := stripPrefix_eq_none_iff.mp hversion
          have hnov : ∀ version, line ≠ versionKey ++ version := fun version h =>
            hneither (h ▸ List.prefix_append versionKey version)
          simp [hno, hnov, hnot, hneither, hopen, hmem]
        · obtain rfl := stripPrefix_eq_some_iff.mp hversion
          -- the version line takes the name, if one is open
          rcases state with ⟨- | package, resolved⟩
          · simp only [reduceCtorEq, false_iff] at hopen
            simp [hno, hopen, hmem]
          · simp only [Option.some.injEq] at hopen
            refine ⟨by simp [hno], fun pin => ?_⟩
            rw [Finset.mem_insert, hmem]
            constructor
            · rintro (rfl | h)
              · exact .inr ⟨version, package, rfl, (hopen package).mp rfl, rfl⟩
              · exact .inl h
            · rintro (h | ⟨other, named, hline, hnamed, rfl⟩)
              · exact .inr h
              · obtain rfl := List.append_cancel_left hline
                rw [(hopen named).mpr hnamed]
                exact .inl rfl
      · obtain rfl := stripPrefix_eq_some_iff.mp hname
        refine ⟨fun package => ?_, fun pin => ?_⟩
        · simp only [Option.some.injEq, List.prefix_append, not_true_eq_false, false_and, or_false]
          constructor
          · rintro rfl
            exact ⟨name, rfl, rfl⟩
          · rintro ⟨other, hline, rfl⟩
            rw [List.append_cancel_left hline]
        · rw [hmem]
          simp only [not_versionKey, false_and, exists_false, or_false]

theorem mem_resolvedVersions {lockfile pin : List Char} :
    pin ∈ resolvedVersions lockfile ↔ Resolves lockfile pin :=
  (foldl_scanLine (lines lockfile)).2 pin

/-! ### The cut -/

/-- A line of the body as `parsePins` reads it. -/
def readRow (line : List Char) : Option (List Char) :=
  let trimmed := trim line
  if trimmed = [] ∨ trimmed.head? = some '#' then none else some (unquote trimmed)

/-- Where the lines of a manifest are cut: at the opening text, first in the line
`x ++ listOpening ++ y`, and at the first bracket that begins a line below. -/
structure Cut (ls : List (List Char)) where
  above : List (List Char)
  x : List Char
  y : List Char
  mid : List (List Char)
  r : List Char
  post : List (List Char)
  lines : ls = above ++ (x ++ (listOpening ++ y)) :: (mid ++ (listClosing :: r) :: post)
  first : ∀ line ∈ above, ¬ listOpening <:+: line
  opening : splitOnceAt listOpening (x ++ (listOpening ++ y)) = some (x, y)
  closing : ∀ line ∈ mid, line.head? ≠ some listClosing
  newlines : ∀ line ∈ ls, '\n' ∉ line

namespace Cut

variable (cut : Cut ls)

theorem mem_lines {line : List Char} : line ∈ ls ↔ line ∈ cut.above ++
    (cut.x ++ (listOpening ++ cut.y)) :: (cut.mid ++ (listClosing :: cut.r) :: cut.post) :=
  Iff.of_eq (congrArg (line ∈ ·) cut.lines)

theorem newline_y : '\n' ∉ cut.y := by
  intro h
  exact cut.newlines (cut.x ++ (listOpening ++ cut.y)) (cut.mem_lines.mpr (by simp)) (by simp [h])

theorem newline_mid : ∀ line ∈ cut.mid, '\n' ∉ line := by
  intro line hline
  apply cut.newlines
  exact cut.mem_lines.mpr (by simp [hline])

theorem newline_listOpening : '\n' ∉ listOpening := by decide

theorem split_eq : split (['\n'].intercalate ls) =
    .ok (ended cut.above ++ cut.x, cut.y ++ below cut.mid, cut.r ++ below cut.post) := by
  have hopening : splitOnceAt listOpening (['\n'].intercalate ls) =
      some (ended cut.above ++ cut.x,
        cut.y ++ below (cut.mid ++ (listClosing :: cut.r) :: cut.post)) := by
    conv_lhs => rw [cut.lines]
    rw [intercalate_around, splitOnceAt_ended newline_listOpening (by decide) cut.first,
      splitOnceAt_append cut.opening]
    rfl
  have hclosing : splitOnceAt ['\n', listClosing]
      (cut.y ++ below (cut.mid ++ (listClosing :: cut.r) :: cut.post)) =
      some (cut.y ++ below cut.mid, cut.r ++ below cut.post) := by
    rw [splitOnceAt_newline cut.newline_y,
      splitOnceAt_below cut.newline_mid (by decide) cut.closing]
    rfl
  rw [split, hopening]
  dsimp only
  rw [hclosing]

end Cut

theorem map_filter_readRow (ls : List (List Char)) :
    (((ls.map trim).filter (· ≠ [])).filter (·.head? ≠ some '#')).map unquote
      = ls.filterMap readRow := by
  induction ls with
  | nil => rfl
  | cons line ls ih =>
      rw [List.map_cons, List.filterMap_cons, ← ih, readRow]
      by_cases hnil : trim line = []
      · simp [hnil]
      · by_cases hcomment : (trim line).head? = some '#'
        · simp [hnil, hcomment]
        · simp [hnil, hcomment]

theorem newline_readRow (hline : '\n' ∉ line) (h : readRow line = some pin) : '\n' ∉ pin := by
  rw [readRow] at h
  split at h
  · cases h
  · cases h
    intro hmem
    apply hline
    have htrimmed := (List.rdropWhile_prefix _ _).subset (strip_subset _ _ hmem)
    exact strip_subset _ _ htrimmed

/-- What is read has no quotes at its ends. -/
theorem strip_readRow (h : readRow line = some pin) : strip (· = '"') pin = pin := by
  rw [readRow] at h
  split at h
  · cases h
  · cases h
    exact strip_strip _ _

theorem white_entryIndent : ∀ c ∈ entryIndent, isWhite c = true := by
  intro c hc
  have hspaces : entryIndent = List.replicate 4 ' ' := by decide +kernel
  rw [hspaces] at hc
  rw [List.eq_of_mem_replicate hc]
  decide

section

variable {margin trail : List Char}

theorem readRow_blank (h : ∀ c ∈ margin, isWhite c = true) : readRow margin = none := by
  have hnil : trim margin = [] := by
    rw [trim, strip, List.dropWhile_eq_nil_iff.mpr h, List.rdropWhile_nil]
  rw [readRow, hnil]
  rfl

theorem readRow_comment (h : ∀ c ∈ margin, isWhite c = true) (text : List Char) :
    readRow (margin ++ '#' :: text) = none := by
  have hcut : trim (margin ++ '#' :: text) = ('#' :: text).rdropWhile isWhite := by
    rw [trim, strip, List.dropWhile_append_of_pos h, List.dropWhile_cons_of_neg (by decide)]
  have hhead : (trim (margin ++ '#' :: text)).head? = some '#' := by
    obtain ⟨back, hback⟩ := List.rdropWhile_prefix isWhite ('#' :: text)
    rcases hrest : ('#' :: text).rdropWhile isWhite with - | ⟨c, rest⟩
    · exact absurd (List.rdropWhile_eq_nil_iff.mp hrest '#' (by simp)) (by decide)
    · rw [hrest, List.cons_append, List.cons.injEq] at hback
      rw [hcut, hrest, hback.1]
      rfl
  rw [readRow, if_pos (.inr hhead)]

/-- The quotes around a pin are taken off, and the comma behind them. -/
theorem readRow_quoted (hmargin : ∀ c ∈ margin, isWhite c = true)
    (htrail : ∀ c ∈ trail, isWhite c = true) (h : strip (· = '"') pin = pin) (comma : Bool) :
    readRow (margin ++ ('"' :: (pin ++ '"' :: ((if comma then [','] else []) ++ trail)))) =
      some pin := by
  let quoted : List Char := '"' :: (pin ++ '"' :: if comma then [','] else [])
  have hline : margin ++ ('"' :: (pin ++ '"' :: ((if comma then [','] else []) ++ trail))) =
      margin ++ (quoted ++ trail) := by simp [quoted]
  have hlast : ∀ c ∈ quoted.getLast?, isWhite c = false := by
    intro c hc
    cases comma
    · simp only [quoted, Bool.false_eq_true, if_false, ← List.cons_append] at hc
      rw [List.getLast?_concat, Option.mem_some] at hc
      rw [← hc]
      decide
    · simp only [quoted, if_true, ← List.cons_append] at hc
      rw [List.append_cons, List.getLast?_concat, Option.mem_some] at hc
      rw [← hc]
      decide
  -- the white space goes first, then the comma, then the quotes
  have hcore : trim (margin ++ (quoted ++ trail)) = quoted := by
    apply strip_append hmargin htrail _ hlast
    rintro c ⟨⟩
    decide
  have hbare : quoted.rdropWhile (· = ',') = ['"'] ++ (pin ++ ['"']) := by
    cases comma
    · simp only [quoted, Bool.false_eq_true, if_false, ← List.cons_append]
      rw [List.rdropWhile_concat_neg _ _ _ (by decide)]
      rfl
    · simp only [quoted, if_true, ← List.cons_append]
      rw [List.append_cons, List.rdropWhile_concat_pos _ _ _ (by decide),
        List.rdropWhile_concat_neg _ _ _ (by decide)]
      rfl
  rw [hline, readRow, hcore, if_neg (by simp [quoted]), unquote, hbare,
    strip_around (by simp) (by simp), h]

end

/-- A written row is read as what it was written for. -/
theorem readRow_entryLine (h : strip (· = '"') pin = pin) : readRow (entryLine pin) = some pin := by
  have hnil : ∀ c ∈ ([] : List Char), isWhite c = true := by simp
  have hread : readRow (entryIndent ++ ('"' :: (pin ++ '"' :: ([','] ++ [])))) = some pin :=
    readRow_quoted white_entryIndent hnil h true
  rw [entryLine, List.append_assoc]
  exact hread

namespace Cut

variable (cut : Cut ls)

/-- What the lines between are read as. -/
def read : Finset (List Char) := ((cut.y :: cut.mid).filterMap readRow).toFinset

theorem mem_read : pin ∈ cut.read ↔ ∃ line ∈ cut.y :: cut.mid, readRow line = some pin := by
  rw [read, List.mem_toFinset, List.mem_filterMap]

theorem newline_read (h : pin ∈ cut.read) : '\n' ∉ pin := by
  obtain ⟨line, hline, hread⟩ := cut.mem_read.mp h
  rcases List.mem_cons.mp hline with rfl | hline
  · exact newline_readRow cut.newline_y hread
  · exact newline_readRow (cut.newline_mid line hline) hread

theorem strip_read (h : pin ∈ cut.read) : strip (· = '"') pin = pin := by
  obtain ⟨line, -, hread⟩ := cut.mem_read.mp h
  exact strip_readRow hread

/-- The pins are those of the lines between. -/
theorem parsePins_eq : parsePins (['\n'].intercalate ls) = .ok cut.read := by
  have hlines : (cut.y ++ below cut.mid).splitOn '\n' = cut.y :: cut.mid := by
    rw [← intercalate_eq_below]
    refine List.splitOn_intercalate '\n' (fun line hline => ?_) (List.cons_ne_nil _ _)
    rcases List.mem_cons.mp hline with rfl | hline
    · exact cut.newline_y
    · exact cut.newline_mid line hline
  rw [parsePins, cut.split_eq]
  show Except.ok _ = _
  rw [filter_trim_lines, hlines, map_filter_readRow, read]

/-- The lines are cut in one way only. -/
theorem read_unique (cut' : Cut ls) : cut.read = cut'.read :=
  Except.ok.inj (cut.parsePins_eq.symm.trans cut'.parsePins_eq)

/-- The lines with these pins in place of those between. -/
def written (pins : Finset (List Char)) : List (List Char) :=
  cut.above ++ (cut.x ++ listOpening) ::
    ((sorted pins).map entryLine ++ (listClosing :: cut.r) :: cut.post)

/-- The rows of the new list stand between the two. -/
theorem rewrite_eq {updated : Finset (List Char)} (hne : updated.Nonempty) :
    rewrite (['\n'].intercalate ls) updated = .ok (['\n'].intercalate (cut.written updated)) := by
  obtain ⟨first, rest, hrows⟩ : ∃ first rest,
      (sorted updated).map entryLine = first :: rest := by
    apply List.exists_cons_of_ne_nil
    rw [Ne, List.map_eq_nil_iff, ← List.length_eq_zero_iff, sorted, Finset.length_sort]
    exact (Finset.card_pos.mpr hne).ne'
  rw [rewrite, cut.split_eq]
  show Except.ok _ = _
  rw [written, hrows, intercalate_around, intercalate_eq_below, below_append, below_cons, below_cons]
  simp

variable {pins : Finset (List Char)}

theorem written_ne_nil : cut.written pins ≠ [] :=
  List.append_ne_nil_of_right_ne_nil _ (List.cons_ne_nil _ _)

theorem newline_written (h : ∀ pin ∈ pins, '\n' ∉ pin) :
    ∀ line ∈ cut.written pins, '\n' ∉ line := by
  have hindent : '\n' ∉ entryIndent := by decide
  intro line hline
  rw [written, List.mem_append, List.mem_cons, List.mem_append, List.mem_cons] at hline
  rcases hline with hline | rfl | hline | rfl | hline
  · exact cut.newlines line (cut.mem_lines.mpr (by simp [hline]))
  · have hfirst := cut.newlines (cut.x ++ (listOpening ++ cut.y)) (cut.mem_lines.mpr (by simp))
    rw [← List.append_assoc, List.mem_append, not_or] at hfirst
    exact hfirst.1
  · obtain ⟨pin, hpin, rfl⟩ := List.mem_map.mp hline
    have hbare := h pin (mem_sorted.mp hpin)
    simp [entryLine, hindent, hbare]
  · exact cut.newlines _ (cut.mem_lines.mpr (by simp))
  · exact cut.newlines line (cut.mem_lines.mpr (by simp [hline]))

/-- What is written is cut where it was cut before. -/
def again (h : ∀ pin ∈ pins, '\n' ∉ pin) : Cut (cut.written pins) where
  above := cut.above
  x := cut.x
  y := []
  mid := (sorted pins).map entryLine
  r := cut.r
  post := cut.post
  lines := by rw [written, List.append_nil]
  first := cut.first
  opening := by
    rw [List.append_nil]
    exact splitOnceAt_cut cut.opening
  closing := by
    intro line hline
    obtain ⟨pin, -, rfl⟩ := List.mem_map.mp hline
    exact fun hhead => absurd (Option.some.inj hhead) (by decide)
  newlines := cut.newline_written h

theorem read_again (h : ∀ pin ∈ pins, '\n' ∉ pin)
    (hstrip : ∀ pin ∈ pins, strip (· = '"') pin = pin) : (cut.again h).read = pins := by
  have hrows : ((sorted pins).map entryLine).filterMap readRow = sorted pins := by
    rw [List.filterMap_map]
    refine (List.filterMap_congr fun pin hpin => ?_).trans List.filterMap_some
    exact readRow_entryLine (hstrip pin (mem_sorted.mp hpin))
  ext pin
  rw [read, List.mem_toFinset]
  show pin ∈ ([] :: (sorted pins).map entryLine).filterMap readRow ↔ _
  rw [List.filterMap_cons_none (by decide), hrows, mem_sorted]

end Cut

/-- The text is cut, or refused. -/
theorem cut_or_refused (hne : ls ≠ []) (hlines : ∀ line ∈ ls, '\n' ∉ line) :
    Nonempty (Cut ls) ∨ ∃ refusal, split (['\n'].intercalate ls) = .error refusal := by
  by_cases hopen : ∃ line ∈ ls, listOpening <:+: line
  · obtain ⟨above, line, rest, rfl, hline, habove⟩ := Runs.exists_first hopen
    obtain ⟨x, y, hsplit⟩ := exists_splitOnceAt hline
    obtain rfl := eq_of_splitOnceAt hsplit
    by_cases hclose : ∃ line ∈ rest, line.head? = some listClosing
    · obtain ⟨mid, last, post, rfl, hlast, hmid⟩ := Runs.exists_first hclose
      obtain ⟨r, rfl⟩ := List.head?_eq_some_iff.mp hlast
      exact .inl ⟨⟨above, x, y, mid, r, post, rfl, habove, hsplit, hmid, hlines⟩⟩
    · refine .inr ⟨.unterminated, ?_⟩
      have hy : '\n' ∉ y := fun h => hlines (x ++ (listOpening ++ y)) (by simp) (by simp [h])
      have hrest : ∀ line ∈ rest, '\n' ∉ line := fun line hl => hlines line (by simp [hl])
      have hnone : splitOnceAt ['\n', listClosing] (y ++ below rest) = none := by
        rw [splitOnceAt_newline hy, splitOnceAt_below_none hrest (by decide)
          fun line hl hhead => hclose ⟨line, hl, hhead⟩]
        rfl
      rw [split, intercalate_around, splitOnceAt_ended Cut.newline_listOpening
        (by decide) habove, splitOnceAt_append hsplit]
      simp only [Option.map_some]
      rw [hnone]
  · refine .inr ⟨.noList, ?_⟩
    obtain ⟨above, last, rfl⟩ := ls.eq_nil_or_concat'.resolve_left hne
    have hnot : ∀ line ∈ above ++ [last], ¬ listOpening <:+: line :=
      fun line hl hin => hopen ⟨line, hl, hin⟩
    have hnone : splitOnceAt listOpening (last ++ below []) = none := by
      rw [splitOnceAt_eq_none_iff, below, List.flatMap_nil, List.append_nil]
      exact hnot last (by simp)
    rw [split, intercalate_around, splitOnceAt_ended Cut.newline_listOpening
      (by decide) fun line hl => hnot line (List.mem_append_left _ hl), hnone]
    rfl

end AircraftApi.DenyPins
