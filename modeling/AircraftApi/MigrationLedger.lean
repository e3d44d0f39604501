/-
AircraftApi/MigrationLedger.lean

The versions the ledger check reads out of a SQL text, comments removed.

The comments are removed by a reader that knows no quotes and lets no comment nest.
Along a text on which the scanner of PostgreSQL meets neither a marker in a quoted
token, nor a comment inside another, nor a line comment that carriage returns end with
neither a newline nor another line comment behind them, the two agree
(`comments_removed`).
-/
import AircraftApi.SqlScanner

namespace AircraftApi.MigrationLedger

open SqlScanner Text

/-! ### The check -/

/-- Where the reader stands: outside comments, after two dashes, after a slash and a
star. -/
inductive Reading
  | active
  | line
  | block
  deriving DecidableEq, Repr

variable {α : Type*} (char : α → Char)

/-- The loops of `without_sql_comments`, over characters that may carry something; `none`
where a block comment is not closed. -/
def withoutComments : Reading → List α → Option (List α)
  | .active, [] => some []
  | .active, [a] => some [a]
  | .active, a :: b :: rest =>
    if char a = '-' ∧ char b = '-' then withoutComments .line rest
    else if char a = '/' ∧ char b = '*' then withoutComments .block rest
    else (withoutComments .active (b :: rest)).map (a :: ·)
  | .line, [] => some []
  | .line, a :: rest =>
    if char a = '\n' then (withoutComments .active rest).map (a :: ·)
    else withoutComments .line rest
  | .block, [] => none
  | .block, [_] => none
  | .block, a :: b :: rest =>
    if char a = '\n' then (withoutComments .block (b :: rest)).map (a :: ·)
    else if char a = '*' ∧ char b = '/' then withoutComments .active rest
    else withoutComments .block (b :: rest)

/-- The file without its comments. -/
def withoutSqlComments (sql : List Char) : Option (List Char) := withoutComments id .active sql

/-- How the declaration of the expected versions begins. -/
def ledgerDeclarationPrefix : List Char := "expected_versions CONSTANT TEXT[] := ARRAY[".toList

/-- The lines are taken up to the first that holds the closing bracket. -/
def throughBracket (literal : List Char) : List (List Char) → Option (List Char)
  | [] => if ']' ∈ literal then some literal else none
  | line :: rest => if ']' ∈ literal then some literal else throughBracket (literal ++ line) rest

/-- Three digits in quotes. -/
def quotedVersion (entry : List Char) : Option (List Char) := do
  let version ← (stripPrefix ['\''] (trim entry)).bind (stripSuffix '\'')
  if version.length = 3 ∧ version.all Char.isDigit then some version else none

/-- The rest of the first line that begins with the declaration, and the lines below. -/
def declaration : List (List Char) → Option (List Char × List (List Char))
  | [] => none
  | line :: rest =>
    match stripPrefix ledgerDeclarationPrefix line with
    | some literal => some (literal, rest)
    | none => declaration rest

/-- The versions in a text without comments. -/
def readLedger (active : List Char) : Option (List (List Char)) := do
  let (first, rest) ← declaration ((lines active).map trim)
  let literal ← throughBracket first rest
  let (entries, suffix) ← splitOnce ']' literal
  if (suffix.dropWhile isWhite).head? = some ';' then (entries.splitOn ',').mapM quotedVersion else none

/-- The versions the file expects, comments left out first. -/
def ledgerVersions (sql : List Char) : Option (List (List Char)) :=
  (withoutSqlComments sql).bind readLedger

/-! ### The law -/

/-- The characters of a text with their places. -/
def placed (sql : List Char) : List (Char × ℕ) := sql.zipIdx

/-- Newlines aside. -/
def visible (s : List (Char × ℕ)) : List (Char × ℕ) :=
  Scanner.counted (fun c => ! isNewline c) Prod.fst s

section

variable (quoting : Quoting) (sql : List Char)

/-- What PostgreSQL's scanner takes for outside comments. -/
def outsideComments : List (Char × ℕ) := (postgres quoting).kept Prod.fst .code [] (placed sql)

/-- The scanner ends in a block comment. -/
def Unterminated : Prop :=
  ((postgres quoting).ending Prod.fst .code [] (placed sql)).isOpen = true

/-- Exactly the comments are removed, and no list is read out of one. -/
structure Strips : Prop where
  none_iff : withoutSqlComments sql = none ↔ Unterminated quoting sql
  removed : ∀ active, withoutComments Prod.fst .active (placed sql) = some active →
    withoutSqlComments sql = some (active.map Prod.fst) ∧
      visible active = visible (outsideComments quoting sql)
  ledger : ∀ versions, ledgerVersions sql = some versions → ∃ active : List (Char × ℕ),
    readLedger (active.map Prod.fst) = some versions ∧
      visible active = visible (outsideComments quoting sql)

/-- Behind carriage returns the line ends, or another line comment begins: what the scanner
and the reader take for a line comment ends at the same newline. -/
def Rejoins (here : List Char) : Prop :=
  (∀ c ∈ (here.dropWhile (· = '\r')).head?, c = '\n') ∨
    marker (here.dropWhile (· = '\r')) = some .line

instance (here : List Char) : Decidable (Rejoins here) :=
  inferInstanceAs (Decidable (_ ∨ _))

/-- Here the scanner and the reader part: a marker in a quoted token, a comment opened in
another, a line comment that carriage returns end and the line goes on. -/
def Trap : Mode → List Char → Prop
  | .quoted _, here => (marker here).isSome
  | .block _, here => marker here = some .block
  | .line, here => here.head? = some '\r' ∧ ¬ Rejoins here
  | _, _ => False

instance (mode : Mode) (here : List Char) : Decidable (Trap mode here) :=
  match mode with
  | .quoted _ => inferInstanceAs (Decidable ((marker here).isSome = true))
  | .block _ => inferInstanceAs (Decidable (marker here = some .block))
  | .line => inferInstanceAs (Decidable (here.head? = some '\r' ∧ ¬ Rejoins here))
  | .code | .opening _ | .closing _ => inferInstanceAs (Decidable False)

/-- The scanner meets no trap along the text. -/
def Untrapped : Prop :=
  Scanner.Calm Trap Prod.fst ((postgres quoting).visits Prod.fst .code [] (placed sql))

instance : Decidable (Untrapped quoting sql) :=
  inferInstanceAs (Decidable (∀ visit ∈ (postgres quoting).visits Prod.fst .code [] (placed sql),
    ¬ Trap visit.1 (visit.2.map Prod.fst)))

/-- What traps the scanner meets are in quoted tokens. -/
def Unnested : Prop :=
  ∀ visit ∈ (postgres quoting).visits Prod.fst .code [] (placed sql),
    Trap visit.1 (visit.2.map Prod.fst) → ∃ left, visit.1 = .quoted left

end

/-! ### The reader, a character at a time -/

/-- Where the reader is: as `Reading`, and on the second of two characters. -/
inductive Place
  | active
  | line
  | opening
  | block
  | closing
  deriving DecidableEq, Repr

/-- Where the reader stands. -/
def Reading.place : Reading → Place
  | .active => .active
  | .line => .line
  | .block => .block

/-- Where it stands behind a character. -/
def Place.next : Place → List Char → Place
  | .active, here =>
    match marker here with
    | some .line => .line
    | some .block => .opening
    | none => .active
  | .line, here => if here.head? = some '\n' then .active else .line
  | .opening, _ => .block
  | .block, here => if closes here then .closing else .block
  | .closing, _ => .active

/-- Whether the character is kept. -/
def Place.keeps : Place → List Char → Bool
  | .active, here => (marker here).isNone
  | .line, here => here.head? = some '\n'
  | .block, here => here.head? = some '\n'
  | _, _ => false

/-- The tool's reading of a file. -/
def reader : Scanner Place := ⟨fun _ => Place.next, Place.keeps⟩

/-- A comment of several lines has begun. -/
def Place.isOpen : Place → Bool
  | .opening | .block | .closing => true
  | _ => false

/-- What the reader leaves; nothing in an open block comment. -/
def Place.result (place : Place) (left : List α) : Option (List α) :=
  if place.isOpen then none else some left

section

variable {char} {a : α} {rest : List α} {place : Place} {before : List Char}

variable {place' : Place}

/-- A character that is kept. -/
theorem result_keep (hnext : place.next ((a :: rest).map char) = place')
    (hkeeps : place.keeps ((a :: rest).map char) = true) :
    Place.result (reader.ending char place before (a :: rest))
        (reader.kept char place before (a :: rest)) =
      (Place.result (reader.ending char place' (char a :: before) rest)
        (reader.kept char place' (char a :: before) rest)).map (a :: ·) := by
  subst hnext
  rw [Scanner.kept_of_keeps hkeeps, Place.result, Place.result]
  show (if (reader.ending char (place.next ((a :: rest).map char)) (char a :: before) rest).isOpen
    then _ else _) = _
  split
  · rfl
  · rfl

/-- A character that is dropped. -/
theorem result_drop (hnext : place.next ((a :: rest).map char) = place')
    (hkeeps : place.keeps ((a :: rest).map char) = false) :
    Place.result (reader.ending char place before (a :: rest))
        (reader.kept char place before (a :: rest)) =
      Place.result (reader.ending char place' (char a :: before) rest)
        (reader.kept char place' (char a :: before) rest) := by
  subst hnext
  rw [Scanner.kept_of_drops hkeeps]
  rfl

theorem active_of_none {here : List Char} (h : marker here = none) :
    Place.next .active here = .active ∧ Place.keeps .active here = true := by
  rw [Place.next, Place.keeps, h]
  exact ⟨rfl, rfl⟩

theorem line_of_ne {c : Char} (hc : c ≠ '\n') (tail : List Char) :
    Place.next .line (c :: tail) = .line ∧ Place.keeps .line (c :: tail) = false := by
  have hhead : (c :: tail).head? ≠ some '\n' := fun h => hc (Option.some.inj h)
  exact ⟨if_neg hhead, decide_eq_false hhead⟩

theorem block_of_not_closes {here : List Char} (h : closes here = false) :
    Place.next .block here = .block := by
  rw [Place.next, h]
  rfl

/-- The loops are the reader. -/
theorem withoutComments_eq (r : Reading) (s : List α) : ∀ before,
    withoutComments char r s = Place.result (reader.ending char r.place before s)
      (reader.kept char r.place before s) := by
  fun_induction withoutComments char r s with
  | case1 => exact fun before => rfl
  | case2 a =>
      intro before
      obtain ⟨hnext, hkeeps⟩ := active_of_none (marker_singleton (char a))
      have hlast : Place.result (reader.ending char .active before [a])
          (reader.kept char .active before [a]) =
          (Place.result (reader.ending char .active (char a :: before) ([] : List α))
            (reader.kept char .active (char a :: before) [])).map (a :: ·) :=
        result_keep hnext hkeeps
      exact hlast.symm
  | case3 a b rest hdash ih =>
      intro before
      -- two dashes: a comment to the end of the line
      have hmarker : marker ((a :: b :: rest).map char) = some .line := marker_eq_line_iff.mpr hdash
      obtain ⟨hnext, hkeeps⟩ : Place.next .active ((a :: b :: rest).map char) = .line ∧
          Place.keeps .active ((a :: b :: rest).map char) = false := by
        rw [Place.next, Place.keeps, hmarker]
        exact ⟨rfl, rfl⟩
      have hb : char b ≠ '\n' := by
        rw [hdash.2]
        decide
      obtain ⟨hsecond, hdrops⟩ := line_of_ne hb (rest.map char)
      rw [ih, Reading.place, Reading.place, result_drop hnext hkeeps, result_drop hsecond hdrops]
  | case4 a b rest hdash hstar ih =>
      intro before
      -- a slash and a star: a comment to the next closing
      have hmarker : marker ((a :: b :: rest).map char) = some .block :=
        marker_eq_block_iff.mpr hstar
      obtain ⟨hnext, hkeeps⟩ : Place.next .active ((a :: b :: rest).map char) = .opening ∧
          Place.keeps .active ((a :: b :: rest).map char) = false := by
        rw [Place.next, Place.keeps, hmarker]
        exact ⟨rfl, rfl⟩
      have hsecond : Place.next .opening ((b :: rest).map char) = .block := rfl
      rw [ih, Reading.place, Reading.place, result_drop hnext hkeeps, result_drop hsecond rfl]
  | case5 a b rest hdash hstar ih =>
      intro before
      have hmarker : marker ((a :: b :: rest).map char) = none := by
        rcases hsome : marker ((a :: b :: rest).map char) with - | comment
        · rfl
        · cases comment with
          | line => exact absurd (marker_eq_line_iff.mp hsome) hdash
          | block => exact absurd (marker_eq_block_iff.mp hsome) hstar
      obtain ⟨hnext, hkeeps⟩ := active_of_none hmarker
      rw [ih, Reading.place, result_keep hnext hkeeps]
  | case6 => exact fun before => rfl
  | case7 a rest ha ih =>
      intro before
      -- the newline ends the comment, and is kept
      have hhead : ((a :: rest).map char).head? = some '\n' := congrArg some ha
      have hnext : Place.next .line ((a :: rest).map char) = .active := if_pos hhead
      have hkeeps : Place.keeps .line ((a :: rest).map char) = true := decide_eq_true hhead
      rw [ih, Reading.place, Reading.place, result_keep hnext hkeeps]
  | case8 a rest ha ih =>
      intro before
      obtain ⟨hnext, hkeeps⟩ := line_of_ne ha (rest.map char)
      rw [ih, Reading.place, result_drop hnext hkeeps]
  | case9 => exact fun before => rfl
  | case10 a =>
      intro before
      have hend : reader.ending char .block before [a] = .block :=
        block_of_not_closes (closes_singleton (char a))
      rw [Reading.place, Place.result, hend]
      rfl
  | case11 a b rest ha ih =>
      intro before
      -- a newline within a comment is kept too
      have hhead : ((a :: b :: rest).map char).head? = some '\n' := congrArg some ha
      have hnext : Place.next .block ((a :: b :: rest).map char) = .block := by
        apply block_of_not_closes
        rw [Bool.eq_false_iff, Ne, List.map_cons, List.map_cons, closes_iff, ha]
        exact fun h => absurd h.1 (by decide)
      have hkeeps : Place.keeps .block ((a :: b :: rest).map char) = true := decide_eq_true hhead
      rw [ih, Reading.place, result_keep hnext hkeeps]
  | case12 a b rest ha hclose ih =>
      intro before
      -- the comment is closed
      have hcloses : closes ((a :: b :: rest).map char) = true := closes_iff.mpr hclose
      have hhead : ((a :: b :: rest).map char).head? ≠ some '\n' := fun h => ha (Option.some.inj h)
      have hnext : Place.next .block ((a :: b :: rest).map char) = .closing := by
        rw [Place.next, hcloses]
        rfl
      have hkeeps : Place.keeps .block ((a :: b :: rest).map char) = false := decide_eq_false hhead
      have hsecond : Place.next .closing ((b :: rest).map char) = .active := rfl
      rw [ih, Reading.place, Reading.place, result_drop hnext hkeeps, result_drop hsecond rfl]
  | case13 a b rest ha hclose ih =>
      intro before
      have hhead : ((a :: b :: rest).map char).head? ≠ some '\n' := fun h => ha (Option.some.inj h)
      have hnext : Place.next .block ((a :: b :: rest).map char) = .block := by
        apply block_of_not_closes
        rw [Bool.eq_false_iff, Ne, List.map_cons, List.map_cons, closes_iff]
        exact hclose
      have hkeeps : Place.keeps .block ((a :: b :: rest).map char) = false := decide_eq_false hhead
      rw [ih, Reading.place, result_drop hnext hkeeps]

end

/-! ### The reader and the scanner -/

/-- The reader stands where the scanner does.  A line comment that a carriage return
ended is one to the reader until the newline. -/
inductive Sync : Place → Mode → List Char → Prop
  | code (here : List Char) : Sync .active .code here
  | quoted (left : ℕ) (here : List Char) : Sync .active (.quoted left) here
  | line (here : List Char) : Sync .line .line here
  | ended (here : List Char) (h : Rejoins here) : Sync .line .code here
  | endedQuoted (left : ℕ) (here : List Char) (h : Rejoins here) : Sync .line (.quoted left) here
  | opening (here : List Char) : Sync .opening (.opening 0) here
  | block (here : List Char) : Sync .block (.block 0) here
  | closing (here : List Char) : Sync .closing (.closing 0) here

/-- The next of the carriage returns, the newline or the other comment. -/
theorem Rejoins.cases {c : Char} {tail : List Char} (h : Rejoins (c :: tail)) :
    (c = '\r' ∧ Rejoins tail) ∨ c = '\n' ∨ marker (c :: tail) = some .line := by
  by_cases hc : c = '\r'
  · subst hc
    exact .inl ⟨rfl, h⟩
  · rw [Rejoins, List.dropWhile_cons_of_neg (by simp [hc])] at h
    exact .inr (h.imp_left fun hhead => hhead c rfl)

theorem Sync.isOpen_eq {place : Place} {mode : Mode} {here : List Char} (h : Sync place mode here) :
    place.isOpen = mode.isOpen := by
  cases h <;> rfl

theorem result_eq_none_iff {place : Place} {left : List α} :
    place.result left = none ↔ place.isOpen = true := by
  rw [Place.result]
  split
  · exact iff_of_true rfl ‹_›
  · exact iff_of_false (Option.some_ne_none left) ‹_›

variable (quoting : Quoting)

/-- Where the reader is outside comments and no marker stands, the two go on there. -/
theorem sync_code {before here tail : List Char} (h : marker here = none) :
    Sync (Place.next .active here) (next quoting before .code here) tail := by
  rw [Place.next, next, h]
  show Sync .active
    (if quoting before here ≤ 1 then .code else .quoted (quoting before here - 1)) tail
  split
  · exact .code tail
  · exact .quoted _ tail

/-- The same where the reader is still in a line comment: nothing but a newline ends it. -/
theorem sync_ended {before here tail : List Char} (h : marker here = none) (hends : Rejoins tail) :
    Sync .line (next quoting before .code here) tail := by
  rw [next, h]
  show Sync .line
    (if quoting before here ≤ 1 then .code else .quoted (quoting before here - 1)) tail
  split
  · exact .ended tail hends
  · exact .endedQuoted _ tail hends

theorem marker_of_return (tail : List Char) : marker ('\r' :: tail) = none := by simp [marker]

theorem marker_of_newline (tail : List Char) : marker ('\n' :: tail) = none := by simp [marker]

/-- What both count, both keep or both drop. -/
theorem keeps_agree {place : Place} {mode : Mode} {c : Char} {tail : List Char}
    (hsync : Sync place mode (c :: tail)) (htrap : ¬ Trap mode (c :: tail))
    (hcounts : (! isNewline c) = true) :
    reader.keeps place (c :: tail) = (postgres quoting).keeps mode (c :: tail) := by
  have hnewline : c ≠ '\n' := by
    rintro rfl
    exact absurd hcounts (by decide)
  have hreturn : c ≠ '\r' := by
    rintro rfl
    exact absurd hcounts (by decide)
  have hkeeps : decide ((c :: tail).head? = some '\n') = false := by simp [hnewline]
  cases hsync with
  | code => rfl
  | quoted left =>
      have hnone : marker (c :: tail) = none := Option.not_isSome_iff_eq_none.mp htrap
      show (marker (c :: tail)).isNone = true
      rw [hnone]
      rfl
  | line =>
      show decide ((c :: tail).head? = some '\n') = isNewline c
      rw [hkeeps]
      simpa using hcounts
  | ended _ hend =>
      -- of what may follow the carriage returns only the other comment counts
      have hmarker : marker (c :: tail) = some .line :=
        (hend.cases.resolve_left fun h => hreturn h.1).resolve_left hnewline
      show decide ((c :: tail).head? = some '\n') = (marker (c :: tail)).isNone
      rw [hkeeps, hmarker]
      rfl
  | endedQuoted left _ hend =>
      have hmarker : marker (c :: tail) = some .line :=
        (hend.cases.resolve_left fun h => hreturn h.1).resolve_left hnewline
      have hsome : (marker (c :: tail)).isSome = true := by
        rw [hmarker]
        rfl
      exact absurd hsome htrap
  | opening => rfl
  | block => exact hkeeps
  | closing => rfl

/-- A line comment goes on, or ends at a newline to both, or at a carriage return to the
scanner. -/
theorem sync_line {c : Char} {tail : List Char} (before : List Char) (htrap : ¬ Trap .line (c :: tail)) :
    Sync (Place.next .line (c :: tail)) (next quoting before .line (c :: tail)) tail := by
  show Sync (if (c :: tail).head? = some '\n' then .active else .line)
    (if isNewline c then .code else .line) tail
  by_cases hc : c = '\n'
  · rw [if_pos (by rw [hc]; rfl), if_pos (by rw [hc]; rfl)]
    exact .code tail
  · have hhead : (c :: tail).head? ≠ some '\n' := fun h => hc (Option.some.inj h)
    rw [if_neg hhead]
    by_cases hnewline : isNewline c = true
    · rw [if_pos hnewline]
      obtain rfl : c = '\r' := by
        rw [isNewline, decide_eq_true_eq] at hnewline
        exact hnewline.resolve_left hc
      have hends : Rejoins ('\r' :: tail) := by
        by_contra hgoes
        exact htrap ⟨rfl, hgoes⟩
      rcases hends.cases with ⟨-, hrest⟩ | hnewline | hmarker
      · exact .ended tail hrest
      · exact absurd hnewline (by decide)
      · rw [marker_of_return] at hmarker
        cases hmarker
    · rw [if_neg hnewline]
      exact .line tail

/-- A line comment the scanner has left goes on to the reader, up to the newline or into
the other comment. -/
theorem sync_rejoined {c : Char} {tail before : List Char} (hend : Rejoins (c :: tail)) :
    Sync (Place.next .line (c :: tail)) (next quoting before .code (c :: tail)) tail := by
  show Sync (if (c :: tail).head? = some '\n' then .active else .line) _ tail
  rcases hend.cases with ⟨rfl, hrest⟩ | rfl | hmarker
  · rw [if_neg (by simp)]
    exact sync_ended quoting (marker_of_return tail) hrest
  · have hhead : ('\n' :: tail).head? = some '\n' := rfl
    rw [if_pos hhead]
    exact sync_code quoting (marker_of_newline tail)
  · have hhead : (c :: tail).head? ≠ some '\n' := by
      intro hhead
      obtain rfl := Option.some.inj hhead
      rw [marker_of_newline] at hmarker
      cases hmarker
    rw [if_neg hhead, next, hmarker]
    exact .line tail

theorem simulates : reader.Simulates (postgres quoting) Sync Trap fun c => ! isNewline c where
  agree := by
    intro place mode c tail hsync htrap hcounts
    exact keeps_agree quoting hsync htrap hcounts
  related := by
    intro place mode c tail before hsync htrap
    cases hsync with
    | code =>
        -- both begin a comment at the same marker
        rcases hmarker : marker (c :: tail) with - | comment
        · exact sync_code quoting hmarker
        · show Sync (Place.next .active (c :: tail)) (next quoting before .code (c :: tail)) tail
          rw [Place.next, next, hmarker]
          cases comment with
          | line => exact .line tail
          | block => exact .opening tail
    | quoted left =>
        -- within quotes there is no marker for the reader to fall into
        have hnone : marker (c :: tail) = none := Option.not_isSome_iff_eq_none.mp htrap
        show Sync (Place.next .active (c :: tail)) (if left ≤ 1 then .code else .quoted (left - 1)) tail
        rw [Place.next, hnone]
        show Sync .active (if left ≤ 1 then .code else .quoted (left - 1)) tail
        split
        · exact .code tail
        · exact .quoted _ tail
    | line => exact sync_line quoting before htrap
    | ended _ hend => exact sync_rejoined quoting hend
    | endedQuoted left _ hend =>
        show Sync (if (c :: tail).head? = some '\n' then .active else .line)
          (if left ≤ 1 then .code else .quoted (left - 1)) tail
        -- the reader is still on the line that has ended for the database
        rcases hend.cases with ⟨rfl, hrest⟩ | rfl | hmarker
        · rw [if_neg (by simp)]
          split
          · exact .ended tail hrest
          · exact .endedQuoted _ tail hrest
        · have hhead : ('\n' :: tail).head? = some '\n' := rfl
          rw [if_pos hhead]
          split
          · exact .code tail
          · exact .quoted _ tail
        · have hsome : (marker (c :: tail)).isSome = true := by
            rw [hmarker]
            rfl
          exact absurd hsome htrap
    | opening => exact .block tail
    | block =>
        -- nor one within a comment, which the database would nest
        have hnone : ¬ marker (c :: tail) = some .block := htrap
        show Sync (if closes (c :: tail) then .closing else .block)
          (if closes (c :: tail) then .closing 0
            else if marker (c :: tail) = some .block then .opening 1 else .block 0) tail
        split
        · exact .closing tail
        · exact .block tail
    | closing => exact .code tail

/-- A marker in a quoted token parts the two. -/
theorem parted_of_quoted {left : ℕ} {here : List Char} (htrap : Trap (.quoted left) here) :
    Scanner.Parted reader (postgres quoting) Sync (fun c => ! isNewline c) (.quoted left) here := by
  have hcounts : ∀ c ∈ here.head?, (! isNewline c) = true := by
    intro c hc
    rw [head_of_marker htrap c hc]
    rfl
  intro place hsync
  cases hsync with
  | quoted =>
      have hsome : (marker here).isNone = false := by
        rw [Option.isNone_eq_false_iff]
        exact htrap
      exact ⟨hsome, rfl, hcounts⟩
  | endedQuoted =>
      have hhead : here.head? ≠ some '\n' := by
        intro hhead
        exact absurd (hcounts '\n' hhead) (by decide)
      exact ⟨decide_eq_false hhead, rfl, hcounts⟩

/-- What characters carry makes no difference to the loops. -/
theorem withoutComments_map (r : Reading) (s : List α) :
    withoutComments id r (s.map char) = (withoutComments char r s).map (List.map char) := by
  -- the reader asks only for the characters
  fun_induction withoutComments char r s with
  | case1 => rfl
  | case2 a => rfl
  | case3 a b rest hdash ih =>
      simp only [List.map_cons, withoutComments, id_eq, if_pos hdash]
      exact ih
  | case4 a b rest hdash hstar ih =>
      simp only [List.map_cons, withoutComments, id_eq, if_neg hdash, if_pos hstar]
      exact ih
  | case5 a b rest hdash hstar ih =>
      simp only [List.map_cons, withoutComments, id_eq, if_neg hdash, if_neg hstar]
      rw [← List.map_cons, ih, Option.map_map, Option.map_map]
      rfl
  | case6 => rfl
  | case7 a rest ha ih =>
      simp only [List.map_cons, withoutComments, id_eq, if_pos ha]
      rw [ih, Option.map_map, Option.map_map]
      rfl
  | case8 a rest ha ih =>
      simp only [List.map_cons, withoutComments, id_eq, if_neg ha]
      exact ih
  | case9 => rfl
  | case10 a => rfl
  | case11 a b rest ha ih =>
      simp only [List.map_cons, withoutComments, id_eq, if_pos ha]
      rw [← List.map_cons, ih, Option.map_map, Option.map_map]
      rfl
  | case12 a b rest ha hclose ih =>
      simp only [List.map_cons, withoutComments, id_eq, if_neg ha, if_pos hclose]
      exact ih
  | case13 a b rest ha hclose ih =>
      simp only [List.map_cons, withoutComments, id_eq, if_neg ha, if_neg hclose]
      exact ih

theorem withoutSqlComments_eq (sql : List Char) : withoutSqlComments sql =
    (withoutComments Prod.fst .active (placed sql)).map (List.map Prod.fst) := by
  rw [← withoutComments_map, placed, List.zipIdx_map_fst]
  rfl

theorem withoutComments_placed (sql : List Char) :
    withoutComments Prod.fst .active (placed sql) = Place.result
      (reader.ending Prod.fst .active [] (placed sql)) (reader.kept Prod.fst .active [] (placed sql)) :=
  withoutComments_eq .active (placed sql) []

theorem strips_of_untrapped {sql : List Char} (h : Untrapped quoting sql) : Strips quoting sql := by
  obtain ⟨hkept, hend⟩ := (simulates quoting).kept_eq .active .code [] (placed sql) (.code _) h
  have hremoved : ∀ active, withoutComments Prod.fst .active (placed sql) = some active →
      withoutSqlComments sql = some (active.map Prod.fst) ∧
        visible active = visible (outsideComments quoting sql) := by
    intro active hactive
    refine ⟨by rw [withoutSqlComments_eq, hactive]; rfl, ?_⟩
    rw [withoutComments_placed, Place.result] at hactive
    split at hactive
    · cases hactive
    · cases hactive
      exact hkept
  constructor
  · rw [withoutSqlComments_eq, Option.map_eq_none_iff, withoutComments_placed,
      result_eq_none_iff, hend.isOpen_eq, Unterminated]
  · exact hremoved
  · intro versions hversions
    obtain ⟨active, hactive⟩ : ∃ active,
        withoutComments Prod.fst .active (placed sql) = some active := by
      by_contra hnone
      rw [ledgerVersions, withoutSqlComments_eq,
        Option.eq_none_iff_forall_not_mem.mpr fun active h => hnone ⟨active, h⟩] at hversions
      cases hversions
    obtain ⟨htext, hvisible⟩ := hremoved active hactive
    rw [ledgerVersions, htext] at hversions
    exact ⟨active, hversions, hvisible⟩

/-- **Where PostgreSQL's scanner meets no trap, exactly the comments are removed.  Where the
only traps are markers in quoted tokens, and every block comment ends, nowhere else.** -/
theorem comments_removed (sql : List Char) :
    (Untrapped quoting sql → Strips quoting sql) ∧
      (Unnested quoting sql → ¬ Unterminated quoting sql → Strips quoting sql →
        Untrapped quoting sql) := by
  refine ⟨strips_of_untrapped quoting, fun hunnested hterminated hstrips => ?_⟩
  obtain ⟨active, hactive⟩ : ∃ active,
      withoutComments Prod.fst .active (placed sql) = some active := by
    rw [← Option.ne_none_iff_exists']
    intro hnone
    apply hterminated
    rw [← hstrips.none_iff, withoutSqlComments_eq, hnone]
    rfl
  have hvisible := (hstrips.removed active hactive).2
  rw [withoutComments_placed, Place.result] at hactive
  split at hactive
  · cases hactive
  · cases hactive
    have hnodup : (placed sql).Nodup := (List.nodup_zipIdx_map_snd sql).of_map _
    refine (simulates quoting).calm_of_kept_eq .active .code [] (placed sql) (.code _) hnodup
      (fun visit hvisit htrap => ?_) hvisible
    obtain ⟨left, hleft⟩ := hunnested visit hvisit htrap
    rw [hleft] at htrap ⊢
    exact parted_of_quoted quoting htrap

/-- A comment above the declaration, and the declaration. -/
def commentedLedger : List Char :=
  "-- The '019' is next.\nexpected_versions CONSTANT TEXT[] := ARRAY['018'];\n".toList

theorem comments_removed_ledger : Strips standardQuoting commentedLedger :=
  (comments_removed standardQuoting commentedLedger).1 (by decide +kernel)

/-- A declaration in a comment that holds another. -/
def nestedLedger : List Char :=
  "/*/**/\nexpected_versions CONSTANT TEXT[] := ARRAY['019'];\n*/".toList

/-- The list is read out of the comment. -/
theorem nested_comment_is_read :
    outsideComments standardQuoting nestedLedger = [] ∧
      ledgerVersions nestedLedger = some ["019".toList] ∧
      ¬ Strips standardQuoting nestedLedger := by
  have hnone : outsideComments standardQuoting nestedLedger = [] := by decide +kernel
  refine ⟨hnone, by decide +kernel, fun h => ?_⟩
  rcases hread : withoutComments Prod.fst .active (placed nestedLedger) with - | active
  · exact absurd hread (by decide +kernel)
  · have hvisible := (h.removed active hread).2
    rw [hnone] at hvisible
    have hsome : (withoutComments Prod.fst .active (placed nestedLedger)).map visible = some [] := by
      rw [hread, Option.map_some, hvisible]
      rfl
    exact absurd hsome (by decide +kernel)

/-- The rest of a literal goes with the marker in it. -/
example : withoutSqlComments "SELECT '--';".toList = some "SELECT '".toList := by decide +kernel

end AircraftApi.MigrationLedger
