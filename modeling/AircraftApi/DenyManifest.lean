/-
AircraftApi/DenyManifest.lean

`deny.toml` around the first of its allowlists, line by line.

TOML leaves the list many spellings: keys and blanks before `allow-build-scripts`, either
quotes, blanks around the equals sign, and in a row a pin in either quotes with blanks, a
comma and a comment behind it.  A list is one in any of them (`Opening`, `Row`), and what it
pins is what stands in the quotes (`pinOf`).

    IsList lines    the lines are those of a list, up to the one that closes it
    pinsOf lines    what they pin
    upTo lines      the lines down to the tool's opening text, cut off behind it

The tool's opening text stands in the spelling of the opening line, or in a comment, so what
is cut off behind it is still a list (`IsList.cut`).
-/
import AircraftApi.DenyPins

namespace AircraftApi.DenyPins

open Text

/-! ### The rows -/

/-- White space within a line. -/
def Margin (space : List Char) : Prop := ∀ c ∈ space, isWhite c = true ∧ c ≠ '\n'

/-- The quotes of a TOML string. -/
inductive Quote
  | basic | literal

/-- The character of a quote. -/
def Quote.char : Quote → Char
  | basic => '"'
  | literal => '\''

/-- What stands in the quotes: a name, the sign and a version. -/
def Quotable (pin : List Char) : Prop :=
  '@' ∈ pin ∧ ∀ c ∈ pin, isWhite c = false ∧ c ∉ ['"', '\'', '[', '#']

instance (pin : List Char) : Decidable (Quotable pin) :=
  decidable_of_iff ('@' ∈ pin ∧ pin.all fun c => isWhite c = false ∧ c ∉ ['"', '\'', '[', '#'])
    (and_congr_right' (by simp [List.all_eq_true]))

/-- A pin in its quotes, with blanks and at most a comma behind it. -/
structure Entry where
  quote : Quote
  pin : List Char
  gap : List Char
  comma : Bool
  trail : List Char

/-- The entry as it stands in its line. -/
def Entry.text (entry : Entry) : List Char :=
  entry.quote.char :: (entry.pin ++ entry.quote.char ::
    (entry.gap ++ ((if entry.comma then [','] else []) ++ entry.trail)))

/-- The pin can stand in quotes, and there are only blanks around it. -/
structure Entry.Valid (entry : Entry) : Prop where
  pin : Quotable entry.pin
  gap : Margin entry.gap
  trail : Margin entry.trail

/-- A row of the list: a pin or none, and a comment or none. -/
structure Row where
  margin : List Char
  entry : Option Entry
  comment : Option (List Char)

namespace Row

/-- What stands before the comment. -/
def code (row : Row) : List Char := row.margin ++ (row.entry.map Entry.text).getD []

/-- The line of a row. -/
def text (row : Row) : List Char :=
  row.code ++ match row.comment with
    | none => []
    | some comment => '#' :: comment

/-- The row is one line of an array. -/
structure Valid (row : Row) : Prop where
  margin : Margin row.margin
  entry : ∀ entry ∈ row.entry, entry.Valid
  comment : ∀ comment ∈ row.comment, '\n' ∉ comment

end Row

/-- The line is a row of an array. -/
def IsRow (line : List Char) : Prop := ∃ row : Row, row.Valid ∧ row.text = line

/-- What stands in the quotes of a line. -/
def pinOf (line : List Char) : Option (List Char) :=
  match line.dropWhile isWhite with
  | '"' :: rest => some (rest.takeWhile (· ≠ '"'))
  | '\'' :: rest => some (rest.takeWhile (· ≠ '\''))
  | _ => none

/-! ### The line that opens the list -/

/-- The key of the list. -/
def listKey : List Char := "allow-build-scripts".toList

/-- How the list is opened: the keys of the tables it is in, or an opening brace, before
its own key. -/
structure Opening where
  lead : List Char
  quote : Option Quote
  gap : List Char
  gap' : List Char

namespace Opening

/-- The quote around the key, if it has one. -/
def quotes (o : Opening) : List Char := (o.quote.map Quote.char).toList

/-- What stands before the bracket. -/
def front (o : Opening) : List Char :=
  o.lead ++ (o.quotes ++ (listKey ++ (o.quotes ++ (o.gap ++ '=' :: o.gap'))))

/-- The line the list begins on. -/
def text (o : Opening) : List Char := o.front ++ ['[']

/-- Before the key there is no bracket, quote or comment, and it stands apart from them. -/
structure Valid (o : Opening) : Prop where
  lead : ∀ c ∈ o.lead, c ∉ ['[', ']', '#', '"', '\'', '\n']
  stands : ∀ c ∈ o.lead.getLast?, isWhite c = true ∨ c ∈ ['.', '{', ',']
  gap : Margin o.gap
  gap' : Margin o.gap'

end Opening

/-- The line opens a list. -/
def Opens (line : List Char) : Prop := ∃ o : Opening, o.Valid ∧ o.text <+: line

/-- It opens one in rows: its own first row stands behind the bracket. -/
def IsOpening (line : List Char) : Prop :=
  ∃ o : Opening, ∃ row : Row, o.Valid ∧ row.Valid ∧ line = o.text ++ row.text

/-- What stands behind the first bracket of a line. -/
def behindBracket (line : List Char) : List Char := (line.dropWhile (· ≠ '[')).drop 1

/-- The line closes a list. -/
def Closes (line : List Char) : Prop := (line.dropWhile isWhite).head? = some listClosing

instance (line : List Char) : Decidable (Closes line) :=
  inferInstanceAs (Decidable ((line.dropWhile isWhite).head? = some listClosing))

/-! ### The list -/

/-- The lines of a list: the one that opens it, and rows. -/
def IsList : List (List Char) → Prop
  | [] => False
  | opening :: rows => IsOpening opening ∧ ∀ row ∈ rows, IsRow row

/-- What the lines of a list pin. -/
def pinsOf : List (List Char) → List (List Char)
  | [] => []
  | opening :: rows => (behindBracket opening :: rows).filterMap pinOf

/-- The lines down to the one the opening text stands in first, cut off behind it. -/
def upTo : List (List Char) → List (List Char)
  | [] => []
  | line :: rest =>
      match splitOnceAt listOpening line with
      | some (x, _) => [x ++ listOpening]
      | none => line :: upTo rest

/-- A manifest around the first of its lists. -/
structure Allowlist where
  before : List (List Char)
  list : List (List Char)
  closing : List Char
  after : List (List Char)
  before_lines : ∀ line ∈ before, '\n' ∉ line ∧ ¬ Opens line
  list_lines : IsList list
  closing_line : '\n' ∉ closing ∧ Closes closing
  after_lines : ∀ line ∈ after, '\n' ∉ line

namespace Allowlist

/-- The lines of the manifest. -/
def lines (m : Allowlist) : List (List Char) := m.before ++ (m.list ++ m.closing :: m.after)

/-- The manifest. -/
def text (m : Allowlist) : List Char := ['\n'].intercalate m.lines

/-- What the manifest pins. -/
def pins (m : Allowlist) : Finset (List Char) := (pinsOf m.list).toFinset

end Allowlist

/-! ### The opening text -/

theorem hash_listOpening : '#' ∉ listOpening := by decide

theorem bracket_mem_listOpening : '[' ∈ listOpening := by decide

/-- Its only bracket is its last character. -/
theorem bracket_listOpening : '[' ∉ listOpening.dropLast := by decide

/-! ### What a row holds -/

theorem Margin.white {space : List Char} (h : Margin space) : ∀ c ∈ space, isWhite c = true :=
  fun c hc => (h c hc).1

theorem Margin.newline {space : List Char} (h : Margin space) : '\n' ∉ space :=
  fun hmem => (h '\n' hmem).2 rfl

/-- White space is none of the characters that have a meaning. -/
theorem Margin.plain {space marks : List Char} (h : Margin space)
    (hmarks : marks ⊆ ['"', '\'', '[', ']', '#', '\n']) : ∀ c ∈ space, c ∉ marks := by
  intro c hc hmem
  obtain ⟨hwhite, hnewline⟩ := h c hc
  have hmark := hmarks hmem
  simp only [List.mem_cons, List.not_mem_nil, or_false] at hmark
  rcases hmark with rfl | rfl | rfl | rfl | rfl | rfl
  · exact absurd hwhite (by decide)
  · exact absurd hwhite (by decide)
  · exact absurd hwhite (by decide)
  · exact absurd hwhite (by decide)
  · exact absurd hwhite (by decide)
  · exact hnewline rfl

theorem margin_spaces (n : ℕ) : Margin (List.replicate n ' ') := by
  intro c hc
  rw [List.eq_of_mem_replicate hc]
  decide

theorem Quotable.newline {pin : List Char} (h : Quotable pin) : '\n' ∉ pin :=
  fun hmem => absurd (h.2 '\n' hmem).1 (by decide)

theorem Quotable.bare {pin : List Char} (h : Quotable pin) (quote : Quote) : quote.char ∉ pin := by
  intro hmem
  apply (h.2 _ hmem).2
  cases quote <;> simp [Quote.char]

theorem Entry.Valid.plain {entry : Entry} (h : entry.Valid) :
    ∀ c ∈ entry.text, c ∉ ['[', '#', '\n'] := by
  have hquote : entry.quote.char ∉ ['[', '#', '\n'] := by
    cases entry.quote <;> decide
  have hmarks : ['[', '#', '\n'] ⊆ ['"', '\'', '[', ']', '#', '\n'] := by decide
  intro c hc
  simp only [Entry.text, List.mem_cons, List.mem_append] at hc
  rcases hc with rfl | hc | rfl | hc | hc | hc
  · exact hquote
  · obtain ⟨hwhite, hplain⟩ := h.pin.2 c hc
    intro hmem
    simp only [List.mem_cons, List.not_mem_nil, or_false] at hmem hplain
    rcases hmem with rfl | rfl | rfl
    · simp at hplain
    · simp at hplain
    · exact absurd hwhite (by decide)
  · exact hquote
  · exact h.gap.plain hmarks c hc
  · split_ifs at hc
    · rw [List.mem_singleton.mp hc]
      decide
    · cases hc
  · exact h.trail.plain hmarks c hc

namespace Row

variable {row : Row}

theorem Valid.plain (h : row.Valid) : ∀ c ∈ row.code, c ∉ ['[', '#', '\n'] := by
  intro c hc
  rcases List.mem_append.mp hc with hc | hc
  · exact h.margin.plain (by decide) c hc
  · rcases hentry : row.entry with - | entry
    · rw [hentry] at hc
      cases hc
    · rw [hentry] at hc
      exact (h.entry entry hentry).plain c hc

theorem newline_text (h : row.Valid) : '\n' ∉ row.text := by
  rw [text, List.mem_append, not_or]
  refine ⟨fun hmem => h.plain _ hmem (by decide), ?_⟩
  rcases hcomment : row.comment with - | comment
  · exact List.not_mem_nil
  · rw [List.mem_cons, not_or]
    exact ⟨by decide, h.comment comment hcomment⟩

/-- The line without its margin. -/
theorem dropWhile_text (h : row.Valid) : row.text.dropWhile isWhite =
    ((row.entry.map Entry.text).getD [] ++ match row.comment with
      | none => []
      | some comment => '#' :: comment).dropWhile isWhite := by
  rw [text, code, List.append_assoc, List.dropWhile_append_of_pos h.margin.white]

/-- The reading of a row is its pin. -/
theorem pinOf_text (h : row.Valid) : pinOf row.text = row.entry.map Entry.pin := by
  rw [pinOf, dropWhile_text h]
  rcases hentry : row.entry with - | entry
  · rcases row.comment with - | comment
    · rfl
    · rw [Option.map_none, Option.getD_none, List.nil_append,
        List.dropWhile_cons_of_neg (by decide)]
      rfl
  · have hvalid := h.entry entry hentry
    have htake : ∀ rest : List Char,
        (entry.pin ++ entry.quote.char :: rest).takeWhile (· ≠ entry.quote.char) = entry.pin := by
      intro rest
      rw [List.takeWhile_append_of_pos, List.takeWhile_cons_of_neg (by simp), List.append_nil]
      intro c hc
      refine decide_eq_true fun heq => ?_
      rw [heq] at hc
      exact hvalid.pin.bare entry.quote hc
    rw [Option.map_some, Option.getD_some, Option.map_some, Entry.text, List.cons_append,
      List.append_assoc, List.cons_append]
    rcases hquote : entry.quote with - | -
    · rw [hquote] at htake
      rw [List.dropWhile_cons_of_neg (by decide)]
      exact congrArg some (htake _)
    · rw [hquote] at htake
      rw [List.dropWhile_cons_of_neg (by decide)]
      exact congrArg some (htake _)

/-- A row closes no list. -/
theorem not_closes (h : row.Valid) : ¬ Closes row.text := by
  rw [Closes, dropWhile_text h]
  intro hcloses
  rcases hentry : row.entry with - | entry
  · rw [hentry] at hcloses
    rcases hcomment : row.comment with - | comment
    · rw [hcomment] at hcloses
      cases hcloses
    · rw [hcomment, Option.map_none, Option.getD_none, List.nil_append,
        List.dropWhile_cons_of_neg (by decide)] at hcloses
      exact absurd (Option.some.inj hcloses) (by decide)
  · rw [hentry, Option.map_some, Option.getD_some, Entry.text, List.cons_append] at hcloses
    rcases hquote : entry.quote with - | -
    · rw [hquote, List.dropWhile_cons_of_neg (by decide)] at hcloses
      exact absurd (Option.some.inj hcloses) (by decide)
    · rw [hquote, List.dropWhile_cons_of_neg (by decide)] at hcloses
      exact absurd (Option.some.inj hcloses) (by decide)

end Row

/-- The opening text stands in the comment of a row, which goes on as a row behind it. -/
theorem IsRow.cut {line x y : List Char} (h : IsRow line)
    (hsplit : splitOnceAt listOpening line = some (x, y)) :
    IsRow (x ++ listOpening) ∧ pinOf (x ++ listOpening) = pinOf line := by
  obtain ⟨row, hvalid, rfl⟩ := h
  -- the opening holds a bracket, which no code of a row does
  have hcode : ¬ listOpening <:+: row.code ++ ['#'] := by
    intro hin
    rcases List.mem_append.mp (hin.subset bracket_mem_listOpening) with hmem | hmem
    · exact hvalid.plain _ hmem (by decide)
    · exact absurd (List.mem_singleton.mp hmem) (by decide)
  have hhash : '#' ∉ listOpening.dropLast :=
    fun hmem => hash_listOpening (List.mem_of_mem_dropLast hmem)
  -- so it stands in the comment, which may be cut anywhere
  rcases hcomment : row.comment with - | comment
  · have hnone : splitOnceAt listOpening row.text = none := by
      rw [splitOnceAt_eq_none_iff, Row.text, hcomment, List.append_nil]
      exact fun hin => hcode (hin.trans (List.prefix_append _ _).isInfix)
    cases hnone.symm.trans hsplit
  · have htext : row.text = row.code ++ '#' :: comment := by
      rw [Row.text, hcomment]
    rw [htext, splitOnceAt_behind hhash hcode] at hsplit
    obtain ⟨⟨x', y'⟩, hsplit', hparts⟩ := Option.map_eq_some_iff.mp hsplit
    cases hparts
    let kept : Row := { row with comment := some (x' ++ listOpening) }
    have hkept : kept.Valid := by
      refine ⟨hvalid.margin, hvalid.entry, ?_⟩
      rintro _ ⟨⟩
      have hnewline := hvalid.comment comment hcomment
      rw [eq_of_splitOnceAt hsplit', ← List.append_assoc, List.mem_append, not_or] at hnewline
      exact hnewline.1
    have hline : kept.text = row.code ++ '#' :: x' ++ listOpening := by
      rw [List.append_assoc]
      rfl
    refine ⟨⟨kept, hkept, hline⟩, ?_⟩
    rw [← hline, Row.pinOf_text hkept, Row.pinOf_text hvalid]

/-! ### What the opening line holds -/

namespace Opening

variable {o : Opening}

theorem plain_front (h : o.Valid) : ∀ c ∈ o.front, c ∉ ['[', ']', '\n'] := by
  have hquote : ∀ c ∈ o.quotes, c ∉ ['[', ']', '\n'] := by
    rcases o with ⟨lead, - | (- | -), gap, gap'⟩ <;> simp [quotes, Quote.char]
  have hkey : ∀ c ∈ listKey, c ∉ ['[', ']', '\n'] := by
    intro c hc hmem
    simp only [List.mem_cons, List.not_mem_nil, or_false] at hmem
    rcases hmem with rfl | rfl | rfl <;> exact absurd hc (by decide)
  have hmarks : ['[', ']', '\n'] ⊆ ['"', '\'', '[', ']', '#', '\n'] := by decide
  have hlead : ['[', ']', '\n'] ⊆ ['[', ']', '#', '"', '\'', '\n'] := by decide
  intro c hc
  simp only [front, List.mem_append, List.mem_cons] at hc
  rcases hc with hc | hc | hc | hc | hc | rfl | hc
  · exact fun hmem => h.lead c hc (hlead hmem)
  · exact hquote c hc
  · exact hkey c hc
  · exact hquote c hc
  · exact h.gap.plain hmarks c hc
  · decide
  · exact h.gap'.plain hmarks c hc

theorem bracket_front (h : o.Valid) : '[' ∉ o.front :=
  fun hmem => plain_front h _ hmem (by decide)

theorem behindBracket_text (h : o.Valid) (rest : List Char) :
    behindBracket (o.text ++ rest) = rest := by
  rw [behindBracket, text, List.append_assoc, List.dropWhile_append_of_pos, List.singleton_append,
    List.dropWhile_cons_of_neg (by decide)]
  · rfl
  · intro c hc
    refine decide_eq_true ?_
    rintro rfl
    exact bracket_front h hc

/-- Before the bracket stands more than white space. -/
theorem not_closes (h : o.Valid) (rest : List Char) : ¬ Closes (o.text ++ rest) := by
  have hequals : '=' ∈ o.front := by simp [front]
  have hsome : o.front.dropWhile isWhite ≠ [] := by
    intro hnil
    exact absurd (List.dropWhile_eq_nil_iff.mp hnil '=' hequals) (by decide)
  obtain ⟨c, more, hfirst⟩ := List.exists_cons_of_ne_nil hsome
  have hdrop : (o.text ++ rest).dropWhile isWhite = c :: (more ++ (['['] ++ rest)) := by
    rw [text, List.append_assoc, List.dropWhile_append, hfirst]
    rfl
  have hmem : c ∈ o.front := (List.dropWhile_suffix isWhite).subset (hfirst ▸ List.mem_cons_self)
  rw [Closes, hdrop]
  intro hcloses
  rw [Option.some.inj hcloses] at hmem
  exact plain_front h _ hmem (by decide)

end Opening

theorem IsOpening.opens {line : List Char} (h : IsOpening line) : Opens line := by
  obtain ⟨o, row, ho, -, rfl⟩ := h
  exact ⟨o, ho, List.prefix_append _ _⟩

theorem Opens.bracket {line : List Char} (h : Opens line) : '[' ∈ line := by
  obtain ⟨o, -, hprefix⟩ := h
  exact hprefix.subset (List.mem_append_right _ (List.mem_singleton_self _))

theorem Opens.key {line : List Char} (h : Opens line) : listKey <:+: line := by
  obtain ⟨o, -, hprefix⟩ := h
  refine List.IsInfix.trans ⟨o.lead ++ o.quotes,
    o.quotes ++ (o.gap ++ '=' :: o.gap') ++ ['['], ?_⟩ hprefix.isInfix
  simp [Opening.text, Opening.front]

/-- A line that begins with the bracket closes a list, and opens none. -/
theorem closes_of_head {line : List Char} (h : line.head? = some listClosing) :
    Closes line ∧ ¬ Opens line := by
  obtain ⟨rest, rfl⟩ := List.head?_eq_some_iff.mp h
  constructor
  · rw [Closes, List.dropWhile_cons_of_neg (by decide)]
    rfl
  · rintro ⟨o, ho, tail, htail⟩
    obtain ⟨c, more, hfront⟩ : ∃ c more, o.front = c :: more := by
      apply List.exists_cons_of_ne_nil
      intro hnil
      have hequals : '=' ∈ o.front := by simp [Opening.front]
      rw [hnil] at hequals
      cases hequals
    rw [Opening.text, hfront, List.cons_append, List.cons_append] at htail
    have hmem : listClosing ∈ o.front := by
      rw [hfront, ← (List.cons.inj htail).1]
      exact List.mem_cons_self
    exact Opening.plain_front ho _ hmem (by decide)

/-- Cut off behind the opening text, the line still closes a list. -/
theorem Closes.cut {x y : List Char} (h : Closes (x ++ (listOpening ++ y))) :
    Closes (x ++ listOpening) := by
  have hopening : ∀ rest, (listOpening ++ rest).dropWhile isWhite = listOpening ++ rest :=
    fun rest => List.dropWhile_cons_of_neg (by decide)
  rw [Closes, List.dropWhile_append] at h ⊢
  by_cases hwhite : (x.dropWhile isWhite).isEmpty = true
  · rw [if_pos hwhite, hopening] at h
    exact absurd (Option.some.inj h) (by decide)
  · rw [if_neg hwhite] at h ⊢
    obtain ⟨c, rest, hcons⟩ := List.exists_cons_of_ne_nil fun hnil =>
      hwhite (List.isEmpty_iff.mpr hnil)
    rw [hcons] at h ⊢
    exact h

/-- The opening text stands in the spelling of the list, or in a comment behind it. -/
theorem IsOpening.cut {line x y : List Char} (h : IsOpening line)
    (hsplit : splitOnceAt listOpening line = some (x, y)) :
    IsOpening (x ++ listOpening) ∧
      ∀ pin ∈ pinOf (behindBracket (x ++ listOpening)), pin ∈ pinOf (behindBracket line) := by
  obtain ⟨o, row, ho, hrow, rfl⟩ := h
  by_cases hin : listOpening <:+: o.text
  · obtain ⟨x', y', hfirst⟩ := exists_splitOnceAt hin
    obtain ⟨rfl, -⟩ := Prod.mk.inj (Option.some.inj
      ((splitOnceAt_append hfirst row.text).symm.trans hsplit))
    -- the bracket of the opening text is that of the line
    have hy : y' = [] :=
      splitOnceAt_concat (Opening.bracket_front ho) bracket_mem_listOpening hfirst
    have htext : x' ++ listOpening = o.text := by
      rw [eq_of_splitOnceAt hfirst, hy, List.append_nil]
    let blank : Row := ⟨[], none, none⟩
    have hblank : blank.Valid := ⟨nofun, nofun, nofun⟩
    rw [htext]
    refine ⟨⟨o, blank, ho, hblank, (List.append_nil _).symm⟩, ?_⟩
    rw [← List.append_nil o.text, Opening.behindBracket_text ho]
    rintro pin ⟨⟩
  · rw [Opening.text, List.append_assoc, List.singleton_append,
      splitOnceAt_behind bracket_listOpening hin] at hsplit
    obtain ⟨⟨x', y'⟩, hsplit', hparts⟩ := Option.map_eq_some_iff.mp hsplit
    cases hparts
    obtain ⟨⟨kept, hkept, hline⟩, hpin⟩ := IsRow.cut ⟨row, hrow, rfl⟩ hsplit'
    have htext : o.front ++ '[' :: x' ++ listOpening = o.text ++ (x' ++ listOpening) := by
      simp [Opening.text]
    rw [htext]
    refine ⟨⟨o, kept, ho, hkept, by rw [hline]⟩, ?_⟩
    rw [Opening.behindBracket_text ho, Opening.behindBracket_text ho, hpin]
    exact fun _ h => h

/-! ### What a list holds -/

theorem IsRow.newline {line : List Char} (h : IsRow line) : '\n' ∉ line := by
  obtain ⟨row, hrow, rfl⟩ := h
  exact Row.newline_text hrow

theorem IsOpening.newline {line : List Char} (h : IsOpening line) : '\n' ∉ line := by
  obtain ⟨o, row, ho, hrow, rfl⟩ := h
  rw [List.mem_append, Opening.text, List.mem_append, not_or, not_or]
  exact ⟨⟨fun hmem => Opening.plain_front ho _ hmem (by decide), by decide⟩,
    Row.newline_text hrow⟩

namespace IsList

variable {list above rest : List (List Char)} {line x y : List Char}

theorem ne_nil (h : IsList list) : list ≠ [] := by
  rintro rfl
  exact h

theorem newline (h : IsList list) : ∀ line ∈ list, '\n' ∉ line := by
  obtain ⟨opening, rows, rfl⟩ := List.exists_cons_of_ne_nil h.ne_nil
  exact List.forall_mem_cons.mpr ⟨h.1.newline, fun row hrow => (h.2 row hrow).newline⟩

theorem not_closes (h : IsList list) : ∀ line ∈ list, ¬ Closes line := by
  obtain ⟨opening, rows, rfl⟩ := List.exists_cons_of_ne_nil h.ne_nil
  obtain ⟨⟨o, row, ho, -, rfl⟩, hrows⟩ := h
  refine List.forall_mem_cons.mpr ⟨Opening.not_closes ho _, fun line hline => ?_⟩
  obtain ⟨row, hrow, rfl⟩ := hrows line hline
  exact Row.not_closes hrow

/-- Cut off behind the opening text, a list goes on with any rows. -/
theorem cut (h : IsList (above ++ line :: rest))
    (hsplit : splitOnceAt listOpening line = some (x, y)) {rows : List (List Char)}
    (hrows : ∀ row ∈ rows, IsRow row) : IsList (above ++ (x ++ listOpening) :: rows) := by
  rcases above with - | ⟨opening, above⟩
  · exact ⟨(h.1.cut hsplit).1, hrows⟩
  · refine ⟨h.1, fun row hrow => ?_⟩
    rcases List.mem_append.mp hrow with hrow | hrow
    · exact h.2 row (List.mem_append_left _ hrow)
    · rcases List.mem_cons.mp hrow with rfl | hrow
      · exact ((h.2 line (by simp)).cut hsplit).1
      · exact hrows row hrow

/-- What is pinned down to the cut is pinned by the list. -/
theorem pinsOf_cut (h : IsList (above ++ line :: rest))
    (hsplit : splitOnceAt listOpening line = some (x, y)) :
    pinsOf (above ++ [x ++ listOpening]) ⊆ pinsOf (above ++ line :: rest) := by
  intro pin hpin
  rcases above with - | ⟨opening, above⟩
  · obtain ⟨found, hfound, hread⟩ := List.mem_filterMap.mp hpin
    obtain rfl := List.mem_singleton.mp hfound
    exact List.mem_filterMap.mpr ⟨_, List.mem_cons_self, (h.1.cut hsplit).2 pin hread⟩
  · obtain ⟨found, hfound, hread⟩ := List.mem_filterMap.mp hpin
    rcases List.mem_cons.mp hfound with rfl | hfound
    · exact List.mem_filterMap.mpr ⟨_, List.mem_cons_self, hread⟩
    rcases List.mem_append.mp hfound with hfound | hfound
    · exact List.mem_filterMap.mpr ⟨found, by simp [hfound], hread⟩
    · obtain rfl := List.mem_singleton.mp hfound
      rw [((h.2 line (by simp)).cut hsplit).2] at hread
      exact List.mem_filterMap.mpr ⟨line, by simp, hread⟩

end IsList

theorem pinsOf_append {list rows : List (List Char)} (h : list ≠ []) :
    pinsOf (list ++ rows) = pinsOf list ++ rows.filterMap pinOf := by
  obtain ⟨opening, rest, rfl⟩ := List.exists_cons_of_ne_nil h
  rw [List.cons_append, pinsOf, pinsOf, ← List.cons_append, List.filterMap_append]

theorem upTo_eq {above rest : List (List Char)} {line x y : List Char}
    (habove : ∀ line ∈ above, ¬ listOpening <:+: line)
    (hsplit : splitOnceAt listOpening line = some (x, y)) :
    upTo (above ++ line :: rest) = above ++ [x ++ listOpening] := by
  induction above with
  | nil =>
      rw [List.nil_append, upTo, hsplit]
      rfl
  | cons first above ih =>
      obtain ⟨hfirst, habove⟩ := List.forall_mem_cons.mp habove
      rw [List.cons_append, upTo, splitOnceAt_eq_none_iff.mpr hfirst]
      exact congrArg (first :: ·) (ih habove)

/-! ### The lines of a manifest -/

namespace Allowlist

variable {m m' : Allowlist}

theorem lines_ne_nil (m : Allowlist) : m.lines ≠ [] :=
  List.append_ne_nil_of_right_ne_nil m.before
    (List.append_ne_nil_of_right_ne_nil m.list (List.cons_ne_nil _ _))

theorem newline_lines (m : Allowlist) : ∀ line ∈ m.lines, '\n' ∉ line := by
  intro line hline
  rw [lines, List.mem_append, List.mem_append, List.mem_cons] at hline
  rcases hline with hline | hline | rfl | hline
  · exact (m.before_lines line hline).1
  · exact m.list_lines.newline line hline
  · exact m.closing_line.1
  · exact m.after_lines line hline

/-- Two manifests with the same text and the same before the list have the same list. -/
theorem list_eq_of_text_eq (h : m.text = m'.text) (hbefore : m.before = m'.before) :
    m.list = m'.list := by
  have hlines := lines_unique h m.lines_ne_nil m'.lines_ne_nil m.newline_lines m'.newline_lines
  rw [lines, lines, hbefore, List.append_cancel_left_eq] at hlines
  exact (Runs.first_unique hlines m.list_lines.not_closes m.closing_line.2
    m'.list_lines.not_closes m'.closing_line.2).1

end Allowlist

end AircraftApi.DenyPins
