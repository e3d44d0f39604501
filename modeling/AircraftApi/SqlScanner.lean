/-
AircraftApi/SqlScanner.lean

What PostgreSQL's scanner takes for comments.

Outside quotes two dashes begin a comment that the end of the line ends, and a slash
and a star one that nests; inside a quoted token, or a comment, they begin nothing
else.

    code       outside quotes and comments
    quoted n   in a quoted token, n characters before its end
    line       in a comment to the end of the line
    block n    in a block comment, inside n others
    opening n  on the star that opens it, closing n on the slash that closes it

Where a quoted token begins and how long it is, is a function of the text on both
sides (`Quoting`): literals, escape literals, identifiers and dollar quotes
(`standardQuoting`).
-/
import AircraftApi.Lines
import AircraftApi.Scanners

namespace SqlScanner

/-- How long the quoted token is that begins here, behind the text read so far (the last
character first); 0 where none begins. -/
abbrev Quoting := List Char → List Char → ℕ

/-- Where a scan stands: in code, in a quote, or in a comment. -/
inductive Mode
  | code
  | quoted (left : ℕ)
  | line
  | opening (depth : ℕ)
  | block (depth : ℕ)
  | closing (depth : ℕ)
  deriving DecidableEq, Repr

/-- The two kinds of comment. -/
inductive Comment
  | line
  | block
  deriving DecidableEq, Repr

/-- The comment that two characters begin. -/
def marker : List Char → Option Comment
  | '-' :: '-' :: _ => some .line
  | '/' :: '*' :: _ => some .block
  | _ => none

/-- Two characters that end a block comment. -/
def closes : List Char → Bool
  | '*' :: '/' :: _ => true
  | _ => false

/-- The end of a line: it is not part of its comment. -/
def isNewline (c : Char) : Bool := c = '\n' ∨ c = '\r'

/-- The mode on the next character. -/
def next (quoting : Quoting) (before : List Char) : Mode → List Char → Mode
  | .code, here =>
    match marker here with
    | some .line => .line
    | some .block => .opening 0
    | none => if quoting before here ≤ 1 then .code else .quoted (quoting before here - 1)
  | .quoted left, _ => if left ≤ 1 then .code else .quoted (left - 1)
  | .line, here => if here.head?.any isNewline then .code else .line
  | .opening depth, _ => .block depth
  | .block depth, here =>
    if closes here then .closing depth
    else if marker here = some .block then .opening (depth + 1)
    else .block depth
  | .closing 0, _ => .code
  | .closing (depth + 1), _ => .block depth

/-- The character stands outside comments. -/
def outside : Mode → List Char → Bool
  | .code, here => (marker here).isNone
  | .quoted _, _ => true
  | .line, here => here.head?.any isNewline
  | _, _ => false

/-- The scanner, as far as it tells comments from the rest. -/
def postgres (quoting : Quoting) : Scanner Mode := ⟨next quoting, outside⟩

/-- The text ends inside a block comment. -/
def Mode.isOpen : Mode → Bool
  | .opening _ | .block _ | .closing _ => true
  | _ => false

theorem marker_eq_line_iff {c d : Char} {tail : List Char} :
    marker (c :: d :: tail) = some .line ↔ c = '-' ∧ d = '-' := by
  unfold marker
  split <;> simp_all

theorem marker_eq_block_iff {c d : Char} {tail : List Char} :
    marker (c :: d :: tail) = some .block ↔ c = '/' ∧ d = '*' := by
  unfold marker
  split <;> simp_all

theorem closes_iff {c d : Char} {tail : List Char} :
    closes (c :: d :: tail) = true ↔ c = '*' ∧ d = '/' := by
  unfold closes
  split <;> simp_all

theorem marker_singleton (c : Char) : marker [c] = none := by simp [marker]

theorem closes_singleton (c : Char) : closes [c] = false := by simp [closes]

/-- A comment begins with two characters that are no newlines. -/
theorem head_of_marker {here : List Char} (h : (marker here).isSome) :
    ∀ c ∈ here.head?, isNewline c = false := by
  unfold marker at h
  split at h
  · simp [isNewline]
  · simp [isNewline]
  · cases h

/-! ### The quoted tokens -/

/-- A letter, a digit, an underscore, or anything that is not ASCII. -/
def isWord (c : Char) : Bool := c.isAlphanum ∨ c = '_' ∨ 128 ≤ c.toNat

/-- Up to the closing quote and with it: a doubled quote closes nothing, nor does one
behind a backslash where these escape. -/
def quotedLength (quote : Char) (escapes : Bool) : List Char → ℕ
  | [] => 0
  | [_] => 1
  | c :: d :: rest =>
    if escapes ∧ c = '\\' then 2 + quotedLength quote escapes rest
    else if c = quote then (if d = quote then 2 + quotedLength quote escapes rest else 1)
    else 1 + quotedLength quote escapes (d :: rest)

/-- Up to the same tag, where the text is one behind the dollar sign. -/
def dollarLength (rest : List Char) : ℕ :=
  let tag := rest.takeWhile isWord
  let delimiter := '$' :: tag ++ ['$']
  if (rest.drop tag.length).head? = some '$' ∧ ¬ tag.head?.any Char.isDigit then
    match Text.splitOnceAt delimiter (rest.drop (tag.length + 1)) with
    | some (body, _) => 2 * delimiter.length + body.length
    | none => 1 + rest.length
  else 0

/-- The last word ends in the text read so far. -/
def inWord (before : List Char) : Bool := before.head?.any fun c => isWord c ∨ c = '$'

/-- Literals, escape literals behind an `E` of its own, identifiers and dollar quotes. -/
def standardQuoting : Quoting
  | before, '\'' :: rest =>
    let escapes := match before with
      | c :: more => (c = 'E' ∨ c = 'e') ∧ ¬ inWord more
      | [] => False
    1 + quotedLength '\'' escapes rest
  | _, '"' :: rest => 1 + quotedLength '"' false rest
  | before, '$' :: rest => if inWord before then 0 else dollarLength rest
  | _, _ => 0

end SqlScanner
