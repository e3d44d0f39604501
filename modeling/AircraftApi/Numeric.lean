/-
AircraftApi/Numeric.lean

Decimal literals and PostgreSQL's NUMERIC type.

A literal is a sign and two runs of digits; its value is a rational.  The type
holds up to 131072 digits before the point and 16383 after it, and a cast of a
literal outside those limits is an error (`cast`).  A column NUMERIC(p,s)
rounds to `s` places, half away from zero, and rejects what then has more than
`p` digits (`Fits`).
-/
import Mathlib.Algebra.Order.Floor.Ring
import Mathlib.Data.Rat.Floor
import Mathlib.Tactic.Positivity

namespace Numeric

/-- A decimal literal. -/
structure Literal where
  negative : Bool
  whole : List Char
  fraction : List Char

/-- A run of decimal digits as a number. -/
def digitsValue (digits : List Char) : ℕ :=
  digits.foldl (fun n c => 10 * n + (c.toNat - '0'.toNat)) 0

/-- Its value without the sign. -/
def Literal.magnitude (l : Literal) : ℚ :=
  (digitsValue (l.whole ++ l.fraction) : ℚ) / 10 ^ l.fraction.length

/-- Its value. -/
def Literal.value (l : Literal) : ℚ := if l.negative then -l.magnitude else l.magnitude

/-- The digits before the point, less leading zeros, and those after it are as
many as the type holds. -/
def Literal.InRange (l : Literal) : Prop :=
  (l.whole.dropWhile (· = '0')).length ≤ 131072 ∧ l.fraction.length ≤ 16383

instance : DecidablePred Literal.InRange :=
  fun _ => inferInstanceAs (Decidable (_ ≤ _ ∧ _ ≤ _))

/-- A literal without sign: digits, and at most one point among them. -/
def parseUnsigned (negative : Bool) (text : List Char) : Option Literal :=
  match text.splitOn '.' with
  | [whole] =>
      if whole ≠ [] ∧ whole.all Char.isDigit then some ⟨negative, whole, []⟩ else none
  | [whole, fraction] =>
      if (whole ≠ [] ∨ fraction ≠ []) ∧ whole.all Char.isDigit ∧ fraction.all Char.isDigit then
        some ⟨negative, whole, fraction⟩
      else none
  | _ => none

/-- The literal a text spells: an optional minus sign, digits and a point. -/
def parse : List Char → Option Literal
  | '-' :: text => parseUnsigned true text
  | text => parseUnsigned false text

/-- The cast `text::numeric`. -/
def cast (text : String) : Option ℚ :=
  ((parse text.toList).filter fun l => l.InRange).map Literal.value

/-- A value the type can hold. -/
def Representable (q : ℚ) : Prop := |q| < 10 ^ 131072

/-- The value in units of the last of `scale` places, rounded half away from
zero. -/
def roundUnits (scale : ℕ) (q : ℚ) : ℤ :=
  if q < 0 then -⌊-q * 10 ^ scale + 1 / 2⌋ else ⌊q * 10 ^ scale + 1 / 2⌋

/-- What a column of this scale stores. -/
def rounded (scale : ℕ) (q : ℚ) : ℚ := roundUnits scale q / 10 ^ scale

/-- The check of NUMERIC(precision, scale). -/
def Fits (precision scale : ℕ) (q : ℚ) : Prop := |roundUnits scale q| < 10 ^ precision

theorem Literal.magnitude_nonneg (l : Literal) : 0 ≤ l.magnitude := by
  unfold Literal.magnitude
  positivity

theorem roundUnits_nonneg {scale : ℕ} {q : ℚ} (h : 0 ≤ q) : 0 ≤ roundUnits scale q := by
  unfold roundUnits
  rw [if_neg (not_lt.mpr h)]
  exact Int.floor_nonneg.mpr (by positivity)

/-- A text without a minus sign casts to no negative value. -/
theorem cast_nonneg {text : String} {q : ℚ} (h : cast text = some q)
    (hsign : text.toList.head? ≠ some '-') : 0 ≤ q := by
  unfold cast at h
  obtain ⟨l, hl, rfl⟩ := Option.map_eq_some_iff.mp h
  have hparse := (Option.filter_eq_some_iff.mp hl).1
  have hunsigned : l.negative = false := by
    unfold parse at hparse
    split at hparse
    · rename_i htext
      rw [htext] at hsign
      exact absurd rfl hsign
    · unfold parseUnsigned at hparse
      split at hparse <;> try cases hparse
      all_goals split_ifs at hparse; cases hparse; rfl
  unfold Literal.value
  rw [hunsigned]
  exact l.magnitude_nonneg

end Numeric
