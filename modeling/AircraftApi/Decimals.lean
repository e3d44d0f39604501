/-
AircraftApi/Decimals.lean

Exact decimals as text: a sign, digits, and digits behind a point, within what
`NUMERIC` can store.

A text falls into one pair of parts around its first point (`parts`), and its form
is a property of the two (`isDecimal_iff`).  The integer part is measured before
what stands behind the point is looked at, so that a malformed text with too long
an integer part is answered as too long (`reads_unless_overrun`).
-/
import AircraftApi.Text

namespace AircraftApi.Measurement

open Text

/-- Integer digits an unconstrained `NUMERIC` can hold. -/
def maxIntegerDigits : ℕ := 131072

/-- Fractional digits an unconstrained `NUMERIC` can hold. -/
def maxFractionalDigits : ℕ := 16383

/-- Why a text is refused. -/
inductive DecimalSyntaxError
  | notPlainDecimal
  | tooManyDigits
  deriving DecidableEq, Repr

/-- A validated plain base-ten decimal, kept exactly as it arrived. -/
structure DecimalString where
  asStr : List Char
  deriving DecidableEq, Repr

/-- The length in bytes. -/
def len (part : List Char) : ℕ := (part.map Char.utf8Size).sum

/-- A run of ASCII digits, non-empty and within `max`. -/
def digitsWithin (part : List Char) (max : ℕ) : Except DecimalSyntaxError Unit :=
  if part = [] ∨ ¬ part.all Char.isDigit then
    .error .notPlainDecimal
  else if max < len part then
    .error .tooManyDigits
  else
    .ok ()

/-- The text without the minus it may begin with. -/
def unsigned : List Char → List Char
  | '-' :: rest => rest
  | text => text

/-- What stands before the first point of the unsigned text, and behind it. -/
def parts (text : List Char) : List Char × Option (List Char) :=
  match splitOnce '.' (unsigned text) with
  | some (integer, fraction) => (integer, some fraction)
  | none => (unsigned text, none)

/-- The decimal of a text: its parts, then the length of each, and no more digits than a
column of the database holds. -/
def DecimalString.parse (text : List Char) : Except DecimalSyntaxError DecimalString := do
  let (integer, fraction) := parts text
  digitsWithin integer maxIntegerDigits
  if let some fraction := fraction then
    digitsWithin fraction maxFractionalDigits
  return ⟨text⟩

/-! ### The form -/

/-- One or more ASCII digits. -/
def Digits (part : List Char) : Prop := part ≠ [] ∧ ∀ c ∈ part, c.isDigit

instance (part : List Char) : Decidable (Digits part) := inferInstanceAs (Decidable (_ ∧ _))

/-- The text of an integer part and, behind a point, of a fraction. -/
def written (integer : List Char) : Option (List Char) → List Char
  | none => integer
  | some fraction => integer ++ '.' :: fraction

/-- The text is a sign or none, and these parts. -/
def Spells (text integer : List Char) (fraction : Option (List Char)) : Prop :=
  text = written integer fraction ∨ text = '-' :: written integer fraction

/-- An optional minus, one or more digits, optionally a point and one or more digits. -/
def IsDecimal (text : List Char) : Prop :=
  ∃ integer fraction, Spells text integer fraction ∧ Digits integer ∧
    ∀ part ∈ fraction, Digits part

/-- A decimal whose parts are within what the database can store. -/
def Storable (text : List Char) : Prop :=
  ∃ integer fraction, Spells text integer fraction ∧ Digits integer ∧
    (∀ part ∈ fraction, Digits part) ∧ integer.length ≤ maxIntegerDigits ∧
    ∀ part ∈ fraction, part.length ≤ maxFractionalDigits

/-- The text is read as its form and its bounds say. -/
structure Reads (text : List Char) : Prop where
  accepted : ∀ decimal, DecimalString.parse text = .ok decimal ↔
    Storable text ∧ decimal.asStr = text
  refused : DecimalString.parse text = .error .notPlainDecimal ↔ ¬ IsDecimal text
  exceeded : DecimalString.parse text = .error .tooManyDigits ↔ IsDecimal text ∧ ¬ Storable text

/-- Too many digits stand before a point, and behind it something else than digits. -/
def Overrun (text : List Char) : Prop :=
  ∃ integer rest, Spells text integer (some rest) ∧ Digits integer ∧
    maxIntegerDigits < integer.length ∧ ¬ Digits rest

/-! ### A run of digits -/

theorem len_of_digits {part : List Char} (h : ∀ c ∈ part, c.isDigit) : len part = part.length := by
  induction part with
  | nil => rfl
  | cons c part ih =>
      have hc : c.utf8Size = 1 := by
        have hdigit := h c List.mem_cons_self
        rw [Char.isDigit, Bool.and_eq_true, decide_eq_true_eq, decide_eq_true_eq] at hdigit
        exact Char.utf8Size_eq_one_iff.mpr (UInt32.le_trans hdigit.2 (by decide))
      have hrest := ih fun d hd => h d (List.mem_cons_of_mem c hd)
      rw [len] at hrest
      rw [len, List.map_cons, List.sum_cons, hc, hrest, List.length_cons]
      omega

/-- The three answers about a run of digits. -/
theorem digitsWithin_eq (part : List Char) (max : ℕ) :
    digitsWithin part max =
      if Digits part then if part.length ≤ max then .ok () else .error .tooManyDigits
      else .error .notPlainDecimal := by
  by_cases h : Digits part
  · have hguard : ¬ (part = [] ∨ ¬ part.all Char.isDigit) := by
      rintro (hnil | hall)
      · exact h.1 hnil
      · exact hall (List.all_eq_true.mpr h.2)
    rw [digitsWithin, if_neg hguard, if_pos h, len_of_digits h.2]
    by_cases hmax : part.length ≤ max
    · rw [if_pos hmax, if_neg (Nat.not_lt.mpr hmax)]
    · rw [if_neg hmax, if_pos (Nat.not_le.mp hmax)]
  · have hguard : part = [] ∨ ¬ part.all Char.isDigit := by
      by_contra hnot
      rw [not_or, not_not] at hnot
      exact h ⟨hnot.1, List.all_eq_true.mp hnot.2⟩
    rw [digitsWithin, if_pos hguard, if_neg h]

theorem Digits.not_mem {part : List Char} (h : Digits part) {c : Char} (hc : c.isDigit = false) :
    c ∉ part := by
  intro hmem
  rw [h.2 c hmem] at hc
  cases hc

/-! ### The parts of a text -/

theorem unsigned_cases (text : List Char) : text = unsigned text ∨ text = '-' :: unsigned text := by
  unfold unsigned
  split
  · exact .inr rfl
  · exact .inl rfl

theorem unsigned_of_digit {c : Char} (hc : c.isDigit = true) (tail : List Char) :
    unsigned (c :: tail) = c :: tail := by
  rcases unsigned_cases (c :: tail) with h | h
  · exact h.symm
  · rw [List.cons_eq_cons] at h
    rw [h.1] at hc
    cases hc

/-- The parts are those of the text. -/
theorem spells_parts (text : List Char) : Spells text (parts text).1 (parts text).2 := by
  have hwritten : unsigned text = written (parts text).1 (parts text).2 := by
    rw [parts]
    rcases hs : splitOnce '.' (unsigned text) with - | ⟨integer, fraction⟩
    · rfl
    · exact (splitOnce_eq_some_iff.mp hs).1
  rw [Spells, ← hwritten]
  exact unsigned_cases text

/-- A text that begins with digits has no other parts than those it is spelled with. -/
theorem parts_eq {text integer : List Char} {fraction : Option (List Char)}
    (h : Spells text integer fraction) (hdigits : Digits integer) :
    parts text = (integer, fraction) := by
  have hdot : '.' ∉ integer := hdigits.not_mem (by decide)
  have hunsigned : unsigned text = written integer fraction := by
    rcases h with rfl | rfl
    · obtain ⟨c, tail, rfl⟩ := List.exists_cons_of_ne_nil hdigits.1
      have hc : c.isDigit := hdigits.2 c List.mem_cons_self
      rcases fraction with - | fraction
      · exact unsigned_of_digit hc tail
      · exact unsigned_of_digit hc (tail ++ '.' :: fraction)
    · rfl
  rw [parts, hunsigned]
  rcases fraction with - | fraction
  · rw [written, splitOnce_eq_none_iff.mpr hdot]
  · rw [written, splitOnce_eq_some_iff.mpr ⟨rfl, hdot⟩]

theorem isDecimal_iff {text : List Char} :
    IsDecimal text ↔ Digits (parts text).1 ∧ ∀ part ∈ (parts text).2, Digits part := by
  constructor
  · rintro ⟨integer, fraction, hspells, hinteger, hfraction⟩
    rw [parts_eq hspells hinteger]
    exact ⟨hinteger, hfraction⟩
  · exact fun h => ⟨_, _, spells_parts text, h⟩

theorem storable_iff {text : List Char} :
    Storable text ↔ IsDecimal text ∧ (parts text).1.length ≤ maxIntegerDigits ∧
      ∀ part ∈ (parts text).2, part.length ≤ maxFractionalDigits := by
  constructor
  · rintro ⟨integer, fraction, hspells, hinteger, hfraction, hbounds⟩
    refine ⟨⟨integer, fraction, hspells, hinteger, hfraction⟩, ?_⟩
    rw [parts_eq hspells hinteger]
    exact hbounds
  · rintro ⟨hform, hbounds⟩
    obtain ⟨hinteger, hfraction⟩ := isDecimal_iff.mp hform
    exact ⟨_, _, spells_parts text, hinteger, hfraction, hbounds⟩

theorem overrun_iff {text : List Char} :
    Overrun text ↔ Digits (parts text).1 ∧ maxIntegerDigits < (parts text).1.length ∧
      ∃ rest, (parts text).2 = some rest ∧ ¬ Digits rest := by
  constructor
  · rintro ⟨integer, rest, hspells, hinteger, hlong, hrest⟩
    rw [parts_eq hspells hinteger]
    exact ⟨hinteger, hlong, rest, rfl, hrest⟩
  · rintro ⟨hinteger, hlong, rest, hsome, hrest⟩
    refine ⟨_, rest, ?_, hinteger, hlong, hrest⟩
    have hspells := spells_parts text
    rw [hsome] at hspells
    exact hspells

/-! ### The answer -/

/-- The answer, by the parts: the integer part is settled before the fraction. -/
theorem parse_eq (text : List Char) :
    DecimalString.parse text =
      (do
        digitsWithin (parts text).1 maxIntegerDigits
        (parts text).2.elim (.ok ()) (digitsWithin · maxFractionalDigits)
        return ⟨text⟩) := by
  rcases hparts : parts text with ⟨integer, fraction⟩
  rw [DecimalString.parse, hparts]
  rcases fraction with - | fraction
  · rfl
  · rfl

/-- The integer part is no run of digits. -/
theorem parse_of_integer {text : List Char} (h : ¬ Digits (parts text).1) :
    DecimalString.parse text = .error .notPlainDecimal := by
  rw [parse_eq, digitsWithin_eq, if_neg h]
  rfl

/-- The integer part is too long, whatever stands behind the point. -/
theorem parse_of_long {text : List Char} (h : Digits (parts text).1)
    (hlong : maxIntegerDigits < (parts text).1.length) :
    DecimalString.parse text = .error .tooManyDigits := by
  rw [parse_eq, digitsWithin_eq, if_pos h, if_neg (Nat.not_le.mpr hlong)]
  rfl

/-- The integer part is settled: the fraction decides. -/
theorem parse_of_short {text : List Char} (h : Digits (parts text).1)
    (hshort : (parts text).1.length ≤ maxIntegerDigits) :
    DecimalString.parse text =
      if ∀ part ∈ (parts text).2, Digits part then
        if ∀ part ∈ (parts text).2, part.length ≤ maxFractionalDigits then .ok ⟨text⟩
        else .error .tooManyDigits
      else .error .notPlainDecimal := by
  rw [parse_eq, digitsWithin_eq, if_pos h, if_pos hshort]
  rcases (parts text).2 with - | fraction
  · rw [if_pos (by simp), if_pos (by simp)]
    rfl
  · rw [Option.elim_some, digitsWithin_eq]
    simp only [Option.mem_some_iff, forall_eq']
    by_cases hdigits : Digits fraction
    · rw [if_pos hdigits, if_pos hdigits]
      by_cases hbound : fraction.length ≤ maxFractionalDigits
      · rw [if_pos hbound, if_pos hbound]
        rfl
      · rw [if_neg hbound, if_neg hbound]
        rfl
    · rw [if_neg hdigits, if_neg hdigits]
      rfl

theorem Storable.isDecimal {text : List Char} (h : Storable text) : IsDecimal text :=
  (storable_iff.mp h).1

/-- One answer for each of the three: a text has no other. -/
theorem reads_of_answer {text : List Char}
    (h : Storable text ∧ DecimalString.parse text = .ok ⟨text⟩ ∨
      (IsDecimal text ∧ ¬ Storable text) ∧ DecimalString.parse text = .error .tooManyDigits ∨
      ¬ IsDecimal text ∧ DecimalString.parse text = .error .notPlainDecimal) : Reads text := by
  rcases h with ⟨hstorable, hanswer⟩ | ⟨hexceeds, hanswer⟩ | ⟨hform, hanswer⟩
  · constructor
    · intro decimal
      rw [hanswer, Except.ok.injEq]
      constructor
      · rintro rfl
        exact ⟨hstorable, rfl⟩
      · rintro ⟨-, rfl⟩
        rfl
    · simp [hanswer, hstorable.isDecimal]
    · simp [hanswer, hstorable]
  · constructor
    · simp [hanswer, hexceeds.2]
    · simp [hanswer, hexceeds.1]
    · simp [hanswer, hexceeds]
  · constructor
    · have hbound : ¬ Storable text := fun hstorable => hform hstorable.isDecimal
      simp [hanswer, hbound]
    · simp [hanswer, hform]
    · simp [hanswer, hform]

/-- Where nothing is malformed behind too many digits, the text is read as its form and
its bounds say. -/
theorem reads_of_not_overrun {text : List Char} (h : ¬ Overrun text) : Reads text := by
  apply reads_of_answer
  by_cases hinteger : Digits (parts text).1
  · rcases Nat.lt_or_ge maxIntegerDigits (parts text).1.length with hlong | hshort
    · -- too long, and so of the form: else the text would overrun
      have hform : IsDecimal text := by
        refine isDecimal_iff.mpr ⟨hinteger, fun part hpart => ?_⟩
        by_contra hrest
        exact h (overrun_iff.mpr ⟨hinteger, hlong, part, hpart, hrest⟩)
      have hbound : ¬ Storable text := fun hstorable =>
        Nat.not_le.mpr hlong (storable_iff.mp hstorable).2.1
      exact .inr (.inl ⟨⟨hform, hbound⟩, parse_of_long hinteger hlong⟩)
    · have hanswer := parse_of_short hinteger hshort
      by_cases hfraction : ∀ part ∈ (parts text).2, Digits part
      · have hform : IsDecimal text := isDecimal_iff.mpr ⟨hinteger, hfraction⟩
        rw [if_pos hfraction] at hanswer
        by_cases hbound : ∀ part ∈ (parts text).2, part.length ≤ maxFractionalDigits
        · rw [if_pos hbound] at hanswer
          exact .inl ⟨storable_iff.mpr ⟨hform, hshort, hbound⟩, hanswer⟩
        · have hexceeds : ¬ Storable text := fun hstorable =>
            hbound (storable_iff.mp hstorable).2.2
          rw [if_neg hbound] at hanswer
          exact .inr (.inl ⟨⟨hform, hexceeds⟩, hanswer⟩)
      · have hform : ¬ IsDecimal text := fun hform => hfraction (isDecimal_iff.mp hform).2
        rw [if_neg hfraction] at hanswer
        exact .inr (.inr ⟨hform, hanswer⟩)
  · have hform : ¬ IsDecimal text := fun hform => hinteger (isDecimal_iff.mp hform).1
    exact .inr (.inr ⟨hform, parse_of_integer hinteger⟩)

/-- A text that overruns is answered as too long, and is no decimal. -/
theorem overrun_answer {text : List Char} (h : Overrun text) :
    DecimalString.parse text = .error .tooManyDigits ∧ ¬ IsDecimal text := by
  obtain ⟨hinteger, hlong, rest, hsome, hrest⟩ := overrun_iff.mp h
  exact ⟨parse_of_long hinteger hlong, fun hform => hrest ((isDecimal_iff.mp hform).2 rest hsome)⟩

/-- **A text is read as its form and its bounds say, unless too many digits stand before
a point that something else than digits follows.** -/
theorem reads_unless_overrun (text : List Char) : Reads text ↔ ¬ Overrun text := by
  constructor
  · intro hreads hover
    obtain ⟨hanswer, hform⟩ := overrun_answer hover
    exact hform (hreads.exceeded.mp hanswer).1
  · exact reads_of_not_overrun

/-- One digit more than can be stored, and a point with nothing behind it. -/
def bareBehindPoint : List Char := List.replicate (maxIntegerDigits + 1) '9' ++ ['.']

theorem overrun_bareBehindPoint : Overrun bareBehindPoint := by
  refine ⟨List.replicate (maxIntegerDigits + 1) '9', [], .inl rfl, ⟨?_, ?_⟩, ?_, fun h => h.1 rfl⟩
  · rw [List.replicate_succ]
    exact List.cons_ne_nil _ _
  · intro c hc
    rw [List.eq_of_mem_replicate hc]
    rfl
  · rw [List.length_replicate]
    exact Nat.lt_succ_self _

/-- The malformed text is answered as too long. -/
theorem malformed_as_too_long :
    DecimalString.parse bareBehindPoint = .error .tooManyDigits ∧ ¬ IsDecimal bareBehindPoint ∧
      ¬ Reads bareBehindPoint := by
  obtain ⟨hanswer, hform⟩ := overrun_answer overrun_bareBehindPoint
  exact ⟨hanswer, hform, fun hreads => hform (hreads.exceeded.mp hanswer).1⟩

end AircraftApi.Measurement
