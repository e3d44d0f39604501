/-
AircraftApi/NamedYears.lean

The production years an aircraft name spells: `120 (1946 - 1946)`,
`777-200ER (1997 - present)`.

The range is what stands around the first hyphen of the parenthesised text the
name ends with (`RangeParts`).  A name is read as a closed range, as an open one,
as a range that is none, or as no range, and the four exclude each other.  The
parser of Rust's standard library takes a sign before the digits: where the second
part is a signed number the name is read as a closed range too, and is none
(`reads_iff`).
-/
import AircraftApi.PreparedRecord

namespace Text

/-! ### Parts of a text -/

theorem afterLast_eq_none_iff {sep : Char} {s : List Char} :
    afterLast sep s = none ↔ sep ∉ s := by
  induction s with
  | nil => simp [afterLast]
  | cons c s ih =>
      rw [afterLast]
      rcases hs : afterLast sep s with - | rest
      · have hnot := ih.mp hs
        by_cases hc : c = sep
        · simp [hc]
        · simp [hc, hnot, Ne.symm hc]
      · have hmem : sep ∈ s := by
          by_contra hnot
          rw [ih.mpr hnot] at hs
          cases hs
        simp [hmem]

/-- A text is cut at its last separator. -/
theorem afterLast_eq_some_iff {sep : Char} {s rest : List Char} :
    afterLast sep s = some rest ↔ ∃ front, s = front ++ sep :: rest ∧ sep ∉ rest := by
  induction s with
  | nil => simp [afterLast]
  | cons c s ih =>
      rw [afterLast]
      constructor
      · intro h
        split at h
        · rename_i tail htail
          cases h
          obtain ⟨front, rfl, hnot⟩ := ih.mp htail
          exact ⟨c :: front, rfl, hnot⟩
        · rename_i htail
          split_ifs at h with hc
          cases h
          exact ⟨[], by rw [hc]; rfl, afterLast_eq_none_iff.mp htail⟩
      · rintro ⟨front, hs, hnot⟩
        rcases front with - | ⟨d, front⟩
        · obtain ⟨rfl, rfl⟩ := List.cons.inj hs
          rw [afterLast_eq_none_iff.mpr hnot]
          exact if_pos rfl
        · obtain ⟨rfl, rfl⟩ := List.cons.inj hs
          rw [ih.mpr ⟨front, rfl, hnot⟩]

/-- White space around the text does not move its first separator. -/
theorem splitOnce_trim {sep : Char} {s before after : List Char} (hsep : isWhite sep = false)
    (h : splitOnce sep s = some (before, after)) : ∃ before' after',
      splitOnce sep (trim s) = some (before', after') ∧ trim before' = trim before ∧
      trim after' = trim after := by
  obtain ⟨hs, hnot⟩ := splitOnce_eq_some_iff.mp h
  have hmem : sep ∈ trim s := mem_strip (by simp [hs]) hsep
  obtain ⟨before', after', htrim, hnot'⟩ := List.eq_append_cons_of_mem hmem
  obtain ⟨front, back, hparts, hfront, hback⟩ := exists_strip isWhite s
  have hsplit : splitOnce sep s = some (front ++ before', after' ++ back) := by
    refine splitOnce_eq_some_iff.mpr ⟨?_, ?_⟩
    · rw [hparts, ← trim, htrim]
      simp
    · intro hin
      rcases List.mem_append.mp hin with hin | hin
      · rw [hfront sep hin] at hsep
        cases hsep
      · exact hnot' hin
  rw [h, Option.some.injEq, Prod.mk.injEq] at hsplit
  refine ⟨before', after', splitOnce_eq_some_iff.mpr ⟨htrim, hnot'⟩, ?_, ?_⟩
  · have haround : strip isWhite (front ++ (before' ++ [])) = strip isWhite before' :=
      strip_around hfront (List.forall_mem_nil _) before'
    rw [hsplit.1, trim, trim, ← haround, List.append_nil]
  · have haround : strip isWhite ([] ++ (after' ++ back)) = strip isWhite after' :=
      strip_around (List.forall_mem_nil _) hback after'
    rw [hsplit.2, trim, trim, ← haround, List.nil_append]

end Text

namespace AircraftApi

/-! ### What a name spells -/

/-- The name ends, up to white space, in the text in parentheses. -/
def Parenthesised (name : String) (inner : List Char) : Prop :=
  ∃ front back, name.toList = front ++ '(' :: (inner ++ ')' :: back) ∧ '(' ∉ inner ∧
    ∀ c ∈ back, Text.isWhite c = true

/-- What stands before and after the first hyphen of the parenthesised text. -/
def RangeParts (name : String) (before after : List Char) : Prop :=
  Parenthesised name (before ++ '-' :: after) ∧ '-' ∉ before

/-- Decimal digits and nothing else, of a value an `i16` holds. -/
def IsYear (text : List Char) (year : ℤ) : Prop :=
  ∃ n, Text.natural text = some n ∧ year = n ∧ year ≤ 2 ^ 15 - 1

/-- A sign and decimal digits, of a value an `i16` holds. -/
def SignedYear (text : List Char) (year : ℤ) : Prop :=
  ∃ digits n, Text.natural digits = some n ∧
    ((text = '+' :: digits ∧ year = n ∧ year ≤ 2 ^ 15 - 1) ∨
      (text = '-' :: digits ∧ year = -n ∧ -2 ^ 15 ≤ year))

/-- The name ends with two years. -/
def ClosedRange (name : String) (start close : ℤ) : Prop :=
  ∃ before after, RangeParts name before after ∧ IsYear (Text.trim before) start ∧
    IsYear (Text.trim after) close

/-- The name ends with a year and the word `present`. -/
def OpenRange (name : String) (start : ℤ) : Prop :=
  ∃ before after, RangeParts name before after ∧ IsYear (Text.trim before) start ∧
    Text.lower (Text.trim after) = "present".toList

/-- The parenthesised text begins with a digit and holds a hyphen. -/
def RangeLike (name : String) : Prop :=
  ∃ inner, Parenthesised name inner ∧ '-' ∈ inner ∧ (Text.trim inner).head?.any Char.isDigit = true

/-- A closed range but for the sign of its second year. -/
def SignedRange (name : String) (start close : ℤ) : Prop :=
  ∃ before after, RangeParts name before after ∧ IsYear (Text.trim before) start ∧
    SignedYear (Text.trim after) close

variable {name : String} {before after inner text : List Char} {start close year : ℤ}

/-- The parenthesised text as it is written. -/
def innerOf (name : String) : Option (List Char) :=
  (Text.stripSuffix ')' (Text.trimEnd name.toList)).bind (Text.afterLast '(')

theorem trailingParenthetical_eq (name : String) :
    trailingParenthetical name.toList = (innerOf name).map Text.trim := by
  unfold trailingParenthetical innerOf
  rcases Text.stripSuffix ')' (Text.trimEnd name.toList) with - | inner <;> rfl

theorem trimEnd_append {front back : List Char} {c : Char} (hc : Text.isWhite c = false)
    (hback : ∀ d ∈ back, Text.isWhite d = true) :
    Text.trimEnd (front ++ c :: back) = front ++ [c] := by
  have hwhite : (back.rdropWhile Text.isWhite) = [] := by
    rw [List.rdropWhile_eq_nil_iff]
    exact hback
  rw [Text.trimEnd, List.rdropWhile, List.reverse_append, List.reverse_cons, List.append_assoc,
    List.dropWhile_append_of_pos fun d hd => hback d (List.mem_reverse.mp hd)]
  rw [List.singleton_append, List.dropWhile_cons_of_neg (by rw [hc]; exact Bool.false_ne_true)]
  simp

theorem innerOf_eq_some_iff : innerOf name = some inner ↔ Parenthesised name inner := by
  unfold innerOf Text.stripSuffix
  constructor
  · intro h
    obtain ⟨stripped, hstripped, hinner⟩ := Option.bind_eq_some_iff.mp h
    split_ifs at hstripped with hlast
    cases hstripped
    obtain ⟨front, hfront, hnot⟩ := Text.afterLast_eq_some_iff.mp hinner
    refine ⟨front, name.toList.rtakeWhile Text.isWhite, ?_, hnot,
      fun c hc => List.mem_rtakeWhile_imp hc⟩
    have htrim : Text.trimEnd name.toList = (Text.trimEnd name.toList).dropLast ++ [')'] :=
      (List.dropLast_append_getLast? _ hlast).symm
    have hname : Text.trimEnd name.toList ++ name.toList.rtakeWhile Text.isWhite = name.toList :=
      List.rdropWhile_append_rtakeWhile
    rw [htrim, hfront] at hname
    simpa using hname.symm
  · rintro ⟨front, back, hname, hnot, hback⟩
    have htrim : Text.trimEnd name.toList = front ++ '(' :: inner ++ [')'] := by
      rw [hname, ← trimEnd_append (by decide) hback]
      simp
    have hlast : (front ++ '(' :: inner ++ [')']).getLast? = some ')' := by
      rw [List.getLast?_append]
      rfl
    rw [htrim, if_pos hlast, List.dropLast_concat, Option.bind_some]
    exact Text.afterLast_eq_some_iff.mpr ⟨front, rfl, hnot⟩

theorem rangeParts_iff : RangeParts name before after ↔
    ∃ inner, innerOf name = some inner ∧ Text.splitOnce '-' inner = some (before, after) := by
  constructor
  · rintro ⟨hinner, hnot⟩
    exact ⟨_, innerOf_eq_some_iff.mpr hinner, Text.splitOnce_eq_some_iff.mpr ⟨rfl, hnot⟩⟩
  · rintro ⟨inner, hinner, hsplit⟩
    obtain ⟨rfl, hnot⟩ := Text.splitOnce_eq_some_iff.mp hsplit
    exact ⟨innerOf_eq_some_iff.mp hinner, hnot⟩

/-- The parts are determined by the name. -/
theorem RangeParts.unique (h : RangeParts name before after) {before' after' : List Char}
    (h' : RangeParts name before' after') : before = before' ∧ after = after' := by
  obtain ⟨inner, hinner, hsplit⟩ := rangeParts_iff.mp h
  obtain ⟨inner', hinner', hsplit'⟩ := rangeParts_iff.mp h'
  obtain rfl := Option.some.inj (hinner.symm.trans hinner')
  exact Prod.mk.inj (Option.some.inj (hsplit.symm.trans hsplit'))

/-! ### Years -/

theorem IsYear.head (h : IsYear text year) : text.head?.any Char.isDigit = true := by
  obtain ⟨n, hn, -, -⟩ := h
  unfold Text.natural at hn
  split_ifs at hn with hdigits
  rcases text with - | ⟨c, rest⟩
  · exact absurd rfl hdigits.1
  · exact List.all_eq_true.mp hdigits.2 c List.mem_cons_self

theorem SignedYear.head (h : SignedYear text year) : text.head?.any Char.isDigit = false := by
  obtain ⟨digits, n, -, ⟨rfl, -, -⟩ | ⟨rfl, -, -⟩⟩ := h
  · rfl
  · rfl

/-- `str::parse::<i16>` reads digits, and digits behind a sign. -/
theorem parseI16_eq_some_iff :
    Text.parseI16 text = some year ↔ IsYear text year ∨ SignedYear text year := by
  have hnatural : ∀ sign rest, sign.isDigit = false → Text.natural (sign :: rest) = none := by
    intro sign rest hsign
    simp [Text.natural, hsign]
  unfold Text.parseI16 Text.parseInt
  dsimp only
  rw [Option.filter_eq_some_iff]
  constructor
  · rintro ⟨hparsed, hrange⟩
    simp only [decide_eq_true_eq] at hrange
    -- the number is read as a natural number and then taken for an integer
    have hread : ∀ {digits : List Char} {m : ℤ},
        (Text.natural digits >>= fun n => pure (n : ℤ)) = some m →
          ∃ n : ℕ, Text.natural digits = some n ∧ m = n := by
      intro digits m h
      obtain ⟨n, hn, hm⟩ := Option.bind_eq_some_iff.mp h
      exact ⟨n, hn, (Option.some.inj hm).symm⟩
    split at hparsed
    · rename_i digits
      obtain ⟨m, hm, rfl⟩ := Option.map_eq_some_iff.mp hparsed
      obtain ⟨n, hn, rfl⟩ := hread hm
      exact .inr ⟨digits, n, hn, .inr ⟨rfl, rfl, hrange.1⟩⟩
    · rename_i digits
      obtain ⟨m, hm, rfl⟩ := Option.map_eq_some_iff.mp hparsed
      obtain ⟨n, hn, rfl⟩ := hread hm
      exact .inr ⟨digits, n, hn, .inl ⟨rfl, rfl, hrange.2⟩⟩
    · obtain ⟨m, hm, rfl⟩ := Option.map_eq_some_iff.mp hparsed
      obtain ⟨n, hn, rfl⟩ := hread hm
      exact .inl ⟨n, hn, rfl, hrange.2⟩
  · rintro (⟨n, hn, rfl, hhigh⟩ | ⟨digits, n, hn, ⟨rfl, rfl, hhigh⟩ | ⟨rfl, rfl, hlow⟩⟩)
    · refine ⟨?_, by simp only [decide_eq_true_eq]; omega⟩
      split
      · rw [hnatural _ _ (by decide)] at hn
        cases hn
      · rw [hnatural _ _ (by decide)] at hn
        cases hn
      · rw [hn]
        rfl
    · refine ⟨?_, by simp only [decide_eq_true_eq]; omega⟩
      simp only [hn]
      rfl
    · refine ⟨?_, by simp only [decide_eq_true_eq]; omega⟩
      simp only [hn]
      rfl

theorem parseI16_of_digit (h : text.head?.any Char.isDigit = true) :
    Text.parseI16 text = some year ↔ IsYear text year := by
  rw [parseI16_eq_some_iff, or_iff_left]
  intro hsigned
  rw [hsigned.head] at h
  cases h

theorem IsYear.unique (h : IsYear text year) {year' : ℤ} (h' : IsYear text year') :
    year = year' := by
  obtain ⟨n, hn, rfl, -⟩ := h
  obtain ⟨n', hn', rfl, -⟩ := h'
  rw [Option.some.inj (hn.symm.trans hn')]

theorem not_signed_of_isYear (h : IsYear text year) {year' : ℤ} : ¬ SignedYear text year' := by
  intro hsigned
  have hhead := h.head
  rw [hsigned.head] at hhead
  cases hhead

/-- A year is not the word. -/
theorem IsYear.ne_present (h : IsYear text year) : Text.lower text ≠ "present".toList := by
  intro hpresent
  have hhead := h.head
  rcases text with - | ⟨c, rest⟩
  · cases hhead
  · have hc : c.toLower = 'p' := (List.cons.inj hpresent).1
    have hdigit : c.isDigit = true := hhead
    have hlower : c.toLower = c := by
      unfold Char.toLower
      simp only [Char.isDigit, Bool.and_eq_true, decide_eq_true_eq] at hdigit
      rw [dif_neg]
      rintro ⟨hlow, -⟩
      exact absurd (UInt32.le_trans hlow hdigit.2) (by decide)
    rw [hlower] at hc
    rw [hc] at hdigit
    cases hdigit

theorem SignedYear.ne_present (h : SignedYear text year) :
    Text.lower text ≠ "present".toList := by
  obtain ⟨digits, n, -, ⟨rfl, -, -⟩ | ⟨rfl, -, -⟩⟩ := h
  · exact fun hpresent => absurd (List.cons.inj hpresent).1 (by decide)
  · exact fun hpresent => absurd (List.cons.inj hpresent).1 (by decide)

/-! ### The parse -/

/-- What `parsed_production_range` makes of the trimmed parts. -/
def rangeOf (startText endText : List Char) : Except String ProductionRange :=
  if startText.head?.any Char.isDigit then
    match Text.parseI16 startText with
    | none => .error "aircraft name opens a production range that is not a year"
    | some start =>
        if Text.lower endText = "present".toList then .ok (some start, none, some true)
        else match Text.parseI16 endText with
          | none => .error "aircraft name closes a production range that is not a year"
          | some close => .ok (some start, some close, some false)
  else .ok (none, none, none)

theorem parsed_of_parts (h : RangeParts name before after) :
    parsedProductionRange name = rangeOf (Text.trim before) (Text.trim after) := by
  obtain ⟨inner, hinner, hsplit⟩ := rangeParts_iff.mp h
  obtain ⟨before', after', htrim, hbefore, hafter⟩ := Text.splitOnce_trim (by decide) hsplit
  simp only [parsedProductionRange, trailingParenthetical_eq, hinner, Option.map_some, htrim]
  rw [hbefore, hafter]
  rfl

theorem parsed_of_no_parts (h : ∀ before after, ¬ RangeParts name before after) :
    parsedProductionRange name = .ok (none, none, none) := by
  rcases hinner : innerOf name with - | inner
  · simp only [parsedProductionRange, trailingParenthetical_eq, hinner, Option.map_none]
  · have hsplit : Text.splitOnce '-' (Text.trim inner) = none := by
      rw [Text.splitOnce_eq_none_iff]
      intro hmem
      obtain ⟨before, after, hparts, hnot⟩ :=
        List.eq_append_cons_of_mem (Text.strip_subset _ _ hmem)
      exact h before after (rangeParts_iff.mpr
        ⟨inner, hinner, Text.splitOnce_eq_some_iff.mpr ⟨hparts, hnot⟩⟩)
    simp only [parsedProductionRange, trailingParenthetical_eq, hinner, Option.map_some, hsplit]

/-- What `rangeOf` can make of two parts, and when. -/
theorem rangeOf_cases (before after : List Char) :
    (∃ start close, IsYear before start ∧ (IsYear after close ∨ SignedYear after close) ∧
      rangeOf before after = .ok (some start, some close, some false)) ∨
    (∃ start, IsYear before start ∧ Text.lower after = "present".toList ∧
      rangeOf before after = .ok (some start, none, some true)) ∨
    (before.head?.any Char.isDigit = true ∧
      (∀ start, IsYear before start → Text.lower after ≠ "present".toList ∧
        ∀ close, ¬ IsYear after close ∧ ¬ SignedYear after close) ∧
      ∃ what, rangeOf before after = .error what) ∨
    (before.head?.any Char.isDigit = false ∧ rangeOf before after = .ok (none, none, none)) := by
  unfold rangeOf
  by_cases hhead : before.head?.any Char.isDigit = true
  · rw [if_pos hhead]
    -- a digit begins the part, so it is a year or nothing that is read
    rcases hstart : Text.parseI16 before with - | start
    · refine .inr (.inr (.inl ⟨hhead, fun start h => ?_, _, rfl⟩))
      rw [(parseI16_of_digit hhead).mpr h] at hstart
      cases hstart
    · have hyear := (parseI16_of_digit hhead).mp hstart
      dsimp only
      -- the second part is the word, a number, or neither
      by_cases hpresent : Text.lower after = "present".toList
      · rw [if_pos hpresent]
        exact .inr (.inl ⟨start, hyear, hpresent, rfl⟩)
      · rw [if_neg hpresent]
        rcases hclose : Text.parseI16 after with - | close
        · refine .inr (.inr (.inl ⟨hhead, fun _ _ => ⟨hpresent, fun close => ?_⟩, _, rfl⟩))
          rw [← not_or, ← parseI16_eq_some_iff, hclose]
          exact Option.some_ne_none close ∘ Eq.symm
        · exact .inl ⟨start, close, hyear, parseI16_eq_some_iff.mp hclose, rfl⟩
  · rw [if_neg hhead]
    exact .inr (.inr (.inr ⟨by simpa using hhead, rfl⟩))

theorem head?_trim (s : List Char) : (Text.trim s).head? = (s.dropWhile Text.isWhite).head? := by
  rcases hs : s.dropWhile Text.isWhite with - | ⟨c, rest⟩
  · rw [Text.trim, Text.strip, hs]
    rfl
  · have hc : Text.isWhite c = false := by
      have hhead := List.head?_dropWhile_not Text.isWhite s
      rw [hs] at hhead
      exact hhead
    obtain ⟨tail, htail⟩ := List.rdropWhile_prefix Text.isWhite (s.dropWhile Text.isWhite)
    rw [← Text.strip, ← Text.trim, hs] at htail
    rcases htrim : Text.trim s with - | ⟨d, rest'⟩
    · have hmem : c ∈ Text.trim s := by
        refine Text.mem_strip ?_ hc
        exact (List.dropWhile_suffix _).subset (by rw [hs]; exact List.mem_cons_self)
      rw [htrim] at hmem
      cases hmem
    · rw [htrim] at htail
      exact congrArg some (List.cons.inj htail).1

/-- The text begins with a digit when its first part does. -/
theorem head_parts (before after : List Char) :
    (Text.trim (before ++ '-' :: after)).head?.any Char.isDigit
      = (Text.trim before).head?.any Char.isDigit := by
  have hhyphen : ('-' :: after).dropWhile Text.isWhite = '-' :: after :=
    List.dropWhile_cons_of_neg (by decide)
  rw [head?_trim, head?_trim, List.dropWhile_append, hhyphen]
  rcases before.dropWhile Text.isWhite with - | ⟨c, rest⟩ <;> rfl

theorem rangeLike_iff : RangeLike name ↔ ∃ before after, RangeParts name before after ∧
    (Text.trim before).head?.any Char.isDigit = true := by
  constructor
  · rintro ⟨inner, hinner, hmem, hhead⟩
    obtain ⟨before, after, rfl, hnot⟩ := List.eq_append_cons_of_mem hmem
    exact ⟨before, after, ⟨hinner, hnot⟩, by rwa [head_parts] at hhead⟩
  · rintro ⟨before, after, hparts, hhead⟩
    exact ⟨_, hparts.1, by simp, by rwa [head_parts]⟩

/-! ### The record -/

section

variable {crates : Crates} {manufacturer : String} {raw : Json} {object : JsonObject}

/-- The warnings about a range. -/
def rangeWarnings (record : PreparedAircraftRecord) : List IngestIssue :=
  record.issues.filter fun found => found.code = "UNPARSEABLE_PRODUCTION_RANGE"

/-- Every issue but those of the production range has another code. -/
theorem covers_range : Covers (fun found => ¬ found.code = "UNPARSEABLE_PRODUCTION_RANGE")
    crates manufacturer name object := by
  have hread : ∀ {α : Type} {checked : Checked α}, Reads (fun _ => True) checked →
      Noted.All (fun found => ¬ found.code = "UNPARSEABLE_PRODUCTION_RANGE") checked :=
    fun hreads => hreads.mono fun _ hfound => hfound.code_ne
  have hcode : ∀ {code field message : String} {severity : IssueSeverity} {value : Option Json},
      code ≠ "UNPARSEABLE_PRODUCTION_RANGE" →
      ¬ (issue code severity field message value).code = "UNPARSEABLE_PRODUCTION_RANGE" := id
  exact {
    reader := fun _ _ _ hfound => hfound.code_ne
    images := images_all fun _ hfound => hfound.code_ne
    maker := Noted.All.noteIf fun _ => hcode (by decide)
    name := Noted.All.noteIf fun _ => hcode (by decide)
    keys := hread (Reads.checkFields fun _ _ => trivial)
    years := by
      unfold checkYears
      split
      · exact Noted.All.pure ()
      · exact Noted.All.note (hcode (by decide))
    performance := hread (Reads.measurements _ fun _ _ _ _ => trivial)
    weights := hread (Reads.measurements _ fun _ _ _ _ => trivial)
    count := hread (Reads.numericInteger _ _ trivial)
    costs := hread (Reads.costItems fun _ _ _ _ => trivial) }

theorem productionRange_notes (name : String) : (productionRange name).notes.filter
    (fun found => found.code = "UNPARSEABLE_PRODUCTION_RANGE") = (productionRange name).notes := by
  unfold productionRange
  split <;> rfl

/-- Only the name's reader pushes the code. -/
theorem rangeWarnings_eq : rangeWarnings (normalizeRecord crates manufacturer name (.object object))
    = (productionRange name).notes := by
  rw [normalizeRecord_object, rangeWarnings]
  exact (normalizeObject_filter covers_range).trans (productionRange_notes name)

/-- Without year members the record reports what the name spells. -/
structure SpeltByName (record : PreparedAircraftRecord) (range : ProductionRange)
    (warnings : List IngestIssue) : Prop where
  start : record.lifecycle.productionStartYear = range.1
  close : record.lifecycle.productionEndYear = range.2.1
  inProduction : record.lifecycle.isInProduction = range.2.2
  warnings : rangeWarnings record = warnings

theorem spelt (hstart : Json.get object "start_year" = none)
    (hend : Json.get object "end_year" = none) (hproduction : Json.get object "in_production" = none) :
    SpeltByName (normalizeRecord crates manufacturer name (.object object)) (namedRange name)
      (productionRange name).notes := by
  refine ⟨?_, ?_, ?_, rangeWarnings_eq⟩
  · rw [normalizeRecord_object]
    show statedStart name object = _
    rw [statedStart, textAt, hstart]
    rfl
  · rw [normalizeRecord_object]
    show statedClose name object = _
    rw [statedClose, textAt, hend]
    rfl
  · rw [normalizeRecord_object]
    show statedInProduction name object = _
    rw [statedInProduction, boolean, hproduction]
    rfl

theorem namedRange_ok {range : ProductionRange} (h : parsedProductionRange name = .ok range) :
    namedRange name = range ∧ (productionRange name).notes = [] := by
  rw [namedRange, productionRange, h]
  exact ⟨rfl, rfl⟩

theorem namedRange_error {what : String} (h : parsedProductionRange name = .error what) :
    namedRange name = (none, none, none) ∧ (productionRange name).notes
      = [warning "UNPARSEABLE_PRODUCTION_RANGE" "$.<aircraft>" what none] := by
  rw [namedRange, productionRange, h]
  exact ⟨rfl, rfl⟩

/-- What the record of a name is to report: a closed range or an open one exactly when the
name spells it, one warning and no years for every other text that begins with a digit
and holds a hyphen, and nothing for every other name. -/
structure ReadsRange (name : String) (record : PreparedAircraftRecord) : Prop where
  closed_only : ∀ start close, record.lifecycle.productionStartYear = some start →
    record.lifecycle.productionEndYear = some close → ClosedRange name start close
  open_only : ∀ start, record.lifecycle.productionStartYear = some start →
    record.lifecycle.productionEndYear = none → OpenRange name start
  closed : ∀ start close, ClosedRange name start close →
    SpeltByName record (some start, some close, some false) []
  opened : ∀ start, OpenRange name start → SpeltByName record (some start, none, some true) []
  unparseable : RangeLike name → (∀ start close, ¬ ClosedRange name start close) →
    (∀ start, ¬ OpenRange name start) → ∃ found, found.severity = .warning ∧
      SpeltByName record (none, none, none) [found]
  other : ¬ RangeLike name → SpeltByName record (none, none, none) []

theorem closedRange_iff (h : RangeParts name before after) : ClosedRange name start close ↔
    IsYear (Text.trim before) start ∧ IsYear (Text.trim after) close := by
  constructor
  · rintro ⟨before', after', h', hyears⟩
    obtain ⟨rfl, rfl⟩ := h.unique h'
    exact hyears
  · exact fun hyears => ⟨before, after, h, hyears⟩

theorem openRange_iff (h : RangeParts name before after) : OpenRange name start ↔
    IsYear (Text.trim before) start ∧ Text.lower (Text.trim after) = "present".toList := by
  constructor
  · rintro ⟨before', after', h', hyears⟩
    obtain ⟨rfl, rfl⟩ := h.unique h'
    exact hyears
  · exact fun hyears => ⟨before, after, h, hyears⟩

theorem signedRange_iff (h : RangeParts name before after) : SignedRange name start close ↔
    IsYear (Text.trim before) start ∧ SignedYear (Text.trim after) close := by
  constructor
  · rintro ⟨before', after', h', hyears⟩
    obtain ⟨rfl, rfl⟩ := h.unique h'
    exact hyears
  · exact fun hyears => ⟨before, after, h, hyears⟩

theorem rangeLike_parts (h : RangeParts name before after) : RangeLike name ↔
    (Text.trim before).head?.any Char.isDigit = true := by
  rw [rangeLike_iff]
  constructor
  · rintro ⟨before', after', h', hhead⟩
    obtain ⟨rfl, rfl⟩ := h.unique h'
    exact hhead
  · exact fun hhead => ⟨before, after, h, hhead⟩

variable {record : PreparedAircraftRecord}

/-- A record without years, of a name that spells none. -/
theorem reads_none {warnings : List IngestIssue}
    (hspelt : SpeltByName record (none, none, none) warnings)
    (hclosed : ∀ start close, ¬ ClosedRange name start close)
    (hopen : ∀ start, ¬ OpenRange name start)
    (hlike : RangeLike name → ∃ found, found.severity = .warning ∧ warnings = [found])
    (hother : ¬ RangeLike name → warnings = []) : ReadsRange name record where
  closed_only start close hs _ := by
    rw [hspelt.start] at hs
    cases hs
  open_only start hs _ := by
    rw [hspelt.start] at hs
    cases hs
  closed start close h := absurd h (hclosed start close)
  opened start h := absurd h (hopen start)
  unparseable h _ _ := by
    obtain ⟨found, hseverity, rfl⟩ := hlike h
    exact ⟨found, hseverity, hspelt⟩
  other h := by
    rwa [hother h] at hspelt

/-- The four ways, of a name with parts. -/
theorem reads_of_parts (h : RangeParts name before after)
    (hspelt : SpeltByName record (namedRange name) (productionRange name).notes) :
    ReadsRange name record ↔ ∀ start close, ¬ SignedRange name start close := by
  rcases rangeOf_cases (Text.trim before) (Text.trim after) with
    ⟨start, close, hstart, hclose, hparsed⟩ | ⟨start, hstart, hpresent, hparsed⟩ |
    ⟨hhead, hnone, what, hparsed⟩ | ⟨hhead, hparsed⟩
  · rw [← parsed_of_parts h] at hparsed
    rw [(namedRange_ok hparsed).1, (namedRange_ok hparsed).2] at hspelt
    rcases hclose with hclose | hclose
    · refine iff_of_true ?_ fun start' close' hsigned =>
        not_signed_of_isYear hclose ((signedRange_iff h).mp hsigned).2
      refine { closed_only := ?_, open_only := ?_, closed := ?_, opened := ?_,
               unparseable := ?_, other := ?_ }
      · intro start' close' hs hc
        rw [hspelt.start] at hs
        rw [hspelt.close] at hc
        cases hs
        cases hc
        exact (closedRange_iff h).mpr ⟨hstart, hclose⟩
      · intro start' hs hc
        rw [hspelt.close] at hc
        cases hc
      · intro start' close' hrange
        obtain ⟨hs, hc⟩ := (closedRange_iff h).mp hrange
        rwa [← hstart.unique hs, ← hclose.unique hc]
      · intro start' hrange
        exact absurd ((openRange_iff h).mp hrange).2 hclose.ne_present
      · intro _ hnot _
        exact absurd ((closedRange_iff h).mpr ⟨hstart, hclose⟩) (hnot start close)
      · intro hnot
        exact absurd ((rangeLike_parts h).mpr hstart.head) hnot
    · -- a sign: the record reports a closed range, which the name does not spell
      refine iff_of_false (fun hreads => ?_) fun hnot =>
        hnot start close ((signedRange_iff h).mpr ⟨hstart, hclose⟩)
      have hclosed := hreads.closed_only start close hspelt.start hspelt.close
      exact not_signed_of_isYear ((closedRange_iff h).mp hclosed).2 hclose
  · rw [← parsed_of_parts h] at hparsed
    rw [(namedRange_ok hparsed).1, (namedRange_ok hparsed).2] at hspelt
    refine iff_of_true ?_ fun start' close' hsigned =>
      ((signedRange_iff h).mp hsigned).2.ne_present hpresent
    refine { closed_only := ?_, open_only := ?_, closed := ?_, opened := ?_,
             unparseable := ?_, other := ?_ }
    · intro start' close' hs hc
      rw [hspelt.close] at hc
      cases hc
    · intro start' hs hc
      rw [hspelt.start] at hs
      cases hs
      exact (openRange_iff h).mpr ⟨hstart, hpresent⟩
    · intro start' close' hrange
      exact absurd hpresent ((closedRange_iff h).mp hrange).2.ne_present
    · intro start' hrange
      rwa [← hstart.unique ((openRange_iff h).mp hrange).1]
    · intro _ _ hnot
      exact absurd ((openRange_iff h).mpr ⟨hstart, hpresent⟩) (hnot start)
    · intro hnot
      exact absurd ((rangeLike_parts h).mpr hstart.head) hnot
  · rw [← parsed_of_parts h] at hparsed
    rw [(namedRange_error hparsed).1, (namedRange_error hparsed).2] at hspelt
    refine iff_of_true ?_ fun start close hsigned => ?_
    · refine reads_none hspelt (fun start close hrange => ?_) (fun start hrange => ?_)
        (fun _ => ⟨_, rfl, rfl⟩) fun hnot => absurd ((rangeLike_parts h).mpr hhead) hnot
      · obtain ⟨hs, hc⟩ := (closedRange_iff h).mp hrange
        exact ((hnone start hs).2 close).1 hc
      · obtain ⟨hs, hpresent⟩ := (openRange_iff h).mp hrange
        exact (hnone start hs).1 hpresent
    · obtain ⟨hs, hc⟩ := (signedRange_iff h).mp hsigned
      exact ((hnone start hs).2 close).2 hc
  · rw [← parsed_of_parts h] at hparsed
    rw [(namedRange_ok hparsed).1, (namedRange_ok hparsed).2] at hspelt
    have hyear : ∀ year, ¬ IsYear (Text.trim before) year := by
      intro year hyear
      have hdigit := hyear.head
      rw [hhead] at hdigit
      cases hdigit
    refine iff_of_true ?_ fun start close hsigned => hyear _ ((signedRange_iff h).mp hsigned).1
    refine reads_none hspelt (fun start close hrange => hyear _ ((closedRange_iff h).mp hrange).1)
      (fun start hrange => hyear _ ((openRange_iff h).mp hrange).1) (fun hlike => ?_) fun _ => rfl
    rw [rangeLike_parts h, hhead] at hlike
    cases hlike

theorem reads_iff (hspelt : SpeltByName record (namedRange name) (productionRange name).notes) :
    ReadsRange name record ↔ ∀ start close, ¬ SignedRange name start close := by
  by_cases hparts : ∃ before after, RangeParts name before after
  · obtain ⟨before, after, h⟩ := hparts
    exact reads_of_parts h hspelt
  · have hnot : ∀ before after, ¬ RangeParts name before after :=
      fun before after h => hparts ⟨before, after, h⟩
    have hparsed := parsed_of_no_parts hnot
    rw [(namedRange_ok hparsed).1, (namedRange_ok hparsed).2] at hspelt
    refine iff_of_true ?_ fun start close ⟨before, after, h, _⟩ => hnot before after h
    refine reads_none hspelt (fun start close ⟨before, after, h, _⟩ => hnot before after h)
      (fun start ⟨before, after, h, _⟩ => hnot before after h) (fun hlike => ?_) fun _ => rfl
    obtain ⟨before, after, h, -⟩ := rangeLike_iff.mp hlike
    exact absurd h (hnot before after)

/-- **The range in a name**: without year members the record of an object reports what the
name spells exactly when the name's second year has no sign. -/
theorem production_range_in_name (crates : Crates) (manufacturer name : String)
    (object : JsonObject) (hstart : Json.get object "start_year" = none)
    (hend : Json.get object "end_year" = none)
    (hproduction : Json.get object "in_production" = none) :
    ReadsRange name (normalizeRecord crates manufacturer name (.object object)) ↔
      ∀ start close, ¬ SignedRange name start close :=
  reads_iff (spelt hstart hend hproduction)

/-- SHA-256 on the names of the Cessna 120. -/
def rangeCrates : Crates where
  sha256 := fun _ =>
    [217, 219, 78, 143, 9, 179, 30, 224, 229, 86, 175, 33, 15, 216, 220, 151, 142, 14, 94, 233,
     103, 198, 239, 160, 36, 251, 20, 225, 173, 217, 235, 220]
  parseUrl := fun _ => none
  joinUrl := fun _ _ => none

/-- A name that spells a closed range. -/
theorem production_range_in_name_120 :
    ReadsRange "120 (1946 - 1950)" (normalizeRecord rangeCrates "CESSNA" "120 (1946 - 1950)"
      (.object [])) := by
  refine (production_range_in_name rangeCrates "CESSNA" "120 (1946 - 1950)" [] rfl rfl rfl).mpr ?_
  have hinner : innerOf "120 (1946 - 1950)" = some "1946 - 1950".toList := by decide +kernel
  have hsplit : Text.splitOnce '-' "1946 - 1950".toList
      = some ("1946 ".toList, " 1950".toList) := by decide +kernel
  intro start close hrange
  have hsigned := ((signedRange_iff (rangeParts_iff.mpr ⟨_, hinner, hsplit⟩)).mp hrange).2
  have hhead := hsigned.head
  rw [show Text.trim " 1950".toList = "1950".toList by decide +kernel] at hhead
  exact absurd hhead (by decide +kernel)

/-- `120 (1946 - +1950)` is read as the closed range of 1946 and 1950. -/
theorem signed_year_is_read : ¬ ∀ (crates : Crates) manufacturer name object,
    Json.get object "start_year" = none → Json.get object "end_year" = none →
    Json.get object "in_production" = none →
      ReadsRange name (normalizeRecord crates manufacturer name (.object object)) := by
  intro h
  have hparsed : parsedProductionRange "120 (1946 - +1950)"
      = .ok (some 1946, some 1950, some false) := by decide +kernel
  have hreads := h ⟨fun _ => [], fun _ => none, fun _ _ => none⟩ "CESSNA" "120 (1946 - +1950)" []
    rfl rfl rfl
  have hspelt : SpeltByName (normalizeRecord ⟨fun _ => [], fun _ => none, fun _ _ => none⟩
      "CESSNA" "120 (1946 - +1950)" (.object [])) (namedRange "120 (1946 - +1950)")
      (productionRange "120 (1946 - +1950)").notes := spelt rfl rfl rfl
  rw [(namedRange_ok hparsed).1] at hspelt
  have hclosed := hreads.closed_only 1946 1950 hspelt.start hspelt.close
  have hinner : innerOf "120 (1946 - +1950)" = some "1946 - +1950".toList := by decide +kernel
  have hsplit : Text.splitOnce '-' "1946 - +1950".toList
      = some ("1946 ".toList, " +1950".toList) := by decide +kernel
  have hhead := ((closedRange_iff (rangeParts_iff.mpr ⟨_, hinner, hsplit⟩)).mp hclosed).2.head
  exact absurd hhead (by decide +kernel)

end

end AircraftApi
