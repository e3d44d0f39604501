/-
AircraftApi/UnitPairing.lean

Whether the unit code of a measurement is the unit written for its number.

The number is the one the text starts with, the unit is the text's last word.
What else in the text is a number or a unit is not for the unit table to say:
`230 mph (KTAS)` states miles an hour, `9½ GPH` goes on with a half.  So the
results hold of every `Marking`, which says of each run of letters and of each
other character whether it is a number or a unit; all it is held to are the
digits, the units of the table, and that blanks and commas are neither.  The
numbers and units behind the number (`marks`) say when number and unit belong
together: the first there has to be the last unit of the text (`Straight`).

    Paired n text number code   the unit is written behind the number, with no
                                other number and no other unit between
    unit_pairing_iff            a measurement is paired exactly when its text is
                                straight
-/
import AircraftApi.PlanePhd
import AircraftApi.PreparedRecord

namespace Text

/-! ### The last word -/

/-- The last word follows white space, if anything, and white space follows it. -/
theorem exists_lastWord {s word : List Char} (h : lastWord s = some word) :
    ∃ front back, s = front ++ (word ++ back) ∧ (∀ c ∈ front.getLast?, isWhite c = true) ∧
      ∀ c ∈ back, isWhite c = true := by
  unfold lastWord at h
  split at h
  · cases h
  · cases h
    refine ⟨(trimEnd s).rdropWhile fun c => !isWhite c, s.rtakeWhile isWhite, ?_, ?_, ?_⟩
    · rw [← List.append_assoc, List.rdropWhile_append_rtakeWhile, trimEnd,
        List.rdropWhile_append_rtakeWhile]
    · intro c hc
      have hne : (trimEnd s).rdropWhile (fun c => !isWhite c) ≠ [] := by
        intro hnil
        rw [hnil] at hc
        cases hc
      rw [List.getLast?_eq_some_getLast hne, Option.mem_some] at hc
      have hlast := List.rdropWhile_last_not _ _ hne
      rw [hc] at hlast
      simpa using hlast
    · exact fun c hc => List.mem_rtakeWhile_imp hc

/-! ### Runs of letters -/

/-- The text cut into its runs of letters and its other characters. -/
def runs (s : List Char) : List (List Char) := s.splitBy fun a b => a.isAlpha && b.isAlpha

/-- The word begins and ends where a run of letters does. -/
structure Stands (before word behind : List Char) : Prop where
  ne_nil : word ≠ []
  letters : ∀ c ∈ word, c.isAlpha = true
  before : ∀ c ∈ before.getLast?, c.isAlpha = false
  behind : ∀ c ∈ behind.head?, c.isAlpha = false

theorem runs_append {s t : List Char}
    (h : (∀ c ∈ s.getLast?, c.isAlpha = false) ∨ ∀ c ∈ t.head?, c.isAlpha = false) :
    runs (s ++ t) = runs s ++ runs t := by
  refine List.splitBy_append fun a ha b hb => ?_
  rcases h with h | h
  · rw [h a ha, Bool.false_and]
  · rw [h b hb, Bool.and_false]

theorem runs_word {word : List Char} (hne : word ≠ []) (h : ∀ c ∈ word, c.isAlpha = true) :
    runs word = [word] := by
  refine List.splitBy_of_isChain hne (List.Pairwise.isChain ?_)
  refine List.pairwise_of_forall_mem_list fun a ha b hb => ?_
  rw [h a ha, h b hb]
  rfl

theorem Stands.runs {before word behind : List Char} (h : Stands before word behind) :
    Text.runs (before ++ (word ++ behind)) = Text.runs before ++ word :: Text.runs behind := by
  rw [runs_append (.inl h.before), runs_append (.inr h.behind), runs_word h.ne_nil h.letters]
  rfl

/-- Without letters, every character is a run. -/
theorem runs_plain {s : List Char} (h : ∀ c ∈ s, c.isAlpha = false) : runs s = s.map ([·]) := by
  induction s with
  | nil => rfl
  | cons c s ih =>
      have hcut : ∀ d ∈ [c].getLast?, d.isAlpha = false := by
        rintro d ⟨⟩
        exact h c List.mem_cons_self
      rw [← List.singleton_append, runs_append (.inl hcut), ih fun d hd => h d (.tail _ hd)]
      rfl

/-- A run of letters of a text stands in it. -/
theorem stands_of_runs {s word : List Char} {front back : List (List Char)}
    (h : runs s = front ++ word :: back) (hletters : ∀ c ∈ word, c.isAlpha = true) :
    s = front.flatten ++ (word ++ back.flatten) ∧ runs front.flatten = front ∧
      Stands front.flatten word back.flatten := by
  obtain ⟨hflat, hnil, hruns, hcuts⟩ := List.splitBy_eq_iff.mp h
  have hword : word ≠ [] := fun heq => hnil (by simp [heq])
  rw [List.isChain_append] at hcuts
  obtain ⟨hfront, hback, hbefore⟩ := hcuts
  refine ⟨by rw [hflat, List.flatten_append]; rfl, ?_, hword, hletters, ?_, ?_⟩
  · refine List.splitBy_flatten (fun hmem => hnil (List.mem_append_left _ hmem)) ?_ hfront
    intro run hrun
    exact hruns run (List.mem_append_left _ hrun)
  · intro c hc
    rcases List.eq_nil_or_concat front with rfl | ⟨init, last, rfl⟩
    · cases hc
    · -- runs are as long as they go, so no letter stands before the word
      obtain ⟨hlast, _, hcut⟩ := hbefore last (by simp) word rfl
      rw [List.concat_eq_append, List.flatten_append, List.flatten_singleton,
        List.getLast?_append_of_ne_nil _ hlast, List.getLast?_eq_some_getLast hlast,
        Option.mem_some] at hc
      rw [hletters _ (List.head_mem hword), Bool.and_true] at hcut
      rw [← hc]
      exact hcut
  · intro c hc
    rcases back with - | ⟨next, back⟩
    · cases hc
    · -- nor behind it
      obtain ⟨_, hnext, hcut⟩ := (List.isChain_cons_cons.mp hback).1
      rw [List.flatten_cons, List.head?_append_of_ne_nil _ hnext, List.head?_eq_some_head hnext,
        Option.mem_some] at hc
      rw [hletters _ (List.getLast_mem hword), Bool.true_and] at hcut
      rw [← hc]
      exact hcut

end Text

namespace AircraftApi

/-! ### Numbers and units in a text -/

/-- The unit a run of letters names. -/
def unitOf (run : List Char) : Option String := unitCode (String.ofList (Text.upper run))

/-- A reading of the runs of a text: which of them are numbers and which are
units.  Digits are numbers and the units of the table are units; what else is one
or the other is left open. -/
structure Marking where
  number : List Char → Bool
  unit : List Char → Bool
  digit : ∀ c : Char, c.isDigit = true → number [c] = true
  known : ∀ run, (unitOf run).isSome = true → unit run = true
  blank : ∀ c, Text.isWhite c = true ∨ c = ',' → number [c] = false ∧ unit [c] = false

/-- The run is a number or a unit. -/
def Marking.mark (n : Marking) (run : List Char) : Bool := n.number run || n.unit run

/-- The numbers and units of a text, in order. -/
def Marking.marks (n : Marking) (s : List Char) : List (List Char) := (Text.runs s).filter n.mark

/-- The units of the table alone. -/
def units (s : List Char) : List String := (Text.runs s).filterMap unitOf

/-- A character a number is written with. -/
def isWritten (c : Char) : Bool := isNumeric c || c = ','

/-- What follows the number a text starts with. -/
def afterNumber (text : String) : List Char :=
  ((Text.trim text.toList).dropWhile (· = '$')).dropWhile isWritten

/-- The first number or unit behind the number is a unit of the table, the same as
the last one of the text. -/
def Straight (n : Marking) (text : String) : Prop :=
  ∃ code ∈ (units (afterNumber text)).getLast?,
    (n.marks (afterNumber text)).head?.bind unitOf = some code

instance (n : Marking) (text : String) : Decidable (Straight n text) :=
  decidable_of_iff ((units (afterNumber text)).getLast?.any fun code =>
      (n.marks (afterNumber text)).head?.bind unitOf = some code) (by
    unfold Straight
    rcases (units (afterNumber text)).getLast? with - | code <;> simp)

/-- The unit is written behind the number, with no other number and no other
unit between them. -/
def Paired (n : Marking) (text number code : String) : Prop :=
  ∃ lead written between word behind,
    text.toList = lead ++ (written ++ (between ++ (word ++ behind))) ∧
    (∀ c ∈ lead, Text.isWhite c = true ∨ c = '$') ∧
    written.filter (· ≠ ',') = number.toList ∧
    Text.Stands between word behind ∧ unitOf word = some code ∧
    ∀ run ∈ Text.runs between, n.number run = false ∧ n.unit run = false

theorem isDigit_of_isAlpha {c : Char} (h : c.isAlpha = true) : c.isDigit = false := by
  rw [Bool.eq_false_iff]
  intro hdigit
  simp only [Char.isAlpha, Char.isUpper, Char.isLower, Char.isDigit_iff_toNat,
    UInt32.le_iff_toNat_le, Bool.or_eq_true, Bool.and_eq_true, decide_eq_true_eq, ge_iff_le] at h hdigit
  simp at h hdigit
  omega

theorem isAlpha_of_toUpper {c : Char} (h : c.toUpper.isAlpha = true) : c.isAlpha = true := by
  by_cases hlower : c.isLower = true
  · rw [Char.isAlpha, hlower, Bool.or_true]
  · have hself : c.toUpper = c := by
      unfold Char.toUpper
      refine dif_neg fun hrange => hlower ?_
      simpa [Char.isLower] using hrange
    rwa [hself] at h

/-- The table names units by letters alone. -/
theorem unitOf_letters {run : List Char} {code : String} (h : unitOf run = some code) :
    run ≠ [] ∧ ∀ c ∈ run, c.isAlpha = true := by
  have hkeys : ∀ entry ∈ unitCodes, entry.1.toList ≠ [] ∧ entry.1.toList.all Char.isAlpha := by
    decide
  obtain ⟨hne, hall⟩ := hkeys _ (mem_of_lookup h)
  rw [String.toList_ofList] at hne hall
  refine ⟨fun hnil => hne (by rw [hnil]; rfl), fun c hc => isAlpha_of_toUpper ?_⟩
  exact List.all_eq_true.mp hall _ (List.mem_map.mpr ⟨c, hc, rfl⟩)

theorem Marking.marks_append (n : Marking) {s t : List Char}
    (h : (∀ c ∈ s.getLast?, c.isAlpha = false) ∨ ∀ c ∈ t.head?, c.isAlpha = false) :
    n.marks (s ++ t) = n.marks s ++ n.marks t := by
  rw [marks, Text.runs_append h, List.filter_append]
  rfl

theorem units_append {s t : List Char}
    (h : (∀ c ∈ s.getLast?, c.isAlpha = false) ∨ ∀ c ∈ t.head?, c.isAlpha = false) :
    units (s ++ t) = units s ++ units t := by
  rw [units, Text.runs_append h, List.filterMap_append]
  rfl

/-- Characters that are no letters name no unit. -/
theorem units_eq_nil {s : List Char} (h : ∀ c ∈ s, c.isAlpha = false) : units s = [] := by
  unfold units
  rw [Text.runs_plain h, List.filterMap_eq_nil_iff]
  intro run hrun
  obtain ⟨c, hc, rfl⟩ := List.mem_map.mp hrun
  by_contra hunit
  obtain ⟨code, hcode⟩ := Option.ne_none_iff_exists'.mp hunit
  have hletter := (unitOf_letters hcode).2 c List.mem_cons_self
  rw [h c hc] at hletter
  cases hletter

theorem Marking.mark_eq_false_iff {n : Marking} {run : List Char} :
    n.mark run = false ↔ n.number run = false ∧ n.unit run = false :=
  Bool.or_eq_false_iff

theorem Marking.marks_eq_nil_iff {n : Marking} {s : List Char} :
    n.marks s = [] ↔ ∀ run ∈ Text.runs s, n.number run = false ∧ n.unit run = false := by
  unfold marks
  rw [List.filter_eq_nil_iff]
  refine forall₂_congr fun run _ => ?_
  rw [Bool.not_eq_true, mark_eq_false_iff]

/-- A unit of the table is a mark under every reading. -/
theorem Marking.mark_of_unitOf {n : Marking} {word : List Char} {code : String}
    (hcode : unitOf word = some code) : n.mark word = true := by
  unfold mark
  rw [n.known word (by rw [hcode]; rfl), Bool.or_true]

theorem units_stands {before word behind : List Char} {code : String}
    (h : Text.Stands before word behind) (hcode : unitOf word = some code) :
    units (before ++ (word ++ behind)) = units before ++ code :: units behind := by
  unfold units
  rw [h.runs, List.filterMap_append, List.filterMap_cons_some hcode]

/-- A word that stands in a text and names a unit is a mark of it. -/
theorem Marking.marks_stands (n : Marking) {before word behind : List Char} {code : String}
    (h : Text.Stands before word behind) (hcode : unitOf word = some code) :
    n.marks (before ++ (word ++ behind)) = n.marks before ++ word :: n.marks behind := by
  unfold marks
  rw [h.runs, List.filter_append, List.filter_cons_of_pos (mark_of_unitOf hcode)]

/-! ### What the parsers read -/

theorem isAlpha_of_isWritten {c : Char} (h : isWritten c = true) : c.isAlpha = false := by
  rcases Bool.or_eq_true_iff.mp h with hnumeric | hcomma
  · rcases Bool.or_eq_true_iff.mp hnumeric with hdigit | hpoint
    · rw [Bool.eq_false_iff]
      intro halpha
      rw [isDigit_of_isAlpha halpha] at hdigit
      cases hdigit
    · rw [of_decide_eq_true hpoint]
      rfl
  · rw [of_decide_eq_true hcomma]
    rfl

theorem isAlpha_of_isWhite {c : Char} (h : Text.isWhite c = true) : c.isAlpha = false := by
  rw [Bool.eq_false_iff]
  intro halpha
  simp only [Text.isWhite, Char.isAlpha, Char.isUpper, Char.isLower, UInt32.le_iff_toNat_le,
    Bool.or_eq_true, Bool.and_eq_true, decide_eq_true_eq, ge_iff_le] at h halpha
  simp at h halpha
  omega

/-- Commas are left out of a number before its characters are counted. -/
theorem takeWhile_filter (s : List Char) :
    (s.filter (· ≠ ',')).takeWhile isNumeric = (s.takeWhile isWritten).filter (· ≠ ',') := by
  induction s with
  | nil => rfl
  | cons c s ih =>
      by_cases hcomma : c = ','
      · subst hcomma
        exact ih
      · have hwritten : isWritten c = isNumeric c := by
          rw [isWritten, decide_eq_false hcomma, Bool.or_false]
        rw [List.filter_cons, if_pos (decide_eq_true hcomma), List.takeWhile_cons,
          List.takeWhile_cons, hwritten]
        split
        · rw [List.filter_cons, if_pos (decide_eq_true hcomma), ih]
        · rfl

theorem toList_of_parseSentinel {raw value : String} (h : parseSentinel raw = some value) :
    value.toList = Text.trim raw.toList := by
  unfold parseSentinel at h
  dsimp only at h
  split_ifs at h
  rw [← Option.some.inj h, String.toList_ofList]

/-- A number that is not negative is written at the front, behind dollar signs,
with commas in it. -/
theorem written_of_parseNumeric {text number : String} (h : parseNumeric text = some number)
    (hsign : isNegative number = false) :
    number.toList ≠ [] ∧ (((Text.trim text.toList).dropWhile (· = '$')).takeWhile isWritten).filter
      (· ≠ ',') = number.toList := by
  obtain ⟨value, hvalue, h⟩ := Option.bind_eq_some_iff.mp h
  rw [toList_of_parseSentinel hvalue] at h
  dsimp only at h
  split_ifs at h with hvalid
  have hnumber : number.toList
      = numericPrefix (((Text.trim text.toList).dropWhile (· = '$')).filter (· ≠ ',')) := by
    rw [← Option.some.inj h, String.toList_ofList]
  refine ⟨?_, ?_⟩
  · intro hnil
    rw [← hnumber, hnil] at hvalid
    cases hvalid
  · rw [hnumber, ← takeWhile_filter]
    unfold numericPrefix at hnumber ⊢
    split
    · rename_i rest hrest
      rw [hrest] at hnumber
      rw [isNegative, hnumber] at hsign
      cases hsign
    · rfl

/-- The unit of the last word is the last unit of the text. -/
theorem units_of_parseUnit {text token code : String} (h : parseUnit text = some token)
    (hcode : unitCode token = some code) :
    (units (Text.trim text.toList)).getLast? = some code := by
  obtain ⟨value, hvalue, h⟩ := Option.bind_eq_some_iff.mp h
  obtain ⟨word, hword, h⟩ := Option.bind_eq_some_iff.mp h
  rw [toList_of_parseSentinel hvalue] at hword
  obtain ⟨front, back, htrim, hfront, hback⟩ := Text.exists_lastWord hword
  obtain ⟨before, behind, hstrip, hbefore, hbehind⟩ :=
    Text.exists_strip (fun c => !c.isAlpha) word
  split at h
  · cases h
  · rename_i letters hne
    have hunit : unitOf (Text.strip (fun c => !c.isAlpha) word) = some code := by
      rw [← hcode, ← Option.some.inj h]
      rfl
    -- what was stripped, and what is behind the word, are no letters
    have hplain : ∀ c ∈ behind ++ back, c.isAlpha = false := by
      intro c hc
      rcases List.mem_append.mp hc with hc | hc
      · simpa using hbehind c hc
      · exact isAlpha_of_isWhite (hback c hc)
    -- so the word stands apart, and is the last unit
    have hstands : Text.Stands (front ++ before) (Text.strip (fun c => !c.isAlpha) word)
        (behind ++ back) := by
      obtain ⟨hnil, hletters⟩ := unitOf_letters hunit
      refine ⟨hnil, hletters, fun c hc => ?_, fun c hc => hplain c (List.mem_of_head? hc)⟩
      rcases List.eq_nil_or_concat before with rfl | ⟨init, last, rfl⟩
      · rw [List.append_nil] at hc
        exact isAlpha_of_isWhite (hfront c hc)
      · rw [List.concat_eq_append, ← List.append_assoc, List.getLast?_concat, Option.mem_some] at hc
        rw [← hc]
        simpa using hbefore last (by simp)
    have hsplit : Text.trim text.toList
        = (front ++ before) ++ (Text.strip (fun c => !c.isAlpha) word ++ (behind ++ back)) := by
      rw [htrim]
      conv_lhs => rw [hstrip]
      simp
    rw [hsplit, units_stands hstands hunit, units_eq_nil hplain, List.getLast?_concat]

/-! ### Pairing -/

section

variable {text number code : String}

/-- The text before what follows the number. -/
theorem exists_afterNumber (text : String) :
    ∃ lead back, text.toList = lead ++
        ((((Text.trim text.toList).dropWhile (· = '$')).takeWhile isWritten) ++
          (afterNumber text ++ back)) ∧
      (∀ c ∈ lead, Text.isWhite c = true ∨ c = '$') ∧ ∀ c ∈ back, Text.isWhite c = true := by
  obtain ⟨front, back, htext, hfront, hback⟩ := Text.exists_strip Text.isWhite text.toList
  refine ⟨front ++ (Text.trim text.toList).takeWhile (· = '$'), back, ?_, ?_, hback⟩
  · conv_lhs => rw [htext]
    rw [afterNumber, ← List.append_assoc _ (List.dropWhile isWritten _),
      List.takeWhile_append_dropWhile, List.append_assoc, ← List.append_assoc (List.takeWhile _ _),
      List.takeWhile_append_dropWhile]
    rfl
  · intro c hc
    rcases List.mem_append.mp hc with hc | hc
    · exact .inl (hfront c hc)
    · have hdollar := List.mem_takeWhile_imp hc
      exact .inr (of_decide_eq_true hdollar)

/-- The last unit behind the number is the last of the text. -/
theorem units_afterNumber (text : String) :
    units (Text.trim text.toList) = units (afterNumber text) := by
  have hfront : ∀ c ∈ (Text.trim text.toList).takeWhile (· = '$') ++
      ((Text.trim text.toList).dropWhile (· = '$')).takeWhile isWritten, c.isAlpha = false := by
    intro c hc
    rcases List.mem_append.mp hc with hc | hc
    · have hdollar := List.mem_takeWhile_imp hc
      rw [of_decide_eq_true hdollar]
      rfl
    · exact isAlpha_of_isWritten (List.mem_takeWhile_imp hc)
  have hsplit : Text.trim text.toList = ((Text.trim text.toList).takeWhile (· = '$') ++
      ((Text.trim text.toList).dropWhile (· = '$')).takeWhile isWritten) ++ afterNumber text := by
    rw [afterNumber, List.append_assoc, List.takeWhile_append_dropWhile,
      List.takeWhile_append_dropWhile]
  rw [hsplit, units_append (.inl fun c hc => hfront c (List.mem_of_getLast? hc)),
    units_eq_nil hfront, List.nil_append]

/-- Blanks and commas are no letters, and leave no mark. -/
theorem Marking.marks_blank (n : Marking) {s : List Char}
    (h : ∀ c ∈ s, Text.isWhite c = true ∨ c = ',') : n.marks s = [] := by
  have hplain : ∀ c ∈ s, c.isAlpha = false := by
    intro c hc
    rcases h c hc with hwhite | rfl
    · exact isAlpha_of_isWhite hwhite
    · rfl
  rw [marks_eq_nil_iff, Text.runs_plain hplain]
  intro run hrun
  obtain ⟨c, hc, rfl⟩ := List.mem_map.mp hrun
  exact n.blank c (h c hc)

theorem white_plain {c : Char} (h : Text.isWhite c = true) :
    c.isAlpha = false ∧ c.isDigit = false ∧ isWritten c = false := by
  have hdigit : c.isDigit = false := by
    rw [Bool.eq_false_iff]
    intro hdigit
    simp only [Text.isWhite, Char.isDigit_iff_toNat, decide_eq_true_eq] at h hdigit
    simp at h hdigit
    omega
  refine ⟨isAlpha_of_isWhite h, hdigit, ?_⟩
  rw [isWritten, isNumeric, hdigit, Bool.false_or, Bool.or_eq_false_iff]
  refine ⟨decide_eq_false ?_, decide_eq_false ?_⟩ <;> rintro rfl <;> cases h

/-- A list that starts with another kind has no span of this one. -/
theorem takeWhile_eq_nil {s : List Char} (h : ∀ c ∈ s.head?, isWritten c = false) :
    s.takeWhile isWritten = [] ∧ s.dropWhile isWritten = s := by
  rcases s with - | ⟨c, rest⟩
  · exact ⟨rfl, rfl⟩
  · have hc := h c rfl
    rw [List.takeWhile_cons, List.dropWhile_cons, hc]
    exact ⟨rfl, rfl⟩

/-- A written number is cut off by the first character of another kind. -/
theorem cut_written {lead written rest : List Char}
    (hlead : ∀ c ∈ lead, Text.isWhite c = true ∨ c = '$') (hne : written ≠ [])
    (hwritten : ∀ c ∈ written, isWritten c = true) :
    ((lead ++ (written ++ rest)).dropWhile fun c => Text.isWhite c || c = '$') = written ++ rest := by
  rw [List.dropWhile_append_of_pos fun c hc => by simpa using hlead c hc]
  obtain ⟨c, more, rfl⟩ := List.exists_cons_of_ne_nil hne
  have hc := hwritten c List.mem_cons_self
  refine List.dropWhile_cons_of_neg ?_
  rw [Bool.not_eq_true, Bool.or_eq_false_iff]
  refine ⟨?_, ?_⟩
  · rw [Bool.eq_false_iff]
    intro hwhite
    rw [(white_plain hwhite).2.2] at hc
    cases hc
  · refine decide_eq_false ?_
    rintro rfl
    cases hc

/-- **The decomposition is the parser's**: a text with the number at its front
goes on, but for commas and white space, with what follows the number. -/
theorem marks_behind (n : Marking) {lead written rest : List Char}
    (htext : text.toList = lead ++ (written ++ rest))
    (hlead : ∀ c ∈ lead, Text.isWhite c = true ∨ c = '$')
    (hwritten : written.filter (· ≠ ',') = number.toList)
    (hnumber : parseNumeric text = some number) (hsign : isNegative number = false) :
    n.marks rest = n.marks (afterNumber text) := by
  obtain ⟨hne, hfilter⟩ := written_of_parseNumeric hnumber hsign
  obtain ⟨front, back, hparsed, hfront, hback⟩ := exists_afterNumber text
  generalize hspan : ((Text.trim text.toList).dropWhile (· = '$')).takeWhile isWritten = span
    at hfilter hparsed
  have hspanWritten : ∀ c ∈ span, isWritten c = true := by
    rw [← hspan]
    exact fun c hc => List.mem_takeWhile_imp hc
  have hchars : ∀ c ∈ written, isWritten c = true := by
    intro c hc
    by_cases hcomma : c = ','
    · rw [hcomma]
      rfl
    · have hmem : c ∈ span.filter (· ≠ ',') := by
        rw [hfilter, ← hwritten]
        exact List.mem_filter.mpr ⟨hc, decide_eq_true hcomma⟩
      exact hspanWritten c (List.mem_filter.mp hmem).1
  have hne' : ∀ {s : List Char}, s.filter (· ≠ ',') = number.toList → s ≠ [] := by
    rintro s hs rfl
    exact hne hs.symm
  have hsame : written ++ rest = span ++ (afterNumber text ++ back) := by
    rw [← cut_written hlead (hne' hwritten) hchars, ← htext, hparsed,
      cut_written hfront (hne' hfilter) hspanWritten]
  -- the number as the parser cuts it ends where written characters do
  have hstop : ∀ c ∈ (afterNumber text ++ back).head?, isWritten c = false := by
    intro c hc
    have hnot := List.head?_dropWhile_not isWritten ((Text.trim text.toList).dropWhile (· = '$'))
    rcases hafter : afterNumber text with - | ⟨d, more⟩
    · rw [hafter] at hc
      exact (white_plain (hback c (List.mem_of_head? hc))).2.2
    · rw [hafter, List.cons_append, List.head?_cons, Option.mem_some] at hc
      rw [afterNumber] at hafter
      rw [hafter, hc] at hnot
      exact hnot
  have htake : written ++ rest.takeWhile isWritten = span := by
    have htakes := congrArg (List.takeWhile isWritten) hsame
    rw [List.takeWhile_append_of_pos hchars, List.takeWhile_append_of_pos hspanWritten,
      (takeWhile_eq_nil hstop).1, List.append_nil] at htakes
    exact htakes
  have hdrop : rest.dropWhile isWritten = afterNumber text ++ back := by
    have hdrops := congrArg (List.dropWhile isWritten) hsame
    rw [List.dropWhile_append_of_pos hchars, List.dropWhile_append_of_pos hspanWritten,
      (takeWhile_eq_nil hstop).2] at hdrops
    exact hdrops
  -- both cuts keep the same digits, so only commas may be between them
  have hcommas : ∀ c ∈ rest.takeWhile isWritten, c = ',' := by
    rw [← htake, List.filter_append, hwritten] at hfilter
    have hnil := List.append_right_eq_self.mp hfilter
    intro c hc
    by_contra hcomma
    have hmem : c ∈ (rest.takeWhile isWritten).filter (· ≠ ',') :=
      List.mem_filter.mpr ⟨hc, decide_eq_true hcomma⟩
    rw [hnil] at hmem
    cases hmem
  calc n.marks rest = n.marks (rest.takeWhile isWritten ++ rest.dropWhile isWritten) := by
        rw [List.takeWhile_append_dropWhile]
    _ = n.marks (rest.takeWhile isWritten) ++ n.marks (rest.dropWhile isWritten) := by
        refine n.marks_append (.inl fun c hc => ?_)
        rw [hcommas c (List.mem_of_getLast? hc)]
        rfl
    _ = n.marks (afterNumber text ++ back) := by
        rw [n.marks_blank fun c hc => .inr (hcommas c hc), hdrop, List.nil_append]
    _ = n.marks (afterNumber text) ++ n.marks back :=
        n.marks_append (.inr fun c hc => isAlpha_of_isWhite (hback c (List.mem_of_head? hc)))
    _ = n.marks (afterNumber text) := by
        rw [n.marks_blank fun c hc => .inl (hback c hc), List.append_nil]

theorem straight_of_paired {n : Marking} (hnumber : parseNumeric text = some number)
    (hsign : isNegative number = false)
    (hunit : (parseUnit text).bind unitCode = some code) (h : Paired n text number code) :
    Straight n text := by
  obtain ⟨lead, written, between, word, behind, htext, hlead, hwritten, hstands, hcode, hnone⟩ := h
  obtain ⟨token, htoken, htokenCode⟩ := Option.bind_eq_some_iff.mp hunit
  refine ⟨code, ?_, ?_⟩
  · rw [← units_afterNumber]
    exact units_of_parseUnit htoken htokenCode
  · rw [← marks_behind n htext hlead hwritten hnumber hsign, n.marks_stands hstands hcode,
      Marking.marks_eq_nil_iff.mpr hnone]
    exact hcode

theorem paired_of_straight {n : Marking} (hnumber : parseNumeric text = some number)
    (hsign : isNegative number = false)
    (hunit : (parseUnit text).bind unitCode = some code) (h : Straight n text) :
    Paired n text number code := by
  obtain ⟨token, htoken, htokenCode⟩ := Option.bind_eq_some_iff.mp hunit
  obtain ⟨last, hlast, hfirst⟩ := h
  have hlastCode : last = code := by
    have hunits := units_of_parseUnit htoken htokenCode
    rw [units_afterNumber, Option.mem_def.mp hlast] at hunits
    exact Option.some.inj hunits
  subst hlastCode
  obtain ⟨lead, back, htext, hlead, hback⟩ := exists_afterNumber text
  obtain ⟨word, hword, hcode⟩ := Option.bind_eq_some_iff.mp hfirst
  obtain ⟨more, hmarks⟩ := List.head?_eq_some_iff.mp hword
  obtain ⟨front, rear, hruns, hfront, -, -⟩ := List.filter_eq_cons_iff.mp hmarks
  -- the runs before the first mark are what is between
  obtain ⟨hafter, hbetween, hstands⟩ := Text.stands_of_runs hruns (unitOf_letters hcode).2
  refine ⟨lead, _, front.flatten, word, rear.flatten ++ back, ?_, hlead,
    (written_of_parseNumeric hnumber hsign).2,
    ⟨hstands.ne_nil, hstands.letters, hstands.before, ?_⟩, hcode, ?_⟩
  · conv_lhs => rw [htext, hafter]
    simp
  · intro c hc
    rw [List.head?_append] at hc
    rcases hrear : rear.flatten.head? with - | d
    · rw [hrear] at hc
      exact isAlpha_of_isWhite (hback c (List.mem_of_head? hc))
    · rw [hrear] at hc
      exact hstands.behind c (hrear.trans hc)
  · rw [hbetween]
    intro run hrun
    exact Marking.mark_eq_false_iff.mp (Bool.eq_false_iff.mpr (hfront run hrun))

end

/-! ### The measurements of a record -/

variable {crates : Crates} {manufacturer aircraft : String}

theorem measurement_of_mem {raw : Json} {m : MeasurementInput}
    (hm : m ∈ (normalizeRecord crates manufacturer aircraft raw).performance ∨
      m ∈ (normalizeRecord crates manufacturer aircraft raw).weights) :
    ∃ mapping field text, m = preparedMeasurement mapping field text := by
  cases raw with
  | object members =>
      rw [normalizeRecord_object] at hm
      rcases hm with hm | hm
      · obtain ⟨_, _, entry, _, _, text, _, rfl⟩ := mem_measurements.mp hm
        exact ⟨_, _, _, rfl⟩
      · obtain ⟨_, _, entry, _, _, text, _, rfl⟩ := mem_measurements.mp hm
        exact ⟨_, _, _, rfl⟩
  | _ => rcases hm with hm | hm <;> cases hm

/-- What a measurement that carries a number and a unit code read them off. -/
theorem parsed_of_emitted {mapping : String → Option String} {field text number code : String}
    (hnumber : (preparedMeasurement mapping field text).numericValue = some number)
    (hcode : (preparedMeasurement mapping field text).unitCode = some code) :
    parseNumeric text = some number ∧ isNegative number = false ∧
      (parseUnit text).bind unitCode = some code := by
  obtain ⟨hparse, hsign⟩ := Option.filter_eq_some_iff.mp hnumber
  refine ⟨hparse, by simpa using hsign, ?_⟩
  dsimp only [preparedMeasurement] at hcode
  split_ifs at hcode
  exact hcode

/-- **Number and unit**: whatever else counts as a number or as a unit, when
`normalize_record` carries both for a measurement the unit is the one written for
the number if and only if the text is straight. -/
theorem unit_pairing_iff (n : Marking) {raw : Json} {m : MeasurementInput}
    (hm : m ∈ (normalizeRecord crates manufacturer aircraft raw).performance ∨
      m ∈ (normalizeRecord crates manufacturer aircraft raw).weights)
    {number code : String} (hnumber : m.numericValue = some number)
    (hcode : m.unitCode = some code) :
    Paired n m.rawValue number code ↔ Straight n m.rawValue := by
  obtain ⟨mapping, field, text, rfl⟩ := measurement_of_mem hm
  obtain ⟨hparse, hsign, hunit⟩ := parsed_of_emitted hnumber hcode
  exact ⟨straight_of_paired hparse hsign hunit, paired_of_straight hparse hsign hunit⟩

/-- A record that states a cruise speed. -/
def cruiseRecord (text : String) : PreparedAircraftRecord :=
  normalizeRecord PlanePhd.fleetCrates "Cessna" "172"
    (.object [("performance", .object [("best_cruise_speed", .string text)])])

theorem cruise_mem {text : String} (h : parseSentinel text = some text) :
    preparedMeasurement perfCode "best_cruise_speed" text ∈ (cruiseRecord text).performance := by
  rw [cruiseRecord, normalizeRecord_object]
  exact mem_measurements.mpr ⟨_, rfl, ("best_cruise_speed", .string text), List.mem_cons_self,
    show isEngineEntry "performance" "best_cruise_speed" = false by decide, text, h, rfl⟩

/-- Units and their symbols in the reference table that `unit_code` does not map. -/
def unmappedUnits : List String :=
  ["MPH", "KMH", "MACH", "METERS", "KM", "MI", "LITERS", "LPH", "SHP", "ESHP", "M", "L", "IMP"]

/-- Digits and vulgar fractions are numbers; the units of the table and the
unmapped ones are units, in either case. -/
def seededMarking : Marking where
  number run := run.any fun c => c.isDigit || c = '¼' || c = '½' || c = '¾'
  unit run := (unitOf run).isSome || decide (String.ofList (Text.upper run) ∈ unmappedUnits)
  digit c hc := by
    rw [List.any_cons, hc]
    rfl
  known run hrun := by rw [hrun, Bool.true_or]
  blank c hc := by
    have hletter : c.isAlpha = false := by
      rcases hc with hwhite | rfl
      · exact isAlpha_of_isWhite hwhite
      · rfl
    have hnames : ∀ name ∈ unmappedUnits, name.toList ≠ [] ∧ name.toList.all Char.isAlpha := by
      decide
    refine ⟨?_, Bool.or_eq_false_iff.mpr ⟨?_, decide_eq_false fun hmem => ?_⟩⟩
    · rw [List.any_cons, List.any_nil, Bool.or_false]
      rcases hc with hwhite | rfl
      · rw [(white_plain hwhite).2.1]
        refine Bool.eq_false_iff.mpr fun heq => ?_
        simp only [Bool.false_or, Bool.or_eq_true, decide_eq_true_eq] at heq
        rcases heq with (rfl | rfl) | rfl <;> cases hwhite
      · rfl
    · by_contra hunit
      obtain ⟨code, hcode⟩ := Option.isSome_iff_exists.mp (Bool.not_eq_false _ ▸ hunit)
      rw [(unitOf_letters hcode).2 c List.mem_cons_self] at hletter
      cases hletter
    · have hname := (hnames _ hmem).2
      rw [String.toList_ofList] at hname
      have hupper : c.toUpper.isAlpha = true := List.all_eq_true.mp hname _ List.mem_cons_self
      rw [isAlpha_of_toUpper hupper] at hletter
      cases hletter

theorem unit_pairing_iff_cruise : Paired seededMarking "1,120 KTAS" "1120" "KTAS" := by
  have hstated : parseSentinel "1,120 KTAS" = some "1,120 KTAS" := by decide +kernel
  have hnumber : (preparedMeasurement perfCode "best_cruise_speed" "1,120 KTAS").numericValue
      = some "1120" := by decide +kernel
  have hcode : (preparedMeasurement perfCode "best_cruise_speed" "1,120 KTAS").unitCode
      = some "KTAS" := by decide +kernel
  exact (unit_pairing_iff seededMarking (.inl (cruise_mem hstated)) hnumber hcode).mpr
    (by decide +kernel)

example : ¬ Straight seededMarking "230 mph (KTAS)" := by decide +kernel

/-- Of two speeds the number of the first is given the unit of the second, whatever
else counts as a number or as a unit. -/
theorem second_unit_not_paired : ¬ ∃ n : Marking, ∀ (crates : Crates)
    (manufacturer aircraft : String) (raw : Json) (m : MeasurementInput),
    (m ∈ (normalizeRecord crates manufacturer aircraft raw).performance ∨
      m ∈ (normalizeRecord crates manufacturer aircraft raw).weights) →
    ∀ number code, m.numericValue = some number → m.unitCode = some code →
      Paired n m.rawValue number code := by
  rintro ⟨n, h⟩
  have hstated : parseSentinel "120 KTAS (140 KIAS)" = some "120 KTAS (140 KIAS)" := by
    decide +kernel
  have hnumber : (preparedMeasurement perfCode "best_cruise_speed"
      "120 KTAS (140 KIAS)").numericValue = some "120" := by decide +kernel
  have hcode : (preparedMeasurement perfCode "best_cruise_speed"
      "120 KTAS (140 KIAS)").unitCode = some "KIAS" := by decide +kernel
  -- the record pairs 120 with KIAS, of the parenthesis
  have hpaired := h _ _ _ _ _ (.inl (cruise_mem hstated)) _ _ hnumber hcode
  obtain ⟨hparse, hsign, hunit⟩ := parsed_of_emitted hnumber hcode
  obtain ⟨code, hlast, hfirst⟩ := straight_of_paired hparse hsign hunit hpaired
  have hruns : Text.runs (afterNumber "120 KTAS (140 KIAS)") = [' '] :: "KTAS".toList ::
      Text.runs " (140 KIAS)".toList := by decide +kernel
  have hcodes : (units (afterNumber "120 KTAS (140 KIAS)")).getLast? = some "KIAS"
      ∧ unitOf "KTAS".toList = some "KTAS" := by decide +kernel
  -- but the first word behind the number is KTAS
  have hmarks : (n.marks (afterNumber "120 KTAS (140 KIAS)")).head? = some "KTAS".toList := by
    unfold Marking.marks
    rw [hruns, List.filter_cons_of_neg, List.filter_cons_of_pos]
    · rfl
    · exact Marking.mark_of_unitOf hcodes.2
    · rw [Marking.mark_eq_false_iff.mpr (n.blank ' ' (.inl rfl))]
      exact Bool.false_ne_true
  rw [hmarks] at hfirst
  rw [hcodes.1] at hlast
  rw [Option.bind_some, hcodes.2, ← Option.some.inj hlast] at hfirst
  exact absurd hfirst (by decide)

end AircraftApi
