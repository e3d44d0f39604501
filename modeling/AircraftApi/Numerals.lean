/-
AircraftApi/Numerals.lean

What `parse_numeric` reads off the front of a text.

A numeral is a sign, whole digits and an optional fraction.  Of a text that
starts with one, after dollar signs and with commas among its digits, and goes
on with a character that cannot belong to it, `parse_numeric` returns just the
numeral, the commas left out (`parseNumeric_front`).  A numeral that also parses
as an integer denotes that integer (`value_of_parseInt`).
-/
import AircraftApi.FieldParsers
import AircraftApi.Numeric

namespace Numeric

/-- A sign, the digits before the point, and the point with those after it. -/
def numeral (negative : Bool) (whole : List Char) (fraction : Option (List Char)) : List Char :=
  (if negative then ['-'] else []) ++ whole ++
    match fraction with
    | none => []
    | some digits => '.' :: digits

/-- Digits throughout, and at least one. -/
structure Spelled (whole : List Char) (fraction : Option (List Char)) : Prop where
  whole_digits : whole.all Char.isDigit = true
  fraction_digits : ∀ digits ∈ fraction, digits.all Char.isDigit = true
  some_digit : whole ≠ [] ∨ ∃ digits ∈ fraction, digits ≠ []

/-- The number a text denotes, if it is a literal. -/
def denoted (text : String) : Option ℚ := (parse text.toList).map Literal.value

section

variable {negative : Bool} {whole : List Char} {fraction : Option (List Char)}

theorem not_mem_of_digits {digits : List Char} (h : digits.all Char.isDigit = true) {c : Char}
    (hc : c.isDigit = false) : c ∉ digits := by
  intro hmem
  rw [List.all_eq_true.mp h c hmem] at hc
  cases hc

theorem splitOn_unsigned (h : Spelled whole fraction) :
    (numeral false whole fraction).splitOn '.' = whole :: fraction.toList := by
  have hwhole := not_mem_of_digits h.whole_digits (show '.'.isDigit = false from rfl)
  rcases fraction with - | digits
  · rw [numeral]
    simpa using List.splitOn_eq_singleton hwhole
  · have hdigits := not_mem_of_digits (h.fraction_digits digits rfl) (show '.'.isDigit = false from rfl)
    show (whole ++ '.' :: digits).splitOn '.' = [whole, digits]
    rw [List.splitOn_append_cons_self_of_not_mem hwhole, List.splitOn_eq_singleton hdigits]

theorem parseUnsigned_numeral (h : Spelled whole fraction) :
    parseUnsigned negative (numeral false whole fraction)
      = some ⟨negative, whole, fraction.getD []⟩ := by
  unfold parseUnsigned
  rw [splitOn_unsigned h]
  rcases fraction with - | digits
  · have hne := h.some_digit.resolve_right (by rintro ⟨_, ⟨⟩, _⟩)
    exact if_pos ⟨hne, h.whole_digits⟩
  · refine if_pos ⟨?_, h.whole_digits, h.fraction_digits digits rfl⟩
    simpa using h.some_digit

/-- An unsigned numeral starts with a digit or the point. -/
theorem head?_unsigned (h : Spelled whole fraction) :
    ∃ c, (numeral false whole fraction).head? = some c ∧ (c.isDigit = true ∨ c = '.') := by
  rcases whole with - | ⟨c, rest⟩
  · rcases fraction with - | digits
    · exact absurd h.some_digit (by simp)
    · exact ⟨'.', rfl, .inr rfl⟩
  · exact ⟨c, rfl, .inl (List.all_eq_true.mp h.whole_digits c List.mem_cons_self)⟩

/-- What starts with an unsigned numeral has no sign. -/
theorem unsigned_append_ne (h : Spelled whole fraction) (rest text : List Char) :
    numeral false whole fraction ++ rest ≠ '-' :: text := by
  obtain ⟨c, hc, hclass⟩ := head?_unsigned h
  intro heq
  have hhead := congrArg List.head? heq
  rw [List.head?_append, hc, Option.some_or, List.head?_cons] at hhead
  rw [Option.some.inj hhead] at hclass
  exact absurd hclass (by decide)

theorem parse_numeral (h : Spelled whole fraction) :
    parse (numeral negative whole fraction) = some ⟨negative, whole, fraction.getD []⟩ := by
  rcases negative with - | -
  · rw [← parseUnsigned_numeral h]
    unfold parse
    split
    · rename_i text htext
      exact absurd (by rw [List.append_nil, htext]) (unsigned_append_ne h [] text)
    · rfl
  · exact parseUnsigned_numeral h

theorem denoted_numeral (h : Spelled whole fraction) :
    denoted (String.ofList (numeral negative whole fraction))
      = some (Literal.value ⟨negative, whole, fraction.getD []⟩) := by
  rw [denoted, String.toList_ofList, parse_numeral h]
  rfl

end

theorem digitsValue_toDigits (n : ℕ) : digitsValue (Nat.toDigits 10 n) = n := by
  have h := Nat.ofDigitChars_ten_toDigits (n := n)
  rwa [Nat.ofDigitChars_eq_foldl] at h

end Numeric

namespace AircraftApi

open Numeric

theorem toLower_of_isDigit {c : Char} (h : c.isDigit = true) : c.toLower = c := by
  unfold Char.toLower
  split
  · rename_i hupper
    exfalso
    simp only [Char.isDigit_iff_toNat, UInt32.le_iff_toNat_le] at h hupper
    simp at h hupper
    omega
  · rfl

/-- The characters of a numeral are none of those around it. -/
theorem numeric_char {c : Char} (h : isNumeric c = true) :
    Text.isWhite c = false ∧ c ≠ '$' ∧ c ≠ '-' ∧ c.toLower ≠ 'n' := by
  rcases Bool.or_eq_true_iff.mp h with hdigit | hpoint
  · refine ⟨?_, ?_, ?_, ?_⟩
    · have hbounds := Char.isDigit_iff_toNat.mp hdigit
      simp only [Char.reduceToNat] at hbounds
      rw [Text.isWhite, decide_eq_false_iff_not]
      omega
    · rintro rfl
      cases hdigit
    · rintro rfl
      cases hdigit
    · rw [toLower_of_isDigit hdigit]
      rintro rfl
      cases hdigit
  · rw [of_decide_eq_true hpoint]
    decide

/-- A text that holds a digit and does not start with an n states something. -/
theorem parseSentinel_eq_trim {raw : String} {d : Char} (hmem : d ∈ Text.trim raw.toList)
    (hdigit : d.isDigit = true) (hhead : ∀ c ∈ (Text.trim raw.toList).head?, c.toLower ≠ 'n') :
    parseSentinel raw = some (String.ofList (Text.trim raw.toList)) := by
  have hlower : d ∈ Text.lower (Text.trim raw.toList) :=
    List.mem_map.mpr ⟨d, hmem, toLower_of_isDigit hdigit⟩
  have hstart : (Text.lower (Text.trim raw.toList)).head? ≠ some 'n' := by
    rw [Text.lower, List.head?_map]
    intro hn
    obtain ⟨c, hc, hcn⟩ := Option.map_eq_some_iff.mp hn
    exact hhead c hc hcn
  unfold parseSentinel
  dsimp only
  refine if_neg ?_
  rintro (hempty | hprefix | hword)
  · rw [hempty] at hmem
    cases hmem
  · obtain ⟨rest, hrest⟩ := List.isPrefixOf_iff_prefix.mp hprefix
    exact hstart (by rw [← hrest]; rfl)
  · simp only [List.mem_cons, List.not_mem_nil, or_false] at hword
    rcases hword with hword | hword | hword
    · exact hstart (by rw [hword]; rfl)
    · rw [hword] at hlower
      rw [List.mem_singleton.mp hlower] at hdigit
      cases hdigit
    · rw [hword] at hlower
      have hdash : d = '-' := by simpa using hlower
      rw [hdash] at hdigit
      cases hdigit

/-- What a sentinel filter lets pass, it lets pass again. -/
theorem parseSentinel_idem {raw value : String} (h : parseSentinel raw = some value) :
    parseSentinel value = some value := by
  unfold parseSentinel at h
  dsimp only at h
  split_ifs at h with hstated
  have hvalue : Text.trim raw.toList = value.toList := by
    rw [← Option.some.inj h, String.toList_ofList]
  have htrim : Text.trim value.toList = value.toList := by
    rw [← hvalue]
    exact Text.trim_idem _
  unfold parseSentinel
  dsimp only
  rw [htrim, ← hvalue, if_neg hstated, hvalue, String.ofList_toList]

theorem parseNumeric_of_parseSentinel {raw value : String} (h : parseSentinel raw = some value) :
    parseNumeric value = parseNumeric raw := by
  unfold parseNumeric
  rw [parseSentinel_idem h, h]

/-! ### The numeric prefix -/

section

variable {negative : Bool} {whole : List Char} {fraction : Option (List Char)}

theorem validUnsigned_numeral (h : Spelled whole fraction) :
    validUnsigned (numeral false whole fraction) = true := by
  unfold validUnsigned
  rw [splitOn_unsigned h]
  rcases fraction with - | digits
  · have hne := h.some_digit.resolve_right (by rintro ⟨_, ⟨⟩, _⟩)
    exact decide_eq_true ⟨hne, h.whole_digits⟩
  · refine decide_eq_true ⟨?_, h.whole_digits, h.fraction_digits digits rfl⟩
    simpa using h.some_digit

theorem withoutSign_numeral (h : Spelled whole fraction) :
    withoutSign (numeral negative whole fraction) = numeral false whole fraction := by
  rcases negative with - | -
  · unfold withoutSign
    split
    · rename_i text htext
      exact absurd (by rw [List.append_nil, htext]) (unsigned_append_ne h [] text)
    · rfl
  · rfl

theorem isNumeric_unsigned (h : Spelled whole fraction) :
    ∀ c ∈ numeral false whole fraction, isNumeric c = true := by
  intro c hc
  have hdigit : ∀ digits : List Char, digits.all Char.isDigit = true → c ∈ digits →
      isNumeric c = true := by
    intro digits hall hmem
    rw [isNumeric, List.all_eq_true.mp hall c hmem, Bool.true_or]
  rcases List.mem_append.mp hc with hc | hc
  · exact hdigit whole h.whole_digits hc
  · rcases fraction with - | digits
    · cases hc
    · rcases List.mem_cons.mp hc with rfl | hc
      · rfl
      · exact hdigit digits (h.fraction_digits digits rfl) hc

/-- The prefix of a text that starts with a numeral, and goes on with something
else, is the numeral. -/
theorem numericPrefix_append (h : Spelled whole fraction) {rest : List Char}
    (hrest : ∀ c ∈ rest.head?, isNumeric c = false) :
    numericPrefix (numeral negative whole fraction ++ rest) = numeral negative whole fraction := by
  have htake : (numeral false whole fraction ++ rest).takeWhile isNumeric
      = numeral false whole fraction := by
    rw [List.takeWhile_append_of_pos (isNumeric_unsigned h)]
    rcases rest with - | ⟨c, rest⟩
    · simp
    · rw [List.takeWhile_cons_of_neg (by rw [hrest c rfl]; exact Bool.false_ne_true),
        List.append_nil]
  rcases negative with - | -
  · unfold numericPrefix
    split
    · rename_i text htext
      exact absurd htext (unsigned_append_ne h rest text)
    · exact htake
  · exact congrArg ('-' :: ·) htake

/-- A numeral holds a digit. -/
theorem exists_digit (h : Spelled whole fraction) :
    ∃ d ∈ numeral false whole fraction, d.isDigit = true := by
  have hfirst : ∀ digits : List Char, digits.all Char.isDigit = true → digits ≠ [] →
      ∃ d ∈ digits, d.isDigit = true := by
    intro digits hall hne
    exact ⟨digits.head hne, List.head_mem hne, List.all_eq_true.mp hall _ (List.head_mem hne)⟩
  rcases h.some_digit with hne | ⟨digits, rfl, hne⟩
  · obtain ⟨d, hd, hdigit⟩ := hfirst whole h.whole_digits hne
    exact ⟨d, List.mem_append_left _ hd, hdigit⟩
  · obtain ⟨d, hd, hdigit⟩ := hfirst digits (h.fraction_digits digits rfl) hne
    exact ⟨d, List.mem_append_right _ (List.mem_cons_of_mem _ hd), hdigit⟩

/-- **The numeric prefix**: of dollar signs, a sign, and digits with commas
among them, up to a character that is none of these, `parse_numeric` keeps the
numeral. -/
theorem parseNumeric_front (h : Spelled whole fraction) {raw : String}
    {dollars front tail : List Char}
    (hraw : raw.toList = dollars ++ ((if negative then ['-'] else []) ++ front) ++ tail)
    (hdollars : ∀ c ∈ dollars, c = '$')
    (hfront : front.filter (· ≠ ',') = numeral false whole fraction)
    (htail : ∀ c ∈ tail.head?, isNumeric c = false ∧ c ≠ ',') :
    parseNumeric raw = some (String.ofList (numeral negative whole fraction)) := by
  set sign : List Char := if negative then ['-'] else [] with hsign
  -- the characters before the tail, and the first of them after the dollars
  have hsigned : ∀ c ∈ sign ++ front, Text.isWhite c = false ∧ c ≠ '$' ∧ c.toLower ≠ 'n' := by
    intro c hc
    rcases List.mem_append.mp hc with hc | hc
    · have hminus : c = '-' := by
        rw [hsign] at hc
        split_ifs at hc
        · exact List.mem_singleton.mp hc
        · cases hc
      rw [hminus]
      decide
    · by_cases hcomma : c = ','
      · rw [hcomma]
        decide
      · have hmem : c ∈ numeral false whole fraction := by
          rw [← hfront]
          exact List.mem_filter.mpr ⟨hc, decide_eq_true hcomma⟩
        obtain ⟨hwhite, hdollar, -, hn⟩ := numeric_char (isNumeric_unsigned h c hmem)
        exact ⟨hwhite, hdollar, hn⟩
  have hbody : ∀ c ∈ dollars ++ (sign ++ front), Text.isWhite c = false ∧ c.toLower ≠ 'n' := by
    intro c hc
    rcases List.mem_append.mp hc with hc | hc
    · rw [hdollars c hc]
      decide
    · exact ⟨(hsigned c hc).1, (hsigned c hc).2.2⟩
  obtain ⟨d, hd, hdigit⟩ := exists_digit h
  have hdfront : d ∈ sign ++ front := by
    rw [← hfront] at hd
    exact List.mem_append_right _ (List.mem_filter.mp hd).1
  obtain ⟨c, rest, hcons⟩ := List.exists_cons_of_ne_nil (List.ne_nil_of_mem hdfront)
  obtain ⟨c', hhead⟩ : ∃ c', (dollars ++ (sign ++ front)).head? = some c' := by
    rw [hcons]
    rcases dollars with - | ⟨c', dollars⟩ <;> exact ⟨_, rfl⟩
  have htrim : Text.trim raw.toList = dollars ++ (sign ++ front) ++ tail.rdropWhile Text.isWhite := by
    rw [hraw]
    exact Text.trim_append hhead fun c hc => (hbody c hc).1
  have hstated : parseSentinel raw = some (String.ofList (Text.trim raw.toList)) := by
    refine parseSentinel_eq_trim ?_ hdigit ?_
    · rw [htrim]
      exact List.mem_append_left _ (List.mem_append_right _ hdfront)
    · intro c hc
      rw [htrim, List.head?_append, hhead, Option.some_or, Option.mem_some] at hc
      rw [← hc]
      exact (hbody c' (List.mem_of_head? hhead)).2
  have hdrop : (Text.trim raw.toList).dropWhile (· = '$')
      = sign ++ front ++ tail.rdropWhile Text.isWhite := by
    rw [htrim, List.append_assoc, List.dropWhile_append_of_pos fun c hc =>
      decide_eq_true (hdollars c hc), hcons, List.cons_append, List.dropWhile_cons_of_neg]
    have hc := (hsigned c (by rw [hcons]; exact List.mem_cons_self)).2.1
    exact fun heq => hc (of_decide_eq_true heq)
  have hclean : ((Text.trim raw.toList).dropWhile (· = '$')).filter (· ≠ ',')
      = numeral negative whole fraction ++
        (tail.rdropWhile Text.isWhite).filter (· ≠ ',') := by
    rw [hdrop, List.filter_append, List.filter_append, hfront]
    rcases negative with - | - <;> rfl
  have hrest : ∀ c ∈ ((tail.rdropWhile Text.isWhite).filter (· ≠ ',')).head?,
      isNumeric c = false := by
    obtain ⟨more, hmore⟩ := List.rdropWhile_prefix Text.isWhite tail
    rcases hkept : tail.rdropWhile Text.isWhite with - | ⟨c, kept⟩
    · rintro c ⟨⟩
    · rw [hkept] at hmore
      rw [← hmore] at htail
      obtain ⟨hnumeric, hcomma⟩ := htail c rfl
      rw [List.filter_cons, if_pos (decide_eq_true hcomma)]
      rintro _ ⟨⟩
      exact hnumeric
  unfold parseNumeric
  rw [hstated, Option.bind_some, String.toList_ofList, hclean]
  dsimp only
  rw [numericPrefix_append h hrest, withoutSign_numeral h, if_pos (validUnsigned_numeral h)]

theorem numeral_eq_append (negative : Bool) (whole : List Char) (fraction : Option (List Char)) :
    numeral negative whole fraction
      = (if negative then ['-'] else []) ++ numeral false whole fraction :=
  List.append_assoc _ _ _

/-- The case without dollars and commas. -/
theorem parseNumeric_numeral (h : Spelled whole fraction) {raw : String} {tail : List Char}
    (hraw : raw.toList = numeral negative whole fraction ++ tail)
    (htail : ∀ c ∈ tail.head?, isNumeric c = false ∧ c ≠ ',') :
    parseNumeric raw = some (String.ofList (numeral negative whole fraction)) := by
  have hfront : raw.toList
      = [] ++ ((if negative then ['-'] else []) ++ numeral false whole fraction) ++ tail := by
    rw [hraw, numeral_eq_append]
    rfl
  refine parseNumeric_front h hfront (by rintro c ⟨⟩) ?_ htail
  refine List.filter_eq_self.mpr fun c hc => decide_eq_true ?_
  rintro rfl
  cases isNumeric_unsigned h ',' hc

/-- A numeral of digits alone denotes the natural number they spell. -/
theorem natural_unsigned {n : ℕ} (h : Spelled whole fraction)
    (hnatural : Text.natural (numeral false whole fraction) = some n) :
    Literal.magnitude ⟨negative, whole, fraction.getD []⟩ = n := by
  unfold Text.natural at hnatural
  split_ifs at hnatural with hdigits
  rcases fraction with - | digits
  · rw [← Option.some.inj hnatural]
    simp [Literal.magnitude, digitsValue, numeral]
  · have hpoint : '.' ∈ numeral false whole (some digits) :=
      List.mem_append_right _ List.mem_cons_self
    exact absurd (List.all_eq_true.mp hdigits.2 '.' hpoint) (by decide)

/-- A numeral that parses as an integer denotes it. -/
theorem value_of_parseInt {low high n : ℤ} (h : Spelled whole fraction)
    (hint : Text.parseInt low high (numeral negative whole fraction) = some n) :
    Literal.value ⟨negative, whole, fraction.getD []⟩ = n := by
  have hparsed := (Option.filter_eq_some_iff.mp hint).1
  have hnatural : ∃ k : ℕ, Text.natural (numeral false whole fraction) = some k ∧
      (if negative then -(k : ℤ) else k) = n := by
    rcases negative with - | -
    · obtain ⟨c, hc, hclass⟩ := head?_unsigned h
      split at hparsed
      · rename_i digits htext
        rw [htext] at hc
        rw [← Option.some.inj hc] at hclass
        exact absurd hclass (by decide)
      · rename_i digits htext
        rw [htext] at hc
        rw [← Option.some.inj hc] at hclass
        exact absurd hclass (by decide)
      · obtain ⟨m, hm, hn⟩ := Option.map_eq_some_iff.mp hparsed
        obtain ⟨k, hk, hkm⟩ := Option.bind_eq_some_iff.mp hm
        exact ⟨k, hk, (Option.some.inj hkm).trans hn⟩
    · obtain ⟨m, hm, hn⟩ := Option.map_eq_some_iff.mp hparsed
      obtain ⟨k, hk, hkm⟩ := Option.bind_eq_some_iff.mp hm
      exact ⟨k, hk, (congrArg Neg.neg (Option.some.inj hkm)).trans hn⟩
  obtain ⟨k, hk, hn⟩ := hnatural
  rw [← hn, Literal.value, natural_unsigned h hk]
  rcases negative with - | - <;> simp

end

end AircraftApi
