/-
AircraftApi/Validators.lean

`If-None-Match` on the reference catalogs: which field values name the validator
that was issued.

The field is one `*`, or entity-tags in comma-separated lists over any number of
field lines, empty elements allowed (`IfNoneMatch`).  The code cuts the lines that
`to_str` reads at every comma, those inside a tag too, and compares the first 64
texts.  A tag with a comma is cut into texts that name nothing, unless one of them
is a star (`elementNames_iff`); so what decides is the first 64 texts of the ASCII
lines (`if_none_match_names`).
-/
import AircraftApi.ImportService
import AircraftApi.Runs
import AircraftApi.Text

namespace AircraftApi

namespace Reference

open ImportService (hexByte)

/-! ### The route's comparison -/

/-- `MAX_VALIDATORS`. -/
def maxValidators : ℕ := 64

/-- The digits between the quotes of an issued tag. -/
def tagDigits (sha256 : List UInt8 → List UInt8) (body : List UInt8) : List Char :=
  (sha256 body).flatMap hexByte

/-- The tag of a body: its digest, in quotes. -/
def entityTag (sha256 : List UInt8 → List UInt8) (body : List UInt8) : String :=
  String.ofList ('"' :: tagDigits sha256 body ++ ['"'])

/-- `strip_prefix("W/")`, or the text itself. -/
def withoutWeak : List Char → List Char
  | 'W' :: '/' :: rest => rest
  | candidate => candidate

/-- The candidate names the tag, or every one. -/
def namesTag (etag : String) (candidate : List Char) : Bool :=
  candidate = ['*'] ∨ withoutWeak candidate = etag.toList

/-- On the values of the field, in order; `toStr` is `HeaderValue::to_str`. -/
def ifNoneMatchMatches (toStr : List UInt8 → Option String) (values : List (List UInt8))
    (etag : String) : Bool :=
  let pieces := (values.filterMap toStr).flatMap fun value => value.toList.splitOn ','
  ((pieces.take maxValidators).map Text.trim).any (namesTag etag)

/-! ### The grammar -/

/-- `etagc`: no quote, no space, no control character. -/
def IsEtagc (b : UInt8) : Prop := b = 0x21 ∨ (0x23 ≤ b ∧ b ≤ 0x7E) ∨ 0x80 ≤ b

instance : DecidablePred IsEtagc := fun b =>
  inferInstanceAs (Decidable (b = 0x21 ∨ (0x23 ≤ b ∧ b ≤ 0x7E) ∨ 0x80 ≤ b))

/-- `entity-tag`, by what stands between its quotes. -/
structure EntityTag where
  weak : Bool
  opaqueTag : List UInt8
  valid : ∀ b ∈ opaqueTag, IsEtagc b

/-- The tag as it is sent. -/
def EntityTag.bytes (tag : EntityTag) : List UInt8 :=
  (if tag.weak then [0x57, 0x2F] else []) ++ 0x22 :: (tag.opaqueTag ++ [0x22])

/-- An element of a list, which may be empty, in optional white space. -/
structure ListElement where
  leading : List UInt8
  tag : Option EntityTag
  trailing : List UInt8
  blank : ∀ b ∈ leading ++ trailing, b = 0x20 ∨ b = 0x09

/-- The element as it is sent. -/
def ListElement.bytes (element : ListElement) : List UInt8 :=
  element.leading ++ element.tag.elim [] EntityTag.bytes ++ element.trailing

/-- A header line: elements with commas between them. -/
structure FieldLine where
  elements : List ListElement
  nonempty : elements ≠ []

/-- The line as it is sent. -/
def FieldLine.bytes (line : FieldLine) : List UInt8 :=
  [0x2C].intercalate (line.elements.map ListElement.bytes)

/-- What a client sends: a star, or lines of tags. -/
inductive IfNoneMatch
  | any
  | tags (lines : List FieldLine)

/-- The field values a request sends. -/
def IfNoneMatch.values : IfNoneMatch → List (List UInt8)
  | any => [[0x2A]]
  | tags lines => lines.map FieldLine.bytes

/-! ### Texts of the grammar -/

/-- The character of a byte of an ASCII text. -/
def toChar (b : UInt8) : Char := Char.ofNat b.toNat

/-- A printable character, a space or a tab. -/
def isVisibleAscii (b : UInt8) : Bool := (0x20 ≤ b ∧ b < 0x7F) ∨ b = 0x09

/-- `HeaderValue::to_str` reads such texts and no others. -/
def ReadsVisibleAscii (toStr : List UInt8 → Option String) : Prop :=
  ∀ value, toStr value =
    if value.all isVisibleAscii then some (String.ofList (value.map toChar)) else none

/-- The line is ASCII. -/
def FieldLine.isAscii (line : FieldLine) : Bool := line.bytes.all fun b => b < 0x80

/-- The characters of the tag. -/
def EntityTag.text (tag : EntityTag) : List Char := tag.opaqueTag.map toChar

/-- The elements of the ASCII lines. -/
def listed (lines : List FieldLine) : List ListElement :=
  (lines.filter FieldLine.isAscii).flatMap FieldLine.elements

/-- How many texts the commas of an element make. -/
def ListElement.pieces (element : ListElement) : ℕ :=
  1 + element.tag.elim 0 fun tag => tag.text.count ','

/-- The characters of the element. -/
def ListElement.chars (element : ListElement) : List Char := element.bytes.map toChar

/-- The field names the issued tag: it is `*`, or a tag with the digits stands on an ASCII
line, and not behind the first 64 texts of these lines. -/
def IfNoneMatch.Names (digits : List Char) : IfNoneMatch → Prop
  | any => True
  | tags lines => ∃ before element after tag, listed lines = before ++ element :: after ∧
      (before.map ListElement.pieces).sum < maxValidators ∧
      element.tag = some tag ∧ tag.text = digits

/-- No text between two commas of a tag is a star. -/
def EntityTag.NoStar (tag : EntityTag) : Prop := ¬ ",*,".toList <:+: tag.text

instance (tag : EntityTag) : Decidable tag.NoStar :=
  inferInstanceAs (Decidable (¬ ",*,".toList <:+: tag.text))

/-- So in every tag that is read. -/
def IfNoneMatch.NoStar : IfNoneMatch → Prop
  | any => True
  | tags lines => ∀ element ∈ listed lines, ∀ tag ∈ element.tag, tag.NoStar

section

variable {sha256 : List UInt8 → List UInt8} {body : List UInt8} {line : FieldLine}
  {element : ListElement} {tag : EntityTag} {b : UInt8} {c : Char} {piece digits : List Char}

/-- The printable characters of a tag. -/
theorem isEtagc_spec (h : IsEtagc b) (hascii : b < 0x80) :
    isVisibleAscii b = true ∧ toChar b ≠ '"' ∧ Text.isWhite (toChar b) = false := by
  have hall : ∀ n : Fin 128, (UInt8.ofNat n = 0x21 ∨ (0x23 ≤ UInt8.ofNat n ∧ UInt8.ofNat n ≤ 0x7E)) →
      isVisibleAscii (UInt8.ofNat n) = true ∧ toChar (UInt8.ofNat n) ≠ '"' ∧
        Text.isWhite (toChar (UInt8.ofNat n)) = false := by
    decide +kernel
  have hlt : b.toNat < 128 := UInt8.lt_iff_toNat_lt.mp hascii
  have hb := hall ⟨b.toNat, hlt⟩
  rw [UInt8.ofNat_toNat] at hb
  refine hb ?_
  rcases h with h | h | h
  · exact .inl h
  · exact .inr h
  · exact absurd hascii (UInt8.not_lt.mpr h)

theorem isVisibleAscii_bytes (hascii : ∀ b ∈ element.bytes, b < 0x80) :
    ∀ b ∈ element.bytes, isVisibleAscii b = true := by
  have hblank : ∀ b ∈ element.leading ++ element.trailing, isVisibleAscii b = true := by
    intro b hb
    rcases element.blank b hb with rfl | rfl
    · decide
    · decide
  intro b hb
  have hlt := hascii b hb
  simp only [ListElement.bytes, List.mem_append] at hb
  rcases hb with (hb | hb) | hb
  · exact hblank b (List.mem_append_left _ hb)
  · rcases htag : element.tag with - | tag
    · simp [htag] at hb
    · simp only [htag, Option.elim_some, EntityTag.bytes, List.mem_append, List.mem_cons,
        List.not_mem_nil, or_false] at hb
      rcases hb with hb | rfl | hb | rfl
      · split_ifs at hb
        · rcases List.mem_pair.mp hb with rfl | rfl
          · decide
          · decide
        · cases hb
      · decide
      · exact (isEtagc_spec (tag.valid b hb) hlt).1
      · decide
  · exact hblank b (List.mem_append_right _ hb)

theorem ascii_element (h : line.isAscii = true) (hmem : element ∈ line.elements) :
    ∀ b ∈ element.bytes, b < 0x80 := by
  intro b hb
  have hline := List.all_eq_true.mp h b
    (Runs.mem_intercalate (List.mem_map_of_mem hmem) hb)
  exact of_decide_eq_true hline

/-- `to_str` reads the ASCII lines. -/
theorem toStr_line {toStr : List UInt8 → Option String} (htoStr : ReadsVisibleAscii toStr) :
    toStr line.bytes
      = if line.isAscii then some (String.ofList (line.bytes.map toChar)) else none := by
  rw [htoStr]
  refine if_congr ?_ rfl rfl
  rw [FieldLine.isAscii, List.all_eq_true, List.all_eq_true]
  constructor
  · intro h b hb
    have hvisible := h b hb
    simp only [isVisibleAscii, decide_eq_true_eq] at hvisible ⊢
    rcases hvisible with ⟨-, hlt⟩ | rfl
    · exact UInt8.lt_trans hlt (by decide)
    · decide
  · intro h
    refine Runs.forall_mem_intercalate (by decide) fun bytes hbytes => ?_
    obtain ⟨element, hmem, rfl⟩ := List.mem_map.mp hbytes
    exact isVisibleAscii_bytes (ascii_element (List.all_eq_true.mpr h) hmem)

/-! ### What an element is cut into -/

/-- The tag as it is read. -/
def EntityTag.chars (tag : EntityTag) : List Char :=
  (if tag.weak then ['W', '/'] else []) ++ '"' :: (tag.text ++ ['"'])

theorem map_bytes (tag : EntityTag) : tag.bytes.map toChar = tag.chars := by
  unfold EntityTag.bytes EntityTag.chars EntityTag.text
  rw [List.map_append, List.map_cons, List.map_append, apply_ite (List.map toChar)]
  rfl

theorem chars_eq (element : ListElement) : element.chars = element.leading.map toChar ++
    (element.tag.elim [] EntityTag.chars ++ element.trailing.map toChar) := by
  rw [ListElement.chars, ListElement.bytes, List.map_append, List.map_append, List.append_assoc]
  rcases element.tag with - | tag
  · rfl
  · rw [Option.elim_some, Option.elim_some, map_bytes]

theorem blank_spec (hc : c ∈ element.leading.map toChar ∨ c ∈ element.trailing.map toChar) :
    Text.isWhite c = true ∧ c ≠ ',' ∧ c ≠ '"' := by
  obtain ⟨b, hb, rfl⟩ : ∃ b, b ∈ element.leading ++ element.trailing ∧ toChar b = c := by
    simpa [List.mem_map, or_and_right, exists_or] using hc
  rcases element.blank b hb with rfl | rfl
  · decide
  · decide

theorem text_spec (hascii : ∀ b ∈ element.bytes, b < 0x80) (htag : element.tag = some tag)
    (hc : c ∈ tag.text) : c ≠ '"' ∧ Text.isWhite c = false := by
  obtain ⟨b, hb, rfl⟩ := List.mem_map.mp hc
  refine (isEtagc_spec (tag.valid b hb) (hascii b ?_)).2
  simp [ListElement.bytes, htag, EntityTag.bytes, hb]

theorem count_comma (element : ListElement) :
    (element.chars.splitOn ',').length = element.pieces := by
  have hleading : (element.leading.map toChar).count ',' = 0 :=
    List.count_eq_zero.mpr fun h => (blank_spec (.inl h)).2.1 rfl
  have htrailing : (element.trailing.map toChar).count ',' = 0 :=
    List.count_eq_zero.mpr fun h => (blank_spec (.inr h)).2.1 rfl
  rw [Runs.length_splitOn, chars_eq, List.count_append, List.count_append, hleading, htrailing,
    Nat.zero_add, Nat.add_zero, ListElement.pieces]
  congr 1
  rcases element.tag with - | tag
  · rfl
  · rw [Option.elim_some, Option.elim_some, EntityTag.chars, List.count_append,
      List.count_cons_of_ne (by decide), List.count_append]
    cases tag.weak <;> simp

/-! ### What a text names -/

/-- An issued tag. -/
def quoted (digits : List Char) : String := String.ofList ('"' :: digits ++ ['"'])

theorem withoutWeak_sublist (candidate : List Char) :
    (withoutWeak candidate).Sublist candidate := by
  unfold withoutWeak
  split
  · exact (List.sublist_cons_self _ _).trans (List.sublist_cons_self _ _)
  · exact List.Sublist.refl _

/-- A text with one quote is no issued tag. -/
theorem withoutWeak_ne (h : piece.count '"' ≤ 1) :
    withoutWeak (Text.trim piece) ≠ (quoted digits).toList := by
  intro heq
  have hsub : (withoutWeak (Text.trim piece)).Sublist piece :=
    (withoutWeak_sublist _).trans (Text.strip_infix _ _).sublist
  have hcount := hsub.count_le '"'
  rw [heq, quoted, String.toList_ofList, List.count_append, List.count_cons_self,
    List.count_singleton_self] at hcount
  omega

theorem namesTag_of_count (hmem : '"' ∈ piece) (h : piece.count '"' ≤ 1) :
    namesTag (quoted digits) (Text.trim piece) = false := by
  have hquote : '"' ∈ Text.trim piece := Text.mem_strip hmem (by decide)
  simp only [namesTag, decide_eq_false_iff_not, not_or]
  refine ⟨fun hstar => ?_, withoutWeak_ne h⟩
  rw [hstar] at hquote
  simp at hquote

theorem namesTag_nil : namesTag (quoted digits) [] = false := by
  simp [namesTag, withoutWeak, quoted]

theorem namesTag_chars : namesTag (quoted digits) tag.chars = true ↔ tag.text = digits := by
  have hwithout : withoutWeak tag.chars = '"' :: (tag.text ++ ['"']) := by
    unfold EntityTag.chars
    split_ifs <;> rfl
  have hstar : tag.chars ≠ ['*'] := by
    unfold EntityTag.chars
    split_ifs <;> simp
  rw [namesTag, decide_eq_true_eq, hwithout, quoted, String.toList_ofList]
  simp [hstar]

theorem trim_chars : Text.trim (element.leading.map toChar ++ (tag.chars ++
    element.trailing.map toChar)) = tag.chars := by
  have hlast : tag.chars.getLast? = some '"' := by
    rw [EntityTag.chars, ← List.cons_append, ← List.append_assoc, List.getLast?_append]
    rfl
  refine Text.strip_append (fun c hc => (blank_spec (.inl hc)).1)
    (fun c hc => (blank_spec (.inr hc)).1) ?_ ?_
  · unfold EntityTag.chars
    split_ifs <;> simp <;> decide
  · rw [hlast]
    simp
    decide

/-- A tag with a comma is cut into texts that name no issued tag, and none of which is a
star. -/
theorem names_of_comma (hascii : ∀ b ∈ element.bytes, b < 0x80) (htag : element.tag = some tag)
    (hstar : tag.NoStar) (hcomma : ',' ∈ tag.text) (hpiece : piece ∈ element.chars.splitOn ',') :
    namesTag (quoted digits) (Text.trim piece) = false := by
  obtain ⟨u, v, htext, hu⟩ := List.eq_append_cons_of_mem hcomma
  have hplain : ∀ c ∈ tag.text, c ≠ '"' ∧ Text.isWhite c = false :=
    fun c hc => text_spec hascii htag hc
  rw [htext] at hplain
  have hchars : element.chars = (element.leading.map toChar ++
      ((if tag.weak then ['W', '/'] else []) ++ '"' :: u)) ++ ',' :: (v ++ '"' ::
      element.trailing.map toChar) := by
    rw [chars_eq, htag, Option.elim_some, EntityTag.chars, htext]
    simp
  have hfirst : ',' ∉ element.leading.map toChar ++
      ((if tag.weak then ['W', '/'] else []) ++ '"' :: u) := by
    have hleading : ',' ∉ element.leading.map toChar := fun h => (blank_spec (.inl h)).2.1 rfl
    have hweak : ',' ∉ (if tag.weak then ['W', '/'] else []) := by cases tag.weak <;> decide
    simp [hleading, hweak, hu]
  have htrailing : ',' ∉ '"' :: element.trailing.map toChar := by
    have h : ',' ∉ element.trailing.map toChar := fun h => (blank_spec (.inr h)).2.1 rfl
    simpa using h
  rw [hchars, List.splitOn_append_cons_self_of_not_mem hfirst, List.mem_cons] at hpiece
  rcases hpiece with rfl | hpiece
  · -- up to the first comma: the opening quote
    have hleading : (element.leading.map toChar).count '"' = 0 :=
      List.count_eq_zero.mpr fun h => (blank_spec (.inl h)).2.2 rfl
    have hrest : u.count '"' = 0 :=
      List.count_eq_zero.mpr fun h => (hplain _ (List.mem_append_left _ h)).1 rfl
    refine namesTag_of_count (by simp) ?_
    rw [List.count_append, List.count_append, List.count_cons_self, hleading, hrest]
    cases tag.weak <;> simp
  · rcases Runs.splitOn_append_cases htrailing hpiece with ⟨w, rfl, hw⟩ | hbetween
    · -- from the last comma on: the closing quote
      have hback : (element.trailing.map toChar).count '"' = 0 :=
        List.count_eq_zero.mpr fun h => (blank_spec (.inr h)).2.2 rfl
      have hrest : w.count '"' = 0 := List.count_eq_zero.mpr fun h =>
        (hplain _ (List.mem_append_right _ (List.mem_cons_of_mem _ (hw h)))).1 rfl
      refine namesTag_of_count (by simp) ?_
      rw [List.count_append, List.count_cons_self, hback, hrest]
    · -- between two commas
      have hin : ',' :: (piece ++ [',']) <:+: u ++ ',' :: v :=
        hbetween.trans (List.suffix_append _ _).isInfix
      have hmem : ∀ c ∈ piece, c ≠ '"' ∧ Text.isWhite c = false :=
        fun c hc => hplain c (hin.subset (by simp [hc]))
      have htrim : Text.trim piece = piece := by
        have h : Text.strip Text.isWhite ([] ++ (piece ++ [])) = piece :=
          Text.strip_append (by simp) (by simp)
            (fun c hc => (hmem c (List.mem_of_mem_head? hc)).2)
            (fun c hc => (hmem c (List.mem_of_mem_getLast? hc)).2)
        simpa [Text.trim] using h
      have hcount : piece.count '"' = 0 := List.count_eq_zero.mpr fun h => (hmem _ h).1 rfl
      simp only [namesTag, decide_eq_false_iff_not, not_or]
      refine ⟨fun heq => ?_, withoutWeak_ne (by omega)⟩
      rw [htrim] at heq
      rw [EntityTag.NoStar, htext] at hstar
      rw [heq] at hin
      exact hstar hin

/-- What names the issued tag among the texts of an element is the element's tag. -/
theorem elementNames_iff (hascii : ∀ b ∈ element.bytes, b < 0x80)
    (hstar : ∀ tag ∈ element.tag, tag.NoStar) (hdigits : ',' ∉ digits) :
    (∃ piece ∈ element.chars.splitOn ',', namesTag (quoted digits) (Text.trim piece) = true) ↔
      ∃ tag, element.tag = some tag ∧ tag.text = digits := by
  have hleading : ',' ∉ element.leading.map toChar := fun h => (blank_spec (.inl h)).2.1 rfl
  have htrailing : ',' ∉ element.trailing.map toChar := fun h => (blank_spec (.inr h)).2.1 rfl
  rcases htag : element.tag with - | tag
  · have htrim : Text.trim (element.leading.map toChar ++ ([] ++ element.trailing.map toChar))
        = [] :=
      Text.strip_append (fun c hc => (blank_spec (.inl hc)).1)
        (fun c hc => (blank_spec (.inr hc)).1) (by simp) (by simp)
    rw [List.nil_append] at htrim
    rw [chars_eq, htag, Option.elim_none, List.splitOn_eq_singleton (by simp [hleading, htrailing])]
    simp [htrim, namesTag_nil]
  · by_cases hcomma : ',' ∈ tag.text
    · refine iff_of_false ?_ ?_
      · rintro ⟨piece, hpiece, hnames⟩
        rw [names_of_comma hascii htag (hstar tag htag) hcomma hpiece] at hnames
        cases hnames
      · rintro ⟨tag', htag', rfl⟩
        cases htag'
        exact hdigits hcomma
    · have hplain : ',' ∉ tag.chars := by
        unfold EntityTag.chars
        cases tag.weak <;> simp [hcomma]
      rw [chars_eq, htag, Option.elim_some,
        List.splitOn_eq_singleton (by simp [hleading, htrailing, hplain])]
      simp [trim_chars, namesTag_chars]

/-! ### What a field names -/

/-- A search among the first texts, where an element that is found is one text. -/
theorem any_take_flatMap {ε π : Type*} {pieces : ε → List π} {names : π → Bool}
    {Good : ε → Prop} {elements : List ε}
    (hnames : ∀ e ∈ elements, (∃ p ∈ pieces e, names p = true) ↔ Good e)
    (hone : ∀ e ∈ elements, Good e → (pieces e).length = 1) (n : ℕ) :
    ((elements.flatMap pieces).take n).any names = true ↔ ∃ before e after,
      elements = before ++ e :: after ∧ (before.map fun e => (pieces e).length).sum < n ∧
      Good e := by
  induction elements generalizing n with
  | nil => simp
  | cons first rest ih =>
      obtain ⟨hfirst, hrest⟩ := List.forall_mem_cons.mp hnames
      obtain ⟨hfirstOne, hrestOne⟩ := List.forall_mem_cons.mp hone
      rw [List.flatMap_cons, List.take_append, List.any_append, Bool.or_eq_true,
        ih hrest hrestOne]
      constructor
      · rintro (h | ⟨before, e, after, rfl, hsum, hgood⟩)
        · obtain ⟨p, hp, hnamed⟩ := List.any_eq_true.mp h
          -- what is found among the first pieces leaves room for at least one
          have hpos : 0 < n := by
            rcases n.eq_zero_or_pos with rfl | h
            · simp at hp
            · exact h
          exact ⟨[], first, rest, rfl, hpos, hfirst.mp ⟨p, List.mem_of_mem_take hp, hnamed⟩⟩
        · refine ⟨first :: before, e, after, rfl, ?_, hgood⟩
          rw [List.map_cons, List.sum_cons]
          omega
      · rintro ⟨before, e, after, helements, hsum, hgood⟩
        -- the element is the first one, or one of the rest
        rcases before with - | ⟨other, before⟩
        · obtain ⟨rfl, rfl⟩ := List.cons.inj helements
          obtain ⟨p, hp, hnamed⟩ := hfirst.mpr hgood
          left
          rw [List.take_of_length_le (by rw [hfirstOne hgood]; exact hsum)]
          exact List.any_eq_true.mpr ⟨p, hp, hnamed⟩
        · obtain ⟨rfl, rfl⟩ := List.cons.inj helements
          rw [List.map_cons, List.sum_cons] at hsum
          exact .inr ⟨before, e, after, rfl, by omega, hgood⟩

theorem comma_tagDigits (sha256 : List UInt8 → List UInt8) (body : List UInt8) :
    ',' ∉ tagDigits sha256 body := by
  have hall : ∀ n : Fin 256, ',' ∉ hexByte (UInt8.ofNat n) := by decide +kernel
  intro h
  obtain ⟨b, -, hb⟩ := List.mem_flatMap.mp h
  have hnot := hall ⟨b.toNat, b.toNat_lt⟩
  rw [UInt8.ofNat_toNat] at hnot
  exact hnot hb

/-- The texts the ASCII lines are cut into are those their elements are cut into. -/
theorem pieces_lines {toStr : List UInt8 → Option String} (htoStr : ReadsVisibleAscii toStr)
    (lines : List FieldLine) :
    ((lines.map FieldLine.bytes).filterMap toStr).flatMap (fun value => value.toList.splitOn ',')
      = (listed lines).flatMap fun element => element.chars.splitOn ',' := by
  induction lines with
  | nil => rfl
  | cons line lines ih =>
      rw [List.map_cons, List.filterMap_cons, toStr_line htoStr, listed, List.filter_cons]
      cases line.isAscii
      · exact ih
      · have hline : (line.bytes.map toChar).splitOn ','
            = line.elements.flatMap fun element => element.chars.splitOn ',' := by
          have hmap : line.bytes.map toChar
              = [','].intercalate (line.elements.map ListElement.chars) := by
            rw [FieldLine.bytes, Runs.map_intercalate, List.map_map]
            rfl
          rw [hmap, Runs.splitOn_intercalate (by simpa using line.nonempty), List.flatMap_map]
        simp only [if_true, List.flatMap_cons, String.toList_ofList, hline, List.flatMap_append]
        rw [ih]
        rfl

theorem ascii_listed {lines : List FieldLine} (h : element ∈ listed lines) :
    ∀ b ∈ element.bytes, b < 0x80 := by
  obtain ⟨line, hline, hmem⟩ := List.mem_flatMap.mp h
  exact ascii_element (List.mem_filter.mp hline).2 hmem

end

/-- **If-None-Match**: for every field of the grammar in whose tags no star stands between
two commas, and for every validator, the comparison holds exactly when the field names the
validator. -/
theorem if_none_match_names {toStr : List UInt8 → Option String}
    (htoStr : ReadsVisibleAscii toStr) (sha256 : List UInt8 → List UInt8) (body : List UInt8)
    {field : IfNoneMatch} (hstar : field.NoStar) :
    ifNoneMatchMatches toStr field.values (entityTag sha256 body) = true ↔
      field.Names (tagDigits sha256 body) := by
  rcases field with - | lines
  · have hvalue : toStr [0x2A] = some "*" := htoStr [0x2A]
    have hpiece : ['*'].splitOn ',' = [['*']] := by decide
    have htrim : Text.trim ['*'] = ['*'] := by decide
    simp [IfNoneMatch.values, IfNoneMatch.Names, ifNoneMatchMatches, hvalue, hpiece, htrim,
      maxValidators, namesTag]
  · have hnames : ∀ element ∈ listed lines,
        (∃ piece ∈ element.chars.splitOn ',',
          namesTag (entityTag sha256 body) (Text.trim piece) = true) ↔
        ∃ tag, element.tag = some tag ∧ tag.text = tagDigits sha256 body :=
      fun element hmem => elementNames_iff (ascii_listed hmem) (hstar element hmem)
        (comma_tagDigits sha256 body)
    have hone : ∀ element ∈ listed lines,
        (∃ tag, element.tag = some tag ∧ tag.text = tagDigits sha256 body) →
        (element.chars.splitOn ',').length = 1 := by
      rintro element - ⟨tag, htag, htext⟩
      have hcomma : tag.text.count ',' = 0 :=
        List.count_eq_zero.mpr (htext ▸ comma_tagDigits sha256 body)
      rw [count_comma, ListElement.pieces, htag, Option.elim_some, hcomma]
    unfold ifNoneMatchMatches
    rw [IfNoneMatch.values, pieces_lines htoStr, List.any_map]
    refine (any_take_flatMap hnames hone maxValidators).trans ?_
    simp only [count_comma, IfNoneMatch.Names, exists_and_left]

/-! ### A line of two tags -/

/-- A header value of visible characters. -/
def readVisible (value : List UInt8) : Option String :=
  if value.all isVisibleAscii then some (String.ofList (value.map toChar)) else none

/-- SHA-256 on the body `[]`. -/
def emptySha256 (_ : List UInt8) : List UInt8 :=
  [79, 83, 205, 161, 140, 43, 170, 12, 3, 84, 187, 95, 154, 62, 203, 229, 237, 18, 171, 77, 142,
    17, 186, 135, 60, 47, 17, 22, 18, 2, 185, 69]

/-- The validator of an empty catalog, as a weak tag. -/
def emptyTag : EntityTag where
  weak := true
  opaqueTag := (tagDigits emptySha256 [0x5B, 0x5D]).map fun c => UInt8.ofNat c.toNat
  valid := by decide +kernel

/-- A tag of one byte. -/
def otherElement (other : UInt8) (h : IsEtagc other) : ListElement where
  leading := []
  tag := some ⟨false, [other], by simpa using h⟩
  trailing := []
  blank := by simp

def emptyElement : ListElement where
  leading := [0x20]
  tag := some emptyTag
  trailing := []
  blank := by simp

/-- `"<other>", W/"<issued>"`. -/
def twoTags (other : UInt8) (h : IsEtagc other) : FieldLine where
  elements := [otherElement other h, emptyElement]
  nonempty := by simp

theorem if_none_match_names_second :
    ifNoneMatchMatches readVisible
      (IfNoneMatch.tags [twoTags 0x78 (by decide)]).values
      (entityTag emptySha256 [0x5B, 0x5D]) = true := by
  refine (if_none_match_names (fun _ => rfl) emptySha256 [0x5B, 0x5D] ?_).mpr ?_
  · have hlisted : ∀ element ∈ listed [twoTags 0x78 (by decide)],
        element.tag.all (fun tag => decide tag.NoStar) = true :=
      List.all_eq_true.mp (by decide +kernel)
    intro element hmem tag htag
    have h := hlisted element hmem
    rw [Option.mem_def.mp htag] at h
    exact of_decide_eq_true h
  · have hascii : (twoTags 0x78 (by decide)).isAscii = true := by decide +kernel
    refine ⟨[otherElement 0x78 (by decide)], emptyElement, [], emptyTag, ?_, by decide +kernel,
      rfl, by decide +kernel⟩
    rw [listed, List.filter_cons_of_pos hascii]
    rfl

/-- A line that `to_str` does not read for one of its tags names nothing. -/
theorem obs_text_hides : ¬ ∀ toStr, ReadsVisibleAscii toStr → ∀ sha256 body lines,
    ((lines.flatMap FieldLine.elements).filterMap ListElement.tag).length ≤ 64 →
      (ifNoneMatchMatches toStr (IfNoneMatch.tags lines).values (entityTag sha256 body) = true ↔
        ∃ line ∈ lines, ∃ element ∈ line.elements, ∃ tag, element.tag = some tag ∧
          tag.text = tagDigits sha256 body) := by
  intro h
  have hline := h readVisible (fun _ => rfl) emptySha256 [0x5B, 0x5D]
    [twoTags 0xE9 (by decide)] (by decide +kernel)
  have hfalse : ifNoneMatchMatches readVisible
      (IfNoneMatch.tags [twoTags 0xE9 (by decide)]).values
      (entityTag emptySha256 [0x5B, 0x5D]) = false := by
    decide +kernel
  rw [hfalse] at hline
  refine Bool.false_ne_true (hline.mpr ?_)
  exact ⟨_, List.mem_singleton_self _, emptyElement, by simp [twoTags], emptyTag, rfl,
    by decide +kernel⟩

end Reference

end AircraftApi
