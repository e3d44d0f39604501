/-
AircraftApi/NulFree.lean

NUL comes only from the input: of a record whose names and object hold no NUL
character, no text does.

Each parser keeps a part of its text or makes one of digits and letters, so the
fact passes from the object to the fields one parser at a time; the issues are
plain (`normalizeObject_warns`), and the URL package is assumed to display URLs
without NUL.
-/
import AircraftApi.PreparedRecord

namespace AircraftApi

open Schema

/-! ### Texts -/

theorem nulFree_iff {text : String} : nulFree text = true ↔ '\x00' ∉ text.toList := by
  simp [nulFree]

/-- A text of characters of one without NUL has none. -/
theorem nulFree_of_subset {s : List Char} {text : String} (hs : s ⊆ text.toList)
    (h : nulFree text = true) : nulFree (String.ofList s) = true :=
  nulFree_ofList fun hin => nulFree_iff.mp h (hs hin)

theorem nulFree_prefixed {s : List Char} {text : String} (hs : '\x00' ∉ s)
    (h : nulFree text = true) : nulFree (String.ofList s ++ text) = true := by
  rw [nulFree_append, nulFree_ofList hs, h]
  rfl

/-- The text of a number has no NUL. -/
theorem nulFree_toString_int (n : ℤ) : nulFree (toString n) = true := by
  cases n with
  | ofNat n => exact nulFree_toString_nat n
  | negSucc n =>
      show nulFree ("-" ++ toString (n + 1)) = true
      exact nulFree_prefixed (by decide) (nulFree_toString_nat (n + 1))

theorem nulFree_digits (digits : List (Fin 10)) :
    nulFree (String.ofList (digits.map digitChar)) = true := by
  refine nulFree_ofList fun hin => ?_
  obtain ⟨d, -, hd⟩ := List.mem_map.mp hin
  have hall : ∀ d : Fin 10, digitChar d ≠ '\x00' := by decide
  exact hall d hd

theorem nulFree_exponentText (e : ExponentText) : nulFree e.text = true := by
  have hsign : nulFree e.sign.text = true := by
    rcases e.sign with - | - | -
    · exact nulFree_ofList (by decide)
    · exact nulFree_ofList (by decide)
    · exact nulFree_ofList (by decide)
  unfold ExponentText.text
  rw [nulFree_append, nulFree_append, hsign, nulFree_digits]
  decide

/-- A number as it is displayed has no NUL. -/
theorem nulFree_floatText (f : FloatText) : nulFree f.text = true := by
  have hsign : nulFree (if f.negative then "-" else "") = true := by
    split
    · exact nulFree_ofList (by decide)
    · exact nulFree_ofList (by decide)
  unfold FloatText.text
  rw [nulFree_append, nulFree_append, nulFree_append, hsign, nulFree_digits]
  split <;> split
  · rfl
  · rw [nulFree_exponentText]
    decide
  · rw [nulFree_append, nulFree_digits]
    decide
  · rw [nulFree_append, nulFree_digits, nulFree_exponentText]
    decide

/-- What is kept of a text is part of it. -/
theorem nulFree_parseSentinel {text value : String} (h : parseSentinel text = some value)
    (htext : nulFree text = true) : nulFree value = true := by
  unfold parseSentinel at h
  dsimp only at h
  split_ifs at h
  cases h
  exact nulFree_of_subset (Text.strip_subset _ _) htext

/-- The text of a scalar without NUL. -/
theorem nulFree_valueText {value : Json} {text : String} (h : valueText value = some text)
    (hvalue : value.nulFree = true) : nulFree text = true := by
  cases value with
  | string raw => exact nulFree_parseSentinel h (by simpa [Json.nulFree] using hvalue)
  | number n =>
      cases h
      cases n with
      | integer n _ => exact nulFree_toString_int n
      | float f => exact nulFree_floatText f
  | bool b =>
      cases h
      cases b
      · exact nulFree_ofList (by decide)
      · exact nulFree_ofList (by decide)
  | null => cases h
  | array items => cases h
  | object members => cases h

/-- An object without NUL: its keys and its values have none. -/
theorem nulFreeMembers_iff {members : JsonObject} :
    nulFreeMembers members = true ↔
      ∀ entry ∈ members, nulFree entry.1 = true ∧ entry.2.nulFree = true := by
  induction members with
  | nil => simp [nulFreeMembers]
  | cons entry rest ih =>
      obtain ⟨key, value⟩ := entry
      simp [nulFreeMembers, ih]

/-- An array without NUL: its items have none. -/
theorem nulFreeItems_iff {items : List Json} :
    nulFreeItems items = true ↔ ∀ item ∈ items, item.nulFree = true := by
  induction items with
  | nil => simp [nulFreeItems]
  | cons item rest ih => simp [nulFreeItems, ih]

section

variable {object : JsonObject} (hobject : nulFreeMembers object = true)

include hobject

/-- A member of an object without NUL has none. -/
theorem nulFree_get {field : String} {value : Json} (h : Json.get object field = some value) :
    value.nulFree = true :=
  (nulFreeMembers_iff.mp hobject _ (mem_of_lookup h)).2

theorem nulFree_textAt {field text : String} (h : textAt object field = some text) :
    nulFree text = true := by
  obtain ⟨value, hvalue, htext⟩ := Option.bind_eq_some_iff.mp h
  exact nulFree_valueText htext (nulFree_get hobject hvalue)

theorem nulFree_sectionAt {field : String} {members : JsonObject}
    (h : sectionAt object field = some members) : nulFreeMembers members = true := by
  obtain ⟨value, hvalue, hmembers⟩ := Option.bind_eq_some_iff.mp h
  rw [Json.asObject_eq_some.mp hmembers] at hvalue
  simpa [Json.nulFree] using nulFree_get hobject hvalue

end

/-- A parsed number holds digits, a point and a sign only. -/
theorem nulFree_parseNumeric {raw text : String} (h : parseNumeric raw = some text) :
    nulFree text = true := by
  obtain ⟨value, -, hvalue⟩ := Option.bind_eq_some_iff.mp h
  dsimp only at hvalue
  split_ifs at hvalue
  cases hvalue
  have hplain : ∀ s : List Char, '\x00' ∉ s.takeWhile isNumeric := fun s hin =>
    absurd (List.mem_takeWhile_imp hin) (by decide)
  refine nulFree_ofList ?_
  unfold numericPrefix
  split
  · simpa using hplain _
  · exact hplain _

theorem toUpper_ne_nul {c : Char} (h : c ≠ '\x00') : c.toUpper ≠ '\x00' := by
  intro hupper
  unfold Char.toUpper at hupper
  split at hupper
  · rename_i hc
    have hlow : 97 ≤ c.val.toNat := hc.1
    have hhigh : c.val.toNat ≤ 122 := hc.2
    have hval := congrArg Char.toNat hupper
    rw [Char.toNat] at hval
    simp only [UInt32.toNat_add] at hval
    have hshift : ('A'.val - 'a'.val).toNat = 4294967264 := by decide
    have hzero : '\x00'.toNat = 0 := rfl
    rw [hshift, hzero] at hval
    omega
  · exact h hupper

/-- A unit is letters of the text, in upper case. -/
theorem nulFree_parseUnit {raw text : String} (h : parseUnit raw = some text)
    (hraw : nulFree raw = true) : nulFree text = true := by
  obtain ⟨value, hvalue, hword⟩ := Option.bind_eq_some_iff.mp h
  obtain ⟨word, hlast, htoken⟩ := Option.bind_eq_some_iff.mp hword
  have hfree := nulFree_iff.mp (nulFree_parseSentinel hvalue hraw)
  split at htoken
  · cases htoken
  · cases htoken
    refine nulFree_ofList fun hin => ?_
    obtain ⟨c, hc, hupper⟩ := List.mem_map.mp hin
    refine toUpper_ne_nul (fun hnul => hfree ?_) hupper
    exact Text.lastWord_subset hlast (Text.strip_subset _ _ (hnul ▸ hc))

/-- A digest is hexadecimal digits. -/
theorem nulFree_hexDigestOf (bytes : List UInt8) : nulFree (hexDigestOf bytes) = true := by
  refine nulFree_ofList fun hin => ?_
  obtain ⟨byte, -, hbyte⟩ := List.mem_flatMap.mp hin
  have hdigit : ∀ n : ℕ, '\x00' ≠ hexTable.getD n '0' := by
    intro n
    rcases lt_or_ge n 16 with hn | hn
    · have hall : ∀ n : Fin 16, '\x00' ≠ hexTable.getD n '0' := by decide
      exact hall ⟨n, hn⟩
    · have hlength : hexTable.length = 16 := by decide
      rw [List.getD_eq_getElem?_getD, List.getElem?_eq_none (hlength.trans_le hn)]
      decide
  rcases List.mem_cons.mp hbyte with h | h
  · exact hdigit _ h
  · exact hdigit _ (List.mem_singleton.mp h)

/-! ### The record -/

/-- The URL package displays a URL without NUL. -/
structure UrlsNulFree (crates : Crates) : Prop where
  parse : ∀ text url, crates.parseUrl text = some url → nulFree url.text = true
  join : ∀ base text url, crates.joinUrl base text = some url → nulFree url.text = true

section

variable {crates : Crates} (hurls : UrlsNulFree crates)
variable {object : JsonObject} (hobject : nulFreeMembers object = true)

include hurls in
/-- A URL is the package's display of it. -/
theorem nulFree_resolvedUrl {raw text : String} (h : resolvedUrl crates raw = some text) :
    nulFree text = true := by
  obtain ⟨url, hurl, rfl⟩ := Option.map_eq_some_iff.mp h
  rcases Option.or_eq_some_iff.mp (Option.filter_eq_some_iff.mp hurl).1 with hparse | ⟨-, hjoin⟩
  · exact hurls.parse _ _ hparse
  · obtain ⟨base, -, hjoined⟩ := Option.bind_eq_some_iff.mp hjoin
    exact hurls.join _ _ _ hjoined

include hurls in
theorem nulFree_pageUrl {object : JsonObject} {text : String}
    (h : (pageUrl crates object).value = some text) : nulFree text = true := by
  unfold pageUrl at h
  rw [Noted.value_bind] at h
  split at h
  · cases h
  · rw [normalizedUrl, orFault_value] at h
    exact nulFree_resolvedUrl hurls h

theorem nulFree_numericAt {field text : String} (h : numericAt object field = some text) :
    nulFree text = true := by
  obtain ⟨raw, -, hraw⟩ := Option.bind_eq_some_iff.mp h
  exact nulFree_parseNumeric hraw

include hobject

/-- The texts of a measurement come from its key and its value. -/
theorem nulFree_measurement {section_ path : String} {mapping : String → Option String}
    {m : MeasurementInput} (h : m ∈ (measurements (sectionAt object section_) path mapping).value) :
    ∀ text ∈ measurementTexts m, nulFree text = true := by
  obtain ⟨members, hmembers, entry, hentry, -, raw, hraw, rfl⟩ := mem_measurements.mp h
  have hfree := nulFreeMembers_iff.mp (nulFree_sectionAt hobject hmembers) entry hentry
  have hrawFree := nulFree_valueText hraw hfree.2
  intro text htext
  simp only [measurementTexts, preparedMeasurement, List.mem_append, List.mem_cons,
    List.not_mem_nil, or_false, Option.mem_toList] at htext
  rcases htext with ((rfl | rfl) | hnumber) | hunit
  · exact hfree.1
  · exact hrawFree
  · exact nulFree_parseNumeric (Option.filter_eq_some_iff.mp hnumber).1
  · exact nulFree_parseUnit hunit hrawFree

/-- The texts of a cost come from its key and its value. -/
theorem nulFree_cost {section_ : String} {item : CostItemInput}
    (h : item ∈ (costItems (sectionAt object section_)).value) :
    ∀ text ∈ costTexts item, nulFree text = true := by
  obtain ⟨members, hmembers, entry, hentry, raw, hraw, rfl⟩ := mem_costItems.mp h
  have hfree := nulFreeMembers_iff.mp (nulFree_sectionAt hobject hmembers) entry hentry
  intro text htext
  simp only [costTexts, preparedCost, List.mem_append, List.mem_cons, List.not_mem_nil,
    or_false, Option.mem_toList] at htext
  rcases htext with (rfl | rfl) | hnumber
  · exact hfree.1
  · exact nulFree_valueText hraw hfree.2
  · split at hnumber
    · exact nulFree_parseNumeric hnumber
    · cases hnumber

include hurls in
/-- The texts of an image come from its members and its URL. -/
theorem nulFree_image {image : ImageMetadataInput}
    (h : image ∈ (imageItems crates (Json.get object "images")).value) :
    ∀ text ∈ imageTexts image, nulFree text = true := by
  obtain ⟨images, himages, members, position, href, hin, -, hhref, heq⟩ := mem_imageItems h
  have hlist : nulFreeItems images = true := by
    simpa [Json.nulFree] using nulFree_get hobject himages
  have hmembers : nulFreeMembers members = true := by
    simpa [Json.nulFree] using nulFreeItems_iff.mp hlist _ hin
  have htexts : imageTexts image = imageTexts (preparedImage crates members position href) := by
    rw [← heq]
    rfl
  intro text htext
  rw [htexts] at htext
  simp only [imageTexts, preparedImage, List.mem_append, List.mem_cons, List.not_mem_nil,
    or_false, Option.mem_toList] at htext
  rcases htext with (((rfl | hurl) | htitle) | hholder) | hdimensions
  · exact nulFree_textAt hmembers hhref
  · exact nulFree_resolvedUrl hurls hurl
  · exact nulFree_textAt hmembers htitle
  · exact nulFree_textAt hmembers hholder
  · exact nulFree_textAt hmembers hdimensions

/-- The paths of the issues are made of the object's keys. -/
theorem nulFree_paths : Paths (fun path => nulFree path = true) object where
  fixed _ h := h
  keys entry hentry := (nulFreeMembers_iff.mp hobject entry hentry).1
  performance members hmembers entry hentry := by
    show nulFree ("performance." ++ entry.1) = true
    exact nulFree_prefixed (by decide)
      (nulFreeMembers_iff.mp (nulFree_sectionAt hobject hmembers) _ hentry).1
  weights members hmembers entry hentry := by
    show nulFree ("weights." ++ entry.1) = true
    exact nulFree_prefixed (by decide)
      (nulFreeMembers_iff.mp (nulFree_sectionAt hobject hmembers) _ hentry).1
  costs members hmembers entry hentry := by
    show nulFree ("ownership_costs." ++ entry.1) = true
    exact nulFree_prefixed (by decide)
      (nulFreeMembers_iff.mp (nulFree_sectionAt hobject hmembers) _ hentry).1

/-- **NUL**: an object raising no Error, under names and with members without
NUL, gives a record all of whose texts are without NUL. -/
theorem nulFree_recordTexts {manufacturer aircraft : String}
    (hurls : UrlsNulFree crates)
    (hmanufacturer : nulFree (trimmed manufacturer) = true)
    (haircraft : nulFree (trimmed aircraft) = true)
    (hadmitted : (normalizeRecord crates manufacturer aircraft (.object object)).firstError
      = none) :
    ∀ text ∈ recordTexts (normalizeRecord crates manufacturer aircraft (.object object)),
      nulFree text = true := by
  obtain ⟨members, hmembers, hm, ha, hyears⟩ := admitted_iff.mp hadmitted
  cases hmembers
  have hissues : Warns (fun path => nulFree path = true)
      (normalizeObject crates manufacturer aircraft (.object object) object) :=
    normalizeObject_warns (nulFree_paths hobject) hm ha hyears
  rw [normalizeRecord_object]
  have hkey := nulFree_hexDigestOf (crates.sha256 ("planephd".toUTF8.data.toList ++ [0] ++
    manufacturer.toUTF8.data.toList ++ [0] ++ aircraft.toUTF8.data.toList))
  intro text htext
  simp only [recordTexts, List.mem_append, List.mem_singleton, List.mem_flatMap,
    Option.mem_toList] at htext
  -- the texts of the record, part by part
  rcases htext with ((((((((rfl | hidentity) | hperformance) | hweights) | hpropulsion) |
    hprice) | hcosts) | himages) | hprovenance) | hissue
  · exact hkey
  · simp only [identityTexts, recordOf, List.mem_append, List.mem_cons, List.not_mem_nil,
      or_false, Option.mem_toList] at hidentity
    rcases hidentity with ((((rfl | rfl) | h) | h) | h) | h
    · exact hmanufacturer
    · exact haircraft
    · exact nulFree_textAt hobject h
    · exact nulFree_pageUrl hurls h
    · exact nulFree_textAt hobject h
    · exact nulFree_textAt hobject h
  · obtain ⟨m, hm, htext⟩ := hperformance
    exact nulFree_measurement hobject hm text htext
  · obtain ⟨m, hm, htext⟩ := hweights
    exact nulFree_measurement hobject hm text htext
  · simp only [propulsionTexts, recordOf, List.mem_append, Option.mem_toList] at hpropulsion
    rcases hpropulsion with ((h | h) | h) | h
    all_goals
      obtain ⟨engine, hengine, h⟩ := Option.bind_eq_some_iff.mp h
      have hfree := nulFree_sectionAt hobject hengine
    · exact nulFree_textAt hfree h
    · exact nulFree_textAt hfree h
    · exact nulFree_numericAt h
    · exact nulFree_numericAt h
  · exact nulFree_numericAt hprice
  · obtain ⟨item, hitem, htext⟩ := hcosts
    exact nulFree_cost hobject hitem text htext
  · obtain ⟨image, himage, htext⟩ := himages
    exact nulFree_image hurls hobject himage text htext
  · simp only [provenanceTexts, recordOf, List.mem_append, List.mem_singleton,
      Option.mem_toList] at hprovenance
    rcases hprovenance with (rfl | h) | h
    · exact hkey
    · exact nulFree_pageUrl hurls h
    · exact nulFree_textAt hobject h
  · obtain ⟨found, hfound, htext⟩ := hissue
    have hplain := hissues found hfound
    simp only [issueTexts, List.mem_append, List.mem_cons, List.not_mem_nil, or_false,
      Option.mem_toList] at htext
    rcases htext with (rfl | rfl | rfl) | hraw
    · exact hplain.code
    · exact hplain.fieldPath
    · exact hplain.message
    · exact hplain.rawValue text hraw

end

end AircraftApi
