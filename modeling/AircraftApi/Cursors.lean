/-
AircraftApi/Cursors.lean

The cursors of `GET /v1/models`: the token a page hands on, and the request that
sends it back.

A token carries the slug twice, as the last value and as the tiebreaker, and the
digest of the filter.  Only reading it back bounds its length, by
`MAX_CURSOR_BYTES`: a token for a slug of `n` characters is base64 of `139 + 2 * n`
bytes, so those of up to 314 characters are read and the others are refused
(`decode_issued`).

    readFilter    resolves the family of a request
    readQuery     and then reads its cursor
    Routes.listModels

SHA-256, base64, JSON and URIs are other packages' and enter as parameters, with
what the cursors rely on as hypotheses (`CursorCrates.Lawful`).
-/
import AircraftApi.Base64
import AircraftApi.ImportService
import AircraftApi.Pagination
import AircraftApi.Problem

namespace AircraftApi

namespace Catalog

open Problem

/-! ### Tokens -/

/-- `MAX_CURSOR_BYTES`. -/
def maxCursorBytes : ℕ := 1024

/-- `CURSOR_VERSION`. -/
def cursorVersion : ℕ := 1

/-- What a cursor is made of: its version, the order, the last row and the filter it was
issued under. -/
structure CursorTokenV1 where
  version : ℕ
  sort : String
  lastValue : String
  tiebreaker : String
  filter : String
  deriving DecidableEq

/-- The part of a token that is read first. -/
structure VersionProbe where
  version : ℕ

/-- What the routes use of other packages. -/
structure CursorCrates where
  sha256 : List UInt8 → List UInt8
  base64Encode : List UInt8 → String
  base64Decode : String → Option (List UInt8)
  toVec : CursorTokenV1 → Option (List UInt8)
  tokenFromSlice : List UInt8 → Option CursorTokenV1
  probeFromSlice : List UInt8 → Option VersionProbe
  parseUri : String → Option Uri

/-- The bytes of a text. -/
def utf8 (text : String) : List UInt8 := text.toUTF8.data.toList

/-- The digest of a filter. -/
structure FilterFingerprint where
  bytes : List UInt8
  deriving DecidableEq

/-- The digest as hexadecimal digits. -/
def FilterFingerprint.toHex (filters : FilterFingerprint) : String :=
  String.ofList (filters.bytes.flatMap ImportService.hexByte)

/-- Where a page ended: the value it is ordered by and the tiebreaker. -/
structure CursorPosition where
  sort : String
  lastValue : String
  tiebreaker : String
  deriving DecidableEq

/-- Why a token is not honoured. -/
inductive CursorDecodeError
  | malformed
  | unsupportedVersion
  | filterMismatch
  deriving DecidableEq

variable (crates : CursorCrates)

/-- The fingerprint of a filter in its normal form. -/
def FilterFingerprint.of (normalizedFilters : String) : FilterFingerprint :=
  ⟨crates.sha256 (utf8 normalizedFilters)⟩

/-- The token of a position under a filter. -/
def CursorPosition.token (position : CursorPosition) (filters : FilterFingerprint) :
    CursorTokenV1 where
  version := cursorVersion
  sort := position.sort
  lastValue := position.lastValue
  tiebreaker := position.tiebreaker
  filter := filters.toHex

/-- The text of a cursor: base64 of the token's JSON. -/
def encode (position : CursorPosition) (filters : FilterFingerprint) : String :=
  crates.base64Encode ((crates.toVec (position.token filters)).getD [])

/-- Reads length, base64, version, payload and filters, in this order. -/
def decode (token : String) (filters : FilterFingerprint) :
    Except CursorDecodeError CursorPosition :=
  if maxCursorBytes < token.utf8ByteSize then .error .malformed
  else
    match crates.base64Decode token with
    | none => .error .malformed
    | some json =>
        match crates.probeFromSlice json with
        | none => .error .malformed
        | some probe =>
            if probe.version ≠ cursorVersion then .error .unsupportedVersion
            else
              match crates.tokenFromSlice json with
              | none => .error .malformed
              | some token =>
                  if token.filter ≠ filters.toHex then .error .filterMismatch
                  else .ok ⟨token.sort, token.lastValue, token.tiebreaker⟩

/-- What a client may ask of a list. -/
structure ListQuery where
  limit : Option NonZeroU16
  cursor : Option String

/-- The page asked for, or a validation problem for a cursor that is not honoured. -/
def ListQuery.intoPageRequest (query : ListQuery) (filters : FilterFingerprint) (path : String) :
    Except ApiProblem (PageLimit × Option CursorPosition) :=
  match query.cursor with
  | none => return (PageLimit.fromRequested query.limit, none)
  | some token =>
      match decode crates token filters with
      | .error _ => throw (.new crates.parseUri .validationFailed path)
      | .ok position => return (PageLimit.fromRequested query.limit, some position)

/-! ### The route -/

/-- The orders of the list. -/
inductive ModelSort
  | slugAsc
  deriving DecidableEq

/-- The order as a token names it. -/
def ModelSort.code : ModelSort → String
  | slugAsc => "slug_asc"

/-- The query of the models' list. -/
structure ModelListQuery where
  sort : Option ModelSort
  family : Option String
  limit : Option NonZeroU16
  cursor : Option String

/-- A row as it is served. -/
structure ModelSummaryResponse where
  slug : String
  name : String
  displayName : Option String
  family : String
  series : Option String
  generation : Option ℤ
  firstFlightYear : Option ℤ
  certificationYear : Option ℤ
  deriving DecidableEq

/-- The row of a model. -/
def ModelSummaryResponse.of (model : ModelSummary) : ModelSummaryResponse where
  slug := model.slug.text
  name := model.name
  displayName := model.displayName
  family := model.family.text
  series := model.series
  generation := model.generation
  firstFlightYear := model.firstFlightYear
  certificationYear := model.certificationYear

/-- A page as it is served. -/
structure PageResponse where
  items : List ModelSummaryResponse
  nextCursor : Option String
  deriving DecidableEq

/-- The problem a failing read answers with. -/
def readFailure (error : PersistenceError) (path : String) : ApiProblem :=
  match error with
  | .database _ _ => .new crates.parseUri .databaseUnavailable path
  | .invariant _ => .new crates.parseUri .internal path

/-- The text a filter is hashed as. -/
def normalizedFilter (family : Option String) : String := "family=" ++ family.getD ""

/-- The fingerprint of the models' filter. -/
def fingerprint (family : Option String) : FilterFingerprint :=
  .of crates (normalizedFilter family)

/-- `FamilyReader::family_id`. -/
def familyId (db : Tables) (slug : Slug) : Option FamilyId :=
  (db.families.find? (·.slug = slug.text)).map fun f => ⟨f.id⟩

/-- The position `page_response` issues a cursor for. -/
def positionOf (sort : ModelSort) (last : Slug) : CursorPosition := ⟨sort.code, last.text, last.text⟩

/-- The rows served, with a cursor when there are more. -/
def pageResponse (page : Page ModelSummary Slug) (sort : ModelSort) (filters : FilterFingerprint) :
    PageResponse where
  items := page.items.map ModelSummaryResponse.of
  nextCursor := page.next.map fun last => encode crates (positionOf sort last) filters

/-- The filter of a request: a family that is not a slug is refused, one that is not
there is not found. -/
def readFilter (db : Tables) (path : String) : Option String → Except ApiProblem ModelFilter
  | none => return ⟨none⟩
  | some requested =>
      match Slug.tryFrom requested with
      | none => throw (.new crates.parseUri .validationFailed path)
      | some slug =>
          match familyId db slug with
          | some id => return ⟨some id⟩
          | none => throw (.new crates.parseUri .notFound path)

/-- What a request asks for, read before any row is. -/
def readQuery (db : Tables) (path : String) (query : ModelListQuery) :
    Except ApiProblem (ModelFilter × PageLimit × Option Slug) := do
  let filter ← readFilter crates db path query.family
  let (limit, resume) ← ListQuery.intoPageRequest crates ⟨query.limit, query.cursor⟩
    (fingerprint crates query.family) path
  match resume with
  | none => return (filter, limit, none)
  | some position =>
      if position.sort ≠ (query.sort.getD .slugAsc).code then
        throw (.new crates.parseUri .validationFailed path)
      else
        match Slug.tryFrom position.lastValue with
        | some slug => return (filter, limit, some slug)
        | none => throw (.new crates.parseUri .validationFailed path)

variable {κ : Type*} [LinearOrder κ] (collation : String ↪ κ)

/-- `GET /v1/models`. -/
def Routes.listModels (db : Tables) (path : String) (query : ModelListQuery) :
    Except ApiProblem PageResponse := do
  let (filter, limit, after) ← readQuery crates db path query
  match Catalog.listModels collation db filter limit after with
  | .ok page =>
      return pageResponse crates page (query.sort.getD .slugAsc) (fingerprint crates query.family)
  | .error error => throw (readFailure crates error path)

/-! ### What the packages are relied on for -/

/-- JSON writes the text as it is, between quotes. -/
def Plain (text : String) : Prop := ∀ c ∈ text.toList, c ≠ '"' ∧ c ≠ '\\' ∧ 0x20 ≤ c.toNat

/-- A token whose JSON needs no escapes. -/
structure CursorTokenV1.Plain (token : CursorTokenV1) : Prop where
  version : token.version = cursorVersion
  sort : Catalog.Plain token.sort
  lastValue : Catalog.Plain token.lastValue
  tiebreaker : Catalog.Plain token.tiebreaker
  filter : Catalog.Plain token.filter

/-- The JSON text of a plain token. -/
def CursorTokenV1.text (token : CursorTokenV1) : String :=
  "\x7b\"version\":" ++ toString token.version ++
    ",\"sort\":\"" ++ token.sort ++
    "\",\"last_value\":\"" ++ token.lastValue ++
    "\",\"tiebreaker\":\"" ++ token.tiebreaker ++
    "\",\"filter\":\"" ++ token.filter ++ "\"\x7d"

/-- What the packages promise: digests of 32 bytes, base64 that can be undone and is a
third longer, and JSON that reads what it wrote. -/
structure CursorCrates.Lawful : Prop where
  length_sha256 : ∀ bytes, (crates.sha256 bytes).length = 32
  base64Decode_encode : ∀ bytes, crates.base64Decode (crates.base64Encode bytes) = some bytes
  size_base64Encode : ∀ bytes, (crates.base64Encode bytes).utf8ByteSize = (4 * bytes.length + 2) / 3
  toVec_plain : ∀ token : CursorTokenV1, token.Plain → crates.toVec token = some (utf8 token.text)
  tokenFromSlice_plain : ∀ token : CursorTokenV1, token.Plain →
    crates.tokenFromSlice (utf8 token.text) = some token
  probeFromSlice_plain : ∀ token : CursorTokenV1, token.Plain →
    crates.probeFromSlice (utf8 token.text) = some ⟨token.version⟩

/-! ### Issued tokens are plain -/

/-- The characters of slugs, sort codes and hexadecimal digits. -/
def isWordChar (c : Char) : Bool := Slug.isSlugChar c || c = '-' || c = '_'

/-- The characters of words are printable ASCII, no quote and no backslash. -/
theorem toNat_of_isWordChar {c : Char} (h : isWordChar c = true) :
    35 ≤ c.toNat ∧ c.toNat ≤ 126 ∧ c.toNat ≠ 92 := by
  simp only [isWordChar, Slug.isSlugChar, Bool.or_eq_true, decide_eq_true_eq] at h
  rcases h with (h | h) | h
  · simp only [Char.le_def, UInt32.le_iff_toNat_le] at h
    simp at h
    omega
  · rw [h]
    decide
  · rw [h]
    decide

/-- A word needs no escapes. -/
theorem plain_of_word {cs : List Char} (h : ∀ c ∈ cs, isWordChar c = true) :
    Plain (String.ofList cs) := by
  intro c hc
  rw [String.toList_ofList] at hc
  obtain ⟨hlow, -, hslash⟩ := toNat_of_isWordChar (h c hc)
  refine ⟨?_, ?_, by omega⟩
  · rintro rfl
    exact absurd hlow (by decide)
  · rintro rfl
    exact hslash rfl

/-- ASCII takes one byte a character. -/
theorem size_of_ascii {cs : List Char} (h : ∀ c ∈ cs, c.toNat ≤ 126) :
    (String.ofList cs).utf8ByteSize = cs.length := by
  induction cs with
  | nil => rfl
  | cons c cs ih =>
      obtain ⟨hc, hcs⟩ := List.forall_mem_cons.mp h
      have hone : c.utf8Size = 1 := by
        rw [Char.utf8Size_eq_one_iff, UInt32.le_iff_toNat_le]
        exact hc.trans (by decide)
      rw [String.ofList_cons, String.utf8ByteSize_append, String.utf8ByteSize_singleton, ih hcs,
        hone, List.length_cons, add_comm]

theorem size_of_word {cs : List Char} (h : ∀ c ∈ cs, isWordChar c = true) :
    (String.ofList cs).utf8ByteSize = cs.length :=
  size_of_ascii fun c hc => (toNat_of_isWordChar (h c hc)).2.1

theorem length_utf8 (text : String) : (utf8 text).length = text.utf8ByteSize := rfl

/-- A slug is a word. -/
theorem word_of_slugRest {cs : List Char} (h : Slug.slugRest cs = true) :
    ∀ c ∈ cs, isWordChar c = true := by
  induction cs using Slug.slugRest.induct with
  | case1 => simp
  | case2 c rest ih =>
      rw [Slug.slugRest, Bool.and_eq_true] at h
      have hc : isWordChar c = true := by rw [isWordChar, h.1, Bool.true_or, Bool.true_or]
      exact List.forall_mem_cons.mpr ⟨by decide, List.forall_mem_cons.mpr ⟨hc, ih h.2⟩⟩
  | case3 c rest hne ih =>
      rw [Slug.slugRest, Bool.and_eq_true] at h
      · have hc : isWordChar c = true := by rw [isWordChar, h.1, Bool.true_or, Bool.true_or]
        exact List.forall_mem_cons.mpr ⟨hc, ih h.2⟩
      · exact hne

theorem Slug.word (slug : Slug) : ∀ c ∈ slug.text.toList, isWordChar c = true := by
  have h := (slugCheck_eq slug.text).symm.trans slug.valid
  rcases htext : slug.text.toList with - | ⟨c, rest⟩
  · simp
  · rw [htext, Slug.slugText, Bool.and_eq_true] at h
    have hc : isWordChar c = true := by rw [isWordChar, h.1, Bool.true_or, Bool.true_or]
    exact List.forall_mem_cons.mpr ⟨hc, word_of_slugRest h.2⟩

/-! ### Hexadecimal digests -/

/-- The number a hexadecimal text stands for. -/
def hexValue (cs : List Char) : ℕ :=
  cs.foldl (fun n c => 16 * n + "0123456789abcdef".toList.idxOf c) 0

/-- A byte is two hexadecimal digits, and they say which. -/
theorem hexByte_spec (byte : UInt8) :
    (ImportService.hexByte byte).length = 2 ∧
      (ImportService.hexByte byte).all isWordChar = true ∧
      hexValue (ImportService.hexByte byte) = byte.toNat := by
  have hall : ∀ n : Fin 256, (ImportService.hexByte (UInt8.ofNat n)).length = 2 ∧
      (ImportService.hexByte (UInt8.ofNat n)).all isWordChar = true ∧
      hexValue (ImportService.hexByte (UInt8.ofNat n)) = n := by
    decide +kernel
  have h := hall ⟨byte.toNat, byte.toNat_lt⟩
  rwa [UInt8.ofNat_toNat] at h

theorem word_flatMap_hexByte (bytes : List UInt8) :
    ∀ c ∈ bytes.flatMap ImportService.hexByte, isWordChar c = true := by
  intro c hc
  obtain ⟨byte, -, hbyte⟩ := List.mem_flatMap.mp hc
  exact List.all_eq_true.mp (hexByte_spec byte).2.1 c hbyte

/-- Bytes are known by their digits. -/
theorem flatMap_hexByte_injective : Function.Injective fun bytes : List UInt8 =>
    bytes.flatMap ImportService.hexByte := by
  intro bytes
  induction bytes with
  | nil =>
      rintro (- | ⟨b, bytes'⟩) h
      · rfl
      · have hlen := congrArg List.length h
        simp [(hexByte_spec b).1] at hlen
        omega
  | cons a bytes ih =>
      rintro (- | ⟨b, bytes'⟩) h
      · have hlen := congrArg List.length h
        simp [(hexByte_spec a).1] at hlen
      · simp only [List.flatMap_cons] at h
        obtain ⟨hhead, htail⟩ := List.append_inj h
          ((hexByte_spec a).1.trans (hexByte_spec b).1.symm)
        have hvalue := congrArg hexValue hhead
        rw [(hexByte_spec a).2.2, (hexByte_spec b).2.2] at hvalue
        rw [UInt8.toNat_inj.mp hvalue, ih htail]

/-- A fingerprint is known by its digits. -/
theorem toHex_injective : Function.Injective FilterFingerprint.toHex := by
  rintro ⟨bytes⟩ ⟨bytes'⟩ h
  rw [FilterFingerprint.mk.injEq]
  exact flatMap_hexByte_injective (String.ofList_injective h)

/-! ### The token of a page -/

variable {crates}

/-- The digits of a digest of 32 bytes. -/
theorem length_toHex {filters : FilterFingerprint} (h : filters.bytes.length = 32) :
    filters.toHex.utf8ByteSize = 64 := by
  have hlen : (filters.bytes.flatMap ImportService.hexByte).length = 2 * filters.bytes.length := by
    induction filters.bytes with
    | nil => rfl
    | cons byte bytes ih =>
        rw [List.flatMap_cons, List.length_append, (hexByte_spec byte).1, ih, List.length_cons]
        omega
  rw [FilterFingerprint.toHex, size_of_word (word_flatMap_hexByte _), hlen, h]

theorem plain_toHex (filters : FilterFingerprint) : Plain filters.toHex :=
  plain_of_word (word_flatMap_hexByte _)

theorem Slug.plain (slug : Slug) : Plain slug.text := by
  have h := plain_of_word slug.word
  rwa [String.ofList_toList] at h

theorem Slug.size (slug : Slug) : slug.text.utf8ByteSize = slug.text.length := by
  have h := size_of_word slug.word
  rwa [String.ofList_toList, String.length_toList] at h

variable {sort : ModelSort} {last : Slug} {filters : FilterFingerprint}

theorem ModelSort.word (sort : ModelSort) : sort.code.toList.all isWordChar = true := by
  cases sort
  decide

theorem ModelSort.plain (sort : ModelSort) : Plain sort.code := by
  have h := plain_of_word (List.all_eq_true.mp sort.word)
  rwa [String.ofList_toList] at h

/-- The tokens issued need no escapes. -/
theorem plain_token : ((positionOf sort last).token filters).Plain where
  version := rfl
  sort := sort.plain
  lastValue := last.plain
  tiebreaker := last.plain
  filter := plain_toHex filters

/-- The size of a token's JSON, piece by piece. -/
theorem size_text_parts (token : CursorTokenV1) :
    token.text.utf8ByteSize
      = "\x7b\"version\":".utf8ByteSize + (toString token.version).utf8ByteSize +
        ",\"sort\":\"".utf8ByteSize + token.sort.utf8ByteSize +
        "\",\"last_value\":\"".utf8ByteSize + token.lastValue.utf8ByteSize +
        "\",\"tiebreaker\":\"".utf8ByteSize + token.tiebreaker.utf8ByteSize +
        "\",\"filter\":\"".utf8ByteSize + token.filter.utf8ByteSize + "\"\x7d".utf8ByteSize := by
  unfold CursorTokenV1.text
  iterate 10 rw [String.utf8ByteSize_append]

/-- The size of a token's JSON: 66 bytes and its values. -/
theorem size_text (token : CursorTokenV1) :
    token.text.utf8ByteSize
      = 66 + (toString token.version).utf8ByteSize + token.sort.utf8ByteSize +
        token.lastValue.utf8ByteSize + token.tiebreaker.utf8ByteSize +
        token.filter.utf8ByteSize := by
  have hversion : "\x7b\"version\":".utf8ByteSize = 11 := rfl
  have hsort : ",\"sort\":\"".utf8ByteSize = 9 := rfl
  have hlast : "\",\"last_value\":\"".utf8ByteSize = 16 := rfl
  have htie : "\",\"tiebreaker\":\"".utf8ByteSize = 16 := rfl
  have hfilter : "\",\"filter\":\"".utf8ByteSize = 12 := rfl
  have hend : "\"\x7d".utf8ByteSize = 2 := rfl
  rw [size_text_parts, hversion, hsort, hlast, htie, hfilter, hend]
  generalize (toString token.version).utf8ByteSize = version
  omega

/-- The bytes a token is base64 of. -/
theorem size_token (h : filters.bytes.length = 32) :
    (utf8 ((positionOf sort last).token filters).text).length = 139 + 2 * last.text.length := by
  have hversion : (toString cursorVersion).utf8ByteSize = 1 := rfl
  have hsort : sort.code.utf8ByteSize = 8 := by
    cases sort
    decide
  have hsize := size_text ((positionOf sort last).token filters)
  rw [CursorPosition.token, positionOf, hversion, hsort, last.size, length_toHex h] at hsize
  rw [length_utf8, CursorPosition.token, positionOf, hsize]
  omega

/-- The cursor issued is the base64 of the token's JSON. -/
theorem encode_eq (hcrates : crates.Lawful) :
    encode crates (positionOf sort last) filters
      = crates.base64Encode (utf8 ((positionOf sort last).token filters).text) := by
  rw [encode, hcrates.toVec_plain _ plain_token, Option.getD_some]

/-- A token is read back when its slug is no longer than 314 characters and it was issued
for these filters. -/
theorem decode_issued (hcrates : crates.Lawful) (hfilters : filters.bytes.length = 32)
    (filters' : FilterFingerprint) :
    decode crates (encode crates (positionOf sort last) filters) filters'
      = if 314 < last.text.length then .error .malformed
        else if filters ≠ filters' then .error .filterMismatch
        else .ok (positionOf sort last) := by
  have hsize : maxCursorBytes < (encode crates (positionOf sort last) filters).utf8ByteSize
      ↔ 314 < last.text.length := by
    rw [encode_eq hcrates, hcrates.size_base64Encode, size_token hfilters, maxCursorBytes]
    omega
  have hmismatch : ((positionOf sort last).token filters).filter ≠ filters'.toHex
      ↔ filters ≠ filters' :=
    not_congr toHex_injective.eq_iff
  have hversion : ¬ ((positionOf sort last).token filters).version ≠ cursorVersion :=
    not_not.mpr rfl
  unfold decode
  by_cases hlong : 314 < last.text.length
  · rw [if_pos (hsize.mpr hlong), if_pos hlong]
  · rw [if_neg (mt hsize.mp hlong), if_neg hlong, encode_eq hcrates]
    simp only [hcrates.base64Decode_encode, hcrates.probeFromSlice_plain _ plain_token,
      hcrates.tokenFromSlice_plain _ plain_token]
    rw [if_neg hversion]
    by_cases hsame : filters ≠ filters'
    · rw [if_pos (hmismatch.mpr hsame), if_pos hsame]
    · rw [if_neg (mt hmismatch.mp hsame), if_neg hsame]
      rfl

end Catalog

end AircraftApi
