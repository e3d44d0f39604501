/-
AircraftApi/IssuedCursors.lean

Which of the cursors the model collection issues it takes back.

A page issues a cursor for its last row, and the request that sends it back with
the same filter goes on after that row, unless the row's slug is over 314
characters: such a token is refused (`issued_cursors_honoured_iff`).  Under
another filter every token is refused, as long as SHA-256 tells the two filters'
texts apart.
-/
import AircraftApi.Cursors

namespace AircraftApi

namespace Catalog

open Problem

variable {κ : Type*} [LinearOrder κ] {crates : CursorCrates} {collation : String ↪ κ}
  {db : Tables} {path : String} {query : ModelListQuery} {filter : ModelFilter}
  {limit : PageLimit} {after : Option Slug} {sort : ModelSort} {last : Slug}

/-! ### Filters and their texts -/

/-- A filter the route takes: none, or a slug. -/
def Accepted (family : Option String) : Prop := ∀ text ∈ family, (Slug.tryFrom text).isSome = true

theorem accepted_of_readFilter {family : Option String}
    (h : readFilter crates db path family = .ok filter) : Accepted family := by
  rintro text rfl
  rw [readFilter] at h
  split at h
  · cases h
  · rename_i hslug
    rw [hslug]
    rfl

theorem utf8_injective : Function.Injective utf8 := by
  intro a b h
  have hbytes : a.toUTF8 = b.toUTF8 := ByteArray.ext (Array.toList_inj.mp h)
  exact String.toByteArray_inj.mp hbytes

theorem getD_inj {family other : Option String} (hfamily : Accepted family)
    (hother : Accepted other) (h : family.getD "" = other.getD "") : family = other := by
  have hempty : (Slug.tryFrom "").isSome = false := by decide
  rcases family with - | text <;> rcases other with - | text'
  · rfl
  · have haccepted := hother text' rfl
    rw [show text' = "" from h.symm, hempty] at haccepted
    cases haccepted
  · have haccepted := hfamily text rfl
    rw [show text = "" from h, hempty] at haccepted
    cases haccepted
  · exact congrArg some h

theorem normalizedFilter_inj {family other : Option String} (hfamily : Accepted family)
    (hother : Accepted other) (h : normalizedFilter family = normalizedFilter other) :
    family = other := by
  apply getD_inj hfamily hother
  have hlist := congrArg String.toList h
  rw [normalizedFilter, normalizedFilter, String.toList_append, String.toList_append] at hlist
  exact String.toList_inj.mp (List.append_cancel_left hlist)

theorem Slug.tryFrom_text (slug : Slug) : Slug.tryFrom slug.text = some slug := dif_pos slug.valid

/-- Filters whose texts SHA-256 tells apart have other fingerprints. -/
theorem fingerprint_ne {family other : Option String} (hfamily : Accepted family)
    (hother : Accepted other) (hne : other ≠ family)
    (hsha : Set.InjOn crates.sha256 {utf8 (normalizedFilter family), utf8 (normalizedFilter other)}) :
    fingerprint crates family ≠ fingerprint crates other := by
  intro h
  have hdigest : crates.sha256 (utf8 (normalizedFilter family))
      = crates.sha256 (utf8 (normalizedFilter other)) :=
    congrArg FilterFingerprint.bytes h
  have htext := utf8_injective (hsha (by simp) (by simp) hdigest)
  exact hne (normalizedFilter_inj hfamily hother htext).symm

/-! ### A token sent back -/

theorem length_fingerprint (hcrates : crates.Lawful) (family : Option String) :
    (fingerprint crates family).bytes.length = 32 :=
  hcrates.length_sha256 _

theorem readQuery_issued (hcrates : crates.Lawful) {issued : Option String}
    (hfilter : readFilter crates db path query.family = .ok filter)
    (hcursor : query.cursor
      = some (encode crates (positionOf sort last) (fingerprint crates issued))) :
    readQuery crates db path query
      = if 314 < last.text.length ∨ fingerprint crates issued ≠ fingerprint crates query.family then
          .error (.new crates.parseUri .validationFailed path)
        else .ok (filter, PageLimit.fromRequested query.limit, some last) := by
  have hdecode : decode crates (encode crates (positionOf sort last) (fingerprint crates issued))
      (fingerprint crates query.family) = _ :=
    decode_issued hcrates (length_fingerprint hcrates issued) (fingerprint crates query.family)
  have hsort : (positionOf sort last).sort = (query.sort.getD .slugAsc).code := by
    cases sort
    cases query.sort.getD .slugAsc
    rfl
  rw [readQuery, hfilter]
  simp only [bind, Except.bind, ListQuery.intoPageRequest, hcursor, hdecode]
  by_cases hlong : 314 < last.text.length
  · rw [if_pos (Or.inl hlong)]
    simp only [if_pos hlong]
    rfl
  · by_cases hne : fingerprint crates issued ≠ fingerprint crates query.family
    · rw [if_pos (Or.inr hne)]
      simp only [if_neg hlong, if_pos hne]
      rfl
    · rw [if_neg (not_or.mpr ⟨hlong, hne⟩)]
      simp only [if_neg hlong, if_neg hne, pure, Except.pure, if_neg (not_not.mpr hsort)]
      simp only [positionOf, Slug.tryFrom_text]

/-! ### The pages of the route -/

theorem readFilter_of_readQuery (h : readQuery crates db path query = .ok (filter, limit, after)) :
    readFilter crates db path query.family = .ok filter := by
  rcases hfilter : readFilter crates db path query.family with problem | filter'
  · rw [readQuery, hfilter] at h
    cases h
  · rw [readQuery, hfilter] at h
    simp only [bind, Except.bind] at h
    rcases hpage : ListQuery.intoPageRequest crates ⟨query.limit, query.cursor⟩
        (fingerprint crates query.family) path with problem | ⟨limit', - | position⟩
    · rw [hpage] at h
      cases h
    · rw [hpage] at h
      cases h
      rfl
    · rw [hpage] at h
      dsimp only at h
      split at h
      · cases h
      · split at h
        · cases h
          rfl
        · cases h

/-- The route answers a request it can read with the page beyond the request's key. -/
theorem listModels_of_readQuery (collation : String ↪ κ)
    (h : readQuery crates db path query = .ok (filter, limit, after)) :
    ∃ page, Lists collation db filter limit after page ∧
      Routes.listModels crates collation db path query
        = .ok (pageResponse crates page (query.sort.getD .slugAsc)
          (fingerprint crates query.family)) := by
  obtain ⟨page, hpage, hlists⟩ := listModels_spec collation db filter limit after
  refine ⟨page, hlists, ?_⟩
  rw [Routes.listModels, h]
  simp only [bind, Except.bind, hpage]
  rfl

theorem readQuery_of_listModels {body : PageResponse}
    (h : Routes.listModels crates collation db path query = .ok body) :
    ∃ filter limit after page, readQuery crates db path query = .ok (filter, limit, after) ∧
      Lists collation db filter limit after page ∧
      body = pageResponse crates page (query.sort.getD .slugAsc)
        (fingerprint crates query.family) := by
  rcases hread : readQuery crates db path query with problem | ⟨filter, limit, after⟩
  · rw [Routes.listModels, hread] at h
    cases h
  · obtain ⟨page, hlists, hok⟩ := listModels_of_readQuery collation hread
    rw [hok] at h
    cases h
    exact ⟨filter, limit, after, page, rfl, hlists, rfl⟩

/-! ### Cursors honoured -/

/-- The request is answered with the rows of its filter that are beyond the slug. -/
def Resumes (crates : CursorCrates) (collation : String ↪ κ) (db : Tables) (path : String)
    (query : ModelListQuery) (slug : String) : Prop :=
  ∀ filter, readFilter crates db path query.family = .ok filter →
    ∃ body next, Routes.listModels crates collation db path query = .ok body ∧
      Keyset.Covers (keys collation db filter) (some (collation slug))
        (body.items.map fun item => collation item.slug) next

/-- The cursor of the page a request is answered with goes on after the page's last row,
whatever the tables are by then, and is refused under any other filter. -/
structure Honoured (crates : CursorCrates) (collation : String ↪ κ) (db : Tables) (path : String)
    (query : ModelListQuery) : Prop where
  resumes : ∀ body token, Routes.listModels crates collation db path query = .ok body →
    body.nextCursor = some token →
    ∃ last, body.items.getLast? = some last ∧ ∀ db' limit,
      Resumes crates collation db' path { query with limit, cursor := some token } last.slug
  refused : ∀ body token, Routes.listModels crates collation db path query = .ok body →
    body.nextCursor = some token → ∀ other, Accepted other → other ≠ query.family →
    Set.InjOn crates.sha256
      {utf8 (normalizedFilter query.family), utf8 (normalizedFilter other)} →
    ∀ db' sort limit filter, readFilter crates db' path other = .ok filter →
      Routes.listModels crates collation db' path ⟨sort, other, limit, some token⟩
        = .error (.new crates.parseUri .validationFailed path)

/-- A page hands on the slug that the limit falls on, if there are more. -/
theorem next_iff {page : Page ModelSummary Slug} {text : String}
    (hlists : Lists collation db filter limit after page) :
    (∃ slug, page.next = some slug ∧ slug.text = text) ↔
      Keyset.EndsAt (keys collation db filter) (after.map (Slug.key collation)) limit.get
        (collation text) := by
  have hlen : (page.items.map (ModelSummary.key collation)).length = page.items.length :=
    List.length_map _
  rw [← hlists.covers.next_eq_some_iff (keys_nodup db filter) (hlen.trans_le hlists.bounded)
    fun hsome => hlen.trans (hlists.full (by simpa using hsome)), Option.map_eq_some_iff]
  simp only [Slug.key, collation.injective.eq_iff]

theorem nextCursor_of_next {page : Page ModelSummary Slug} {filters : FilterFingerprint}
    (hnext : page.next = some last) :
    (pageResponse crates page sort filters).nextCursor
      = some (encode crates (positionOf sort last) filters) := by
  rw [pageResponse, hnext, Option.map_some]

theorem refuses_issued (hcrates : crates.Lawful) {issued : Option String}
    (hfilter : readFilter crates db path query.family = .ok filter)
    (hcursor : query.cursor
      = some (encode crates (positionOf sort last) (fingerprint crates issued)))
    (h : 314 < last.text.length ∨ fingerprint crates issued ≠ fingerprint crates query.family) :
    Routes.listModels crates collation db path query
      = .error (.new crates.parseUri .validationFailed path) := by
  rw [Routes.listModels, readQuery_issued hcrates hfilter hcursor, if_pos h]
  rfl

theorem resumes_issued (hcrates : crates.Lawful)
    (hcursor : query.cursor
      = some (encode crates (positionOf sort last) (fingerprint crates query.family)))
    (hshort : last.text.length ≤ 314) :
    Resumes crates collation db path query last.text := by
  intro filter hfilter
  have hread := readQuery_issued hcrates hfilter hcursor
  rw [if_neg (not_or.mpr ⟨not_lt.mpr hshort, not_not.mpr rfl⟩)] at hread
  obtain ⟨page, hlists, hok⟩ := listModels_of_readQuery collation hread
  refine ⟨_, page.next.map (Slug.key collation), hok, ?_⟩
  have hitems : (page.items.map ModelSummaryResponse.of).map (fun item => collation item.slug)
      = page.items.map (ModelSummary.key collation) := by
    rw [List.map_map]
    rfl
  rw [pageResponse, hitems]
  exact hlists.covers

/-- A page that ends at a longer slug issues a cursor it does not take back. -/
theorem not_honoured (hcrates : crates.Lawful)
    (hread : readQuery crates db path query = .ok (filter, limit, after)) {text : String}
    (hends : Keyset.EndsAt (keys collation db filter) (after.map (Slug.key collation)) limit.get
      (collation text))
    (hlong : 314 < text.length) : ¬ Honoured crates collation db path query := by
  intro h
  obtain ⟨page, hlists, hok⟩ := listModels_of_readQuery collation hread
  obtain ⟨slug, hnext, rfl⟩ := (next_iff hlists).mpr hends
  have hfilter := readFilter_of_readQuery hread
  obtain ⟨last, -, hresumes⟩ := h.resumes _ _ hok (nextCursor_of_next hnext)
  obtain ⟨body, -, hbody, -⟩ := hresumes db query.limit filter hfilter
  have hclash := hbody.symm.trans (refuses_issued hcrates hfilter rfl (Or.inl hlong))
  cases hclash

/-- **The cursors that are taken back.**  Those of pages that end at a slug of at most 314
characters. -/
theorem issued_cursors_honoured_iff (crates : CursorCrates) (hcrates : crates.Lawful)
    (collation : String ↪ κ) (db : Tables) (path : String) (query : ModelListQuery) :
    Honoured crates collation db path query ↔
      ∀ filter limit after, readQuery crates db path query = .ok (filter, limit, after) →
        ∀ m ∈ db.models, Keyset.EndsAt (keys collation db filter)
          (after.map (Slug.key collation)) limit.get (collation m.slug) →
        m.slug.length ≤ 314 := by
  constructor
  · intro h filter limit after hread m _ hends
    by_contra hlong
    exact not_honoured hcrates hread hends (not_le.mp hlong) h
  · intro h
    refine ⟨?_, ?_⟩
    · intro body token hok htoken
      obtain ⟨filter, limit, after, page, hread, hlists, rfl⟩ := readQuery_of_listModels hok
      obtain ⟨slug, hnext, rfl⟩ := Option.map_eq_some_iff.mp htoken
      obtain ⟨last, hlast, rfl⟩ := Option.map_eq_some_iff.mp (hlists.last slug hnext)
      have hends := (next_iff hlists).mp ⟨last.slug, hnext, rfl⟩
      obtain ⟨m, hm, hslug⟩ := List.mem_map.mp hends.mem
      have hshort := h filter limit after hread m (List.mem_filter.mp hm).1 (hslug ▸ hends)
      rw [collation.injective hslug] at hshort
      refine ⟨.of last, ?_, fun db' limit' => resumes_issued hcrates rfl hshort⟩
      rw [pageResponse, List.getLast?_map, hlast, Option.map_some]
    · intro body token hok htoken other hother hne hsha db' sort limit' filter' hfilter'
      obtain ⟨filter, limit, after, page, hread, hlists, rfl⟩ := readQuery_of_listModels hok
      obtain ⟨slug, hnext, rfl⟩ := Option.map_eq_some_iff.mp htoken
      have hfingerprint := fingerprint_ne
        (accepted_of_readFilter (readFilter_of_readQuery hread)) hother hne hsha
      exact refuses_issued hcrates hfilter' rfl (Or.inr hfingerprint)

/-! ### Packages that read the compact token -/

/-- The text up to the next quote, and what follows the quote. -/
def upToQuote (cs : List Char) : String × List Char :=
  (String.ofList (cs.takeWhile (· ≠ '"')), (cs.dropWhile (· ≠ '"')).drop 1)

theorem upToQuote_append {text : String} (h : Plain text) (rest : List Char) :
    upToQuote (text.toList ++ '"' :: rest) = (text, rest) := by
  have hquote : ∀ c ∈ text.toList, decide (c ≠ '"') = true := fun c hc => decide_eq_true (h c hc).1
  rw [upToQuote, List.takeWhile_append_of_pos hquote, List.dropWhile_append_of_pos hquote]
  simp

/-- Reads the token this version writes, member after member. -/
def readToken (cs : List Char) : Option CursorTokenV1 :=
  let sort := upToQuote (cs.drop 21)
  let lastValue := upToQuote (sort.2.drop 15)
  let tiebreaker := upToQuote (lastValue.2.drop 15)
  let filter := upToQuote (tiebreaker.2.drop 11)
  let token : CursorTokenV1 := ⟨cursorVersion, sort.1, lastValue.1, tiebreaker.1, filter.1⟩
  if token.text.toList = cs then some token else none

theorem text_toList {version : ℕ} (hversion : version = cursorVersion)
    (sort lastValue tiebreaker filter : String) :
    (CursorTokenV1.mk version sort lastValue tiebreaker filter).text.toList
      = "\x7b\"version\":1,\"sort\":\"".toList ++ (sort.toList ++ '"' ::
        (",\"last_value\":\"".toList ++ (lastValue.toList ++ '"' ::
        (",\"tiebreaker\":\"".toList ++ (tiebreaker.toList ++ '"' ::
        (",\"filter\":\"".toList ++ (filter.toList ++ '"' :: ['\x7d']))))))) := by
  have hhead : "\x7b\"version\":1,\"sort\":\"".toList
      = "\x7b\"version\":".toList ++ ((toString version).toList ++ ",\"sort\":\"".toList) := by
    rw [hversion]
    rfl
  have hlast : "\",\"last_value\":\"".toList = '"' :: ",\"last_value\":\"".toList := by
    rfl
  have htie : "\",\"tiebreaker\":\"".toList = '"' :: ",\"tiebreaker\":\"".toList := by
    rfl
  have hfilter : "\",\"filter\":\"".toList = '"' :: ",\"filter\":\"".toList := rfl
  have hend : "\"\x7d".toList = ['"', '\x7d'] := rfl
  unfold CursorTokenV1.text
  simp only [String.toList_append, List.append_assoc]
  rw [hhead, hlast, htie, hfilter, hend]
  simp only [List.append_assoc, List.cons_append]

theorem readToken_text {token : CursorTokenV1} (h : token.Plain) :
    readToken token.text.toList = some token := by
  obtain ⟨version, sort, lastValue, tiebreaker, filter⟩ := token
  obtain rfl : version = cursorVersion := h.version
  have hhead : "\x7b\"version\":1,\"sort\":\"".toList.length = 21 := rfl
  have hlast : ",\"last_value\":\"".toList.length = 15 := rfl
  have htie : ",\"tiebreaker\":\"".toList.length = 15 := rfl
  have hfilter : ",\"filter\":\"".toList.length = 11 := rfl
  unfold readToken
  simp only [text_toList rfl]
  simp only [List.drop_left' hhead, upToQuote_append h.sort, List.drop_left' hlast,
    upToQuote_append h.lastValue, List.drop_left' htie, upToQuote_append h.tiebreaker,
    List.drop_left' hfilter, upToQuote_append h.filter, if_true]

/-- The text of bytes, if they are UTF-8. -/
def readUtf8 (json : List UInt8) : Option String := String.fromUTF8? ⟨json.toArray⟩

theorem readUtf8_utf8 (text : String) : readUtf8 (utf8 text) = some text := by
  rw [readUtf8, utf8, Array.toArray_toList]
  exact dif_pos text.isValidUTF8

/-- The packages on the tokens of an unfiltered collection: the digest of `family=`, base64
with the URL alphabet, and the compact JSON of a token. -/
def unfilteredCrates : CursorCrates where
  sha256 _ := [110, 227, 199, 91, 26, 196, 252, 229, 92, 228, 41, 156, 182, 126, 184, 87, 4, 58,
    11, 18, 116, 206, 18, 189, 234, 133, 152, 21, 235, 123, 225, 254]
  base64Encode bytes := String.ofList (Base64.encode bytes)
  base64Decode token := Base64.decode token.toList
  toVec token := some (utf8 token.text)
  tokenFromSlice json := (readUtf8 json).bind fun text => readToken text.toList
  probeFromSlice json := (readUtf8 json).bind fun text =>
    (readToken text.toList).map fun token => ⟨token.version⟩
  parseUri path := some ⟨none, none, path, none⟩

theorem unfilteredCrates_lawful : unfilteredCrates.Lawful where
  length_sha256 _ := rfl
  base64Decode_encode bytes := by
    simp only [unfilteredCrates, String.toList_ofList, Base64.decode_encode]
  size_base64Encode bytes := by
    have hascii : Base64.alphabet.all (fun c => c.toNat ≤ 126) = true := by decide +kernel
    have hsymbols : ∀ c ∈ Base64.encode bytes, c.toNat ≤ 126 := fun c hc =>
      of_decide_eq_true (List.all_eq_true.mp hascii c (Base64.mem_alphabet hc))
    simp only [unfilteredCrates]
    rw [size_of_ascii hsymbols, Base64.length_encode]
  toVec_plain _ _ := rfl
  tokenFromSlice_plain token h := by
    simp only [unfilteredCrates, readUtf8_utf8, Option.bind_some, readToken_text h]
  probeFromSlice_plain token h := by
    simp only [unfilteredCrates, readUtf8_utf8, Option.bind_some, readToken_text h,
      Option.map_some]

/-! ### A long slug -/

/-- A slug of `n + 1` letters. -/
def letters (n : ℕ) : String := String.ofList ('a' :: List.replicate n 'a')

theorem slugRest_replicate (n : ℕ) : Slug.slugRest (List.replicate n 'a') = true := by
  induction n with
  | zero => rfl
  | succ n ih =>
      rw [List.replicate_succ, Slug.slugRest_cons (by decide)]
      exact ih

theorem slugText_letters (n : ℕ) : Slug.slugText (letters n).toList = true := by
  rw [letters, String.toList_ofList, Slug.slugText, slugRest_replicate]
  decide

theorem letters_lt (n : ℕ) : letters n < "b" := by
  rw [String.lt_iff_toList_lt, letters, String.toList_ofList]
  exact List.Lex.rel (by decide)

theorem length_letters (n : ℕ) : (letters n).length = n + 1 := by
  rw [letters, String.length_ofList, List.length_cons, List.length_replicate]

def cessna (slug : String) : ModelRow := ⟨1, slug, "182", none, none, none, none, none⟩

/-- Two models of one family. -/
def hangar (n : ℕ) : Tables where
  families := [⟨1, "cessna"⟩]
  models := [cessna (letters n), cessna "b"]
  families_pkey := by decide
  families_slug_key := by decide
  families_slug_text := by decide
  models_slug_key := by simpa [cessna] using (letters_lt n).ne
  models_slug_text := by
    intro m hm
    rcases List.mem_pair.mp hm with rfl | rfl
    · exact slugText_letters n
    · decide
  models_family_id_fkey := by
    intro m hm
    refine ⟨⟨1, "cessna"⟩, by simp, ?_⟩
    rcases List.mem_pair.mp hm with rfl | rfl <;> rfl

def onePerPage : ModelListQuery := ⟨none, none, some ⟨1, Nat.one_pos, by decide⟩, none⟩

/-- The first page of the hangar ends at the letters. -/
theorem endsAt_letters (n : ℕ) :
    Keyset.EndsAt (keys (Function.Embedding.refl String) (hangar n) ⟨none⟩) none 1
      (letters n) := by
  have hkeys : keys (Function.Embedding.refl String) (hangar n) ⟨none⟩ = [letters n, "b"] := by
    simp [keys, hangar, cessna, ModelFilter.Matches]
  rw [hkeys]
  refine ⟨by simp, by simp, ?_, "b", by simp, letters_lt n⟩
  rw [Keyset.rank, List.filter_cons_of_pos (by simp), List.filter_cons_of_neg]
  · rfl
  · simpa using letters_lt n

theorem issued_cursors_honoured_iff_hangar :
    Honoured unfilteredCrates (Function.Embedding.refl String) (hangar 313) "/v1/models"
      onePerPage := by
  refine (issued_cursors_honoured_iff unfilteredCrates unfilteredCrates_lawful
    (Function.Embedding.refl String) (hangar 313) "/v1/models" onePerPage).mpr ?_
  intro filter limit after _ m hm _
  rcases List.mem_pair.mp hm with rfl | rfl
  · exact (length_letters 313).le
  · decide

theorem long_slug_cursor_refused :
    ¬ Honoured unfilteredCrates (Function.Embedding.refl String) (hangar 314) "/v1/models"
      onePerPage := by
  have hread : readQuery unfilteredCrates (hangar 314) "/v1/models" onePerPage
      = .ok (⟨none⟩, PageLimit.fromRequested onePerPage.limit, none) := rfl
  have hlong : 314 < (letters 314).length := by
    rw [length_letters]
    decide
  exact not_honoured unfilteredCrates_lawful hread (endsAt_letters 314) hlong

end Catalog

end AircraftApi
