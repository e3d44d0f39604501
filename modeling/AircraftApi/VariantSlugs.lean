/-
AircraftApi/VariantSlugs.lean

The slugs of the variants over sequences of imports.

A variant gets the slug its names make, which ends in `v1`, or that slug with a
hyphen and the first eight digits of the digest of its key (`Assigned`).  A hex
digit is no `v`, so a slug of one kind is none of the other; two of the second
kind differ in their digits; and two of the first kind never meet, since the
statement looks for the other one.

The database lower-cases ASCII as usual, and `md5` gives 32 hexadecimal digits.
-/
import AircraftApi.Identity

namespace AircraftApi

namespace Identity

open Slug (hyphenate isSlugChar slugText slugText_append slugText_of_all slugText_slugify slugify
  slugify_append)
open Statements
open Transition (after transcript)

/-- A lower-case hexadecimal digit. -/
def isHexDigit (c : Char) : Bool := ('0' ≤ c ∧ c ≤ '9') ∨ ('a' ≤ c ∧ c ≤ 'f')

/-- `lower` on ASCII. -/
def LowersAscii (sql : TextFunctions) : Prop :=
  ∀ c : Char, c.toNat < 128 → sql.lower c = c.toLower

/-- `md5` is 32 hexadecimal digits in lower case. -/
def HexDigests (sql : TextFunctions) : Prop :=
  ∀ text, (sql.md5 text).length = 32 ∧ ∀ c ∈ sql.md5 text, isHexDigit c = true

/-- The digits of a key's digest that go into a slug. -/
def digits (sql : TextFunctions) (key : String) : List Char := (sql.md5 key).take 8

/-- The slug of a variant is one its names make, or that with the digits of its
key. -/
structure Assigned (sql : TextFunctions) (variant : Variant) : Prop where
  valid : slugText variant.slug = true
  form : ∃ stem, variant.slug = stem ++ "v1".toList ∨
    variant.slug = stem ++ "v1".toList ++ '-' :: digits sql variant.ingestKey

/-! ### Characters -/

theorem isSlugChar_of_isHexDigit {c : Char} (h : isHexDigit c = true) : isSlugChar c = true := by
  simp only [isHexDigit, isSlugChar, decide_eq_true_eq] at h ⊢
  rcases h with h | ⟨hlow, hhigh⟩
  · exact .inr h
  · exact .inl ⟨hlow, le_trans hhigh (by decide)⟩

section

variable {sql : TextFunctions}

/-- An ASCII letter or digit lower-cases to a character of a slug. -/
theorem isSlugChar_lower (hlower : LowersAscii sql) {c : Char} (h : c.isAlphanum = true) :
    isSlugChar (sql.lower c) = true := by
  have hascii : c.toNat < 128 := by
    simp only [Char.isAlphanum, Char.isAlpha, Char.isUpper, Char.isLower, Char.isDigit, ge_iff_le,
      Bool.or_eq_true, Bool.and_eq_true, decide_eq_true_eq, UInt32.le_iff_toNat_le] at h
    show c.val.toNat < 128
    rcases h with (⟨-, h⟩ | ⟨-, h⟩) | ⟨-, h⟩ <;> exact lt_of_le_of_lt h (by decide)
  have hall : ∀ n < 128, (Char.ofNat n).isAlphanum = true →
      isSlugChar (Char.ofNat n).toLower = true := by decide +kernel
  have hc := hall c.toNat hascii
  rw [Char.ofNat_toNat] at hc
  rw [hlower c hascii]
  exact hc h

/-- The candidate is a slug that ends in `v1`. -/
theorem candidateSlug_form (hlower : LowersAscii sql) (identity : AircraftIdentityInput) :
    slugText (candidateSlug sql identity) = true ∧
      ∃ stem, candidateSlug sql identity = stem ++ "v1".toList := by
  have htail : "-v1".toList = "-".toList ++ "v1".toList := by decide
  have hv : ∀ c ∈ "v1".toList, isSlugChar (sql.lower c) = true := by
    intro c hc
    have hc : c = 'v' ∨ c = '1' := by simpa using hc
    rcases hc with rfl | rfl
    · exact isSlugChar_lower hlower (by decide)
    · exact isSlugChar_lower hlower (by decide)
  have hfixed : "v1".toList.map sql.lower = "v1".toList := by
    show [sql.lower 'v', sql.lower '1'] = ['v', '1']
    rw [hlower 'v' (by decide), hlower '1' (by decide)]
    decide
  unfold candidateSlug
  rw [htail, ← List.append_assoc]
  refine ⟨?_, _, (slugify_append sql.lower (by decide) hv).trans (by rw [hfixed])⟩
  rw [slugText_slugify]
  exact ⟨'v', by simp, hv 'v' (by decide)⟩

/-- The digits are eight, and make a slug. -/
theorem digits_form (hmd5 : HexDigests sql) (key : String) :
    (digits sql key).length = 8 ∧ (∀ c ∈ digits sql key, isHexDigit c = true) ∧
      slugText (digits sql key) = true := by
  obtain ⟨hlength, hhex⟩ := hmd5 key
  have height : (digits sql key).length = 8 := by
    rw [digits, List.length_take, hlength]
    rfl
  have hall : ∀ c ∈ digits sql key, isHexDigit c = true :=
    fun c hc => hhex c (List.mem_of_mem_take hc)
  refine ⟨height, hall, slugText_of_all ?_ fun c hc => isSlugChar_of_isHexDigit (hall c hc)⟩
  exact List.ne_nil_of_length_pos (by omega)

/-- A slug that ends in `v1` ends in no digits of a key. -/
theorem candidate_ne_suffixed (hmd5 : HexDigests sql) (stem other : List Char) (key : String) :
    stem ++ "v1".toList ≠ other ++ '-' :: digits sql key := by
  intro h
  obtain ⟨hlength, hhex, -⟩ := digits_form hmd5 key
  have hsplit : other ++ '-' :: digits sql key
      = (other ++ '-' :: (digits sql key).take 6) ++ (digits sql key).drop 6 := by
    rw [List.append_assoc, List.cons_append, List.take_append_drop]
  rw [hsplit] at h
  have hend := (List.append_inj' h (by rw [List.length_drop, hlength]; rfl)).2
  have hv : 'v' ∈ digits sql key := by
    refine List.mem_of_mem_drop (i := 6) ?_
    rw [← hend]
    exact List.mem_cons_self
  exact absurd (hhex 'v' hv) (by decide)

/-- Two slugs with digits that are one have the digits of one. -/
theorem digits_of_suffixed (hmd5 : HexDigests sql) {stem other : List Char} {key key' : String}
    (h : stem ++ '-' :: digits sql key = other ++ '-' :: digits sql key') :
    digits sql key = digits sql key' := by
  have hlength : ('-' :: digits sql key).length = ('-' :: digits sql key').length := by
    rw [List.length_cons, List.length_cons, (digits_form hmd5 key).1, (digits_form hmd5 key').1]
  exact (List.cons_inj_right _).mp (List.append_inj' h hlength).2

/-! ### One import -/

variable {db db' : Tables} {record : PreparedAircraftRecord}
variable {choice organization family model variantId : ℕ}

/-- The slug a statement proposes: the candidate, which no other key then holds,
or the candidate with the digits of the key. -/
theorem variantSlug_cases (sql : TextFunctions) (variants : List Variant) (record : PreparedAircraftRecord) :
    (variantSlug sql variants record = candidateSlug sql record.identity ∧
      ∀ existing ∈ variants, existing.slug = candidateSlug sql record.identity →
        existing.ingestKey = record.sourceRecordKey) ∨
    variantSlug sql variants record
      = candidateSlug sql record.identity ++ '-' :: digits sql record.sourceRecordKey := by
  unfold variantSlug
  dsimp only
  split_ifs with htaken
  · right
    rw [List.append_assoc]
    rfl
  · refine .inl ⟨rfl, fun existing hexisting hslug => ?_⟩
    by_contra hother
    exact htaken (List.any_eq_true.mpr ⟨existing, hexisting, decide_eq_true ⟨hslug, hother⟩⟩)

theorem assigned_proposed (hlower : LowersAscii sql) (hmd5 : HexDigests sql)
    (variants : List Variant) (model : ℕ) (record : PreparedAircraftRecord) :
    Assigned sql (proposedVariant sql variants model record) := by
  obtain ⟨hvalid, stem, hstem⟩ := candidateSlug_form hlower record.identity
  rcases variantSlug_cases sql variants record with ⟨hslug, -⟩ | hslug
  · refine ⟨?_, stem, .inl ?_⟩
    · show slugText (variantSlug sql variants record) = true
      rw [hslug, hvalid]
    · exact hslug.trans hstem
  · refine ⟨?_, stem, .inr ?_⟩
    · show slugText (variantSlug sql variants record) = true
      rw [hslug]
      exact slugText_append hvalid (digits_form hmd5 _).2.2
    · exact hslug.trans (by rw [hstem]; rfl)

/-- The slug proposed for a new key is no stored one. -/
theorem proposed_slug_fresh (hmd5 : HexDigests sql) (hlower : LowersAscii sql)
    {variants : List Variant} (h : ∀ stored ∈ variants, Assigned sql stored)
    (hdigits : ∀ stored ∈ variants, digits sql stored.ingestKey = digits sql record.sourceRecordKey →
      stored.ingestKey = record.sourceRecordKey)
    (hnew : lookup Variant.ingestKey variants record.sourceRecordKey = none) :
    ∀ stored ∈ variants, stored.slug ≠ (proposedVariant sql variants model record).slug := by
  intro stored hstored hsame
  have hother := lookup_eq_none.mp hnew stored hstored
  have hsame : stored.slug = variantSlug sql variants record := hsame
  obtain ⟨-, stem, hstem⟩ := candidateSlug_form hlower record.identity
  rcases variantSlug_cases sql variants record with ⟨hslug, hfree⟩ | hslug
  · exact hother (hfree stored hstored (hsame.trans hslug))
  · rw [hslug] at hsame
    obtain ⟨stem', hform | hform⟩ := (h stored hstored).form
    · exact candidate_ne_suffixed hmd5 _ _ _ (hform.symm.trans hsame)
    · exact hother (hdigits stored hstored (digits_of_suffixed hmd5 (hform.symm.trans hsame)))

theorem Promoted.assigned (hlower : LowersAscii sql) (hmd5 : HexDigests sql)
    (h : ∀ stored ∈ db.variants, Assigned sql stored)
    (hp : Promoted sql db record choice db' organization family model variantId) :
    ∀ stored ∈ db'.variants, Assigned sql stored := by
  rw [hp.variants_eq]
  exact forall_mem_upsert h (assigned_proposed hlower hmd5 _ _ _)
    fun stored _ _ hstored => ⟨hstored.valid, hstored.form⟩

/-- The index of the slugs is what keeps them apart. -/
theorem Promoted.slugs_nodup (h : (db.variants.map Variant.slug).Nodup)
    (hp : Promoted sql db record choice db' organization family model variantId) :
    (db'.variants.map Variant.slug).Nodup := by
  obtain ⟨-, -, -, hfree⟩ := upsertVariant_ok hp.variants
  rw [hp.variants_eq]
  rcases upsert_cases Variant.ingestKey Variant.merge db.variants
    (proposedVariant sql db.variants model record) with ⟨id, stored, hid, -, -, heq⟩ | ⟨hnew, heq⟩
  · -- a merge leaves the slug of the stored row
    have hsame : (stored.merge (proposedVariant sql db.variants model record)).slug
        = stored.slug := rfl
    rw [heq, map_set_of_eq hid hsame]
    exact h
  · rw [heq, List.map_append, List.nodup_append]
    refine ⟨h, List.nodup_singleton _, ?_⟩
    intro slug hslug other hother heq
    obtain ⟨stored, hstored, rfl⟩ := List.mem_map.mp hslug
    exact hfree hnew stored hstored (heq.trans (List.mem_singleton.mp hother))

/-- A key that is stored keeps its slug. -/
theorem importIdentity_slug (sql : TextFunctions) (h : Sound db) (call : Import) {key : String}
    {variant : Variant}
    (hstored : lookup Variant.ingestKey db.variants key = some variant) :
    ∃ variant', lookup Variant.ingestKey (importIdentity sql db call).1.variants key = some variant' ∧
      variant'.slug = variant.slug := by
  rcases importIdentity_cases sql db call with ⟨violation, heq, -⟩ | ⟨db', _, _, model, _, heq, hp⟩
  · rw [heq]
    exact ⟨variant, hstored, rfl⟩
  · rw [heq, hp.lookup_variants h]
    split_ifs with hkey
    · rw [hkey] at hstored
      have hwritten : written Variant.ingestKey Variant.merge db.variants
          (proposedVariant sql db.variants model call.record) = variant.merge _ :=
        written_of_lookup hstored
      refine ⟨_, rfl, ?_⟩
      rw [hwritten]
      rfl
    · exact ⟨variant, hstored, rfl⟩

/-- Where the stored slugs are assigned, and no stored key shares the digits of
the new one, the record is refused neither by the slugs' domain nor by their
index. -/
theorem importIdentity_ne_slug (hlower : LowersAscii sql) (hmd5 : HexDigests sql)
    (h : ∀ stored ∈ db.variants, Assigned sql stored) {call : Import}
    (hname : ∃ c ∈ call.record.identity.manufacturerName.toList, c.isAlphanum = true)
    (hdigits : ∀ stored ∈ db.variants,
      digits sql stored.ingestKey = digits sql call.record.sourceRecordKey →
        stored.ingestKey = call.record.sourceRecordKey) :
    (importIdentity sql db call).2 ≠ some (.domain "slug_text") ∧
      ∀ index, (importIdentity sql db call).2 ≠ some (.unique index) := by
  -- every text that begins with the manufacturer's name makes a slug
  have hslugs : ∀ rest : List Char,
      slugText (slugify sql.lower (call.record.identity.manufacturerName.toList ++ rest)) = true := by
    obtain ⟨c, hc, halnum⟩ := hname
    intro rest
    rw [slugText_slugify]
    exact ⟨c, List.mem_append_left _ hc, isSlugChar_lower hlower halnum⟩
  have hnone : ∀ violation, promoteIdentity sql db call.record call.choice = .error violation →
      violation ≠ .domain "slug_text" ∧ ∀ index, violation ≠ .unique index := by
    intro violation herror
    rcases promoteIdentity_error herror with ⟨-, hslug⟩ | ⟨model, herror⟩
    · have htrue := hslugs []
      rw [List.append_nil] at htrue
      have hfamily := hslugs "-family".toList
      have hmodel := hslugs ("-".toList ++ call.record.identity.aircraftName.toList)
      rw [← List.append_assoc] at hmodel
      rcases hslug with hslug | hslug | hslug
      · exact absurd htrue (Bool.eq_false_iff.mp hslug)
      · exact absurd hfamily (Bool.eq_false_iff.mp hslug)
      · exact absurd hmodel (Bool.eq_false_iff.mp hslug)
    have hchecks : ∀ row : Variant, slugText row.slug = true → row.checks = .error violation →
        violation ≠ .domain "slug_text" ∧ ∀ index, violation ≠ .unique index := by
      intro row hrow hfails
      rcases checks_error hfails with rfl | ⟨-, hslug⟩ | hbound | ⟨rfl, -⟩
      · exact ⟨by decide, fun _ => nofun⟩
      · exact absurd hrow (Bool.eq_false_iff.mp hslug)
      · simp only [List.mem_cons, List.not_mem_nil, or_false] at hbound
        rcases hbound with rfl | rfl | rfl <;> exact ⟨nofun, fun _ => nofun⟩
      · exact ⟨nofun, fun _ => nofun⟩
    have hproposed := assigned_proposed hlower hmd5 db.variants model call.record
    rcases upsertVariant_error herror with
      hfails | ⟨stored, hstored, hfails⟩ | ⟨-, hnew, stored, hstored, hsame⟩ | hkeys
    · exact hchecks _ hproposed.valid hfails
    · exact hchecks (stored.merge _) (h stored (lookup_mem hstored).1).valid hfails
    · exact absurd hsame (proposed_slug_fresh hmd5 hlower h hdigits hnew stored hstored)
    · obtain ⟨constraint, rfl⟩ := references_error hkeys
      exact ⟨nofun, fun _ => nofun⟩
  rcases importIdentity_cases sql db call with ⟨violation, heq, hwhy⟩ | ⟨_, _, _, _, _, heq, -⟩
  · rw [heq]
    have hviolation : violation ≠ .domain "slug_text" ∧ ∀ index, violation ≠ .unique index := by
      rcases hwhy with rfl | herror
      · exact ⟨nofun, fun _ => nofun⟩
      · exact hnone violation herror
    exact ⟨fun hsome => hviolation.1 (Option.some.inj hsome),
      fun index hsome => hviolation.2 index (Option.some.inj hsome)⟩
  · rw [heq]
    exact ⟨nofun, fun _ => nofun⟩

/-! ### Runs -/

/-- The keys that are stored are keys of the run. -/
theorem after_keys (organizations : List Organization) (calls : List Import) :
    ∀ stored ∈ (after (importIdentity sql) (.seeded organizations) calls).variants,
      ∃ call ∈ calls, call.record.sourceRecordKey = stored.ingestKey := by
  induction calls using List.reverseRecOn with
  | nil => exact fun _ h => absurd h List.not_mem_nil
  | append_singleton calls call ih =>
      have hold : ∀ stored ∈ (after (importIdentity sql) (.seeded organizations) calls).variants,
          ∃ other ∈ calls ++ [call], other.record.sourceRecordKey = stored.ingestKey := by
        intro stored hstored
        obtain ⟨other, hother, hkey⟩ := ih stored hstored
        exact ⟨other, List.mem_append_left _ hother, hkey⟩
      rw [Transition.after_append_singleton]
      generalize after (importIdentity sql) (.seeded organizations) calls = db at hold ⊢
      refine importIdentity_invariant (P := fun db => ∀ stored ∈ db.variants,
        ∃ other ∈ calls ++ [call], other.record.sourceRecordKey = stored.ingestKey) hold fun hp => ?_
      rw [hp.variants_eq]
      exact forall_mem_upsert hold
        ⟨call, List.mem_append_right _ (List.mem_singleton_self _), rfl⟩
        fun _ _ _ hstored => hstored

/-- What a run keeps of the slugs. -/
theorem after_slugs (hlower : LowersAscii sql) (hmd5 : HexDigests sql)
    (organizations : List Organization) (calls : List Import) :
    (∀ stored ∈ (after (importIdentity sql) (.seeded organizations) calls).variants,
      Assigned sql stored) ∧
    ((after (importIdentity sql) (.seeded organizations) calls).variants.map Variant.slug).Nodup := by
  let P : Tables → Prop := fun db => (∀ stored ∈ db.variants, Assigned sql stored) ∧
    (db.variants.map Variant.slug).Nodup
  have hinit : P (.seeded organizations) := ⟨fun _ h => absurd h List.not_mem_nil, List.nodup_nil⟩
  refine Transition.after_invariant (P := P) (fun db call h => ?_) hinit calls
  exact importIdentity_invariant (P := P) h
    fun hp => ⟨hp.assigned hlower hmd5 h.1, hp.slugs_nodup h.2⟩

/-- What a run finds under a key keeps its slug to the end of the run. -/
theorem after_slug {db : Tables} (h : Sound db) (calls : List Import) {key : String}
    {variant : Variant} (hstored : lookup Variant.ingestKey db.variants key = some variant) :
    ∃ variant', lookup Variant.ingestKey (after (importIdentity sql) db calls).variants key
        = some variant' ∧ variant'.slug = variant.slug := by
  induction calls generalizing db variant with
  | nil => exact ⟨variant, hstored, rfl⟩
  | cons call calls ih =>
      obtain ⟨variant', hkept, hslug⟩ := importIdentity_slug sql h call hstored
      obtain ⟨last, hlast, hsame⟩ := ih (importIdentity_sound h) hkept
      exact ⟨last, hlast, hsame.trans hslug⟩

end

/-- **Slugs of variants**: over every sequence of imports, replays among them, of
records whose manufacturer's name has an ASCII letter or digit and whose keys
differ in the digits of their digests, no import is refused by the domain of the
slugs or by a unique index, every variant's slug is a slug, no two variants share
one, and a variant keeps the slug it was first stored under. -/
theorem variant_slugs (sql : TextFunctions) (hlower : LowersAscii sql) (hmd5 : HexDigests sql)
    (organizations : List Organization) (calls : List Import)
    (hnames : ∀ call ∈ calls,
      ∃ c ∈ call.record.identity.manufacturerName.toList, c.isAlphanum = true)
    (hdigits : ∀ call ∈ calls, ∀ other ∈ calls,
      digits sql call.record.sourceRecordKey = digits sql other.record.sourceRecordKey →
        call.record.sourceRecordKey = other.record.sourceRecordKey) :
    (∀ answer ∈ transcript (importIdentity sql) (.seeded organizations) calls,
      answer.2 ≠ some (.domain "slug_text") ∧ ∀ index, answer.2 ≠ some (.unique index)) ∧
    (∀ variant ∈ (after (importIdentity sql) (.seeded organizations) calls).variants,
      slugText variant.slug = true) ∧
    (∀ variant ∈ (after (importIdentity sql) (.seeded organizations) calls).variants,
      ∀ other ∈ (after (importIdentity sql) (.seeded organizations) calls).variants,
        variant.ingestKey ≠ other.ingestKey → variant.slug ≠ other.slug) ∧
    ∀ earlier later, calls = earlier ++ later → ∀ key variant,
      lookup Variant.ingestKey (after (importIdentity sql) (.seeded organizations) earlier).variants
          key = some variant →
        ∃ variant', lookup Variant.ingestKey
            (after (importIdentity sql) (.seeded organizations) calls).variants key = some variant' ∧
          variant'.slug = variant.slug := by
  obtain ⟨hassigned, hnodup⟩ := after_slugs hlower hmd5 organizations calls
  refine ⟨?_, fun variant hvariant => (hassigned variant hvariant).valid, ?_, ?_⟩
  · clear hassigned hnodup
    induction calls using List.reverseRecOn with
    | nil => exact fun _ h => absurd h List.not_mem_nil
    | append_singleton calls call ih =>
        have hmem : call ∈ calls ++ [call] := List.mem_append_right _ (List.mem_singleton_self _)
        rw [Transition.transcript_append_singleton]
        intro answer hanswer
        rcases List.mem_append.mp hanswer with hold | hnew
        · exact ih (fun other hother => hnames other (List.mem_append_left _ hother))
            (fun first hfirst other hother => hdigits first (List.mem_append_left _ hfirst) other
              (List.mem_append_left _ hother)) answer hold
        · rw [List.mem_singleton.mp hnew]
          -- keys that meet in their digits are one key, so the slug is free
          refine importIdentity_ne_slug hlower hmd5 (after_slugs hlower hmd5 organizations calls).1
            (hnames call hmem) fun stored hstored hsame => ?_
          obtain ⟨other, hother, hkey⟩ := after_keys organizations calls stored hstored
          rw [← hkey] at hsame ⊢
          exact hdigits other (List.mem_append_left _ hother) call hmem hsame
  · intro variant hvariant other hother hkeys hsame
    exact hkeys (congrArg Variant.ingestKey (List.inj_on_of_nodup_map hnodup hvariant hother hsame))
  · rintro earlier later rfl key variant hstored
    -- the slug is assigned when the variant is made, and never again
    have hrun : after (importIdentity sql) (.seeded organizations) (earlier ++ later)
        = after (importIdentity sql) (after (importIdentity sql) (.seeded organizations) earlier)
            later := List.foldl_append
    rw [hrun]
    exact after_slug (after_sound sql organizations earlier) later hstored

/-- The keys of the aircraft `C` of `A/B` and of `A B`. -/
def slashKey : String := "973e201d7f6c297a03590b9d51913ecc4d6e8e51301ed9d891c8a1372f57e977"

def blankKey : String := "6334255d7c1c9401058db135ba05093611ea9042e052b79cff26625d96682b8a"

/-- The functions of the database, `md5` on these two keys. -/
def slashFunctions : TextFunctions where
  lower := Char.toLower
  upper := fun text => text.map Char.toUpper
  initcap := id
  md5 := fun text =>
    if text = slashKey then "9b4841866619ddaee300ea264cdd09af".toList
    else "95a9bd1f1f473423d71bd07ff02060b5".toList

/-- Two aircraft whose names make one slug, each imported twice. -/
def slashCalls : List Import :=
  [⟨namedRecord slashKey "A/B" "C", 0, true⟩, ⟨namedRecord blankKey "A B" "C", 0, true⟩,
    ⟨namedRecord slashKey "A/B" "C", 0, true⟩, ⟨namedRecord blankKey "A B" "C", 0, true⟩]

example : (after (importIdentity slashFunctions) (.seeded []) slashCalls).variants.map Variant.slug
    = ["a-b-c-v1".toList, "a-b-c-v1-95a9bd1f".toList] := by decide +kernel

theorem slashCalls_named {call : Import} (h : call ∈ slashCalls) :
    'A' ∈ call.record.identity.manufacturerName.toList ∧
      (call.record.sourceRecordKey = slashKey ∨ call.record.sourceRecordKey = blankKey) := by
  simp only [slashCalls, List.mem_cons, List.not_mem_nil, or_false] at h
  rcases h with rfl | rfl | rfl | rfl
  · exact ⟨by decide, .inl rfl⟩
  · exact ⟨by decide, .inr rfl⟩
  · exact ⟨by decide, .inl rfl⟩
  · exact ⟨by decide, .inr rfl⟩

theorem variant_slugs_slash : ∃ first second,
    (after (importIdentity slashFunctions) (.seeded []) slashCalls).variants = [first, second] ∧
      slugText first.slug = true ∧ slugText second.slug = true := by
  have hne : digits slashFunctions slashKey ≠ digits slashFunctions blankKey := by decide +kernel
  have htwo : (after (importIdentity slashFunctions) (.seeded [])
      slashCalls).variants.length = 2 := by decide +kernel
  obtain ⟨first, second, hvariants⟩ := List.length_eq_two.mp htwo
  suffices hall : ∀ variant ∈ (after (importIdentity slashFunctions) (.seeded [])
      slashCalls).variants, slugText variant.slug = true by
    rw [hvariants] at hall
    exact ⟨first, second, hvariants, hall first (by simp), hall second (by simp)⟩
  refine (variant_slugs slashFunctions (fun _ _ => rfl) ?_ [] slashCalls ?_ ?_).2.1
  · intro text
    show (ite _ _ _ : List Char).length = 32 ∧ ∀ c ∈ (ite _ _ _ : List Char), isHexDigit c = true
    split_ifs
    · exact ⟨by decide +kernel, List.all_eq_true.mp (by decide +kernel)⟩
    · exact ⟨by decide +kernel, List.all_eq_true.mp (by decide +kernel)⟩
  · exact fun call hcall => ⟨'A', (slashCalls_named hcall).1, by decide⟩
  · intro call hcall other hother hsame
    rcases (slashCalls_named hcall).2 with hkey | hkey <;>
      rcases (slashCalls_named hother).2 with hkey' | hkey' <;> rw [hkey, hkey'] at hsame ⊢
    · exact absurd hsame hne
    · exact absurd hsame.symm hne

end Identity

end AircraftApi
