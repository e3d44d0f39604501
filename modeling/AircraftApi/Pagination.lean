/-
AircraftApi/Pagination.lean

Keyset pagination over `aircraft_core.models`: the bound on a page, the page built
from one row more than it may carry, and the statement that reads the rows.

A client follows the key each page hands on, and each of its requests meets the
table as it then is:

    follow collation filter limit none [db₀, db₁, …]

What it is shown is a keyset scan of the slugs (`follow_scan`), so the general
rules say what it lists.  How the database orders texts is a parameter: an
embedding of the texts into a linear order.  A statement that fails at the
database is not modelled.
-/
import AircraftApi.Ingestion
import AircraftApi.Slug
import AircraftApi.Keyset

namespace AircraftApi

namespace Catalog

/-! ### Limits and pages -/

/-- A limit as the query gives it. -/
structure NonZeroU16 where
  get : ℕ
  pos : 0 < get
  lt : get < 2 ^ 16

/-- `PageLimit::DEFAULT`. -/
def PageLimit.default : ℕ := 50

/-- `PageLimit::MAX`. -/
def PageLimit.max : ℕ := 200

/-- A limit the service works with. -/
structure PageLimit where
  get : ℕ
  pos : 0 < get
  le_max : get ≤ PageLimit.max

/-- The limit asked for, as far as the service goes. -/
def PageLimit.fromRequested : Option NonZeroU16 → PageLimit
  | none => ⟨PageLimit.default, by decide, by decide⟩
  | some limit =>
      ⟨min limit.get PageLimit.max, lt_min limit.pos (by decide), min_le_right _ _⟩

/-- One row more than the page, added as a saturating `u16`. -/
def PageLimit.querySize (limit : PageLimit) : ℕ := min (limit.get + 1) (2 ^ 16 - 1)

theorem PageLimit.querySize_eq (limit : PageLimit) : limit.querySize = limit.get + 1 := by
  have h : limit.get ≤ 200 := limit.le_max
  exact min_eq_left (by omega)

/-- A page, and the key of its last row when there are more. -/
structure Page (T K : Type*) where
  items : List T
  next : Option K

/-- The page takes its key from the last row it keeps, not from the extra one. -/
def Page.fromOverfetched {T K : Type*} (rows : List T) (limit : PageLimit) (keyOf : T → K) :
    Page T K :=
  if limit.get < rows.length then
    ⟨rows.take limit.get, (rows.take limit.get).getLast?.map keyOf⟩
  else ⟨rows, none⟩

section

variable {T K κ : Type*} {rows : List T} {limit : PageLimit} {keyOf : T → K}

theorem Page.items_fromOverfetched :
    (Page.fromOverfetched rows limit keyOf).items = rows.take limit.get := by
  unfold Page.fromOverfetched
  split
  · rfl
  · rename_i h
    rw [List.take_of_length_le (not_lt.mp h)]

/-- A page that hands on a key is full. -/
theorem Page.length_fromOverfetched
    (h : (Page.fromOverfetched rows limit keyOf).next.isSome = true) :
    (Page.fromOverfetched rows limit keyOf).items.length = limit.get := by
  unfold Page.fromOverfetched at h ⊢
  split at h
  · rename_i hlen
    rw [if_pos hlen, List.length_take, min_eq_left hlen.le]
  · cases h

theorem Page.getLast_fromOverfetched {k : K}
    (h : (Page.fromOverfetched rows limit keyOf).next = some k) :
    (Page.fromOverfetched rows limit keyOf).items.getLast?.map keyOf = some k := by
  unfold Page.fromOverfetched at h ⊢
  split at h
  · rename_i hlen
    rw [if_pos hlen]
    exact h
  · cases h

/-- A page of the first rows of a scan, with one row fetched beyond it, hands on its
last key exactly when the scan goes on. -/
theorem Page.next_fromOverfetched {f : K → κ} {keys : List κ}
    (hrows : rows.map (f ∘ keyOf) = keys.take (limit.get + 1)) :
    (Page.fromOverfetched rows limit keyOf).next.map f
      = if limit.get < keys.length then (keys.take limit.get).getLast? else none := by
  have hlen : rows.length = min (limit.get + 1) keys.length := by
    rw [← List.length_map (f ∘ keyOf), hrows, List.length_take]
  unfold Page.fromOverfetched
  by_cases h : limit.get < keys.length
  · rw [if_pos h, if_pos (by omega)]
    have htake : (rows.take limit.get).map (f ∘ keyOf) = keys.take limit.get := by
      rw [List.map_take, hrows, List.take_take, min_eq_left (Nat.le_succ _)]
    rw [← htake, List.getLast?_map, Option.map_map]
  · rw [if_neg h, if_neg (by omega)]
    rfl

end

/-! ### Slugs -/

/-- The check of `Slug::try_from`. -/
def slugCheck (value : String) : Bool :=
  !value.isEmpty &&
    (value.toList.splitOn '-').all fun part => !part.isEmpty && part.all Slug.isSlugChar

/-- A text that is a slug. -/
structure Slug where
  text : String
  valid : slugCheck text = true
  deriving DecidableEq

/-- The slug of a text that is one. -/
def Slug.tryFrom (value : String) : Option Slug :=
  if h : slugCheck value = true then some ⟨value, h⟩ else none

/-- The parts between the hyphens are checked as the schema's pattern checks the text:
the first part goes on from what was read, the others start anew. -/
theorem splitOn_check (text : List Char) :
    (∃ front parts, text.splitOn '-' = front :: parts ∧
      Slug.slugRest text
        = (front.all Slug.isSlugChar
          && parts.all fun part => !part.isEmpty && part.all Slug.isSlugChar)) ∧
    Slug.slugText text
      = (text.splitOn '-').all fun part => !part.isEmpty && part.all Slug.isSlugChar := by
  -- a hyphen begins a new part; any other character goes on with the one before
  induction text with
  | nil => exact ⟨⟨[], [], rfl, rfl⟩, rfl⟩
  | cons c rest ih =>
      obtain ⟨⟨front, parts, hsplit, hrest⟩, htext⟩ := ih
      by_cases hc : c = '-'
      · subst hc
        have hcons : ('-' :: rest).splitOn '-' = [] :: rest.splitOn '-' := by
          simp [List.splitOn, List.splitOnP_cons_eq_if_modifyHead]
        refine ⟨⟨[], rest.splitOn '-', hcons, ?_⟩, ?_⟩
        · rw [← htext]
          cases rest <;> rfl
        · rw [hcons]
          rfl
      · have hcons : (c :: rest).splitOn '-' = (c :: front) :: parts := by
          rw [List.splitOn, List.splitOnP_cons_eq_if_modifyHead, if_neg (by simpa using hc)]
          rw [List.splitOn] at hsplit
          rw [hsplit]
          rfl
        have hgo : Slug.slugRest (c :: rest) = (Slug.isSlugChar c && Slug.slugRest rest) := by
          cases rest <;> simp [Slug.slugRest, hc]
        refine ⟨⟨c :: front, parts, hcons, ?_⟩, ?_⟩
        · rw [hgo, hrest, List.all_cons, Bool.and_assoc]
        · rw [hcons, Slug.slugText, hrest]
          simp [Bool.and_assoc]

/-- `Slug::try_from` accepts what the domain `aircraft_ref.slug_text` does. -/
theorem slugCheck_eq (value : String) : slugCheck value = Slug.slugText value.toList := by
  rw [slugCheck, (splitOn_check value.toList).2]
  rcases h : value.isEmpty with - | -
  · rfl
  · rw [String.isEmpty_iff] at h
    rw [h]
    rfl

theorem Slug.tryFrom_of_slugText {value : String} (h : Slug.slugText value.toList = true) :
    ∃ slug, Slug.tryFrom value = some slug ∧ slug.text = value :=
  ⟨⟨value, (slugCheck_eq value).trans h⟩, dif_pos _, rfl⟩

/-! ### The tables -/

/-- A row of `aircraft_core.families`. -/
structure FamilyRow where
  id : ℤ
  slug : String
  deriving DecidableEq

/-- A row of `aircraft_core.models`. -/
structure ModelRow where
  familyId : ℤ
  slug : String
  name : String
  displayName : Option String
  series : Option String
  generation : Option ℤ
  firstFlightYear : Option ℤ
  certificationYear : Option ℤ
  deriving DecidableEq

/-- The two tables, with the constraints migration `004` puts on them. -/
structure Tables where
  families : List FamilyRow
  models : List ModelRow
  families_pkey : (families.map FamilyRow.id).Nodup
  families_slug_key : (families.map FamilyRow.slug).Nodup
  families_slug_text : ∀ f ∈ families, Slug.slugText f.slug.toList = true
  models_slug_key : (models.map ModelRow.slug).Nodup
  models_slug_text : ∀ m ∈ models, Slug.slugText m.slug.toList = true
  models_family_id_fkey : ∀ m ∈ models, ∃ f ∈ families, f.id = m.familyId

/-- The columns `LIST` selects. -/
structure PgRow where
  slug : String
  name : String
  displayName : Option String
  family : Option String
  series : Option String
  generation : Option ℤ
  firstFlightYear : Option ℤ
  certificationYear : Option ℤ

/-- The columns the query returns. -/
def PgRow.of (row : ModelRow × Option FamilyRow) : PgRow where
  slug := row.1.slug
  name := row.1.name
  displayName := row.1.displayName
  family := row.2.map FamilyRow.slug
  series := row.1.series
  generation := row.1.generation
  firstFlightYear := row.1.firstFlightYear
  certificationYear := row.1.certificationYear

/-- The rows `LEFT JOIN families` makes of one model. -/
def joined (db : Tables) (m : ModelRow) : List (ModelRow × Option FamilyRow) :=
  match db.families.filter (·.id = m.familyId) with
  | [] => [(m, none)]
  | found => found.map fun f => (m, some f)

/-- The models, each with its family if it has one. -/
def leftJoin (db : Tables) : List (ModelRow × Option FamilyRow) := db.models.flatMap (joined db)

/-- The key of a family. -/
structure FamilyId where
  get : ℤ
  deriving DecidableEq

/-- Which models are listed. -/
structure ModelFilter where
  family : Option FamilyId

variable {κ : Type*} [LinearOrder κ] (collation : String ↪ κ)

/-- What `LIST` selects, in its order. -/
def selected (db : Tables) (family : Option ℤ) (after : Option String) :
    List (ModelRow × Option FamilyRow) :=
  ((leftJoin db).filter fun (m, _) =>
      (family.all fun id => m.familyId = id) &&
        (after.all fun slug => collation slug < collation m.slug)).mergeSort
    fun a b => collation a.1.slug ≤ collation b.1.slug

/-- The statement `LIST`. -/
def list (db : Tables) (family : Option ℤ) (after : Option String) (limit : ℕ) : List PgRow :=
  ((selected collation db family after).take limit).map PgRow.of

/-- A model as it is listed. -/
structure ModelSummary where
  slug : Slug
  name : String
  displayName : Option String
  family : Slug
  series : Option String
  generation : Option ℤ
  firstFlightYear : Option ℤ
  certificationYear : Option ℤ
  deriving DecidableEq

/-- A column holds what the contract has no room for. -/
def unrepresentable (column : String) : PersistenceError :=
  .invariant s!"{column} holds a value the catalog contract cannot represent"

/-- The summary of a row, unless a column cannot be represented. -/
def summary (row : PgRow) : Except PersistenceError ModelSummary := do
  let slug ← (Slug.tryFrom row.slug).elim (throw (unrepresentable "aircraft_core.models.slug")) pure
  let value ← row.family.elim (throw (unrepresentable "aircraft_core.models.family_id")) pure
  let family ← (Slug.tryFrom value).elim (throw (unrepresentable "aircraft_core.families.slug")) pure
  return { slug, name := row.name, displayName := row.displayName, family,
           series := row.series, generation := row.generation,
           firstFlightYear := row.firstFlightYear,
           certificationYear := row.certificationYear }

/-- A page of models: one row more than asked for is read, to see whether there are more. -/
def listModels (db : Tables) (filter : ModelFilter) (limit : PageLimit) (after : Option Slug) :
    Except PersistenceError (Page ModelSummary Slug) := do
  let rows := list collation db (filter.family.map FamilyId.get) (after.map Slug.text)
    limit.querySize
  let summaries ← rows.mapM summary
  return Page.fromOverfetched summaries limit ModelSummary.slug

/-- Follows the keys the pages hand on: one request to each of the tables in turn, until
a page hands on none.  The flag says whether one did. -/
def follow (filter : ModelFilter) (limit : PageLimit) :
    Option Slug → List Tables → Except PersistenceError (List (Page ModelSummary Slug) × Bool)
  | _, [] => return ([], false)
  | after, db :: dbs => do
    let page ← listModels collation db filter limit after
    match page.next with
    | none => return ([page], true)
    | some last =>
      let (pages, ended) ← follow filter limit (some last) dbs
      return (page :: pages, ended)

/-! ### What a page shows -/

/-- The model is of the family asked for. -/
def ModelFilter.Matches (filter : ModelFilter) (m : ModelRow) : Prop :=
  ∀ id ∈ filter.family, m.familyId = id.get

instance (filter : ModelFilter) : DecidablePred filter.Matches := fun m =>
  inferInstanceAs (Decidable (∀ id ∈ filter.family, m.familyId = id.get))

/-- The summary shows the row of the tables. -/
structure Shows (db : Tables) (m : ModelRow) (s : ModelSummary) : Prop where
  slug : s.slug.text = m.slug
  name : s.name = m.name
  displayName : s.displayName = m.displayName
  family : ∃ f ∈ db.families, f.id = m.familyId ∧ s.family.text = f.slug
  series : s.series = m.series
  generation : s.generation = m.generation
  firstFlightYear : s.firstFlightYear = m.firstFlightYear
  certificationYear : s.certificationYear = m.certificationYear

/-- The places in the database's order of the rows the filter lets through. -/
def keys (db : Tables) (filter : ModelFilter) : List κ :=
  (db.models.filter filter.Matches).map fun m => collation m.slug

/-- What the rows are ordered by. -/
def Slug.key (slug : Slug) : κ := collation slug.text

variable {collation} {db : Tables} {filter : ModelFilter} {limit : PageLimit} {after : Option Slug}

/-- Every model finds its one family. -/
theorem joined_eq {m : ModelRow} (hm : m ∈ db.models) :
    ∃ f ∈ db.families, f.id = m.familyId ∧ joined db m = [(m, some f)] := by
  obtain ⟨f, hf, hid⟩ := db.models_family_id_fkey m hm
  have hnodup : (db.families.filter (·.id = m.familyId)).Nodup :=
    (List.Nodup.of_map _ db.families_pkey).filter _
  have hall : ∀ g ∈ db.families.filter (·.id = m.familyId), g = f := by
    intro g hg
    obtain ⟨hg, hgid⟩ := List.mem_filter.mp hg
    exact List.inj_on_of_nodup_map db.families_pkey hg hf ((of_decide_eq_true hgid).trans hid.symm)
  have hin : f ∈ db.families.filter (·.id = m.familyId) :=
    List.mem_filter.mpr ⟨hf, decide_eq_true hid⟩
  refine ⟨f, hf, hid, ?_⟩
  unfold joined
  rcases hfound : db.families.filter (·.id = m.familyId) with - | ⟨g, - | ⟨g', rest⟩⟩
  · rw [hfound] at hin
    cases hin
  · rw [hfound, hall g (by simp [hfound])]
    rfl
  · have hsame : g = g' := (hall g (by simp [hfound])).trans (hall g' (by simp [hfound])).symm
    rw [hfound, hsame] at hnodup
    simp at hnodup

theorem leftJoin_fst (db : Tables) : (leftJoin db).map Prod.fst = db.models := by
  have hone : ∀ m ∈ db.models, (joined db m).map Prod.fst = [m] := by
    intro m hm
    obtain ⟨f, -, -, hjoined⟩ := joined_eq hm
    rw [hjoined]
    rfl
  rw [leftJoin, List.map_flatMap, List.flatMap_congr hone]
  simp

theorem mem_leftJoin {row : ModelRow × Option FamilyRow} (h : row ∈ leftJoin db) :
    row.1 ∈ db.models ∧ ∃ f ∈ db.families, f.id = row.1.familyId ∧ row.2 = some f := by
  obtain ⟨m, hm, h⟩ := List.mem_flatMap.mp h
  obtain ⟨f, hf, hid, hjoined⟩ := joined_eq hm
  rw [hjoined] at h
  rw [List.mem_singleton.mp h]
  exact ⟨hm, f, hf, hid, rfl⟩

/-- A joined row of the tables has a summary, and the summary shows it. -/
theorem summary_of_mem {row : ModelRow × Option FamilyRow} (h : row ∈ leftJoin db) :
    ∃ s, summary (PgRow.of row) = .ok s ∧ Shows db row.1 s := by
  obtain ⟨m, found⟩ := row
  obtain ⟨hm, f, hf, hid, rfl⟩ := mem_leftJoin h
  obtain ⟨slug, hslug, htext⟩ := Slug.tryFrom_of_slugText (db.models_slug_text m hm)
  obtain ⟨family, hfamily, hfamtext⟩ := Slug.tryFrom_of_slugText (db.families_slug_text f hf)
  refine ⟨{ slug, name := m.name, displayName := m.displayName, family, series := m.series,
            generation := m.generation, firstFlightYear := m.firstFlightYear,
            certificationYear := m.certificationYear },
    ?_, htext, rfl, rfl, ⟨f, hf, hid, hfamtext⟩, rfl, rfl, rfl, rfl⟩
  simp only [summary, PgRow.of, hslug, hfamily, Option.map_some, Option.elim_some, pure_bind]
  rfl

/-! ### The rows beyond a slug, in order -/

theorem mem_selected {row : ModelRow × Option FamilyRow} :
    row ∈ selected collation db (filter.family.map FamilyId.get) (after.map Slug.text)
      ↔ row ∈ leftJoin db ∧ filter.Matches row.1 ∧
        Keyset.Beyond (after.map (Slug.key collation)) (collation row.1.slug) := by
  rw [selected, List.mem_mergeSort, List.mem_filter]
  obtain ⟨family⟩ := filter
  rcases family with - | id <;> rcases after with - | slug <;>
    simp [ModelFilter.Matches, Slug.key]

omit [LinearOrder κ] in
theorem models_keys_nodup (db : Tables) : (db.models.map fun m => collation m.slug).Nodup := by
  have h := db.models_slug_key.map collation.injective
  rwa [List.map_map] at h

omit [LinearOrder κ] in
theorem keys_nodup (db : Tables) (filter : ModelFilter) : (keys collation db filter).Nodup :=
  (models_keys_nodup db).sublist (List.filter_sublist.map _)

theorem selected_increasing {family : Option ℤ} {after : Option String} :
    ((selected collation db family after).map fun row => collation row.1.slug).Pairwise
      (· < ·) := by
  apply Keyset.increasing_mergeSort
  have hjoin : ((leftJoin db).map fun row => collation row.1.slug).Nodup := by
    have hmodels : (db.models.map fun m => collation m.slug).Nodup := models_keys_nodup db
    rw [← leftJoin_fst, List.map_map] at hmodels
    exact hmodels
  exact hjoin.sublist (List.filter_sublist.map _)

theorem mem_selected_keys {k : κ} :
    k ∈ (selected collation db (filter.family.map FamilyId.get) (after.map Slug.text)).map
        (fun row => collation row.1.slug)
      ↔ k ∈ keys collation db filter ∧ Keyset.Beyond (after.map (Slug.key collation)) k := by
  simp only [keys, List.mem_map, List.mem_filter, mem_selected, decide_eq_true_eq]
  constructor
  · rintro ⟨row, ⟨hrow, hmatches, hbeyond⟩, rfl⟩
    exact ⟨⟨row.1, ⟨(mem_leftJoin hrow).1, hmatches⟩, rfl⟩, hbeyond⟩
  · rintro ⟨⟨m, ⟨hm, hmatches⟩, rfl⟩, hbeyond⟩
    rw [← leftJoin_fst] at hm
    obtain ⟨row, hrow, rfl⟩ := List.mem_map.mp hm
    exact ⟨row, ⟨hrow, hmatches, hbeyond⟩, rfl⟩

/-! ### One page -/

theorem exists_of_forall₂ {α β : Type*} {R : α → β → Prop} {as : List α} {bs : List β}
    (h : List.Forall₂ R as bs) {b : β} (hb : b ∈ bs) : ∃ a ∈ as, R a b := by
  induction h with
  | nil => cases hb
  | cons hab _ ih =>
      rcases List.mem_cons.mp hb with rfl | hb
      · exact ⟨_, List.mem_cons_self, hab⟩
      · obtain ⟨a, ha, hab⟩ := ih hb
        exact ⟨a, List.mem_cons_of_mem _ ha, hab⟩

/-- Rows that all have summaries are all summarised. -/
theorem mapM_summary {rows : List (ModelRow × Option FamilyRow)}
    (h : ∀ row ∈ rows, row ∈ leftJoin db) :
    ∃ summaries, (rows.map PgRow.of).mapM summary = .ok summaries ∧
      List.Forall₂ (fun row s => Shows db row.1 s) rows summaries := by
  induction rows with
  | nil => exact ⟨[], rfl, .nil⟩
  | cons row rows ih =>
      obtain ⟨s, hs, hshows⟩ := summary_of_mem (h row List.mem_cons_self)
      obtain ⟨summaries, hrest, hall⟩ := ih fun row' hrow' => h row' (List.mem_cons_of_mem _ hrow')
      refine ⟨s :: summaries, ?_, .cons hshows hall⟩
      rw [List.map_cons, List.mapM_cons, hs, hrest]
      rfl

variable (collation) in
/-- The database's place of the row a summary shows. -/
def ModelSummary.key (s : ModelSummary) : κ := s.slug.key collation

/-- One page of the table: what it may carry, what it covers and what it shows. -/
structure Lists (collation : String ↪ κ) (db : Tables) (filter : ModelFilter) (limit : PageLimit)
    (after : Option Slug) (page : Page ModelSummary Slug) : Prop where
  bounded : page.items.length ≤ limit.get
  full : page.next.isSome = true → page.items.length = limit.get
  last : ∀ slug, page.next = some slug → page.items.getLast?.map ModelSummary.slug = some slug
  covers : Keyset.Covers (keys collation db filter) (after.map (Slug.key collation))
    (page.items.map (ModelSummary.key collation)) (page.next.map (Slug.key collation))
  shows : ∀ s ∈ page.items, ∃ m ∈ db.models, filter.Matches m ∧ Shows db m s

theorem listModels_spec (collation : String ↪ κ) (db : Tables) (filter : ModelFilter)
    (limit : PageLimit) (after : Option Slug) :
    ∃ page, listModels collation db filter limit after = .ok page ∧
      Lists collation db filter limit after page := by
  let rows := selected collation db (filter.family.map FamilyId.get) (after.map Slug.text)
  have hjoin : ∀ row ∈ rows.take limit.querySize, row ∈ leftJoin db :=
    fun row hrow => (mem_selected.mp (List.mem_of_mem_take hrow)).1
  obtain ⟨summaries, hsummaries, hshows⟩ := mapM_summary hjoin
  -- the rows read are the first of those selected, one more than the limit
  have hkeys : summaries.map (Slug.key collation ∘ ModelSummary.slug)
      = (rows.map fun row => collation row.1.slug).take (limit.get + 1) := by
    rw [← List.map_take, ← limit.querySize_eq, eq_comm, ← List.forall₂_eq_eq_eq,
      List.forall₂_map_left_iff, List.forall₂_map_right_iff]
    exact hshows.imp fun row s h => congrArg collation h.slug.symm
  refine ⟨Page.fromOverfetched summaries limit ModelSummary.slug, ?_, ?_,
    Page.length_fromOverfetched, fun _ => Page.getLast_fromOverfetched, ?_, ?_⟩
  · rw [listModels, list, hsummaries]
    rfl
  · rw [Page.items_fromOverfetched, List.length_take]
    exact min_le_left _ _
  · -- sorted by the key, they cover what is behind the cursor
    have hsorted : (rows.map fun row => collation row.1.slug).Pairwise (· < ·) :=
      selected_increasing
    have hcovers := Keyset.covers_take hsorted (fun k => mem_selected_keys) limit.pos
    rw [Page.items_fromOverfetched, Page.next_fromOverfetched hkeys, List.map_take]
    have hitems : (summaries.map (ModelSummary.key collation)).take limit.get
        = (rows.map fun row => collation row.1.slug).take limit.get := by
      have h := congrArg (List.take limit.get) hkeys
      rwa [List.take_take, min_eq_left (Nat.le_succ _)] at h
    rw [hitems]
    exact hcovers
  · intro s hs
    rw [Page.items_fromOverfetched] at hs
    obtain ⟨row, hrow, hshow⟩ := exists_of_forall₂ hshows (List.mem_of_mem_take hs)
    have hmatches := mem_selected.mp (List.mem_of_mem_take hrow)
    exact ⟨row.1, (mem_leftJoin hmatches.1).1, hmatches.2.1, hshow⟩

/-! ### The pages a client is shown -/

variable (collation filter) in
/-- The pages as a scan of keys, each with the table that answered it. -/
def scanned (answers : List (Tables × Page ModelSummary Slug)) : List (List κ × List κ) :=
  answers.map fun answer =>
    (keys collation answer.1 filter, answer.2.items.map (ModelSummary.key collation))

/-- The pages answer the requests one by one, each from the key before it. -/
structure Followed (collation : String ↪ κ) (filter : ModelFilter) (limit : PageLimit)
    (after : Option Slug) (dbs : List Tables) (pages : List (Page ModelSummary Slug))
    (ended : Bool) : Prop where
  scan : Keyset.Scan (after.map (Slug.key collation))
    (scanned collation filter (dbs.zip pages)) ended
  bounded : ∀ page ∈ pages, page.items.length ≤ limit.get
  shows : ∀ answer ∈ dbs.zip pages, ∀ s ∈ answer.2.items,
    ∃ m ∈ answer.1.models, filter.Matches m ∧ Shows answer.1 m s
  length_le : pages.length ≤ dbs.length
  length_eq : ended = false → pages.length = dbs.length

theorem follow_spec (collation : String ↪ κ) (filter : ModelFilter) (limit : PageLimit)
    (after : Option Slug) (dbs : List Tables) :
    ∃ pages ended, follow collation filter limit after dbs = .ok (pages, ended) ∧
      Followed collation filter limit after dbs pages ended := by
  induction dbs generalizing after with
  | nil => exact ⟨[], false, rfl, .stop, by simp, by simp, le_rfl, fun _ => rfl⟩
  | cons db dbs ih =>
      obtain ⟨page, hpage, hlists⟩ := listModels_spec collation db filter limit after
      have hcovers := hlists.covers
      rcases hnext : page.next with - | last
      · rw [hnext] at hcovers
        refine ⟨[page], true, ?_, ?_, ?_, ?_, by simp, by simp⟩
        · rw [follow, hpage]
          simp only [bind, Except.bind, hnext]
          rfl
        · rw [List.zip_cons_cons, List.zip_nil_right]
          exact .last hcovers
        · simpa using hlists.bounded
        · simpa using hlists.shows
      · rw [hnext] at hcovers
        obtain ⟨pages, ended, hfollow, hrest⟩ := ih (some last)
        refine ⟨page :: pages, ended, ?_, .more hcovers hrest.scan, ?_, ?_, ?_, ?_⟩
        · rw [follow, hpage]
          simp only [bind, Except.bind, hnext, hfollow]
          rfl
        · exact List.forall_mem_cons.mpr ⟨hlists.bounded, hrest.bounded⟩
        · exact List.forall_mem_cons.mpr ⟨hlists.shows, hrest.shows⟩
        · exact Nat.succ_le_succ hrest.length_le
        · intro hended
          rw [List.length_cons, List.length_cons, hrest.length_eq hended]

/-- The rows the pages show, page after page. -/
def listing (pages : List (Page ModelSummary Slug)) : List ModelSummary := pages.flatMap Page.items

/-- How often the pages show a slug. -/
def timesListed (pages : List (Page ModelSummary Slug)) (slug : String) : ℕ :=
  ((listing pages).map fun s => s.slug.text).count slug

namespace Followed

variable {dbs : List Tables} {pages : List (Page ModelSummary Slug)} {ended : Bool}

theorem flatMap_scanned (h : Followed collation filter limit after dbs pages ended) :
    (scanned collation filter (dbs.zip pages)).flatMap Prod.snd
      = (listing pages).map (ModelSummary.key collation) := by
  have hpages : (dbs.zip pages).map Prod.snd = pages := List.map_snd_zip h.length_le
  rw [scanned, List.flatMap_map, listing, List.map_flatMap, ← hpages, List.flatMap_map, hpages]

theorem increasing (h : Followed collation filter limit after dbs pages ended) :
    (listing pages).Pairwise fun s s' => s.slug.key collation < s'.slug.key collation := by
  have hscan := h.scan.increasing
  rw [h.flatMap_scanned] at hscan
  exact List.pairwise_map.mp hscan

theorem timesListed_le (h : Followed collation filter limit after dbs pages ended)
    (slug : String) : timesListed pages slug ≤ 1 := by
  refine List.nodup_iff_count_le_one.mp ?_ slug
  refine List.pairwise_map.mpr (h.increasing.imp fun hlt heq => ?_)
  exact hlt.ne (congrArg collation heq)

/-- A row that was there, and let through, at every page of a finished scan. -/
theorem timesListed_eq (h : Followed collation filter limit none dbs pages true) {slug : String}
    (hthere : ∀ answer ∈ dbs.zip pages, ∃ m ∈ answer.1.models, m.slug = slug ∧ filter.Matches m) :
    timesListed pages slug = 1 := by
  have hkey : collation slug ∈ (scanned collation filter (dbs.zip pages)).flatMap Prod.snd := by
    refine h.scan.lists ?_ (Keyset.beyond_none _)
    intro page hpage
    obtain ⟨answer, hanswer, rfl⟩ := List.mem_map.mp hpage
    obtain ⟨m, hm, rfl, hmatches⟩ := hthere answer hanswer
    exact List.mem_map_of_mem (List.mem_filter.mpr ⟨hm, decide_eq_true hmatches⟩)
  rw [h.flatMap_scanned] at hkey
  obtain ⟨s, hs, hslug⟩ := List.mem_map.mp hkey
  have hmem : slug ∈ (listing pages).map fun s => s.slug.text :=
    List.mem_map.mpr ⟨s, hs, collation.injective hslug⟩
  exact le_antisymm (h.timesListed_le slug) (List.one_le_count_iff.mpr hmem)

end Followed

/-- Enough requests to an unchanging table reach a last page. -/
theorem follow_replicate (collation : String ↪ κ) (filter : ModelFilter) (limit : PageLimit)
    (db : Tables) {n : ℕ} (hn : db.models.length < n) :
    ∃ pages, follow collation filter limit none (List.replicate n db) = .ok (pages, true) ∧
      Followed collation filter limit none (List.replicate n db) pages true := by
  obtain ⟨pages, ended, hfollow, h⟩ :=
    follow_spec collation filter limit none (List.replicate n db)
  rcases ended with - | -
  · exfalso
    have hsame : ∀ page ∈ scanned collation filter ((List.replicate n db).zip pages),
        page.1 = keys collation db filter := by
      intro page hpage
      obtain ⟨answer, hanswer, rfl⟩ := List.mem_map.mp hpage
      rw [List.eq_of_mem_replicate (List.of_mem_zip hanswer).1]
    have hle := h.scan.length_le hsame
    rw [Option.map_none] at hle
    have hread : (scanned collation filter ((List.replicate n db).zip pages)).length = n := by
      rw [scanned, List.length_map, List.length_zip, h.length_eq rfl, List.length_replicate,
        min_self]
    have htable : ((keys collation db filter).filter (Keyset.Beyond none ·)).length
        ≤ db.models.length := by
      refine (List.length_filter_le _ _).trans ?_
      rw [keys, List.length_map]
      exact List.length_filter_le _ _
    omega
  · exact ⟨pages, hfollow, h⟩

/-- Following the keys of an unchanging table ends, and lists every row the filter lets
through once, in slug order.  With the table changing between the requests no slug is
listed twice, and one let through at every request of a finished scan is listed once. -/
theorem keyset_pagination (collation : String ↪ κ) (filter : ModelFilter)
    (requested : Option NonZeroU16) :
    (∀ (db : Tables) (n : ℕ), db.models.length < n → ∃ pages,
      follow collation filter (PageLimit.fromRequested requested) none (List.replicate n db)
        = .ok (pages, true) ∧
      (∀ page ∈ pages, page.items.length ≤ requested.elim 50 fun limit => min limit.get 200) ∧
      (listing pages).Pairwise (fun s s' => collation s.slug.text < collation s'.slug.text) ∧
      (∀ s ∈ listing pages, ∃ m ∈ db.models, filter.Matches m ∧ Shows db m s) ∧
      ∀ m ∈ db.models, filter.Matches m → timesListed pages m.slug = 1) ∧
    ∀ dbs : List Tables, ∃ pages ended,
      follow collation filter (PageLimit.fromRequested requested) none dbs = .ok (pages, ended) ∧
      (∀ page ∈ pages, page.items.length ≤ requested.elim 50 fun limit => min limit.get 200) ∧
      (listing pages).Pairwise (fun s s' => collation s.slug.text < collation s'.slug.text) ∧
      (∀ answer ∈ dbs.zip pages, ∀ s ∈ answer.2.items,
        ∃ m ∈ answer.1.models, filter.Matches m ∧ Shows answer.1 m s) ∧
      (∀ slug, timesListed pages slug ≤ 1) ∧
      (ended = true → ∀ slug,
        (∀ answer ∈ dbs.zip pages, ∃ m ∈ answer.1.models, m.slug = slug ∧ filter.Matches m) →
        timesListed pages slug = 1) := by
  have hlimit : (PageLimit.fromRequested requested).get
      = requested.elim 50 fun limit => min limit.get 200 := by
    cases requested <;> rfl
  constructor
  · intro db n hn
    obtain ⟨pages, hfollow, h⟩ :=
      follow_replicate collation filter (PageLimit.fromRequested requested) db hn
    have hanswer : ∀ answer ∈ (List.replicate n db).zip pages, answer.1 = db :=
      fun answer hanswer => List.eq_of_mem_replicate (List.of_mem_zip hanswer).1
    refine ⟨pages, hfollow, hlimit ▸ h.bounded, h.increasing, ?_, ?_⟩
    · intro s hs
      obtain ⟨page, hpage, hs⟩ := List.mem_flatMap.mp hs
      rw [← List.map_snd_zip h.length_le] at hpage
      obtain ⟨answer, hmem, rfl⟩ := List.mem_map.mp hpage
      have hshows := h.shows answer hmem s hs
      rwa [hanswer answer hmem] at hshows
    · intro m hm hmatches
      apply h.timesListed_eq
      intro answer hmem
      rw [hanswer answer hmem]
      exact ⟨m, hm, rfl, hmatches⟩
  · intro dbs
    obtain ⟨pages, ended, hfollow, h⟩ :=
      follow_spec collation filter (PageLimit.fromRequested requested) none dbs
    refine ⟨pages, ended, hfollow, hlimit ▸ h.bounded, h.increasing, h.shows, h.timesListed_le, ?_⟩
    rintro rfl slug hthere
    exact h.timesListed_eq hthere

end Catalog

end AircraftApi
