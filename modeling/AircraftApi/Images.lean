/-
AircraftApi/Images.lean

The images of a record: which entries of the source's array are kept, where, and
which one leads.

An entry is kept when it is an object with a usable `href` at a position a
`SMALLINT` holds.  What is kept stays in source order under its source position,
so the positions rise and the staged rows do not collide, and the first one kept
is the primary one (`images_kept`).
-/
import AircraftApi.Preservation

namespace AircraftApi

open Preservation (imageItem_value)

variable {crates : Crates} {manufacturer aircraft : String} {object : JsonObject}
  {images : List Json}

/-- The entry is an object with a usable `href`, and its index fits an `i16`. -/
def keptEntry (entry : Json × ℕ) : Bool :=
  (entry.1.asObject.bind fun members => textAt members "href").isSome && entry.2 < 2 ^ 15

/-- What an image item is made from. -/
def MadeFrom (crates : Crates) (images : List Json) (item : ImageMetadataInput) : Prop :=
  ∃ members href, images[item.arrayPosition]? = some (.object members) ∧
    textAt members "href" = some href ∧
    { item with isPrimary := false } = preparedImage crates members item.arrayPosition href

/-! ### One entry -/

theorem imageItem_kept {image : Json} {position : ℕ} {item : ImageMetadataInput} :
    (imageItem crates image position).value = some item ↔ ∃ members href,
      image = .object members ∧ textAt members "href" = some href ∧ position < 2 ^ 15 ∧
      item = preparedImage crates members position href := by
  rw [imageItem_value]
  constructor
  · intro h
    obtain ⟨members, hmembers, h⟩ := Option.bind_eq_some_iff.mp h
    obtain ⟨href, hhref, h⟩ := Option.bind_eq_some_iff.mp h
    split_ifs at h with hposition
    exact ⟨members, href, Json.asObject_eq_some.mp hmembers, hhref, hposition,
      (Option.some.inj h).symm⟩
  · rintro ⟨members, href, rfl, hhref, hposition, rfl⟩
    have hmembers : (Json.object members).asObject = some members :=
      Json.asObject_eq_some.mpr rfl
    rw [hmembers, Option.bind_some, hhref, Option.bind_some, if_pos hposition]

theorem imageItem_position (entry : Json × ℕ) :
    (imageItem crates entry.1 entry.2).value.map ImageMetadataInput.arrayPosition
      = if keptEntry entry then some entry.2 else none := by
  rw [imageItem_value, keptEntry]
  rcases entry.1.asObject with - | members
  · rfl
  · rw [Option.bind_some, Option.bind_some]
    rcases textAt members "href" with - | href
    · rfl
    · by_cases hposition : entry.2 < 2 ^ 15
      · have hfits : entry.2 < 32768 := hposition
        simp [hfits, preparedImage]
      · have hfits : ¬ entry.2 < 32768 := hposition
        simp [hfits]

/-- An entry that is not kept leaves an issue on its path. -/
theorem imageItem_issue {image : Json} {position : ℕ}
    (h : keptEntry (image, position) = false) :
    ∃ found ∈ (imageItem crates image position).notes,
      (imagePath position).toList <+: found.fieldPath.toList := by
  unfold imageItem
  dsimp only
  split
  · exact ⟨_, List.mem_singleton_self _, List.prefix_rfl⟩
  · rename_i members hmembers
    split
    · refine ⟨_, List.mem_singleton_self _, ?_⟩
      show (imagePath position).toList <+: (imagePath position ++ ".href").toList
      rw [String.toList_append]
      exact List.prefix_append _ _
    · rename_i href hhref
      split
      · rename_i hposition
        have hfits : position < 32768 := hposition
        simp [keptEntry, hmembers, textAt, hhref, hfits] at h
      · exact ⟨_, List.mem_singleton_self _, List.prefix_rfl⟩

/-! ### The list -/

theorem arrayPosition_markPrimary (items : List ImageMetadataInput) :
    (markPrimary items).map ImageMetadataInput.arrayPosition
      = items.map ImageMetadataInput.arrayPosition := by
  rcases items with - | ⟨first, rest⟩ <;> rfl

theorem collect_positions (entries : List (Json × ℕ)) :
    (Noted.collect (fun entry => imageItem crates entry.1 entry.2) entries).value.map
      ImageMetadataInput.arrayPosition = (entries.filter keptEntry).map Prod.snd := by
  induction entries with
  | nil => rfl
  | cons entry entries ih =>
      have hentry : (imageItem crates entry.1 entry.2).value.map ImageMetadataInput.arrayPosition
          = if keptEntry entry then some entry.2 else none := imageItem_position entry
      rw [Noted.collect, Noted.value_bind, Noted.value_bind, Noted.value_pure, List.map_append, ih,
        List.filter_cons]
      cases hkept : keptEntry entry
      · rw [hkept, if_neg Bool.false_ne_true, Option.map_eq_none_iff] at hentry
        rw [hentry, if_neg Bool.false_ne_true]
        rfl
      · rw [hkept, if_pos rfl] at hentry
        obtain ⟨item, hitem, hposition⟩ := Option.map_eq_some_iff.mp hentry
        rw [hitem, if_pos rfl, List.map_cons, ← hposition]
        rfl

theorem positions_increase (images : List Json) :
    ((images.zipIdx.filter keptEntry).map Prod.snd).Pairwise (· < ·) := by
  have hsub : ((images.zipIdx.filter keptEntry).map Prod.snd).Sublist
      (List.range' 0 images.length) := by
    rw [← List.zipIdx_map_snd 0 images]
    exact (List.filter_sublist).map Prod.snd
  exact List.Pairwise.sublist hsub (List.pairwise_lt_range' _)

/-- The first item is primary and no other. -/
theorem isPrimary_markPrimary {items : List ImageMetadataInput}
    (h : ∀ item ∈ items, item.isPrimary = false) {k : ℕ} {item : ImageMetadataInput}
    (hitem : (markPrimary items)[k]? = some item) : item.isPrimary = true ↔ k = 0 := by
  rcases items with - | ⟨first, rest⟩
  · simp [markPrimary] at hitem
  · rcases k with - | k
    · obtain rfl : { first with isPrimary := true } = item := by simpa [markPrimary] using hitem
      exact iff_of_true rfl rfl
    · have hmem : item ∈ rest := by
        refine List.mem_of_getElem? (i := k) ?_
        simpa [markPrimary] using hitem
      rw [h item (List.mem_cons_of_mem _ hmem)]
      exact iff_of_false Bool.false_ne_true (Nat.succ_ne_zero k)

theorem mem_markPrimary {items : List ImageMetadataInput} {item : ImageMetadataInput}
    (h : item ∈ markPrimary items) : ∃ found ∈ items, found.arrayPosition = item.arrayPosition ∧
      { item with isPrimary := false } = { found with isPrimary := false } := by
  rcases items with - | ⟨first, rest⟩
  · cases h
  · rcases List.mem_cons.mp h with rfl | hrest
    · exact ⟨first, List.mem_cons_self, rfl, rfl⟩
    · exact ⟨item, List.mem_cons_of_mem _ hrest, rfl, rfl⟩

/-! ### The record -/

theorem record_images (himages : Json.get object "images" = some (.array images)) :
    (normalizeRecord crates manufacturer aircraft (.object object)).images
      = markPrimary (Noted.collect (fun entry => imageItem crates entry.1 entry.2)
          images.zipIdx).value := by
  rw [normalizeRecord_object]
  show (imageItems crates (Json.get object "images")).value = _
  rw [himages]
  rfl

theorem record_issue (himages : Json.get object "images" = some (.array images))
    {entry : Json × ℕ} (hentry : entry ∈ images.zipIdx) {found : IngestIssue}
    (hfound : found ∈ (imageItem crates entry.1 entry.2).notes) :
    found ∈ (normalizeRecord crates manufacturer aircraft (.object object)).issues := by
  rw [normalizeRecord_object]
  refine mem_notes_normalizeObject.mpr ?_
  have hcollect : Noted.Any (· = found)
      (Noted.collect (fun entry => imageItem crates entry.1 entry.2) images.zipIdx) :=
    Noted.Any.collect_iff.mpr ⟨entry, hentry, found, hfound, rfl⟩
  obtain ⟨found', hnotes, rfl⟩ := hcollect
  have hin : found' ∈ (imageItems crates (Json.get object "images")).notes := by
    rw [himages]
    simpa [imageItems, Json.asArray] using hnotes
  tauto

/-- **Images**: of an array of images a record keeps the objects with a usable `href` whose
index fits an `i16`, in source order under that index; the positions rise; the first one
kept is primary and no other; and an entry that is not kept has an issue on its path. -/
theorem images_kept (crates : Crates) (manufacturer aircraft : String) (object : JsonObject)
    (images : List Json) (himages : Json.get object "images" = some (.array images)) :
    ((normalizeRecord crates manufacturer aircraft (.object object)).images.map
        ImageMetadataInput.arrayPosition = (images.zipIdx.filter keptEntry).map Prod.snd ∧
      ∀ item ∈ (normalizeRecord crates manufacturer aircraft (.object object)).images,
        MadeFrom crates images item) ∧
    ((normalizeRecord crates manufacturer aircraft (.object object)).images.map
      ImageMetadataInput.arrayPosition).Pairwise (· < ·) ∧
    (∀ k item, (normalizeRecord crates manufacturer aircraft (.object object)).images[k]?
      = some item → (item.isPrimary = true ↔ k = 0)) ∧
    ∀ position image, images[position]? = some image → keptEntry (image, position) = false →
      ∃ found ∈ (normalizeRecord crates manufacturer aircraft (.object object)).issues,
        (imagePath position).toList <+: found.fieldPath.toList := by
  have hpositions : (normalizeRecord crates manufacturer aircraft (.object object)).images.map
      ImageMetadataInput.arrayPosition = (images.zipIdx.filter keptEntry).map Prod.snd := by
    -- marking the first image changes no position
    rw [record_images himages, arrayPosition_markPrimary, collect_positions]
  refine ⟨⟨hpositions, ?_⟩, hpositions ▸ positions_increase images, ?_, ?_⟩
  · intro item hitem
    rw [record_images himages] at hitem
    obtain ⟨found, hfound, hposition, heq⟩ := mem_markPrimary hitem
    obtain ⟨entry, hentry, hvalue⟩ := Noted.mem_collect_value.mp hfound
    obtain ⟨members, href, himage, hhref, -, rfl⟩ := imageItem_kept.mp hvalue
    have hindex : entry.2 = item.arrayPosition := hposition
    refine ⟨members, href, ?_, hhref, ?_⟩
    · rw [← hindex, ← himage]
      exact List.mk_mem_zipIdx_iff_getElem?.mp hentry
    · rw [heq, ← hindex]
      rfl
  · intro k item hitem
    rw [record_images himages] at hitem
    refine isPrimary_markPrimary (fun found hfound => ?_) hitem
    obtain ⟨entry, -, hvalue⟩ := Noted.mem_collect_value.mp hfound
    obtain ⟨members, href, -, -, -, rfl⟩ := imageItem_kept.mp hvalue
    rfl
  · intro position image himage hkept
    -- what is not kept has an issue of its own
    obtain ⟨found, hfound, hpath⟩ : ∃ found ∈ (imageItem crates image position).notes,
        (imagePath position).toList <+: found.fieldPath.toList := imageItem_issue hkept
    have hentry : (image, position) ∈ images.zipIdx :=
      List.mk_mem_zipIdx_iff_getElem?.mpr himage
    exact ⟨found, record_issue himages hentry hfound, hpath⟩

/-- A number before an image. -/
def numberFirst : List Json :=
  [.bool true, .object [("href", .string "https://example.test/a.jpg")]]

/-- SHA-256 on the names of the Cessna 172S, and URLs that are their own. -/
def imageCrates : Crates where
  sha256 := fun _ =>
    [30, 54, 131, 164, 94, 61, 210, 15, 167, 192, 37, 165, 251, 27, 192, 123, 69, 74, 152, 227,
     124, 121, 149, 203, 218, 106, 43, 22, 5, 246, 220, 134]
  parseUrl := fun text => some ⟨"https", text⟩
  joinUrl := fun _ _ => none

theorem images_kept_second :
    (normalizeRecord imageCrates "CESSNA" "172S"
      (.object [("images", .array numberFirst)])).images.map
      ImageMetadataInput.arrayPosition = [1] := by
  refine (images_kept imageCrates "CESSNA" "172S" [("images", .array numberFirst)] numberFirst
    rfl).1.1 |>.trans ?_
  decide +kernel

end AircraftApi
