/-
AircraftApi/RecordKeys.lean

The identity of a source record: SHA-256 of `planephd`, the manufacturer key and
the aircraft key, one NUL after each but the last.

A JSON key may hold NUL itself, and then the bytes do not say which NUL parts the
keys: pairs that move a part of the text over the separator have the same bytes
(`keyInput_eq_iff`).  Between keys without NUL nothing moves (`Moved.nul`).
-/
import AircraftApi.IssuedCursors
import AircraftApi.NulFree

namespace AircraftApi

open Catalog (utf8)

/-- The bytes `source_record_key` feeds to SHA-256. -/
def keyInput (manufacturer aircraft : String) : List UInt8 :=
  utf8 "planephd" ++ [0] ++ utf8 manufacturer ++ [0] ++ utf8 aircraft

/-- The first pair's text goes over the separator where the second pair's does not: the
longer manufacturer key is the other one, NUL and `text`, and `text` and NUL stand before
the other aircraft key. -/
def Moved (text manufacturer aircraft manufacturer' aircraft' : String) : Prop :=
  manufacturer' = manufacturer ++ "\x00" ++ text ∧ aircraft = text ++ "\x00" ++ aircraft'

variable {manufacturer aircraft manufacturer' aircraft' text : String}

theorem sourceRecordKey_eq (crates : Crates) (manufacturer aircraft : String) :
    sourceRecordKey crates manufacturer aircraft
      = hexDigestOf (crates.sha256 (keyInput manufacturer aircraft)) := rfl

theorem utf8_append (a b : String) : utf8 (a ++ b) = utf8 a ++ utf8 b := by
  unfold utf8
  rw [String.toUTF8_eq_toByteArray, String.toByteArray_append, ByteArray.data_append,
    Array.toList_append]
  rfl

theorem keyInput_text (manufacturer aircraft : String) : keyInput manufacturer aircraft
    = utf8 ("planephd" ++ "\x00" ++ manufacturer ++ "\x00" ++ aircraft) := by
  have hnul : utf8 "\x00" = [0] := by decide +kernel
  rw [utf8_append, utf8_append, utf8_append, utf8_append, hnul, keyInput]

theorem keyInput_eq : keyInput manufacturer aircraft = keyInput manufacturer' aircraft' ↔
    manufacturer.toList ++ '\x00' :: aircraft.toList
      = manufacturer'.toList ++ '\x00' :: aircraft'.toList := by
  rw [keyInput_text, keyInput_text, Catalog.utf8_injective.eq_iff, ← String.toList_inj]
  simp [String.toList_append]

theorem moved_iff : (∃ text, Moved text manufacturer aircraft manufacturer' aircraft') ↔
    ∃ cs, manufacturer'.toList = manufacturer.toList ++ '\x00' :: cs ∧
      aircraft.toList = cs ++ '\x00' :: aircraft'.toList := by
  constructor
  · rintro ⟨text, rfl, rfl⟩
    exact ⟨text.toList, by simp [String.toList_append], by simp [String.toList_append]⟩
  · rintro ⟨cs, hlong, hrest⟩
    refine ⟨String.ofList cs, String.toList_inj.mp ?_, String.toList_inj.mp ?_⟩
    · simp [String.toList_append, hlong]
    · simp [String.toList_append, hrest]

/-- Two pairs have the same bytes when they are the same or one is moved into the other. -/
theorem keyInput_eq_iff : keyInput manufacturer aircraft = keyInput manufacturer' aircraft' ↔
    (manufacturer = manufacturer' ∧ aircraft = aircraft') ∨
      (∃ text, Moved text manufacturer aircraft manufacturer' aircraft') ∨
      ∃ text, Moved text manufacturer' aircraft' manufacturer aircraft := by
  rw [keyInput_eq, moved_iff, moved_iff, List.append_eq_append_iff]
  constructor
  · rintro (⟨cs, hlong, hrest⟩ | ⟨cs, hlong, hrest⟩)
    · rcases cs with - | ⟨c, cs⟩
      · rw [List.append_nil, String.toList_inj] at hlong
        rw [List.nil_append, List.cons.injEq, String.toList_inj] at hrest
        exact .inl ⟨hlong.symm, hrest.2⟩
      · obtain ⟨rfl, htail⟩ := List.cons.inj hrest
        exact .inr (.inl ⟨cs, hlong, htail⟩)
    · rcases cs with - | ⟨c, cs⟩
      · rw [List.append_nil, String.toList_inj] at hlong
        rw [List.nil_append, List.cons.injEq, String.toList_inj] at hrest
        exact .inl ⟨hlong, hrest.2.symm⟩
      · obtain ⟨rfl, htail⟩ := List.cons.inj hrest
        exact .inr (.inr ⟨cs, hlong, htail⟩)
  · rintro (⟨rfl, rfl⟩ | ⟨cs, hlong, hrest⟩ | ⟨cs, hlong, hrest⟩)
    · exact .inl ⟨[], (List.append_nil _).symm, rfl⟩
    · exact .inl ⟨'\x00' :: cs, hlong, by rw [hrest]; rfl⟩
    · exact .inr ⟨'\x00' :: cs, hlong, by rw [hrest]; rfl⟩

theorem Moved.nul (h : Moved text manufacturer aircraft manufacturer' aircraft') :
    nulFree manufacturer' = false ∧ nulFree aircraft = false := by
  obtain ⟨rfl, rfl⟩ := h
  simp [nulFree, String.toList_append]

/-- **Source-record identity**: of two distinct pairs of keys SHA-256 is given distinct
bytes, unless one pair is the other with a text moved over the separator. -/
theorem source_record_key_separates (manufacturer aircraft manufacturer' aircraft' : String)
    (hne : (manufacturer, aircraft) ≠ (manufacturer', aircraft')) :
    (∀ crates : Crates, sourceRecordKey crates manufacturer aircraft
      = hexDigestOf (crates.sha256 (keyInput manufacturer aircraft))) ∧
    (keyInput manufacturer aircraft ≠ keyInput manufacturer' aircraft' ↔
      ∀ text, ¬ Moved text manufacturer aircraft manufacturer' aircraft' ∧
        ¬ Moved text manufacturer' aircraft' manufacturer aircraft) := by
  refine ⟨fun crates => sourceRecordKey_eq crates _ _, ?_⟩
  rw [Ne, keyInput_eq_iff, or_iff_right fun h => hne (by rw [h.1, h.2]), not_or, not_exists,
    not_exists, forall_and]

/-- Two names of one manufacturer. -/
theorem source_record_key_separates_cessna : keyInput "Cessna" "172" ≠ keyInput "Cessna" "182" := by
  refine (source_record_key_separates "Cessna" "172" "Cessna" "182" (by decide)).2.mpr ?_
  intro text
  exact ⟨fun h => absurd h.nul.1 (by decide), fun h => absurd h.nul.1 (by decide)⟩

/-- NUL in one key and in the other. -/
theorem source_record_keys_collide : ¬ ∀ manufacturer aircraft manufacturer' aircraft' : String,
    (manufacturer, aircraft) ≠ (manufacturer', aircraft') →
      keyInput manufacturer aircraft ≠ keyInput manufacturer' aircraft' := by
  intro h
  exact h "Cessna\x00172" "A" "Cessna" "172\x00A" (by decide) (by decide +kernel)

end AircraftApi
