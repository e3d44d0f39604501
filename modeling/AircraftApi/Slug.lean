/-
AircraftApi/Slug.lean

Slugs: the text domain `^[a-z0-9]+(-[a-z0-9]+)*$` and the function that makes a
slug of a text.

`slugify` lower-cases a text, turns every run of other characters into one
hyphen and trims the hyphens at the ends.  The result is in the domain exactly
when some character of the text lower-cases into it (`slugText_slugify`).  How
the database lower-cases a character is a parameter.
-/
import Mathlib.Data.List.DropRight

namespace Slug

/-- A character of a slug, but for the hyphens. -/
def isSlugChar (c : Char) : Bool := ('a' ≤ c ∧ c ≤ 'z') ∨ ('0' ≤ c ∧ c ≤ '9')

/-- The text may end here, or go on as a slug does. -/
def slugRest : List Char → Bool
  | [] => true
  | '-' :: c :: rest => isSlugChar c && slugRest rest
  | c :: rest => isSlugChar c && slugRest rest

/-- `^[a-z0-9]+(-[a-z0-9]+)*$`. -/
def slugText : List Char → Bool
  | [] => false
  | c :: rest => isSlugChar c && slugRest rest

/-- Replaces every run of characters outside a slug by one hyphen; `inRun` when
the run has its hyphen already. -/
def hyphenate : Bool → List Char → List Char
  | _, [] => []
  | inRun, c :: rest =>
    if isSlugChar c then c :: hyphenate false rest
    else if inRun then hyphenate true rest
    else '-' :: hyphenate true rest

/-- The hyphen. -/
def isHyphen (c : Char) : Bool := c = '-'

variable (lower : Char → Char)

/-- `aircraft_ref.slugify`. -/
def slugify (text : List Char) : List Char :=
  ((hyphenate false (text.map lower)).dropWhile isHyphen).rdropWhile isHyphen

theorem not_isHyphen_of_isSlugChar {c : Char} (h : isSlugChar c = true) :
    isHyphen c = false := by
  rcases hc : isHyphen c with - | -
  · rfl
  · rw [isHyphen, decide_eq_true_eq] at hc
    rw [hc] at h
    exact absurd h (by decide)

theorem slugRest_cons {c : Char} {rest : List Char} (h : isSlugChar c = true) :
    slugRest (c :: rest) = slugRest rest := by
  have hne : c ≠ '-' := by
    rintro rfl
    exact absurd h (by decide)
  cases rest <;> simp [slugRest, h, hne]

/-- Dropping hyphens at the end does not reach over another character. -/
theorem rdropWhile_cons {c : Char} {rest : List Char} (h : isHyphen c = false) :
    (c :: rest).rdropWhile isHyphen = c :: rest.rdropWhile isHyphen := by
  rw [List.rdropWhile, List.rdropWhile, List.reverse_cons, List.dropWhile_append]
  split
  · rename_i hnil
    rw [List.isEmpty_iff.mp hnil]
    simp [h]
  · simp

theorem rdropWhile_hyphen (rest : List Char) :
    ('-' :: rest).rdropWhile isHyphen
      = if rest.rdropWhile isHyphen = [] then [] else '-' :: rest.rdropWhile isHyphen := by
  rw [List.rdropWhile, List.rdropWhile, List.reverse_cons, List.dropWhile_append]
  split
  · rename_i hnil
    rw [List.isEmpty_iff.mp hnil]
    simp [isHyphen]
  · rename_i hne
    rw [if_neg (by simpa using hne)]
    simp

/-- What is left after the hyphens at the end are gone: the rest of a slug, and
inside a run nothing or a slug. -/
theorem hyphenate_trimmed (text : List Char) :
    slugRest ((hyphenate false text).rdropWhile isHyphen) = true ∧
    ((hyphenate true text).rdropWhile isHyphen = [] ∨
      slugText ((hyphenate true text).rdropWhile isHyphen) = true) := by
  induction text with
  | nil => exact ⟨rfl, Or.inl rfl⟩
  | cons c rest ih =>
      obtain ⟨hrest, hrun⟩ := ih
      rcases hc : isSlugChar c with - | -
      · -- a run of other characters becomes one hyphen, none at the end
        have hfalse : hyphenate false (c :: rest) = '-' :: hyphenate true rest := by
          simp [hyphenate, hc]
        have htrue : hyphenate true (c :: rest) = hyphenate true rest := by
          simp [hyphenate, hc]
        rw [hfalse, htrue, rdropWhile_hyphen]
        refine ⟨?_, hrun⟩
        split
        · rfl
        · rename_i hne
          have hslug := hrun.resolve_left hne
          rcases hd : (hyphenate true rest).rdropWhile isHyphen with - | ⟨d, more⟩
          · exact absurd hd hne
          · rw [hd] at hslug
            exact hslug
      · have hboth : ∀ inRun, hyphenate inRun (c :: rest) = c :: hyphenate false rest := by
          intro inRun
          simp [hyphenate, hc]
        rw [hboth, hboth, rdropWhile_cons (not_isHyphen_of_isSlugChar hc)]
        refine ⟨?_, Or.inr ?_⟩
        · rw [slugRest_cons hc, hrest]
        · rw [slugText, hc, hrest]
          rfl

/-- In a run there is no hyphen at the start. -/
theorem dropWhile_hyphenate_true (text : List Char) :
    (hyphenate true text).dropWhile isHyphen = hyphenate true text := by
  induction text with
  | nil => rfl
  | cons c rest ih =>
      rcases hc : isSlugChar c with - | -
      · simpa [hyphenate, hc] using ih
      · simp [hyphenate, hc, not_isHyphen_of_isSlugChar hc]

theorem dropWhile_hyphenate (text : List Char) :
    (hyphenate false text).dropWhile isHyphen = hyphenate true text := by
  cases text with
  | nil => rfl
  | cons c rest =>
      rcases hc : isSlugChar c with - | -
      · simpa [hyphenate, hc, isHyphen] using dropWhile_hyphenate_true rest
      · simp [hyphenate, hc, not_isHyphen_of_isSlugChar hc]

/-- The trimmed text is empty only if no character was kept. -/
theorem hyphenate_eq_nil (text : List Char) :
    (hyphenate true text).rdropWhile isHyphen = [] ↔ ∀ c ∈ text, isSlugChar c = false := by
  induction text with
  | nil => simp [hyphenate]
  | cons c rest ih =>
      rcases hc : isSlugChar c with - | -
      · simpa [hyphenate, hc] using ih
      · rw [show hyphenate true (c :: rest) = c :: hyphenate false rest by simp [hyphenate, hc],
          rdropWhile_cons (not_isHyphen_of_isSlugChar hc)]
        simp [hc]

/-- **Slugs**: `slugify` gives a slug exactly for a text with a character that
lower-cases to a letter or digit of a slug. -/
theorem slugText_slugify (text : List Char) :
    slugText (slugify lower text) = true ↔ ∃ c ∈ text, isSlugChar (lower c) = true := by
  unfold slugify
  rw [dropWhile_hyphenate]
  have htrim := (hyphenate_trimmed (text.map lower)).2
  have hnil := hyphenate_eq_nil (text.map lower)
  constructor
  · intro h
    by_contra hnone
    have hempty := hnil.mpr (by simpa using hnone)
    rw [hempty] at h
    cases h
  · rintro ⟨c, hc, hslug⟩
    refine htrim.resolve_left fun hempty => ?_
    have hfalse := hnil.mp hempty (lower c) (List.mem_map_of_mem hc)
    rw [hslug] at hfalse
    cases hfalse

/-- Characters of a slug at the end of a text stay as they are. -/
theorem hyphenate_append {tail : List Char} (h : ∀ c ∈ tail, isSlugChar c = true) (inRun : Bool)
    (text : List Char) : hyphenate inRun (text ++ tail) = hyphenate inRun text ++ tail := by
  induction text generalizing inRun with
  | nil =>
      induction tail generalizing inRun with
      | nil => rfl
      | cons c rest ih =>
          obtain ⟨hc, hrest⟩ := List.forall_mem_cons.mp h
          show hyphenate inRun (c :: rest) = c :: rest
          rw [hyphenate, if_pos hc]
          exact congrArg (c :: ·) (ih hrest false)
  | cons c rest ih =>
      rw [List.cons_append, hyphenate, hyphenate]
      split_ifs
      · exact congrArg (c :: ·) (ih false)
      · exact ih true
      · exact congrArg ('-' :: ·) (ih true)

/-- A text that ends in characters of a slug makes a slug that does. -/
theorem slugify_append {text tail : List Char} (hne : tail ≠ [])
    (h : ∀ c ∈ tail, isSlugChar (lower c) = true) :
    slugify lower (text ++ tail) = hyphenate true (text.map lower) ++ tail.map lower := by
  have hkept : ∀ c ∈ tail.map lower, isSlugChar c = true := by simpa using h
  have hmap : tail.map lower ≠ [] := by simpa using hne
  unfold slugify
  rw [dropWhile_hyphenate, List.map_append, hyphenate_append hkept, List.rdropWhile_eq_self_iff]
  intro hall
  rw [List.getLast_append_of_ne_nil hall hmap,
    not_isHyphen_of_isSlugChar (hkept _ (List.getLast_mem hmap))]
  exact Bool.false_ne_true

/-- Two slugs joined by a hyphen make one. -/
theorem slugRest_append {text other : List Char} (h : slugRest text = true)
    (hother : slugText other = true) : slugRest (text ++ '-' :: other) = true := by
  fun_induction slugRest text with
  | case1 =>
      rcases other with - | ⟨c, rest⟩
      · cases hother
      · exact hother
  | case2 c rest ih =>
      rw [Bool.and_eq_true] at h
      show (isSlugChar c && slugRest (rest ++ '-' :: other)) = true
      rw [h.1, ih h.2]
      rfl
  | case3 c rest _ ih =>
      rw [Bool.and_eq_true] at h
      rw [List.cons_append, slugRest_cons h.1]
      exact ih h.2

theorem slugText_append {text other : List Char} (h : slugText text = true)
    (hother : slugText other = true) : slugText (text ++ '-' :: other) = true := by
  rcases text with - | ⟨c, rest⟩
  · cases h
  · rw [slugText, Bool.and_eq_true] at h
    rw [List.cons_append, slugText, h.1, slugRest_append h.2 hother]
    rfl

theorem slugText_of_all {text : List Char} (hne : text ≠ [])
    (h : ∀ c ∈ text, isSlugChar c = true) : slugText text = true := by
  have hrest : ∀ rest : List Char, (∀ c ∈ rest, isSlugChar c = true) → slugRest rest = true := by
    intro rest
    induction rest with
    | nil => exact fun _ => rfl
    | cons c rest ih =>
        intro hall
        obtain ⟨hc, hall⟩ := List.forall_mem_cons.mp hall
        rw [slugRest_cons hc]
        exact ih hall
  rcases text with - | ⟨c, rest⟩
  · exact absurd rfl hne
  · obtain ⟨hc, hall⟩ := List.forall_mem_cons.mp h
    rw [slugText, hc, hrest rest hall]
    rfl

example : slugify Char.toLower "Cessna 172 (1956 - present)".toList
    = "cessna-172-1956-present".toList := by decide +kernel

end Slug
