/-
AircraftApi/Delimited.lean

Codes that say where they end: from a text that begins with a code word, the word's value
and the rest can be read back.

    SelfDelimiting code        the property
    of_prefixFree              no code word begins another
    .framed, .pair, .terminated, .separated, .optional
                               words between constant texts, two words, a list of words
                               up to a stop, a list with separators, an optional word
-/
import Mathlib.Data.List.Infix
import Mathlib.Logic.Function.Basic
import Mathlib.Tactic.Common

namespace Delimited

variable {α β γ : Type*} {code : α → List γ} {code' : β → List γ}

/-- An encoding from which what follows can be told: it begins at most one way. -/
def SelfDelimiting (code : α → List γ) : Prop :=
  ∀ ⦃a b rest rest'⦄, code a ++ rest = code b ++ rest' → a = b ∧ rest = rest'

theorem SelfDelimiting.injective (h : SelfDelimiting code) : Function.Injective code := by
  intro a b hab
  have happend : code a ++ [] = code b ++ [] := congrArg (· ++ []) hab
  exact (h happend).1

/-- No code word begins another. -/
theorem of_prefixFree (h : ∀ a b, code a <+: code b → a = b) : SelfDelimiting code := by
  intro a b rest rest' heq
  have hab : a = b := by
    rcases List.prefix_or_prefix_of_prefix (List.prefix_append (code a) rest)
      (heq ▸ List.prefix_append (code b) rest') with hpre | hpre
    · exact h a b hpre
    · exact (h b a hpre).symm
  subst hab
  exact ⟨rfl, List.append_cancel_left heq⟩

/-- Constant texts around the word. -/
theorem SelfDelimiting.framed (h : SelfDelimiting code) (front back : List γ) :
    SelfDelimiting fun a => front ++ code a ++ back := by
  intro a b rest rest' heq
  simp only [List.append_assoc, List.append_cancel_left_eq] at heq
  obtain ⟨hab, hrest⟩ := h heq
  exact ⟨hab, List.append_cancel_left hrest⟩

/-- One word after another. -/
theorem SelfDelimiting.pair (h : SelfDelimiting code) (h' : SelfDelimiting code') :
    SelfDelimiting fun p : α × β => code p.1 ++ code' p.2 := by
  rintro ⟨a, b⟩ ⟨c, d⟩ rest rest' heq
  simp only [List.append_assoc] at heq
  obtain ⟨rfl, hsecond⟩ := h heq
  obtain ⟨rfl, hrest⟩ := h' hsecond
  exact ⟨rfl, hrest⟩

/-- What is read through an injection. -/
theorem SelfDelimiting.comp (h : SelfDelimiting code) {f : β → α} (hf : Function.Injective f) :
    SelfDelimiting fun b => code (f b) := by
  intro a b rest rest' heq
  obtain ⟨hab, hrest⟩ := h heq
  exact ⟨hf hab, hrest⟩

variable {stop : γ}

/-- The word does not begin with the stop. -/
def Starts (code : α → List γ) (stop : γ) : Prop := ∀ a, ∃ c tail, code a = c :: tail ∧ c ≠ stop

/-- Words up to a stop that begins none. -/
theorem SelfDelimiting.terminated (h : SelfDelimiting code) (hstart : Starts code stop) :
    SelfDelimiting fun as : List α => as.flatMap code ++ [stop] := by
  intro as
  induction as with
  | nil =>
      intro bs rest rest' heq
      cases bs with
      | nil => exact ⟨rfl, (List.cons.inj heq).2⟩
      | cons b bs =>
          obtain ⟨c, tail, hcode, hne⟩ := hstart b
          simp only [List.flatMap_cons, hcode] at heq
          exact absurd (List.cons.inj heq).1.symm hne
  | cons a as ih =>
      intro bs rest rest' heq
      cases bs with
      | nil =>
          obtain ⟨c, tail, hcode, hne⟩ := hstart a
          simp only [List.flatMap_cons, hcode] at heq
          exact absurd (List.cons.inj heq).1 hne
      | cons b bs =>
          simp only [List.flatMap_cons, List.append_assoc] at heq
          obtain ⟨rfl, hmore⟩ := h heq
          have htail : as.flatMap code ++ [stop] ++ rest = bs.flatMap code ++ [stop] ++ rest' := by
            rw [List.append_assoc, List.append_assoc]
            exact hmore
          obtain ⟨rfl, hrest⟩ := ih htail
          exact ⟨rfl, hrest⟩

/-- The words, a separator between any two. -/
def separated (sep : γ) (code : α → List γ) : List α → List γ
  | [] => []
  | [a] => code a
  | a :: as => code a ++ sep :: separated sep code as

theorem separated_cons_cons (sep : γ) (a b : α) (as : List α) :
    separated sep code (a :: b :: as) = code a ++ sep :: separated sep code (b :: as) := rfl

/-- Behind its first word a list is words with a separator before each. -/
theorem separated_cons (sep : γ) (a : α) (as : List α) :
    separated sep code (a :: as) = code a ++ as.flatMap fun b => sep :: code b := by
  induction as generalizing a with
  | nil => exact (List.append_nil _).symm
  | cons b as ih => rw [separated_cons_cons, ih, List.flatMap_cons, List.cons_append]

theorem SelfDelimiting.separated {sep : γ} (h : SelfDelimiting code) (hstart : Starts code stop)
    (hsep : sep ≠ stop) : SelfDelimiting fun as => separated sep code as ++ [stop] := by
  -- behind the first element each one begins with the separator
  have hrest : SelfDelimiting fun as : List α => (as.flatMap fun b => sep :: code b) ++ [stop] := by
    apply SelfDelimiting.terminated
    · simpa using h.framed [sep] []
    · exact fun a => ⟨sep, code a, rfl, hsep⟩
  intro as bs rest rest' heq
  cases as with
  | nil =>
      cases bs with
      | nil => exact ⟨rfl, (List.cons.inj heq).2⟩
      | cons b bs =>
          obtain ⟨c, tail, hcode, hne⟩ := hstart b
          simp only [separated_cons, hcode] at heq
          -- an element does not begin with the stop
          exact absurd (List.cons.inj heq).1.symm hne
  | cons a as =>
      cases bs with
      | nil =>
          obtain ⟨c, tail, hcode, hne⟩ := hstart a
          simp only [separated_cons, hcode] at heq
          exact absurd (List.cons.inj heq).1 hne
      | cons b bs =>
          simp only [separated_cons, List.append_assoc] at heq
          obtain ⟨rfl, hmore⟩ := h heq
          have htail : (as.flatMap fun b => sep :: code b) ++ [stop] ++ rest =
              (bs.flatMap fun b => sep :: code b) ++ [stop] ++ rest' := by
            rw [List.append_assoc, List.append_assoc]
            exact hmore
          obtain ⟨rfl, hrest⟩ := hrest htail
          exact ⟨rfl, hrest⟩

/-- A word or nothing, before a stop that begins no word. -/
theorem SelfDelimiting.optional (h : SelfDelimiting code) (hstart : Starts code stop) :
    SelfDelimiting fun a : Option α => a.elim [] code ++ [stop] := by
  intro a b rest rest' heq
  cases a with
  | none =>
      cases b with
      | none => exact ⟨rfl, (List.cons.inj heq).2⟩
      | some b =>
          obtain ⟨c, tail, hcode, hne⟩ := hstart b
          simp only [Option.elim_some, hcode] at heq
          exact absurd (List.cons.inj heq).1.symm hne
  | some a =>
      cases b with
      | none =>
          obtain ⟨c, tail, hcode, hne⟩ := hstart a
          simp only [Option.elim_some, hcode] at heq
          exact absurd (List.cons.inj heq).1 hne
      | some b =>
          simp only [Option.elim_some, List.append_assoc] at heq
          obtain ⟨rfl, hrest⟩ := h heq
          exact ⟨rfl, (List.cons.inj hrest).2⟩

end Delimited
