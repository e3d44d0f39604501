/-
AircraftApi/Scanners.lean

Machines that read a text one character at a time, the rest of it in sight, and keep
or drop each character.

    S.next before x here    the state on the next character
    S.keeps x here          whether the first of `here` is kept
    S.visits, S.ending      the run: the states on the characters, and at the end

Two machines are compared on the characters that count (`Simulates`): a relation
between their states that a step preserves, unless the second meets a trap.  Along a
run without traps the two keep the same (`Simulates.kept_eq`); a run on which they keep
the same has met no trap that parts them (`Simulates.calm_of_kept_eq`).  Characters may
carry something, such as their place in the text.
-/
import Mathlib

/-- `before` is the text read so far, the last character first. -/
structure Scanner (σ : Type*) where
  next : List Char → σ → List Char → σ
  keeps : σ → List Char → Bool

namespace Scanner

variable {α σ τ : Type*}

section

variable (S : Scanner σ) (char : α → Char)

/-- The characters with the states on them, each before the rest of the text. -/
def visits : σ → List Char → List α → List (σ × List α)
  | _, _, [] => []
  | x, before, a :: rest =>
    (x, a :: rest) :: visits (S.next before x ((a :: rest).map char)) (char a :: before) rest

/-- The state behind a text. -/
def ending : σ → List Char → List α → σ
  | x, _, [] => x
  | x, before, a :: rest =>
    ending (S.next before x ((a :: rest).map char)) (char a :: before) rest

/-- The characters that are kept. -/
def kept : σ → List Char → List α → List α
  | _, _, [] => []
  | x, before, a :: rest =>
    let later := kept (S.next before x ((a :: rest).map char)) (char a :: before) rest
    if S.keeps x ((a :: rest).map char) then a :: later else later

end

variable {S : Scanner σ} {T : Scanner τ} {char : α → Char} {x : σ} {y : τ} {before : List Char}
  {a : α} {s rest : List α} {R : σ → τ → List Char → Prop} {trap : τ → List Char → Prop}
  {counts : Char → Bool}

theorem kept_of_keeps (h : S.keeps x ((a :: rest).map char) = true) :
    S.kept char x before (a :: rest) =
      a :: S.kept char (S.next before x ((a :: rest).map char)) (char a :: before) rest :=
  if_pos h

theorem kept_of_drops (h : S.keeps x ((a :: rest).map char) = false) :
    S.kept char x before (a :: rest) =
      S.kept char (S.next before x ((a :: rest).map char)) (char a :: before) rest :=
  if_neg (ne_true_of_eq_false h)

theorem kept_sublist : ∀ (x : σ) (before : List Char) (s : List α),
    (S.kept char x before s).Sublist s := by
  intro x before s
  induction s generalizing x before with
  | nil => exact List.Sublist.refl []
  | cons a s ih =>
      cases h : S.keeps x ((a :: s).map char) with
      | true =>
          rw [kept_of_keeps h]
          exact (ih _ _).cons_cons a
      | false =>
          rw [kept_of_drops h]
          exact (ih _ _).cons a

/-- No trap is met along the run. -/
def Calm (trap : σ → List Char → Prop) (char : α → Char) (visited : List (σ × List α)) : Prop :=
  ∀ visit ∈ visited, ¬ trap visit.1 (visit.2.map char)

/-- Where no trap is met, the two agree on a character that counts, and stay related. -/
structure Simulates (S : Scanner σ) (T : Scanner τ) (R : σ → τ → List Char → Prop)
    (trap : τ → List Char → Prop) (counts : Char → Bool) : Prop where
  agree : ∀ {x y c tail}, R x y (c :: tail) → ¬ trap y (c :: tail) → counts c = true →
    S.keeps x (c :: tail) = T.keeps y (c :: tail)
  related : ∀ {x y c tail} (before : List Char), R x y (c :: tail) → ¬ trap y (c :: tail) →
    R (S.next before x (c :: tail)) (T.next before y (c :: tail)) tail

/-- What counts, of what is kept. -/
def counted (counts : Char → Bool) (char : α → Char) (s : List α) : List α :=
  s.filter fun a => counts (char a)

theorem counted_kept : counted counts char (S.kept char x before (a :: rest)) =
    if counts (char a) = true ∧ S.keeps x ((a :: rest).map char) = true then
      a :: counted counts char
        (S.kept char (S.next before x ((a :: rest).map char)) (char a :: before) rest)
    else counted counts char
      (S.kept char (S.next before x ((a :: rest).map char)) (char a :: before) rest) := by
  cases hkeeps : S.keeps x ((a :: rest).map char) with
  | true =>
      rw [kept_of_keeps hkeeps, counted, List.filter_cons]
      simp only [and_true]
      rfl
  | false =>
      rw [kept_of_drops hkeeps]
      exact (if_neg fun h => Bool.false_ne_true h.2).symm

/-- A trap parts the two: the first drops a character that counts, and the second keeps
it. -/
def Parted (S : Scanner σ) (T : Scanner τ) (R : σ → τ → List Char → Prop) (counts : Char → Bool)
    (y : τ) (here : List Char) : Prop :=
  ∀ x, R x y here → S.keeps x here = false ∧ T.keeps y here = true ∧ ∀ c ∈ here.head?, counts c = true

namespace Simulates

/-- Along a run without traps, the two keep the same. -/
theorem kept_eq (h : Simulates S T R trap counts) (x : σ) (y : τ) (before : List Char)
    (s : List α) (hR : R x y (s.map char)) (hcalm : Calm trap char (T.visits char y before s)) :
    counted counts char (S.kept char x before s) = counted counts char (T.kept char y before s) ∧
      R (S.ending char x before s) (T.ending char y before s) [] := by
  induction s generalizing x y before with
  | nil => exact ⟨rfl, hR⟩
  | cons a s ih =>
      obtain ⟨htrap, hrest⟩ := List.forall_mem_cons.mp hcalm
      obtain ⟨hkept, hending⟩ := ih _ _ _ (h.related before hR htrap) hrest
      have hagree : (counts (char a) = true ∧ S.keeps x ((a :: s).map char) = true) ↔
          (counts (char a) = true ∧ T.keeps y ((a :: s).map char) = true) :=
        and_congr_right fun hcounts => by rw [List.map_cons, h.agree hR htrap hcounts]
      refine ⟨?_, hending⟩
      rw [counted_kept, counted_kept, if_congr hagree rfl rfl, List.map_cons, hkept]

/-- Where traps part the two, and the two keep the same, no trap is met. -/
theorem calm_of_kept_eq (h : Simulates S T R trap counts) (x : σ) (y : τ) (before : List Char)
    (s : List α) (hR : R x y (s.map char)) (hnodup : s.Nodup)
    (hparts : ∀ visit ∈ T.visits char y before s, trap visit.1 (visit.2.map char) →
      Parted S T R counts visit.1 (visit.2.map char))
    (hkept : counted counts char (S.kept char x before s) =
      counted counts char (T.kept char y before s)) :
    Calm trap char (T.visits char y before s) := by
  induction s generalizing x y before with
  | nil =>
      rintro visit hvisit
      cases hvisit
  | cons a s ih =>
      obtain ⟨hpart, hparts⟩ := List.forall_mem_cons.mp hparts
      have htrap : ¬ trap y ((a :: s).map char) := by
        intro htrap
        obtain ⟨hdrops, hkeeps, hcounts⟩ := hpart htrap x hR
        have hboth : counts (char a) = true ∧ T.keeps y ((a :: s).map char) = true :=
          ⟨hcounts (char a) rfl, hkeeps⟩
        rw [kept_of_drops hdrops, counted_kept, if_pos hboth] at hkept
        -- the character is in what the second keeps, and not in what is left to the first
        have hmem : a ∈ counted counts char
            (S.kept char (S.next before x ((a :: s).map char)) (char a :: before) s) := by
          rw [hkept]
          exact List.mem_cons_self
        exact (List.nodup_cons.mp hnodup).1
          ((kept_sublist _ _ s).subset (List.mem_of_mem_filter hmem))
      have hagree : (counts (char a) = true ∧ S.keeps x ((a :: s).map char) = true) ↔
          (counts (char a) = true ∧ T.keeps y ((a :: s).map char) = true) :=
        and_congr_right fun hcounts => by rw [List.map_cons, h.agree hR htrap hcounts]
      have hrest : counted counts char
          (S.kept char (S.next before x ((a :: s).map char)) (char a :: before) s) =
          counted counts char
            (T.kept char (T.next before y ((a :: s).map char)) (char a :: before) s) := by
        rw [counted_kept, counted_kept, if_congr hagree rfl rfl] at hkept
        split at hkept
        · exact (List.cons.inj hkept).2
        · exact hkept
      exact List.forall_mem_cons.mpr ⟨htrap,
        ih _ _ _ (h.related before hR htrap) (List.nodup_cons.mp hnodup).2 hparts hrest⟩

end Simulates

end Scanner
