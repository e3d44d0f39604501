/-
AircraftApi/Text.lean

Text operations of the Rust standard library on lists of characters: trimming
and splitting at white space, ASCII case, searching, and the integer parser.

Each operation is a structural recursion, so that it evaluates.  What the
development needs of them is that they add no character: every result is made
of characters of the input (`strip_subset`, `lastWord_subset`), and that a parsed
integer is in the range it was parsed for (`parseInt_bounds`).
-/
import Mathlib

namespace Text

/-- `char::is_whitespace`: the Unicode property White_Space. -/
def isWhite (c : Char) : Bool :=
  let n := c.toNat
  (9 ≤ n ∧ n ≤ 13) ∨ n = 0x20 ∨ n = 0x85 ∨ n = 0xA0 ∨ n = 0x1680 ∨
    (0x2000 ≤ n ∧ n ≤ 0x200A) ∨ n = 0x2028 ∨ n = 0x2029 ∨ n = 0x202F ∨ n = 0x205F ∨
    n = 0x3000

/-- `str::trim_matches`: drops the characters satisfying `p` at both ends. -/
def strip (p : Char → Bool) (s : List Char) : List Char := (s.dropWhile p).rdropWhile p

/-- `str::trim`. -/
def trim (s : List Char) : List Char := strip isWhite s

/-- `str::trim_end`. -/
def trimEnd (s : List Char) : List Char := s.rdropWhile isWhite

/-- `str::to_ascii_lowercase`. -/
def lower (s : List Char) : List Char := s.map Char.toLower

/-- `str::to_ascii_uppercase`. -/
def upper (s : List Char) : List Char := s.map Char.toUpper

/-- `str::contains`. -/
def contains (needle : List Char) : List Char → Bool
  | [] => needle.isEmpty
  | c :: s => needle.isPrefixOf (c :: s) || contains needle s

/-- What follows the first occurrence of `marker`. -/
def after (marker : List Char) : List Char → Option (List Char)
  | [] => if marker.isEmpty then some [] else none
  | c :: s =>
    if marker.isPrefixOf (c :: s) then some ((c :: s).drop marker.length)
    else after marker s

/-- What follows the last occurrence of the character. -/
def afterLast (sep : Char) : List Char → Option (List Char)
  | [] => none
  | c :: s =>
    match afterLast sep s with
    | some rest => some rest
    | none => if c = sep then some s else none

/-- `str::split_once` at a character. -/
def splitOnce (sep : Char) : List Char → Option (List Char × List Char)
  | [] => none
  | c :: s =>
    if c = sep then some ([], s)
    else (splitOnce sep s).map fun parts => (c :: parts.1, parts.2)

/-- `str::strip_suffix` of one character. -/
def stripSuffix (last : Char) (s : List Char) : Option (List Char) :=
  if s.getLast? = some last then some s.dropLast else none

/-- `split_whitespace().next()`. -/
def firstWord (s : List Char) : Option (List Char) :=
  match (s.dropWhile isWhite).takeWhile fun c => !isWhite c with
  | [] => none
  | word => some word

/-- `split_whitespace().last()`. -/
def lastWord (s : List Char) : Option (List Char) :=
  match (trimEnd s).rtakeWhile fun c => !isWhite c with
  | [] => none
  | word => some word

/-! ### Numbers -/

/-- A non-empty run of ASCII digits as a number. -/
def natural (s : List Char) : Option ℕ :=
  if s ≠ [] ∧ s.all Char.isDigit then
    some (s.foldl (fun n c => 10 * n + (c.toNat - '0'.toNat)) 0)
  else none

/-- `str::parse` of a signed integer type with values from `low` to `high`: an
optional sign, digits, and a value in range. -/
def parseInt (low high : ℤ) (s : List Char) : Option ℤ :=
  let parsed : Option ℤ :=
    match s with
    | '-' :: digits => (natural digits).map fun n => -(n : ℤ)
    | '+' :: digits => (natural digits).map fun n => (n : ℤ)
    | digits => (natural digits).map fun n => (n : ℤ)
  parsed.filter fun n => low ≤ n ∧ n ≤ high

/-- `str::parse::<i16>`. -/
def parseI16 (s : List Char) : Option ℤ := parseInt (-2 ^ 15) (2 ^ 15 - 1) s

/-- `str::parse::<i32>`. -/
def parseI32 (s : List Char) : Option ℤ := parseInt (-2 ^ 31) (2 ^ 31 - 1) s

/-- `str::parse` of an unsigned integer type: a plus sign is taken. -/
def parseUnsigned (high : ℕ) (s : List Char) : Option ℕ :=
  let digits := match s with
    | '+' :: digits => digits
    | digits => digits
  (natural digits).filter fun n => n ≤ high

theorem parseInt_bounds {low high n : ℤ} {s : List Char}
    (h : parseInt low high s = some n) : low ≤ n ∧ n ≤ high := by
  have hp := (Option.filter_eq_some_iff.mp h).2
  simpa using hp

/-! ### No operation adds a character -/

/-- A text is split at the first separator. -/
theorem splitOnce_eq_some_iff {sep : Char} {s before rest : List Char} :
    splitOnce sep s = some (before, rest) ↔ s = before ++ sep :: rest ∧ sep ∉ before := by
  induction s generalizing before with
  | nil => simp [splitOnce]
  | cons c s ih =>
      rw [splitOnce]
      by_cases hc : c = sep
      · subst hc
        rw [if_pos rfl]
        rcases before with - | ⟨b, before⟩
        · simp
        · simp only [Option.some.injEq, Prod.mk.injEq, List.cons_append, List.cons.injEq,
            List.mem_cons, not_or]
          constructor
          · rintro ⟨h, -⟩
            cases h
          · rintro ⟨⟨rfl, -⟩, hne, -⟩
            exact absurd rfl hne
      · rw [if_neg hc]
        rcases before with - | ⟨b, before⟩
        · simp [hc]
        · simp only [Option.map_eq_some_iff, Prod.mk.injEq, List.cons.injEq, List.cons_append,
            List.mem_cons, not_or]
          constructor
          · rintro ⟨⟨before', rest'⟩, hsplit, ⟨rfl, rfl⟩, rfl⟩
            obtain ⟨rfl, hnot⟩ := ih.mp hsplit
            exact ⟨⟨rfl, rfl⟩, Ne.symm hc, hnot⟩
          · rintro ⟨⟨rfl, rfl⟩, -, hnot⟩
            exact ⟨(before, rest), ih.mpr ⟨rfl, hnot⟩, ⟨rfl, rfl⟩, rfl⟩

theorem splitOnce_eq_none_iff {sep : Char} {s : List Char} :
    splitOnce sep s = none ↔ sep ∉ s := by
  constructor
  · intro h hmem
    obtain ⟨before, rest, hs, hnot⟩ := List.eq_append_cons_of_mem hmem
    rw [splitOnce_eq_some_iff.mpr ⟨hs, hnot⟩] at h
    cases h
  · intro h
    rcases hs : splitOnce sep s with - | ⟨before, rest⟩
    · rfl
    · obtain ⟨rfl, -⟩ := splitOnce_eq_some_iff.mp hs
      simp at h

theorem strip_subset (p : Char → Bool) (s : List Char) : strip p s ⊆ s := by
  have hend : strip p s ⊆ s.dropWhile p := (List.rdropWhile_prefix p _).subset
  exact fun c hc => (List.dropWhile_suffix p).subset (hend hc)

theorem lastWord_subset {s word : List Char} (h : lastWord s = some word) :
    word ⊆ s := by
  unfold lastWord at h
  split at h
  · cases h
  · rename_i w hw
    cases h
    intro c hc
    have hin := (List.rtakeWhile_suffix _ _).subset hc
    exact (List.rdropWhile_prefix _ _).subset hin

/-! ### What is stripped -/

theorem exists_strip (p : Char → Bool) (s : List Char) :
    ∃ front back, s = front ++ (strip p s ++ back) ∧ (∀ c ∈ front, p c = true) ∧
      ∀ c ∈ back, p c = true := by
  refine ⟨s.takeWhile p, (s.dropWhile p).rtakeWhile p, ?_, ?_, ?_⟩
  · rw [strip, List.rdropWhile_append_rtakeWhile, List.takeWhile_append_dropWhile]
  · exact fun c hc => List.mem_takeWhile_imp hc
  · exact fun c hc => List.mem_rtakeWhile_imp hc

theorem strip_infix (p : Char → Bool) (s : List Char) : strip p s <:+: s := by
  obtain ⟨front, back, h, -, -⟩ := exists_strip p s
  exact ⟨front, back, by rw [List.append_assoc, ← h]⟩

/-- What does not satisfy the predicate is kept. -/
theorem mem_strip {p : Char → Bool} {s : List Char} {c : Char} (h : c ∈ s) (hc : p c = false) :
    c ∈ strip p s := by
  obtain ⟨front, back, hs, hfront, hback⟩ := exists_strip p s
  rw [hs, List.mem_append, List.mem_append] at h
  rcases h with h | h | h
  · exact absurd (hfront c h) (by rw [hc]; exact Bool.false_ne_true)
  · exact h
  · exact absurd (hback c h) (by rw [hc]; exact Bool.false_ne_true)

/-- The ends of what is left do not satisfy the predicate. -/
theorem strip_append {p : Char → Bool} {front core back : List Char}
    (hfront : ∀ c ∈ front, p c = true) (hback : ∀ c ∈ back, p c = true)
    (hhead : ∀ c ∈ core.head?, p c = false) (hlast : ∀ c ∈ core.getLast?, p c = false) :
    strip p (front ++ (core ++ back)) = core := by
  rw [strip, List.dropWhile_append_of_pos hfront]
  rcases core with - | ⟨c, rest⟩
  · rw [List.nil_append, List.dropWhile_eq_nil_iff.mpr hback, List.rdropWhile_nil]
  · have hc := hhead c rfl
    rw [List.cons_append, List.dropWhile_cons_of_neg (by rw [hc]; exact Bool.false_ne_true),
      ← List.cons_append, List.rdropWhile, List.reverse_append, List.dropWhile_append_of_pos
        (fun d hd => hback d (List.mem_reverse.mp hd))]
    refine List.rdropWhile_eq_self_iff.mpr fun hne => ?_
    rw [hlast _ (List.getLast?_eq_some_getLast hne)]
    exact Bool.false_ne_true

theorem head_strip (p : Char → Bool) (s : List Char) : ∀ c ∈ (strip p s).head?, p c = false := by
  intro c hc
  obtain ⟨rest, hrest⟩ := List.head?_eq_some_iff.mp hc
  obtain ⟨back, hback⟩ := List.rdropWhile_prefix p (s.dropWhile p)
  have hfirst : (s.dropWhile p).head? = some c := by
    rw [← hback, show (s.dropWhile p).rdropWhile p = c :: rest from hrest]
    rfl
  have hnot := List.head?_dropWhile_not p s
  rwa [hfirst] at hnot

theorem getLast_strip (p : Char → Bool) (s : List Char) :
    ∀ c ∈ (strip p s).getLast?, p c = false := by
  intro c hc
  have hne : strip p s ≠ [] := by
    intro hnil
    rw [hnil] at hc
    cases hc
  rw [List.getLast?_eq_some_getLast hne, Option.mem_some] at hc
  rw [← hc]
  exact Bool.eq_false_iff.mpr (List.rdropWhile_last_not p _ hne)

/-- What is stripped anyway may stand around the text. -/
theorem strip_around {p : Char → Bool} {front back : List Char} (hfront : ∀ c ∈ front, p c = true)
    (hback : ∀ c ∈ back, p c = true) (s : List Char) :
    strip p (front ++ (s ++ back)) = strip p s := by
  obtain ⟨start, tail, hs, hstart, htail⟩ := exists_strip p s
  have hsplit : front ++ (s ++ back) = (front ++ start) ++ (strip p s ++ (tail ++ back)) := by
    conv_lhs => rw [hs]
    simp
  rw [hsplit]
  apply strip_append _ _ (head_strip p s) (getLast_strip p s)
  · exact fun c hc => (List.mem_append.mp hc).elim (hfront c) (hstart c)
  · exact fun c hc => (List.mem_append.mp hc).elim (htail c) (hback c)

theorem strip_strip (p : Char → Bool) (s : List Char) : strip p (strip p s) = strip p s := by
  have h : strip p ([] ++ (strip p s ++ [])) = strip p s :=
    strip_append nofun nofun (head_strip p s) (getLast_strip p s)
  rwa [List.nil_append, List.append_nil] at h

theorem strip_of_not_mem {c : Char} {s : List Char} (h : c ∉ s) : strip (· = c) s = s := by
  obtain ⟨front, back, hs, hfront, hback⟩ := exists_strip (· = c) s
  have hempty : ∀ run ⊆ s, (∀ d ∈ run, decide (d = c) = true) → run = [] := by
    intro run hsub hrun
    refine List.eq_nil_iff_forall_not_mem.mpr fun d hd => h ?_
    rw [← of_decide_eq_true (hrun d hd)]
    exact hsub hd
  have hfront := hempty front (by rw [hs]; simp) hfront
  have hback := hempty back (by rw [hs]; simp) hback
  conv_rhs => rw [hs, hfront, hback, List.nil_append, List.append_nil]

/-- White space goes at the ends only. -/
theorem trim_append {front tail : List Char} {c : Char} (hhead : front.head? = some c)
    (hwhite : ∀ d ∈ front, isWhite d = false) :
    trim (front ++ tail) = front ++ tail.rdropWhile isWhite := by
  obtain ⟨rest, rfl⟩ : ∃ rest, front = c :: rest := by
    rcases front with - | ⟨d, rest⟩
    · cases hhead
    · exact ⟨rest, by rw [Option.some.inj hhead]⟩
  unfold trim strip
  have hc := hwhite c List.mem_cons_self
  rw [List.cons_append, List.dropWhile_cons_of_neg (by rw [hc]; exact Bool.false_ne_true)]
  induction tail using List.reverseRecOn with
  | nil =>
      have hlast := hwhite _ (List.getLast_mem (List.cons_ne_nil c rest))
      rw [List.append_nil, List.rdropWhile_nil, List.append_nil,
        List.rdropWhile_eq_self_iff.mpr]
      intro hne
      rw [hlast]
      exact Bool.false_ne_true
  | append_singleton tail d ih =>
      by_cases hd : isWhite d = true
      · rw [List.rdropWhile_concat_pos _ _ _ hd, ← ih, ← List.cons_append, ← List.append_assoc,
          List.rdropWhile_concat_pos _ _ _ hd]
        rfl
      · rw [List.rdropWhile_concat_neg _ _ _ hd, ← List.cons_append, ← List.append_assoc,
          List.rdropWhile_concat_neg _ _ _ hd]

theorem trim_idem (s : List Char) : trim (trim s) = trim s := by
  rcases hs : trim s with - | ⟨c, rest⟩
  · rfl
  · unfold trim strip at hs ⊢
    have hc : isWhite c = false := by
      obtain ⟨tail, htail⟩ := List.rdropWhile_prefix isWhite (s.dropWhile isWhite)
      have hhead := List.head?_dropWhile_not isWhite s
      rw [← htail, hs] at hhead
      exact hhead
    rw [List.dropWhile_cons_of_neg (by rw [hc]; exact Bool.false_ne_true), ← hs]
    exact List.rdropWhile_idempotent _ _

end Text
