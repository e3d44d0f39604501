/-
AircraftApi/Lines.lean

A text as lines, and the first occurrence of a text in it.

A text is its first line and what stands below it, each line after the newline that
begins it (`below`).  A marker without a newline stands within a line; a marker that
is a newline and one character is the beginning of a line.
-/
import AircraftApi.Text
import AircraftApi.Runs

namespace Text

/-- `str::strip_prefix`. -/
def stripPrefix (start s : List Char) : Option (List Char) :=
  if start.isPrefixOf s then some (s.drop start.length) else none

/-- `str::split_once` at a text. -/
def splitOnceAt (marker : List Char) : List Char → Option (List Char × List Char)
  | [] => if marker = [] then some ([], []) else none
  | c :: s =>
    if marker.isPrefixOf (c :: s) then some ([], (c :: s).drop marker.length)
    else (splitOnceAt marker s).map fun parts => (c :: parts.1, parts.2)

/-- `str::lines`: the newline that ends a line is dropped, and the carriage return before
it; nothing stands behind the last newline. -/
def lines (s : List Char) : List (List Char) :=
  let pieces := s.splitOn '\n'
  pieces.dropLast.map (fun line => (stripSuffix '\r' line).getD line) ++
    (pieces.getLast?.filter (· ≠ [])).toList

/-- The lines below the first, each after its newline. -/
def below (rest : List (List Char)) : List Char := rest.flatMap fun line => '\n' :: line

variable {marker s a b t line : List Char} {rest mid : List (List Char)}

/-! ### The first occurrence -/

theorem stripPrefix_eq_some_iff {start : List Char} :
    stripPrefix start s = some t ↔ s = start ++ t := by
  rw [stripPrefix]
  constructor
  · intro h
    by_cases hstart : start.isPrefixOf s
    · rw [if_pos hstart, Option.some.injEq] at h
      obtain ⟨tail, rfl⟩ := List.isPrefixOf_iff_prefix.mp hstart
      rw [← h, List.drop_left]
    · rw [if_neg hstart] at h
      cases h
  · rintro rfl
    rw [if_pos (List.isPrefixOf_iff_prefix.mpr (List.prefix_append _ _)), List.drop_left]

theorem stripPrefix_eq_none_iff {start : List Char} :
    stripPrefix start s = none ↔ ¬ start <+: s := by
  rw [stripPrefix, ← List.isPrefixOf_iff_prefix]
  by_cases h : start.isPrefixOf s = true
  · simp [h]
  · simp [h]

theorem splitOnceAt_cons_pos {c : Char} (h : marker <+: c :: s) :
    splitOnceAt marker (c :: s) = some ([], (c :: s).drop marker.length) := by
  rw [splitOnceAt, if_pos (List.isPrefixOf_iff_prefix.mpr h)]

theorem splitOnceAt_cons_neg {c : Char} (h : ¬ marker <+: c :: s) :
    splitOnceAt marker (c :: s) =
      (splitOnceAt marker s).map fun parts => (c :: parts.1, parts.2) := by
  rw [splitOnceAt, if_neg fun hstarts => h (List.isPrefixOf_iff_prefix.mp hstarts)]

theorem eq_of_splitOnceAt (h : splitOnceAt marker s = some (a, b)) : s = a ++ (marker ++ b) := by
  induction s generalizing a with
  | nil =>
      rw [splitOnceAt] at h
      split at h
      · cases h
        rename_i hmarker
        rw [hmarker]
        rfl
      · cases h
  | cons c s ih =>
      by_cases hfirst : marker <+: c :: s
      · rw [splitOnceAt_cons_pos hfirst] at h
        cases h
        obtain ⟨tail, htail⟩ := hfirst
        rw [← htail, List.drop_left, List.nil_append]
      · rw [splitOnceAt_cons_neg hfirst] at h
        obtain ⟨⟨first, second⟩, hsplit, hparts⟩ := Option.map_eq_some_iff.mp h
        cases hparts
        rw [ih hsplit, List.cons_append]

theorem splitOnceAt_eq_none_iff : splitOnceAt marker s = none ↔ ¬ marker <:+: s := by
  induction s with
  | nil =>
      rw [splitOnceAt, List.infix_nil]
      by_cases h : marker = []
      · simp [h]
      · simp [h]
  | cons c s ih =>
      rw [List.infix_cons_iff, not_or]
      by_cases hfirst : marker <+: c :: s
      · rw [splitOnceAt_cons_pos hfirst]
        simp [hfirst]
      · rw [splitOnceAt_cons_neg hfirst, Option.map_eq_none_iff, ih]
        simp [hfirst]

theorem exists_splitOnceAt (h : marker <:+: s) : ∃ a b, splitOnceAt marker s = some (a, b) := by
  obtain ⟨⟨a, b⟩, hsplit⟩ := Option.ne_none_iff_exists'.mp
    fun hnone => splitOnceAt_eq_none_iff.mp hnone h
  exact ⟨a, b, hsplit⟩

/-- What is added behind the text changes nothing before its first occurrence. -/
theorem splitOnceAt_append (h : splitOnceAt marker s = some (a, b)) (t : List Char) :
    splitOnceAt marker (s ++ t) = some (a, b ++ t) := by
  induction s generalizing a with
  | nil =>
      rw [splitOnceAt] at h
      split at h
      · cases h
        rename_i hmarker
        subst hmarker
        rcases t with - | ⟨c, t⟩
        · rfl
        · exact splitOnceAt_cons_pos (List.nil_prefix)
      · cases h
  | cons c s ih =>
      rw [List.cons_append]
      by_cases hfirst : marker <+: c :: s
      · have hlonger : marker <+: c :: (s ++ t) := hfirst.trans (List.prefix_append (c :: s) t)
        rw [splitOnceAt_cons_pos hfirst] at h
        cases h
        rw [splitOnceAt_cons_pos hlonger, ← List.cons_append,
          List.drop_append_of_le_length hfirst.length_le]
      · rw [splitOnceAt_cons_neg hfirst] at h
        obtain ⟨⟨first, second⟩, hsplit, hparts⟩ := Option.map_eq_some_iff.mp h
        cases hparts
        have hnot : ¬ marker <+: c :: (s ++ t) := by
          intro hlonger
          apply hfirst
          -- the occurrence found in `s` leaves room for one at its beginning
          have hlength : marker.length ≤ (c :: s).length := by
            have hparts := congrArg List.length (eq_of_splitOnceAt hsplit)
            simp only [List.length_append] at hparts
            rw [List.length_cons]
            omega
          exact List.prefix_of_prefix_length_le hlonger (List.prefix_append (c :: s) t) hlength
        rw [splitOnceAt_cons_neg hnot, ih hsplit]
        rfl

/-- The text may end behind its first occurrence. -/
theorem splitOnceAt_cut (h : splitOnceAt marker (a ++ (marker ++ b)) = some (a, b)) :
    splitOnceAt marker (a ++ marker) = some (a, []) := by
  obtain ⟨a', b', hsplit⟩ := exists_splitOnceAt (List.suffix_append a marker).isInfix
  have hlonger := splitOnceAt_append hsplit b
  rw [List.append_assoc, h, Option.some.injEq, Prod.mk.injEq] at hlonger
  obtain ⟨rfl, hb⟩ := hlonger
  rw [hsplit, List.self_eq_append_left.mp hb]

/-- A character of the marker that only ends the text ends the occurrence. -/
theorem splitOnceAt_concat {c : Char} (hc : c ∉ s) (hmarker : c ∈ marker)
    (h : splitOnceAt marker (s ++ [c]) = some (a, b)) : b = [] := by
  have htext := eq_of_splitOnceAt h
  rcases b.eq_nil_or_concat' with hnil | ⟨init, last, rfl⟩
  · exact hnil
  · rw [← List.append_assoc, ← List.append_assoc] at htext
    obtain ⟨rfl, -⟩ := List.append_inj' htext rfl
    exact absurd (by simp [hmarker]) hc

/-- Nothing before the text is the beginning of an occurrence. -/
theorem splitOnceAt_of_head {c : Char} (hc : c ∉ a) (t : List Char) :
    splitOnceAt (c :: marker) (a ++ (c :: marker ++ t)) = some (a, t) := by
  induction a with
  | nil =>
      rw [List.nil_append, List.cons_append, splitOnceAt_cons_pos ⟨t, rfl⟩]
      simp
  | cons d a ih =>
      rw [List.mem_cons, not_or] at hc
      have hnot : ¬ c :: marker <+: d :: (a ++ (c :: marker ++ t)) := fun h =>
        hc.1 (List.cons_prefix_cons.mp h).1
      rw [List.cons_append, splitOnceAt_cons_neg hnot, ih hc.2]
      rfl

/-! ### Within the lines -/

theorem intercalate_eq_below (first : List Char) (rest : List (List Char)) :
    ['\n'].intercalate (first :: rest) = first ++ below rest := by
  induction rest generalizing first with
  | nil => simp [below]
  | cons second rest ih =>
      rw [List.intercalate_cons_cons, ih, below, below, List.flatMap_cons]
      simp

theorem below_cons (line : List Char) (rest : List (List Char)) :
    below (line :: rest) = '\n' :: (line ++ below rest) := List.flatMap_cons

theorem below_append (above rest : List (List Char)) :
    below (above ++ rest) = below above ++ below rest := List.flatMap_append

/-- The lines above one, each with the newline that ends it. -/
def ended (pre : List (List Char)) : List Char := pre.flatMap fun line => line ++ ['\n']

theorem intercalate_around (pre : List (List Char)) (line : List Char) (rest : List (List Char)) :
    ['\n'].intercalate (pre ++ line :: rest) = ended pre ++ (line ++ below rest) := by
  induction pre with
  | nil => exact intercalate_eq_below line rest
  | cons first pre ih =>
      obtain ⟨second, tail, hcons⟩ := List.exists_cons_of_ne_nil
        (List.append_ne_nil_of_right_ne_nil pre (List.cons_ne_nil line rest))
      rw [List.cons_append, hcons, List.intercalate_cons_cons, ← hcons, ih, ended, ended,
        List.flatMap_cons]
      simp

/-- A character that is at most the marker's last ends what need not be sought again. -/
theorem splitOnceAt_behind {c : Char} (hmarker : c ∉ marker.dropLast)
    (h : ¬ marker <:+: a ++ [c]) (t : List Char) :
    splitOnceAt marker (a ++ c :: t) =
      (splitOnceAt marker t).map fun parts => (a ++ c :: parts.1, parts.2) := by
  have hstarts : ∀ u : List Char, ¬ marker <+: u ++ [c] → ¬ marker <+: u ++ c :: t := by
    intro u hu hlong
    have hend : u ++ [c] <+: u ++ c :: t := ⟨t, by simp⟩
    rcases Nat.lt_or_ge (u ++ [c]).length marker.length with hlt | hge
    · -- the marker would go on behind the character
      obtain ⟨rest, hrest⟩ := List.prefix_of_prefix_length_le hend hlong hlt.le
      have hne : rest ≠ [] := by
        rintro rfl
        rw [← hrest, List.append_nil] at hlt
        exact absurd hlt (Nat.lt_irrefl _)
      apply hmarker
      rw [← hrest, List.dropLast_append_of_ne_nil hne]
      simp
    · exact hu (List.prefix_of_prefix_length_le hlong hend hge)
  induction a with
  | nil =>
      have hnot : ¬ marker <+: c :: t := hstarts [] fun hprefix => h hprefix.isInfix
      rw [List.nil_append, splitOnceAt_cons_neg hnot]
      rfl
  | cons d a ih =>
      rw [List.cons_append, List.infix_cons_iff, not_or] at h
      have hnot : ¬ marker <+: d :: (a ++ c :: t) := hstarts (d :: a) h.1
      rw [List.cons_append, splitOnceAt_cons_neg hnot, ih h.2, Option.map_map]
      rfl

/-- A marker without a newline, not in the first line, is sought below it. -/
theorem splitOnceAt_line (hmarker : '\n' ∉ marker) (hne : marker ≠ []) (h : ¬ marker <:+: line) :
    splitOnceAt marker (line ++ '\n' :: t) =
      (splitOnceAt marker t).map fun parts => (line ++ '\n' :: parts.1, parts.2) := by
  apply splitOnceAt_behind fun hmem => hmarker (List.mem_of_mem_dropLast hmem)
  rintro ⟨before, behind, hin⟩
  rcases behind.eq_nil_or_concat' with rfl | ⟨behind, last, rfl⟩
  · obtain ⟨init, last, rfl⟩ := marker.eq_nil_or_concat'.resolve_left hne
    rw [List.append_nil, ← List.append_assoc] at hin
    obtain ⟨-, hlast⟩ := List.append_inj' hin rfl
    obtain rfl := List.singleton_inj.mp hlast
    simp at hmarker
  · rw [← List.append_assoc] at hin
    obtain ⟨hline, -⟩ := List.append_inj' hin rfl
    exact h ⟨before, behind, hline⟩

/-- A marker in none of the lines above is sought below them. -/
theorem splitOnceAt_ended (hmarker : '\n' ∉ marker) (hne : marker ≠ [])
    (h : ∀ line ∈ mid, ¬ marker <:+: line) (t : List Char) :
    splitOnceAt marker (ended mid ++ t) =
      (splitOnceAt marker t).map fun parts => (ended mid ++ parts.1, parts.2) := by
  induction mid with
  | nil => simp [ended]
  | cons line mid ih =>
      obtain ⟨hline, hmid⟩ := List.forall_mem_cons.mp h
      have hended : ∀ u, ended (line :: mid) ++ u = line ++ '\n' :: (ended mid ++ u) := by
        intro u
        rw [ended, List.flatMap_cons, List.append_assoc, List.append_assoc]
        rfl
      rw [hended, splitOnceAt_line hmarker hne hline, ih hmid, Option.map_map]
      simp only [hended]
      rfl

/-- A marker that begins with a newline is sought below the first line. -/
theorem splitOnceAt_newline (hline : '\n' ∉ line) (t : List Char) :
    splitOnceAt ('\n' :: marker) (line ++ t) =
      (splitOnceAt ('\n' :: marker) t).map fun parts => (line ++ parts.1, parts.2) := by
  induction line with
  | nil => simp
  | cons c line ih =>
      rw [List.mem_cons, not_or] at hline
      have hnot : ¬ '\n' :: marker <+: c :: (line ++ t) := fun h =>
        hline.1 (List.cons_prefix_cons.mp h).1
      rw [List.cons_append, splitOnceAt_cons_neg hnot, ih hline.2, Option.map_map]
      rfl

variable {c : Char}

/-- The first of the lines below that begins with the character. -/
theorem splitOnceAt_below (hlines : ∀ line ∈ mid, '\n' ∉ line) (hc : c ≠ '\n')
    (h : ∀ line ∈ mid, line.head? ≠ some c) (r : List Char) (post : List (List Char)) :
    splitOnceAt ['\n', c] (below (mid ++ (c :: r) :: post)) = some (below mid, r ++ below post) := by
  induction mid with
  | nil =>
      have hfirst : ['\n', c] <+: '\n' :: (c :: r ++ below post) := ⟨r ++ below post, rfl⟩
      rw [List.nil_append, below_cons, splitOnceAt_cons_pos hfirst]
      rfl
  | cons line mid ih =>
      obtain ⟨hline, hmid⟩ := List.forall_mem_cons.mp hlines
      obtain ⟨hhead, hheads⟩ := List.forall_mem_cons.mp h
      have hnot : ¬ ['\n', c] <+: '\n' :: (line ++ below (mid ++ (c :: r) :: post)) := by
        rw [List.cons_prefix_cons, and_iff_right rfl]
        rcases line with - | ⟨d, line⟩
        · rcases mid with - | ⟨next, mid⟩
          · exact fun hp => hc (List.cons_prefix_cons.mp hp).1
          · exact fun hp => hc (List.cons_prefix_cons.mp hp).1
        · exact fun hp => hhead (congrArg some (List.cons_prefix_cons.mp hp).1.symm)
      rw [List.cons_append, below_cons, splitOnceAt_cons_neg hnot,
        splitOnceAt_newline hline, ih hmid hheads, below_cons]
      rfl

/-- None of the lines below begins with the character. -/
theorem splitOnceAt_below_none (hlines : ∀ line ∈ rest, '\n' ∉ line) (hc : c ≠ '\n')
    (h : ∀ line ∈ rest, line.head? ≠ some c) : splitOnceAt ['\n', c] (below rest) = none := by
  induction rest with
  | nil => rfl
  | cons line rest ih =>
      obtain ⟨hline, hrest⟩ := List.forall_mem_cons.mp hlines
      obtain ⟨hhead, hheads⟩ := List.forall_mem_cons.mp h
      have hnot : ¬ ['\n', c] <+: '\n' :: (line ++ below rest) := by
        rw [List.cons_prefix_cons, and_iff_right rfl]
        rcases line with - | ⟨d, line⟩
        · rcases rest with - | ⟨next, rest⟩
          · simp [below]
          · exact fun hp => hc (List.cons_prefix_cons.mp hp).1
        · exact fun hp => hhead (congrArg some (List.cons_prefix_cons.mp hp).1.symm)
      rw [below_cons, splitOnceAt_cons_neg hnot, splitOnceAt_newline hline,
        ih hrest hheads]
      rfl

/-! ### The lines -/

/-- A text is joined from its lines in one way only. -/
theorem lines_unique {ls ls' : List (List Char)} (h : ['\n'].intercalate ls = ['\n'].intercalate ls')
    (hne : ls ≠ []) (hne' : ls' ≠ []) (hls : ∀ line ∈ ls, '\n' ∉ line)
    (hls' : ∀ line ∈ ls', '\n' ∉ line) : ls = ls' := by
  rw [← List.splitOn_intercalate '\n' hls hne, h, List.splitOn_intercalate '\n' hls' hne']

/-- Trimmed, a line is the same with its carriage return. -/
theorem trim_return (line : List Char) : trim ((stripSuffix '\r' line).getD line) = trim line := by
  rw [stripSuffix]
  by_cases h : line.getLast? = some '\r'
  · obtain ⟨front, rfl⟩ := List.getLast?_eq_some_iff.mp h
    rw [if_pos h, List.dropLast_concat, Option.getD_some, trim, trim, strip, strip]
    by_cases hfront : ∀ c ∈ front, isWhite c = true
    · have hall : ∀ c ∈ front ++ ['\r'], isWhite c = true := by
        intro c hc
        rcases List.mem_append.mp hc with hc | hc
        · exact hfront c hc
        · rw [List.mem_singleton.mp hc]
          decide
      rw [List.dropWhile_eq_nil_iff.mpr hfront, List.dropWhile_eq_nil_iff.mpr hall]
    · have hdrop : (front ++ ['\r']).dropWhile isWhite = front.dropWhile isWhite ++ ['\r'] := by
        rw [List.dropWhile_append, if_neg]
        rw [List.isEmpty_iff, List.dropWhile_eq_nil_iff]
        exact hfront
      rw [hdrop, List.rdropWhile_concat_pos _ _ _ (by decide)]
  · rw [if_neg h, Option.getD_none]

/-- The trimmed lines that are not empty are those of the text split at each newline. -/
theorem filter_trim_lines (s : List Char) :
    ((lines s).map trim).filter (· ≠ []) = ((s.splitOn '\n').map trim).filter (· ≠ []) := by
  have hne : s.splitOn '\n' ≠ [] := List.splitOn_ne_nil '\n' s
  have hpieces : s.splitOn '\n' =
      (s.splitOn '\n').dropLast ++ [(s.splitOn '\n').getLast hne] :=
    (List.dropLast_append_getLast hne).symm
  have hlast : (([(s.splitOn '\n').getLast hne].filter (· ≠ [])).map trim).filter (· ≠ []) =
      ([(s.splitOn '\n').getLast hne].map trim).filter (· ≠ []) := by
    rcases (s.splitOn '\n').getLast hne with - | ⟨c, line⟩
    · rfl
    · rfl
  have hoption : ((s.splitOn '\n').getLast?.filter (· ≠ [])).toList =
      [(s.splitOn '\n').getLast hne].filter (· ≠ []) := by
    rw [List.getLast?_eq_some_getLast hne]
    rcases (s.splitOn '\n').getLast hne with - | ⟨c, line⟩
    · rfl
    · rfl
  rw [lines, hoption, List.map_append, List.filter_append, hlast, List.map_map]
  conv_rhs => rw [hpieces, List.map_append, List.filter_append]
  congr 2
  apply List.map_congr_left
  intro line hline
  exact trim_return line

end Text
