/-
AircraftApi/Redaction.lean

What the credential adapters keep back of a driver's error text.

`redacted_database_error` makes three passes: runs of 32 or more hexadecimal
digits are replaced (`redactDigestRuns`), control characters are dropped, and the
text is cut at 1000 characters.  The first pass does what it says
(`redactRuns_weave`).  The second can join what the first left alone: digits on
both sides of a control character become one run, and the message shows it
(`hasRun_message_iff`).
-/
import AircraftApi.Authentication
import AircraftApi.Runs

namespace AircraftApi

namespace Authentication

open Problem Runs

/-! ### The mapper -/

/-- `SqlxError`, by its text and the SQLSTATE of a database error. -/
structure SqlxError where
  text : String
  sqlState : Option String

/-- The code of an error: the database's own, if there is one. -/
def databaseCode (error : SqlxError) : String :=
  match error.sqlState with
  | some code => "DATABASE_" ++ code
  | none => "DATABASE_ERROR"

/-- A message without control characters, and not too long. -/
def sanitizeDatabaseMessage (message : String) : String :=
  String.ofList ((message.toList.filter fun c => !isControl c).take 1000)

/-- What is kept of the driver's text. -/
def redactedMessage (operation : String) (error : SqlxError) : String :=
  operation ++ ": " ++ sanitizeDatabaseMessage (redactDigestRuns error.text)

/-- The error as it leaves the repository. -/
def redactedDatabaseError (operation : String) (error : SqlxError) : PersistenceError :=
  .database (databaseCode error) (redactedMessage operation error)

/-- `credential_database_error`, on issuance. -/
def credentialDatabaseError : SqlxError → PersistenceError :=
  redactedDatabaseError "credential insert"

/-- `lookup_database_error`, on authentication. -/
def lookupDatabaseError : SqlxError → PersistenceError :=
  redactedDatabaseError "credential lookup"

/-! ### Digest runs -/

/-- The text holds a run of 32 or more hexadecimal digits. -/
def HasDigest (text : List Char) : Prop := HasRun isAsciiHexDigit 32 text

variable {run text rest before stretch after s post : List Char} {c : Char}

theorem length_flushRun (run : List Char) : (flushRun run).length < 32 := by
  unfold flushRun
  split_ifs with h
  · decide
  · omega

theorem redactRuns_append (hrun : ∀ c ∈ run, isAsciiHexDigit c = true) (prior : List Char) :
    redactRuns prior (run ++ text) = redactRuns (prior ++ run) text := by
  induction run generalizing prior with
  | nil => simp
  | cons c run ih =>
      obtain ⟨hc, hrun⟩ := List.forall_mem_cons.mp hrun
      rw [List.cons_append, redactRuns, if_pos hc, ih hrun, List.append_assoc,
        List.singleton_append]

theorem redactRuns_run (hrun : ∀ c ∈ run, isAsciiHexDigit c = true) :
    redactRuns [] run = flushRun run := by
  have h : redactRuns [] (run ++ []) = redactRuns ([] ++ run) [] := redactRuns_append hrun []
  rwa [List.append_nil, List.nil_append] at h

theorem redactRuns_run_cons (hrun : ∀ c ∈ run, isAsciiHexDigit c = true)
    (hc : isAsciiHexDigit c = false) :
    redactRuns [] (run ++ c :: rest) = flushRun run ++ c :: redactRuns [] rest := by
  rw [redactRuns_append hrun, List.nil_append, redactRuns, hc]
  rfl

/-- Each maximal run is replaced or kept, and what stands between them stays. -/
theorem redactRuns_weave {first : List Char} {rest : List (Char × List Char)}
    (h : Maximal isAsciiHexDigit first rest) : redactRuns [] (weave first rest)
      = weave (flushRun first) (rest.map fun part => (part.1, flushRun part.2)) := by
  induction rest generalizing first with
  | nil => simpa [weave] using redactRuns_run h.first
  | cons part rest ih =>
      obtain ⟨c, run⟩ := part
      rw [weave_cons, redactRuns_run_cons h.first (h.between _ List.mem_cons_self), ih h.tail,
        List.map_cons, weave_cons]

theorem not_hasDigest_redactRuns (text : List Char) : ¬ HasDigest (redactRuns [] text) := by
  induction text using runs_induction (p := isAsciiHexDigit) with
  | last run hrun =>
      rw [redactRuns_run hrun]
      exact fun h => (length_flushRun run).not_ge h.le_length
  | step run c rest hrun hc ih =>
      rw [redactRuns_run_cons hrun hc, HasDigest, hasRun_append_cons (by decide) hc, not_or]
      exact ⟨fun h => (length_flushRun run).not_ge h.le_length, ih⟩

theorem redactRuns_of_not_hasDigest (h : ¬ HasDigest text) : redactRuns [] text = text := by
  induction text using runs_induction (p := isAsciiHexDigit) with
  | last run hrun =>
      rw [HasDigest, hasRun_of_all hrun] at h
      rw [redactRuns_run hrun, flushRun, if_neg h]
  | step run c rest hrun hc ih =>
      rw [HasDigest, hasRun_append_cons (by decide) hc, not_or, hasRun_of_all hrun] at h
      rw [redactRuns_run_cons hrun hc, flushRun, if_neg h.1, ih h.2]

/-- The passes over two texts no run joins. -/
theorem redactRuns_clean (h : Clean isAsciiHexDigit before after) :
    redactRuns [] (before ++ after) = redactRuns [] before ++ redactRuns [] after := by
  induction before using runs_induction (p := isAsciiHexDigit) with
  | last run hrun =>
      rcases run.eq_nil_or_concat with rfl | ⟨run, d, rfl⟩
      · rfl
      · rcases after with - | ⟨c, rest⟩
        · simp [redactRuns, flushRun]
        · have hc : isAsciiHexDigit c = false := by
            have hd := hrun d (by simp)
            simpa [Clean, hd] using h
          rw [redactRuns_run_cons hrun hc, redactRuns_run hrun]
          congr 1
          have hnil : redactRuns [] ([] ++ c :: rest) = flushRun [] ++ c :: redactRuns [] rest :=
            redactRuns_run_cons (by simp) hc
          exact hnil.symm
  | step run c rest hrun hc ih =>
      rw [List.append_assoc, List.cons_append, redactRuns_run_cons hrun hc,
        redactRuns_run_cons hrun hc, ih ((clean_append_cons hc).mp h), List.append_assoc,
        List.cons_append]

/-! ### What the message shows -/

/-- A text redacted, then without its control characters. -/
def shown (text : List Char) : List Char :=
  (redactRuns [] text).filter fun c => !isControl c

/-- How many characters a message has of a text it is not cut in: ten of a digest, none
of a control character. The first argument is the length of the run it is in. -/
def shownLength : ℕ → List Char → ℕ
  | run, [] => if 32 ≤ run then 10 else run
  | run, c :: rest =>
      if isAsciiHexDigit c then shownLength (run + 1) rest
      else (if 32 ≤ run then 10 else run) + (if isControl c then 0 else 1) + shownLength 0 rest

/-- Hexadecimal digits which control characters part: a stretch of both that neither
cuts nor holds a digest, with 32 digits or more. -/
structure Joins (before stretch after : List Char) : Prop where
  joined : ∀ c ∈ stretch, isAsciiHexDigit c = true ∨ isControl c = true
  starts : Clean isAsciiHexDigit before stretch
  stops : Clean isAsciiHexDigit stretch after
  short : ¬ HasDigest stretch
  digits : 32 ≤ stretch.countP isAsciiHexDigit

/-- The message joins such a stretch when it is not cut before the 32nd digit. -/
def JoinsDigits (text : List Char) : Prop :=
  ∃ before stretch after, text = before ++ stretch ++ after ∧ Joins before stretch after ∧
    shownLength 0 before + 32 ≤ 1000

theorem not_isControl_of_hex (h : isAsciiHexDigit c = true) : isControl c = false := by
  simp only [isAsciiHexDigit, decide_eq_true_eq, Char.le_def, UInt32.le_iff_toNat_le] at h
  simp at h
  simp only [isControl, decide_eq_false_iff_not]
  omega

theorem shown_flushRun (hrun : ∀ c ∈ run, isAsciiHexDigit c = true) :
    (flushRun run).filter (fun c => !isControl c) = flushRun run := by
  unfold flushRun
  split_ifs
  · decide
  · rw [List.filter_eq_self]
    intro c hc
    rw [not_isControl_of_hex (hrun c hc)]
    rfl

theorem shown_run (hrun : ∀ c ∈ run, isAsciiHexDigit c = true) : shown run = flushRun run := by
  rw [shown, redactRuns_run hrun, shown_flushRun hrun]

theorem shown_run_cons (hrun : ∀ c ∈ run, isAsciiHexDigit c = true)
    (hc : isAsciiHexDigit c = false) : shown (run ++ c :: rest)
      = flushRun run ++ ((if isControl c then [] else [c]) ++ shown rest) := by
  rw [shown, redactRuns_run_cons hrun hc, List.filter_append, shown_flushRun hrun,
    List.filter_cons, shown]
  cases isControl c <;> rfl

theorem length_flushRun_eq (run : List Char) :
    (flushRun run).length = if 32 ≤ run.length then 10 else run.length := by
  unfold flushRun
  split_ifs <;> rfl

theorem shownLength_append (hrun : ∀ c ∈ run, isAsciiHexDigit c = true) (n : ℕ) :
    shownLength n (run ++ text) = shownLength (n + run.length) text := by
  induction run generalizing n with
  | nil => rfl
  | cons c run ih =>
      obtain ⟨hc, hrun⟩ := List.forall_mem_cons.mp hrun
      rw [List.cons_append, shownLength, if_pos hc, ih hrun, List.length_cons, Nat.add_assoc,
        Nat.add_comm 1]

theorem length_shown (text : List Char) : (shown text).length = shownLength 0 text := by
  induction text using runs_induction (p := isAsciiHexDigit) with
  | last run hrun =>
      have h : shownLength 0 (run ++ []) = shownLength (0 + run.length) [] :=
        shownLength_append hrun 0
      rw [List.append_nil, Nat.zero_add] at h
      rw [shown_run hrun, length_flushRun_eq, h]
      rfl
  | step run c rest hrun hc ih =>
      rw [shown_run_cons hrun hc, shownLength_append hrun, Nat.zero_add, shownLength, hc,
        List.length_append, List.length_append, length_flushRun_eq, ih]
      cases isControl c <;> simp [Nat.add_assoc]

/-- A joined stretch is shown as its digits. -/
theorem shown_joins (h : Joins before stretch after) : shown (before ++ stretch ++ after)
    = shown before ++ stretch.filter isAsciiHexDigit ++ shown after := by
  have hclean : Clean isAsciiHexDigit (before ++ stretch) after := by
    rcases stretch.eq_nil_or_concat with rfl | ⟨stretch, d, rfl⟩
    · exact absurd h.digits (by simp)
    · have hstops := h.stops
      simp only [Clean, List.getLast?_append] at hstops ⊢
      simpa using hstops
  have hdigits : stretch.filter (fun c => !isControl c) = stretch.filter isAsciiHexDigit := by
    refine List.filter_congr fun c hc => ?_
    rcases hhex : isAsciiHexDigit c with - | -
    · have hcontrol := (h.joined c hc).resolve_left (by simp [hhex])
      rw [hcontrol]
      rfl
    · rw [not_isControl_of_hex hhex]
      rfl
  rw [shown, redactRuns_clean hclean, redactRuns_clean h.starts,
    redactRuns_of_not_hasDigest h.short, List.filter_append, List.filter_append, hdigits]
  rfl

theorem nil_of_digest (hrun : 32 ≤ run.length) (hs : ∀ c ∈ s, isAsciiHexDigit c = true)
    (h : flushRun run ++ text = s ++ post) : s = [] := by
  rcases s with - | ⟨c, s⟩
  · rfl
  · rw [flushRun, if_pos hrun] at h
    have hc := hs c List.mem_cons_self
    rw [← (List.cons.inj h).1] at hc
    exact absurd hc (by decide)

/-- The stretch of a run alone. -/
theorem stretch_run (hrun : ∀ c ∈ run, isAsciiHexDigit c = true) (hshort : ¬ 32 ≤ run.length)
    (hclean : Clean isAsciiHexDigit run after) (hs : s.length ≤ run.length) :
    ∃ stretch rest, run ++ after = stretch ++ rest ∧
      (∀ c ∈ stretch, isAsciiHexDigit c = true ∨ isControl c = true) ∧
      Clean isAsciiHexDigit stretch rest ∧ ¬ HasDigest stretch ∧
      s.length ≤ stretch.countP isAsciiHexDigit :=
  ⟨run, after, rfl, fun c hc => .inl (hrun c hc), hclean,
    by rwa [HasDigest, hasRun_of_all hrun], by rwa [List.countP_eq_length.mpr hrun]⟩

/-- Digits at the start of what is shown are a stretch at the start of the text. -/
theorem stretch_of_prefix (h : shown text = s ++ post) (hs : ∀ c ∈ s, isAsciiHexDigit c = true) :
    ∃ stretch after, text = stretch ++ after ∧
      (∀ c ∈ stretch, isAsciiHexDigit c = true ∨ isControl c = true) ∧
      Clean isAsciiHexDigit stretch after ∧ ¬ HasDigest stretch ∧
      s.length ≤ stretch.countP isAsciiHexDigit := by
  induction text using runs_induction (p := isAsciiHexDigit) generalizing s with
  | last run hrun =>
      rw [shown_run hrun] at h
      by_cases hlong : 32 ≤ run.length
      · obtain rfl := nil_of_digest hlong hs (by rwa [List.append_nil])
        exact ⟨[], run, rfl, by simp, clean_nil_left, fun h => by simpa using h.le_length, by simp⟩
      · rw [flushRun, if_neg hlong] at h
        have hle : s.length ≤ run.length := by rw [h, List.length_append]; omega
        have hstretch := stretch_run hrun hlong clean_nil_right hle
        rwa [List.append_nil] at hstretch
  | step run c rest hrun hc ih =>
      rw [shown_run_cons hrun hc] at h
      by_cases hlong : 32 ≤ run.length
      · obtain rfl := nil_of_digest hlong hs h
        exact ⟨[], run ++ c :: rest, rfl, by simp, clean_nil_left,
          fun h => by simpa using h.le_length, by simp⟩
      rw [flushRun, if_neg hlong] at h
      rcases List.append_eq_append_iff.mp h with ⟨s', rfl, hs'⟩ | ⟨x, hx, -⟩
      · have hall : ∀ c ∈ s', isAsciiHexDigit c = true := fun d hd => hs d (by simp [hd])
        cases hcontrol : isControl c
        · -- a character that is shown ends the digits
          obtain rfl : s' = [] := by
            rcases s' with - | ⟨d, s'⟩
            · rfl
            · rw [hcontrol] at hs'
              obtain ⟨rfl, -⟩ := List.cons.inj hs'
              simp [hc] at hall
          exact stretch_run hrun hlong (clean_cons_right hc) (by simp)
        · rw [hcontrol] at hs'
          obtain ⟨stretch, after, rfl, hjoined, hclean, hshort, hdigits⟩ := ih hs' hall
          refine ⟨run ++ c :: stretch, after, by simp, ?_, (clean_append_cons hc).mpr hclean, ?_, ?_⟩
          · intro d hd
            rcases List.mem_append.mp hd with hd | hd
            · exact .inl (hrun d hd)
            · exact (List.mem_cons.mp hd).elim (fun h => .inr (h ▸ hcontrol)) (hjoined d)
          · rw [HasDigest, hasRun_append_cons (by decide) hc, hasRun_of_all hrun, not_or]
            exact ⟨hlong, hshort⟩
          · rw [List.length_append, List.countP_append, List.countP_eq_length.mpr hrun,
              List.countP_cons_of_neg (by simp [hc])]
            omega
      · have hle : s.length ≤ run.length := by rw [hx, List.length_append]; omega
        exact stretch_run hrun hlong (clean_cons_right hc) hle

/-- No digits go past a character that is shown and no digit. -/
theorem length_le_of_shown {head tail : List Char} (hs : ∀ c ∈ s, isAsciiHexDigit c = true)
    (hc : isAsciiHexDigit c = false) (h : s ++ post = head ++ c :: tail) :
    s.length ≤ head.length := by
  rcases List.append_eq_append_iff.mp h with ⟨x, rfl, -⟩ | ⟨x, rfl, hx⟩
  · rw [List.length_append]
    omega
  · rcases x with - | ⟨d, x⟩
    · simp
    · obtain ⟨rfl, -⟩ := List.cons.inj hx
      have hmem : c ∈ head ++ c :: x := by simp
      simp [hs c hmem] at hc

/-- Digits anywhere in what is shown come from a joined stretch. -/
theorem joins_of_shown {head : List Char} (h : shown text = head ++ (s ++ post))
    (hs : ∀ c ∈ s, isAsciiHexDigit c = true) (hlength : 32 ≤ s.length) :
    ∃ before stretch after, text = before ++ stretch ++ after ∧ Joins before stretch after ∧
      shownLength 0 before ≤ head.length := by
  induction text using runs_induction (p := isAsciiHexDigit) generalizing head with
  | last run hrun =>
      have hle := congrArg List.length h
      rw [shown_run hrun, List.length_append, List.length_append] at hle
      have hlt := length_flushRun run
      omega
  | step run c rest hrun hc ih =>
      rw [shown_run_cons hrun hc, ← List.append_assoc] at h
      have hlt := length_flushRun run
      -- the digits begin after this run and its character
      have hafter : ∀ head', head = flushRun run ++ (if isControl c then [] else [c]) ++ head' →
          shown rest = head' ++ (s ++ post) → ∃ before stretch after,
            run ++ c :: rest = before ++ stretch ++ after ∧ Joins before stretch after ∧
            shownLength 0 before ≤ head.length := by
        rintro head' rfl hrest
        obtain ⟨before, stretch, after, rfl, hjoins, hle⟩ := ih hrest
        refine ⟨run ++ c :: before, stretch, after, by simp,
          { hjoins with starts := (clean_append_cons hc).mpr hjoins.starts }, ?_⟩
        rw [← length_shown, shown_run_cons hrun hc, List.length_append, List.length_append,
          length_shown, List.length_append, List.length_append]
        omega
      rcases List.append_eq_append_iff.mp h with ⟨head', hhead, hrest⟩ | ⟨x, hx, hrest⟩
      · exact hafter head' hhead hrest
      rcases x.eq_nil_or_concat' with rfl | ⟨x, d, rfl⟩
      · exact hafter [] (by rw [hx]; simp) (by rw [hrest]; rfl)
      rw [List.append_assoc, List.singleton_append] at hrest
      rw [← List.append_assoc] at hx
      -- a digest and a character that is shown end the digits too early
      have hends : isAsciiHexDigit d = false → False := by
        intro hd
        have hle := length_le_of_shown hs hd hrest
        have hsum := congrArg List.length hx
        rw [List.length_append, List.length_append, List.length_append] at hsum
        cases hcontrol : isControl c <;> simp [hcontrol] at hsum <;> omega
      cases hcontrol : isControl c
      · rw [hcontrol] at hx
        obtain rfl : c = d := by simpa using congrArg List.getLast? hx
        exact absurd hc fun h => hends h
      · rw [hcontrol, if_pos rfl, List.append_nil] at hx
        by_cases hlong : 32 ≤ run.length
        · rw [flushRun, if_pos hlong] at hx
          obtain rfl : ']' = d := by simpa using congrArg List.getLast? hx
          exact absurd (by decide) hends
        · rw [flushRun, if_neg hlong] at hx
          have hcut : x.length + 1 < s.length := by
            have hsum := congrArg List.length hx
            simp only [List.length_append, List.length_singleton] at hsum
            omega
          rw [← List.singleton_append, ← List.append_assoc] at hrest
          rcases List.append_eq_append_iff.mp hrest with ⟨y, hy, -⟩ | ⟨s', rfl, hs'⟩
          · have hsum := congrArg List.length hy
            simp only [List.length_append, List.length_singleton] at hsum
            omega
          · obtain ⟨stretch, after, rfl, hjoined, hclean, hshort, hdigits⟩ :=
              stretch_of_prefix hs' fun c hc => hs c (List.mem_append_right _ hc)
            refine ⟨[], run ++ c :: stretch, after, by simp, ?_, Nat.zero_le _⟩
            refine { joined := ?_, starts := clean_nil_left,
                     stops := (clean_append_cons hc).mpr hclean, short := ?_, digits := ?_ }
            · intro d hd
              rcases List.mem_append.mp hd with hd | hd
              · exact .inl (hrun d hd)
              · exact (List.mem_cons.mp hd).elim (fun h => .inr (h ▸ hcontrol)) (hjoined d)
            · rw [HasDigest, hasRun_append_cons (by decide) hc, hasRun_of_all hrun, not_or]
              exact ⟨hlong, hshort⟩
            · have hsum := congrArg List.length hx
              simp only [List.length_append, List.length_singleton] at hsum hlength
              rw [List.countP_append, List.countP_eq_length.mpr hrun,
                List.countP_cons_of_neg (by simp [hc])]
              omega

theorem hasDigest_cut_iff : HasDigest ((shown text).take 1000) ↔ JoinsDigits text := by
  constructor
  · rintro ⟨run, ⟨head, tail, hcut⟩, hlength, hrun⟩
    have hshown : shown text = head ++ (run ++ (tail ++ (shown text).drop 1000)) := by
      rw [← List.append_assoc, ← List.append_assoc, hcut, List.take_append_drop]
    obtain ⟨before, stretch, after, htext, hjoins, hle⟩ := joins_of_shown hshown hrun hlength
    have hsum := congrArg List.length hcut
    rw [List.length_append, List.length_append, List.length_take] at hsum
    exact ⟨before, stretch, after, htext, hjoins, by omega⟩
  · rintro ⟨before, stretch, after, rfl, hjoins, hearly⟩
    have hdigits := hjoins.digits
    rw [List.countP_eq_length_filter] at hdigits
    have htake : ((stretch.filter isAsciiHexDigit).take 32).length = 32 := by
      rw [List.length_take]
      omega
    refine ⟨(stretch.filter isAsciiHexDigit).take 32, ?_, htake.ge, fun c hc =>
      (List.mem_filter.mp ((List.take_subset _ _) hc)).2⟩
    have hstart : shown before ++ (stretch.filter isAsciiHexDigit).take 32
        <+: (shown (before ++ stretch ++ after)).take 1000 := by
      rw [List.prefix_take_iff, shown_joins hjoins, List.append_assoc]
      refine ⟨(List.prefix_append_right_inj _).mpr ?_, ?_⟩
      · exact (List.take_prefix _ _).trans (List.prefix_append _ _)
      · rw [List.length_append, htake, length_shown]
        exact hearly
    exact (List.suffix_append _ _).isInfix.trans hstart.isInfix

/-- Without control characters nothing is joined. -/
theorem not_joinsDigits (h : ∀ c ∈ text, isControl c = false) : ¬ JoinsDigits text := by
  rintro ⟨before, stretch, after, rfl, hjoins, -⟩
  have hhex : ∀ c ∈ stretch, isAsciiHexDigit c = true := fun c hc =>
    (hjoins.joined c hc).resolve_right (by simp [h c (by simp [hc])])
  apply hjoins.short
  rw [HasDigest, hasRun_of_all hhex, ← List.countP_eq_length.mpr hhex]
  exact hjoins.digits

theorem hasDigest_message_iff {operation : String} {error : SqlxError} :
    HasDigest (redactedMessage operation error).toList ↔
      HasDigest operation.toList ∨ JoinsDigits error.text.toList := by
  have hlist : (redactedMessage operation error).toList
      = operation.toList ++ ':' :: ([] ++ ' ' :: (shown error.text.toList).take 1000) := by
    simp [redactedMessage, sanitizeDatabaseMessage, redactDigestRuns, shown]
  have hnil : ¬ HasDigest [] := fun h => by simpa using h.le_length
  rw [hlist, HasDigest, hasRun_append_cons (by decide) (by decide),
    hasRun_append_cons (by decide) (by decide), ← HasDigest, ← HasDigest, ← HasDigest,
    hasDigest_cut_iff]
  simp [hnil]

/-- **Redaction**: the message of a credential adapter holds a run of 32 hexadecimal
digits exactly when the driver's text has digits for it to join.
`redact_digest_runs` replaces the maximal runs of 32 digits or more and nothing else. -/
theorem no_digest_leaves (error : SqlxError) :
    (∀ operation ∈ ["credential insert", "credential lookup"], ∀ code message,
      redactedDatabaseError operation error = .database code message →
        (¬ HasDigest message.toList ↔ ¬ JoinsDigits error.text.toList)) ∧
    (∃ first rest, Maximal isAsciiHexDigit first rest ∧
      error.text.toList = weave first rest) ∧
    (∀ first rest, Maximal isAsciiHexDigit first rest →
      redactDigestRuns (String.ofList (weave first rest)) = String.ofList
        (weave (flushRun first) (rest.map fun part => (part.1, flushRun part.2)))) ∧
    (∀ text : String, ¬ HasDigest text.toList → redactDigestRuns text = text) ∧
    ∀ text, redactDigestRuns (redactDigestRuns text) = redactDigestRuns text := by
  have hplain : ∀ text : String, ¬ HasDigest text.toList → redactDigestRuns text = text := by
    intro text h
    rw [redactDigestRuns, redactRuns_of_not_hasDigest h, String.ofList_toList]
  refine ⟨fun operation hoperation code message h => not_congr ?_,
    exists_maximal isAsciiHexDigit error.text.toList, fun first rest h => ?_, hplain,
    fun text => hplain _ ?_⟩
  · cases h
    rw [hasDigest_message_iff]
    refine or_iff_right fun h => absurd h.le_length ?_
    simp only [List.mem_cons, List.not_mem_nil, or_false] at hoperation
    rcases hoperation with rfl | rfl
    · decide
    · decide
  · rw [redactDigestRuns, String.toList_ofList, redactRuns_weave h]
  · rw [redactDigestRuns, String.toList_ofList]
    exact not_hasDigest_redactRuns _

/-- A digest on its own, in a message and as a run. -/
theorem no_digest_leaves_row :
    ¬ HasDigest (redactedMessage "credential insert"
      ⟨"row deadbeefdeadbeefdeadbeefdeadbeef rejected", none⟩).toList ∧
    redactDigestRuns (String.ofList (weave "deadbeefdeadbeefdeadbeefdeadbeef".toList [('!', [])]))
      = "[REDACTED]!" ∧
    redactDigestRuns "deadbeef" = "deadbeef" := by
  obtain ⟨hmessage, -, hruns, hplain, -⟩ :=
    no_digest_leaves ⟨"row deadbeefdeadbeefdeadbeefdeadbeef rejected", none⟩
  refine ⟨?_, ?_, hplain _ fun h => absurd h.le_length (by decide +kernel)⟩
  · exact (hmessage _ List.mem_cons_self _ _ rfl).mpr
      (not_joinsDigits (List.forall_mem_iff_forall_getElem.mpr (by decide +kernel)))
  · rw [hruns _ _ ⟨List.all_eq_true.mp (by decide +kernel), by decide, by simp⟩]
    decide +kernel

/-- Two halves of a digest on two lines of a driver's text. -/
def splitDigest : SqlxError where
  text := "encountered unexpected or invalid data: deadbeefdeadbeef\ndeadbeefdeadbeef"
  sqlState := none

theorem digest_leaves : ¬ ∀ operation ∈ ["credential insert", "credential lookup"],
    ∀ error code message, redactedDatabaseError operation error = .database code message →
      ¬ HasDigest message.toList := by
  intro h
  refine h "credential insert" (by simp) splitDigest _ _ rfl
    ⟨"deadbeefdeadbeefdeadbeefdeadbeef".toList, ?_, by decide +kernel,
      List.all_eq_true.mp (by decide +kernel)⟩
  decide +kernel

end Authentication

end AircraftApi
