/-
AircraftApi/PinRepair.lean

What a repair of the allowlist does to a manifest.

The repair looks for texts where TOML has a list (`Cut`): for one spelling of its opening,
wherever that stands first, and for a bracket that begins a line; every line between is read
as a pin in double quotes.  It converges and loses nothing exactly where the pins read so are
those of the list, up to the ones it drops or adds anyway, and, if there is something to add,
the lines read are lines of the list (`converges_iff`).  For a list in the tool's own
spelling that leaves two conditions (`repairable_of_plain`): no line before it holds the
opening text, and its bracket is not indented.
-/
import AircraftApi.DenyManifest

namespace AircraftApi.DenyPins

open Text

/-! ### The law -/

/-- The crates that ship a build script, each a `name@version` the lockfile resolves. -/
structure Crates (lockfile : List Char) where
  offenders : List Offender
  names : ∀ crate ∈ offenders, '@' ∉ crate.name
  quotable : ∀ crate ∈ offenders, Quotable crate.pin
  resolved : ∀ crate ∈ offenders, Resolves lockfile crate.pin

section

variable {lockfile : List Char} (crates : Crates lockfile) (m m' : Allowlist)

/-- `cargo deny`: those of the crates that the manifest does not pin. -/
def deny : List Offender := crates.offenders.filter fun crate => crate.pin ∉ m.pins

/-- The pin shares its name with one of the offenders. -/
def SharesName (offenders : List Offender) (pin : List Char) : Prop :=
  ∃ offender ∈ offenders, ∃ version, pin = offender.name ++ '@' :: version

/-- The pin of a crate an offender supersedes. -/
def Dropped (pin : List Char) : Prop := SharesName (deny crates m) pin ∧ ¬ Resolves lockfile pin

/-- The pin of an offender. -/
def Added (pin : List Char) : Prop := ∃ offender ∈ deny crates m, offender.pin = pin

/-- The manifest `m'` is the repaired `m`. -/
structure Repaired : Prop where
  text : fixed m.text lockfile (deny crates m) = m'.text
  pins : ∀ pin, pin ∈ m'.pins ↔ (pin ∈ m.pins ∧ ¬ Dropped crates m pin) ∨ Added crates m pin
  parsed : parsePins m'.text = .ok m'.pins
  before : m'.before = m.before
  behind : m'.closing = m.closing ∧ m'.after = m.after
  clean : deny crates m' = []
  again : fixed m'.text lockfile (deny crates m') = m'.text

/-- One repair converges, and loses nothing. -/
def Converges : Prop := ∃ m', Repaired crates m m'

/-! ### Where it holds -/

/-- The opening text stands in no line before the list and in one of the list, above which no
pin is to be dropped, and the line that closes the list begins with the bracket. -/
structure Found : Prop where
  before : ∀ line ∈ m.before, ¬ listOpening <:+: line
  within : ∃ line ∈ m.list, listOpening <:+: line
  above : ∀ pin ∈ pinsOf (upTo m.list), ¬ Dropped crates m pin
  flush : m.closing.head? = some listClosing

/-- Each of the rows is read as a pin of the list, or as one to be dropped or added, and each
pin of the list that is not to be dropped is read from a row. -/
structure Agrees (rows : List (List Char)) : Prop where
  nothing_else : ∀ row ∈ rows, ∀ pin ∈ readRow row,
    pin ∈ m.pins ∨ Dropped crates m pin ∨ Added crates m pin
  nothing_missing : ∀ pin ∈ m.pins, Dropped crates m pin ∨ ∃ row ∈ rows, readRow row = some pin

/-- The lines from the first opening text to the first bracket that begins a line are read as
the pins of the list, and are in the list if something is to be added. -/
def Repairable : Prop :=
  (∃ cut : Cut m.lines, Agrees crates m (cut.y :: cut.mid)) ∧
    (deny crates m = [] ∨ Found crates m)

end

/-! ### The new pins -/

/-- A name has no sign in it, so that the pins of the crate are those split there. -/
theorem sharesName_iff {offenders : List Offender} (h : ∀ crate ∈ offenders, '@' ∉ crate.name)
    (pin : List Char) : SharesName offenders pin ↔
      ∃ parts ∈ splitOnce '@' pin, parts.1 ∈ (offenders.map Offender.name).toFinset := by
  constructor
  · rintro ⟨offender, hmem, version, rfl⟩
    exact ⟨(offender.name, version), splitOnce_eq_some_iff.mpr ⟨rfl, h offender hmem⟩,
      List.mem_toFinset.mpr (List.mem_map_of_mem hmem)⟩
  · rintro ⟨⟨name, version⟩, hsplit, hname⟩
    obtain ⟨offender, hmem, rfl⟩ := List.mem_map.mp (List.mem_toFinset.mp hname)
    exact ⟨offender, hmem, version, (splitOnce_eq_some_iff.mp hsplit).1⟩

section

variable {lockfile : List Char} (crates : Crates lockfile) (m : Allowlist)
  (read : Finset (List Char)) {pin : List Char}

/-- The pins that are written where these are read. -/
def updated : Finset (List Char) :=
  apply read (deny crates m) (displaced read (deny crates m) (resolvedVersions lockfile))

theorem mem_updated :
    pin ∈ updated crates m read ↔ (pin ∈ read ∧ ¬ Dropped crates m pin) ∨ Added crates m pin := by
  have hnames : ∀ crate ∈ deny crates m, '@' ∉ crate.name :=
    fun crate hcrate => crates.names crate (List.mem_of_mem_filter hcrate)
  rw [updated, apply, Finset.mem_union, Finset.mem_filter, List.mem_toFinset, List.mem_map,
    displaced, Finset.mem_filter, Dropped, sharesName_iff hnames, mem_resolvedVersions]
  refine or_congr (and_congr_right fun hpinned => ?_) Iff.rfl
  rw [and_iff_right hpinned]

/-- An offender is resolved, so that it is not dropped. -/
theorem Added.not_dropped (h : Added crates m pin) : ¬ Dropped crates m pin := by
  obtain ⟨offender, hmem, rfl⟩ := h
  exact fun hdropped => hdropped.2 (crates.resolved offender (List.mem_of_mem_filter hmem))

theorem Added.not_pinned (h : Added crates m pin) : pin ∉ m.pins := by
  obtain ⟨offender, hmem, rfl⟩ := h
  exact of_decide_eq_true (List.mem_filter.mp hmem).2

/-- What is written is what is wanted where the rows agree with the list. -/
theorem agrees_iff (cut : Cut m.lines) : Agrees crates m (cut.y :: cut.mid) ↔
    ∀ pin, pin ∈ updated crates m cut.read ↔
      (pin ∈ m.pins ∧ ¬ Dropped crates m pin) ∨ Added crates m pin := by
  constructor
  · intro h pin
    rw [mem_updated]
    constructor
    · rintro (⟨hpin, hkept⟩ | hadded)
      · obtain ⟨row, hrow, hread⟩ := cut.mem_read.mp hpin
        -- what the cut reads is a pin, about to be dropped, or about to be added
        rcases h.nothing_else row hrow pin hread with hold | hgone | hadded
        · exact .inl ⟨hold, hkept⟩
        · exact absurd hgone hkept
        · exact .inr hadded
      · exact .inr hadded
    · rintro (⟨hold, hkept⟩ | hadded)
      · exact .inl ⟨cut.mem_read.mpr ((h.nothing_missing pin hold).resolve_left hkept), hkept⟩
      · exact .inr hadded
  · intro h
    refine ⟨fun row hrow pin hread => ?_, fun pin hold => ?_⟩
    · -- a pin dropped anyway may be read or not
      by_cases hgone : Dropped crates m pin
      · exact .inr (.inl hgone)
      · have hpin : pin ∈ cut.read := cut.mem_read.mpr ⟨row, hrow, hread⟩
        rcases (h pin).mp ((mem_updated crates m cut.read).mpr (.inl ⟨hpin, hgone⟩)) with
          ⟨hold, -⟩ | hadded
        · exact .inl hold
        · exact .inr (.inr hadded)
    · by_cases hgone : Dropped crates m pin
      · exact .inl hgone
      · rcases (mem_updated crates m cut.read).mp ((h pin).mpr (.inl ⟨hold, hgone⟩)) with
          ⟨hpin, -⟩ | hadded
        · exact .inr (cut.mem_read.mp hpin)
        · exact absurd hold (hadded.not_pinned crates m)

theorem added_nil (h : deny crates m = []) : ¬ Added crates m pin ∧ ¬ Dropped crates m pin := by
  refine ⟨?_, ?_⟩
  · rintro ⟨offender, hmem, -⟩
    rw [h] at hmem
    cases hmem
  · rintro ⟨⟨offender, hmem, -⟩, -⟩
    rw [h] at hmem
    cases hmem

/-- The pins of a list are quotable. -/
theorem quotable_pins : ∀ pin ∈ m.pins, Quotable pin := by
  have hrow : ∀ row : Row, row.Valid → ∀ pin ∈ pinOf row.text, Quotable pin := by
    intro row hvalid pin hpin
    rw [Row.pinOf_text hvalid] at hpin
    obtain ⟨entry, hentry, rfl⟩ := Option.map_eq_some_iff.mp hpin
    exact (hvalid.entry entry hentry).pin
  intro pin hpin
  obtain ⟨opening, rows, hlist⟩ := List.exists_cons_of_ne_nil m.list_lines.ne_nil
  have hlines := m.list_lines
  rw [hlist] at hlines
  rw [Allowlist.pins, List.mem_toFinset, hlist] at hpin
  obtain ⟨line, hline, hread⟩ := List.mem_filterMap.mp hpin
  rcases List.mem_cons.mp hline with rfl | hline
  · obtain ⟨o, row, ho, hvalid, rfl⟩ := hlines.1
    rw [Opening.behindBracket_text ho] at hread
    exact hrow row hvalid pin hread
  · obtain ⟨row, hvalid, rfl⟩ := hlines.2 line hline
    exact hrow row hvalid pin hread

end

/-! ### The run -/

section

variable {lockfile : List Char} {crates : Crates lockfile} {m m' : Allowlist}

/-- Nothing is to be repaired: nothing is written. -/
theorem fixed_nil (manifest : List Char) : fixed manifest lockfile [] = manifest := by
  rw [fixed, check]
  rcases parsePins manifest with refusal | pins
  · rfl
  · rfl

/-- The text is refused: nothing is written. -/
theorem fixed_of_refused {manifest : List Char} {refusal : Refusal} {offenders : List Offender}
    (h : split manifest = .error refusal) : fixed manifest lockfile offenders = manifest := by
  have hparse : parsePins manifest = .error refusal := by
    rw [parsePins, h]
    rfl
  rw [fixed, check, hparse]
  rfl

theorem nonempty_apply {pinned gone : Finset (List Char)} {offenders : List Offender}
    (h : offenders ≠ []) : (apply pinned offenders gone).Nonempty := by
  obtain ⟨offender, rest, rfl⟩ := List.exists_cons_of_ne_nil h
  exact ⟨offender.pin, by simp [apply]⟩

/-- The lines are cut: the rows between are written anew. -/
theorem fixed_of_cut (cut : Cut m.lines) (h : deny crates m ≠ []) :
    fixed m.text lockfile (deny crates m) =
      ['\n'].intercalate (cut.written (updated crates m cut.read)) := by
  have hrewrite : rewrite m.text (updated crates m cut.read) =
      .ok (['\n'].intercalate (cut.written (updated crates m cut.read))) :=
    cut.rewrite_eq (nonempty_apply h)
  have hparse : parsePins m.text = .ok cut.read := cut.parsePins_eq
  rw [updated] at hrewrite
  rw [fixed, check, hparse]
  simp only [bind, Except.bind, if_neg h, if_true, hrewrite]
  rfl

/-- What is written is read as it was written. -/
theorem strip_updated (cut : Cut m.lines) :
    ∀ pin ∈ updated crates m cut.read, strip (· = '"') pin = pin := by
  intro pin hpin
  rcases (mem_updated crates m cut.read).mp hpin with ⟨hread, -⟩ | ⟨offender, hmem, rfl⟩
  · exact cut.strip_read hread
  · apply strip_of_not_mem
    exact (crates.quotable offender (List.mem_of_mem_filter hmem)).bare .basic

theorem newline_updated (cut : Cut m.lines) : ∀ pin ∈ updated crates m cut.read, '\n' ∉ pin := by
  intro pin hpin
  rcases (mem_updated crates m cut.read).mp hpin with ⟨hread, -⟩ | ⟨offender, hmem, rfl⟩
  · exact cut.newline_read hread
  · exact (crates.quotable offender (List.mem_of_mem_filter hmem)).newline

theorem parsePins_written (cut : Cut m.lines) :
    parsePins (['\n'].intercalate (cut.written (updated crates m cut.read))) =
      .ok (updated crates m cut.read) := by
  rw [(cut.again (newline_updated cut)).parsePins_eq, cut.read_again (newline_updated cut)
    (strip_updated cut)]

/-! ### Enough -/

/-- The row of a pin is a row, and pins it. -/
theorem isRow_entryLine {pin : List Char} (h : Quotable pin) :
    IsRow (entryLine pin) ∧ pinOf (entryLine pin) = some pin := by
  let row : Row := ⟨entryIndent, some ⟨.basic, pin, [], true, []⟩, none⟩
  have hmargin : Margin entryIndent := by
    refine fun c hc => ⟨white_entryIndent c hc, ?_⟩
    rintro rfl
    exact absurd hc (by decide)
  have hvalid : row.Valid := by
    refine ⟨hmargin, ?_, nofun⟩
    rintro entry ⟨⟩
    exact ⟨h, nofun, nofun⟩
  have htext : row.text = entryLine pin := by
    simp [row, Row.text, Row.code, Entry.text, Quote.char, entryLine]
  rw [← htext]
  exact ⟨⟨row, hvalid, rfl⟩, Row.pinOf_text hvalid⟩

section

variable {pins : Finset (List Char)} (hquotable : ∀ pin ∈ pins, Quotable pin)

include hquotable in
theorem isRow_rows : ∀ line ∈ (sorted pins).map entryLine, IsRow line := by
  intro line hline
  obtain ⟨pin, hpin, rfl⟩ := List.mem_map.mp hline
  exact (isRow_entryLine (hquotable pin (mem_sorted.mp hpin))).1

include hquotable in
/-- A list that is written anew pins what stands above the opening text, and what was
written. -/
theorem mem_pinsOf_written {list upper lower : List (List Char)} {line x y pin : List Char}
    (hlist : list = upper ++ line :: lower) (hsplit : splitOnceAt listOpening line = some (x, y))
    (hupper : ∀ line ∈ upper, ¬ listOpening <:+: line) :
    pin ∈ pinsOf (upper ++ (x ++ listOpening) :: (sorted pins).map entryLine) ↔
      pin ∈ pinsOf (upTo list) ∨ pin ∈ pins := by
  have hrows : ((sorted pins).map entryLine).filterMap pinOf = sorted pins := by
    rw [List.filterMap_map]
    refine (List.filterMap_congr fun pin hpin => ?_).trans List.filterMap_some
    exact (isRow_entryLine (hquotable pin (mem_sorted.mp hpin))).2
  have hassoc : upper ++ (x ++ listOpening) :: (sorted pins).map entryLine =
      (upper ++ [x ++ listOpening]) ++ (sorted pins).map entryLine := by simp
  rw [hassoc, pinsOf_append (by simp), hrows, List.mem_append, mem_sorted, hlist,
    upTo_eq hupper hsplit]

end

/-- The manifest with other lines for its list. -/
def Allowlist.relisted (m : Allowlist) {list : List (List Char)} (h : IsList list) : Allowlist :=
  { m with list := list, list_lines := h }

/-- The lines of the list that is found, cut at the opening text. -/
theorem Found.exists_cut (h : Found crates m) : ∃ cut : Cut m.lines, ∃ upper line lower,
    m.list = upper ++ line :: lower ∧ splitOnceAt listOpening line = some (cut.x, cut.y) ∧
      (∀ line ∈ upper, ¬ listOpening <:+: line) ∧ cut.above = m.before ++ upper ∧
      cut.mid = lower ∧ listClosing :: cut.r = m.closing ∧ cut.post = m.after := by
  obtain ⟨upper, line, lower, hlist, hline, hupper⟩ := Runs.exists_first h.within
  obtain ⟨x, y, hsplit⟩ := exists_splitOnceAt hline
  obtain ⟨r, hr⟩ := List.head?_eq_some_iff.mp h.flush
  have heq := eq_of_splitOnceAt hsplit
  refine ⟨⟨m.before ++ upper, x, y, lower, r, m.after, ?_, ?_, heq ▸ hsplit, ?_,
    m.newline_lines⟩, upper, line, lower, hlist, hsplit, hupper, rfl, rfl, hr.symm, rfl⟩
  · rw [Allowlist.lines, hlist, hr, heq]
    simp
  · intro other hother
    rcases List.mem_append.mp hother with hother | hother
    · exact h.before other hother
    · exact hupper other hother
  · intro other hother hhead
    exact m.list_lines.not_closes other (by simp [hlist, hother]) (closes_of_head hhead).1

/-- No crate is missing: what was pinned and is resolved stays, the rest is added. -/
theorem deny_eq_nil (hpins : ∀ pin, pin ∈ m'.pins ↔
    (pin ∈ m.pins ∧ ¬ Dropped crates m pin) ∨ Added crates m pin) : deny crates m' = [] := by
  rw [deny, List.filter_eq_nil_iff]
  intro crate hcrate
  rw [decide_eq_true_eq, not_not, hpins]
  by_cases hpinned : crate.pin ∈ m.pins
  · exact .inl ⟨hpinned, fun hgone => hgone.2 (crates.resolved crate hcrate)⟩
  · exact .inr ⟨crate, List.mem_filter.mpr ⟨hcrate, decide_eq_true hpinned⟩, rfl⟩

/-- The list is found, and read as it is: the repair writes the wanted pins into it. -/
theorem converges_of_found (hdeny : deny crates m ≠ []) (hfound : Found crates m)
    (hread : ∃ cut : Cut m.lines, Agrees crates m (cut.y :: cut.mid)) : Converges crates m := by
  obtain ⟨cut, upper, line, lower, hlist, hsplit, hupper, habove, hmid, hclosing, hafter⟩ :=
    hfound.exists_cut
  have hagrees : ∀ pin, pin ∈ updated crates m cut.read ↔
      (pin ∈ m.pins ∧ ¬ Dropped crates m pin) ∨ Added crates m pin := by
    obtain ⟨other, hother⟩ := hread
    rw [cut.read_unique other]
    exact (agrees_iff crates m other).mp hother
  have hquotable : ∀ pin ∈ updated crates m cut.read, Quotable pin := by
    intro pin hpin
    rcases (hagrees pin).mp hpin with ⟨hold, -⟩ | ⟨offender, hmem, rfl⟩
    · exact quotable_pins m pin hold
    · exact crates.quotable offender (List.mem_of_mem_filter hmem)
  have hlines := m.list_lines
  rw [hlist] at hlines
  have hlist' : IsList (upper ++ (cut.x ++ listOpening) ::
      (sorted (updated crates m cut.read)).map entryLine) :=
    hlines.cut hsplit (isRow_rows hquotable)
  have htext : fixed m.text lockfile (deny crates m) = (m.relisted hlist').text := by
    have hwritten : cut.written (updated crates m cut.read) = (m.relisted hlist').lines := by
      rw [Cut.written, habove, hclosing, hafter]
      simp [Allowlist.lines, Allowlist.relisted]
    rw [fixed_of_cut cut hdeny, hwritten]
    rfl
  -- what the rows pin is what is wanted, and so is what stands above them
  have hpins : ∀ pin, pin ∈ (m.relisted hlist').pins ↔
      (pin ∈ m.pins ∧ ¬ Dropped crates m pin) ∨ Added crates m pin := by
    intro pin
    rw [Allowlist.pins, List.mem_toFinset, ← hagrees pin]
    refine (mem_pinsOf_written hquotable hlist hsplit hupper).trans (or_iff_right_of_imp ?_)
    intro hpin
    have hold : pin ∈ pinsOf m.list := by
      rw [hlist] at hpin ⊢
      rw [upTo_eq hupper hsplit] at hpin
      exact hlines.pinsOf_cut hsplit hpin
    exact (hagrees pin).mpr (.inl ⟨List.mem_toFinset.mpr hold, hfound.above pin hpin⟩)
  have hsame : (m.relisted hlist').pins = updated crates m cut.read := by
    ext pin
    rw [hpins, hagrees]
  have hclean := deny_eq_nil hpins
  exact ⟨m.relisted hlist', {
    text := htext
    pins := hpins
    parsed := by rw [← htext, fixed_of_cut cut hdeny, parsePins_written, hsame]
    before := rfl
    behind := ⟨rfl, rfl⟩
    clean := hclean
    again := by rw [hclean, fixed_nil] }⟩

/-- Nothing is to be repaired, and the list is read as it is. -/
theorem converges_of_clean (hdeny : deny crates m = []) (cut : Cut m.lines)
    (hagrees : Agrees crates m (cut.y :: cut.mid)) : Converges crates m := by
  have hread : cut.read = m.pins := by
    rw [agrees_iff] at hagrees
    ext pin
    have hpin := hagrees pin
    rw [mem_updated] at hpin
    obtain ⟨hadded, hdropped⟩ : ¬ Added crates m pin ∧ ¬ Dropped crates m pin :=
      added_nil crates m hdeny
    simpa [hadded, hdropped] using hpin
  refine ⟨m, ?_⟩
  exact {
    text := by rw [hdeny, fixed_nil]
    pins := fun pin => by simp [added_nil crates m hdeny]
    parsed := by rw [Allowlist.text, cut.parsePins_eq, hread]
    before := rfl
    behind := ⟨rfl, rfl⟩
    clean := hdeny
    again := by rw [hdeny, fixed_nil] }

/-! ### And no less -/

/-- A repair with something to add does not leave the manifest as it is. -/
theorem Repaired.text_ne (h : Repaired crates m m') (hdeny : deny crates m ≠ []) :
    m'.text ≠ m.text := by
  intro htext
  obtain ⟨offender, hmem⟩ := List.exists_mem_of_ne_nil _ hdeny
  have hnew : offender.pin ∈ m'.pins := (h.pins _).mpr (.inr ⟨offender, hmem, rfl⟩)
  rw [Allowlist.pins, Allowlist.list_eq_of_text_eq htext h.before] at hnew
  exact of_decide_eq_true (List.mem_filter.mp hmem).2 hnew

/-- A repair with something to add cuts the text, and writes what it read. -/
theorem Repaired.exists_cut (h : Repaired crates m m') (hdeny : deny crates m ≠ []) :
    ∃ cut : Cut m.lines, m'.pins = updated crates m cut.read ∧
      m'.lines = cut.written (updated crates m cut.read) := by
  rcases cut_or_refused m.lines_ne_nil m.newline_lines with ⟨⟨cut⟩⟩ | ⟨refusal, hrefused⟩
  · have htext := h.text.symm.trans (fixed_of_cut cut hdeny)
    refine ⟨cut, ?_, ?_⟩
    · have hparsed := h.parsed
      rw [htext, parsePins_written] at hparsed
      exact (Except.ok.inj hparsed).symm
    · exact lines_unique htext m'.lines_ne_nil cut.written_ne_nil m'.newline_lines
        (cut.newline_written (newline_updated cut))
  · exact absurd (h.text.symm.trans (fixed_of_refused hrefused)) (h.text_ne hdeny)

section

/-- What is cut are the lines of the manifest. -/
theorem lines_cut (cut : Cut m.lines) : m.before ++ (m.list ++ m.closing :: m.after) =
    cut.above ++ (cut.x ++ (listOpening ++ cut.y)) ::
      (cut.mid ++ (listClosing :: cut.r) :: cut.post) := cut.lines

variable (cut : Cut m.lines) {pins : Finset (List Char)} (hquotable : ∀ pin ∈ pins, Quotable pin)

include hquotable in
/-- Written rows open no list, as they hold no bracket, and close none. -/
theorem plain_rows : ∀ line ∈ (sorted pins).map entryLine, ¬ Opens line ∧ ¬ Closes line := by
  intro line hline
  obtain ⟨row, hrow, hcloses⟩ := isRow_rows hquotable line hline
  refine ⟨fun hopens => ?_, hcloses ▸ Row.not_closes hrow⟩
  obtain ⟨pin, hpin, rfl⟩ := List.mem_map.mp hline
  have hbracket := hopens.bracket
  have hindent : '[' ∉ entryIndent := by decide
  have hpinned : '[' ∉ pin := fun hmem =>
    ((hquotable pin (mem_sorted.mp hpin)).2 '[' hmem).2 (by simp)
  simp [entryLine, hindent, hpinned] at hbracket

include hquotable in
/-- A line before the list is cut at: what is written, if it still has these lines before
its list, is what was there. -/
theorem written_of_before (hbefore : m'.before = m.before) (hlines : m'.lines = cut.written pins)
    (hmention : ∃ line ∈ m.before, listOpening <:+: line) : m'.lines = m.lines := by
  obtain ⟨above, first, between, hsplit, hfirst, habove⟩ := Runs.exists_first hmention
  obtain ⟨opening, rows, hlist⟩ := List.exists_cons_of_ne_nil m.list_lines.ne_nil
  obtain ⟨opening', rows', hlist'⟩ := List.exists_cons_of_ne_nil m'.list_lines.ne_nil
  have hcut := lines_cut cut
  rw [hsplit, List.append_assoc, List.cons_append] at hcut
  obtain ⟨rfl, rfl, hbelow⟩ := Runs.first_unique (q := (listOpening <:+: ·)) hcut habove hfirst
    cut.first ⟨cut.x, cut.y, by simp⟩
  have hnew := hlines
  rw [Allowlist.lines, hbefore, hsplit, List.append_assoc, List.cons_append, Cut.written,
    List.append_cancel_left_eq, List.cons.injEq, hlist', List.cons_append] at hnew
  obtain ⟨hopening, hnew⟩ := hnew
  have hnone : ∀ line ∈ (sorted pins).map entryLine ++ [listClosing :: cut.r], ¬ Opens line := by
    intro line hline
    rcases List.mem_append.mp hline with hline | hline
    · exact (plain_rows hquotable line hline).1
    · rw [List.mem_singleton.mp hline]
      exact (closes_of_head rfl).2
  have hbehind : (sorted pins).map entryLine ++ [listClosing :: cut.r] ++ cut.post =
      between ++ opening' :: (rows' ++ m'.closing :: m'.after) := by
    rw [hnew, List.append_assoc, List.singleton_append]
  -- the list is opened below the bracket, so that the lines cut out are all before it
  have hopens : Opens opening' := by
    have hlines' := m'.list_lines
    rw [hlist'] at hlines'
    exact hlines'.1.opens
  obtain ⟨c, rfl, hpost⟩ := Runs.first_behind hbehind hnone hopens
  rw [List.append_assoc, List.append_assoc, List.singleton_append] at hbelow
  obtain ⟨hmid, -, -⟩ := Runs.first_unique (q := fun line => line.head? = some listClosing) hbelow
    (fun line hline hhead => (plain_rows hquotable line hline).2 (closes_of_head hhead).1) rfl
    cut.closing rfl
  refine hlines.trans (Eq.trans ?_ cut.lines.symm)
  rw [Cut.written, ← hmid, hopening]

/-- A line behind the list is cut at: likewise. -/
theorem written_of_behind (hbefore : m'.before = m.before)
    (hbehind : m'.closing = m.closing ∧ m'.after = m.after)
    (hlines : m'.lines = cut.written pins) (hmention : ∀ line ∈ m.before, ¬ listOpening <:+: line)
    (hwithin : ∀ line ∈ m.list, ¬ listOpening <:+: line) : m'.lines = m.lines := by
  obtain ⟨upper, first, lower, hsplit, hfirst, hupper⟩ :
      ∃ upper first lower, m.closing :: m.after = upper ++ first :: lower ∧
        listOpening <:+: first ∧ ∀ line ∈ upper, ¬ listOpening <:+: line := by
    apply Runs.exists_first
    have hin : cut.x ++ (listOpening ++ cut.y) ∈ m.before ++ (m.list ++ m.closing :: m.after) :=
      cut.mem_lines.mpr (by simp)
    have hopens : listOpening <:+: cut.x ++ (listOpening ++ cut.y) := ⟨cut.x, cut.y, by simp⟩
    rw [List.mem_append, List.mem_append] at hin
    rcases hin with hin | hin | hin
    · exact absurd hopens (hmention _ hin)
    · exact absurd hopens (hwithin _ hin)
    · exact ⟨_, hin, hopens⟩
  have hcut := lines_cut cut
  rw [hsplit, ← List.append_assoc m.list, ← List.append_assoc] at hcut
  have habove : ∀ line ∈ m.before ++ (m.list ++ upper), ¬ listOpening <:+: line := by
    intro line hline
    rcases List.mem_append.mp hline with hline | hline
    · exact hmention line hline
    rcases List.mem_append.mp hline with hline | hline
    · exact hwithin line hline
    · exact hupper line hline
  obtain ⟨hregion, rfl, hlower⟩ := Runs.first_unique (q := (listOpening <:+: ·)) hcut habove hfirst
    cut.first ⟨cut.x, cut.y, by simp⟩
  -- the line that closes the list closes it still where it is cut off
  obtain ⟨closing, after, hwritten, hcloses⟩ : ∃ closing after,
      upper ++ (cut.x ++ listOpening) ::
        ((sorted pins).map entryLine ++ (listClosing :: cut.r) :: cut.post) = closing :: after ∧
      Closes closing := by
    rcases upper with - | ⟨closing, upper⟩
    · refine ⟨_, _, rfl, ?_⟩
      have hclosing : m.closing = cut.x ++ (listOpening ++ cut.y) := (List.cons.inj hsplit).1
      have hcloses := m.closing_line.2
      rw [hclosing] at hcloses
      exact hcloses.cut
    · refine ⟨_, _, rfl, ?_⟩
      rw [← (List.cons.inj hsplit).1]
      exact m.closing_line.2
  have hnew := hlines
  rw [Allowlist.lines, hbefore, hbehind.1, hbehind.2, Cut.written, ← hregion, List.append_assoc,
    List.append_assoc, List.append_cancel_left_eq, hwritten] at hnew
  obtain ⟨-, rfl, rfl⟩ := Runs.first_unique (q := Closes) hnew m'.list_lines.not_closes
    m.closing_line.2 m.list_lines.not_closes hcloses
  rw [hsplit, List.append_cancel_left_eq, List.cons.injEq, hlower] at hwritten
  refine hlines.trans (Eq.trans ?_ cut.lines.symm)
  rw [Cut.written, hwritten.1, hwritten.2]

include hquotable in
/-- A line of the list is cut at: what is written closes where a bracket begins a line. -/
theorem written_of_within (hbefore : m'.before = m.before)
    (hlines : m'.lines = cut.written pins) (hmention : ∀ line ∈ m.before, ¬ listOpening <:+: line)
    (hwithin : ∃ line ∈ m.list, listOpening <:+: line) :
    m'.closing.head? = some listClosing ∧ pinsOf (upTo m.list) ⊆ pinsOf m'.list := by
  obtain ⟨upper, first, lower, hlist, hfirst, hupper⟩ := Runs.exists_first hwithin
  have hcut := lines_cut cut
  rw [hlist, List.append_assoc, ← List.append_assoc, List.cons_append] at hcut
  have habove : ∀ line ∈ m.before ++ upper, ¬ listOpening <:+: line := by
    intro line hline
    rcases List.mem_append.mp hline with hline | hline
    · exact hmention line hline
    · exact hupper line hline
  -- the opening the tool finds is the one within the list
  obtain ⟨hregion, rfl, -⟩ := Runs.first_unique (q := (listOpening <:+: ·)) hcut habove hfirst
    cut.first ⟨cut.x, cut.y, by simp⟩
  have hlist' := m.list_lines
  rw [hlist] at hlist'
  have hkept : IsList (upper ++ (cut.x ++ listOpening) :: (sorted pins).map entryLine) :=
    hlist'.cut cut.opening (isRow_rows hquotable)
  have hnew := hlines
  rw [Allowlist.lines, hbefore, Cut.written, ← hregion, List.append_assoc,
    List.append_cancel_left_eq, ← List.cons_append, ← List.append_assoc] at hnew
  -- and the bracket that closes the new list is the one written
  obtain ⟨hsame, hclosing, -⟩ := Runs.first_unique (q := Closes) hnew m'.list_lines.not_closes
    m'.closing_line.2 hkept.not_closes (closes_of_head rfl).1
  refine ⟨by rw [hclosing]; rfl, ?_⟩
  intro pin hpin
  rw [hsame]
  exact (mem_pinsOf_written hquotable hlist cut.opening hupper).mpr (.inl hpin)

end

/-- A repair with something to add is one of a list the tool finds. -/
theorem Repaired.found (h : Repaired crates m m') (hdeny : deny crates m ≠ []) :
    Found crates m := by
  obtain ⟨cut, hpins, hlines⟩ := h.exists_cut hdeny
  have hquotable : ∀ pin ∈ updated crates m cut.read, Quotable pin :=
    fun pin hpin => quotable_pins m' pin (hpins ▸ hpin)
  have hnot : m'.lines ≠ m.lines :=
    fun hsame => h.text_ne hdeny (congrArg (List.intercalate ['\n']) hsame)
  have hmention : ∀ line ∈ m.before, ¬ listOpening <:+: line := by
    intro line hline hin
    exact hnot (written_of_before cut hquotable h.before hlines ⟨line, hline, hin⟩)
  have hwithin : ∃ line ∈ m.list, listOpening <:+: line := by
    by_contra hnone
    push Not at hnone
    exact hnot (written_of_behind cut h.before h.behind hlines hmention hnone)
  obtain ⟨hflush, habove⟩ := written_of_within cut hquotable h.before hlines hmention hwithin
  rw [h.behind.1] at hflush
  refine ⟨hmention, hwithin, fun pin hpin => ?_, hflush⟩
  -- what stands above is still pinned, so it is wanted
  rcases (h.pins pin).mp (List.mem_toFinset.mpr (habove hpin)) with ⟨-, hkept⟩ | hadded
  · exact hkept
  · exact hadded.not_dropped

theorem Repaired.repairable (h : Repaired crates m m') : Repairable crates m := by
  by_cases hdeny : deny crates m = []
  · refine ⟨?_, .inl hdeny⟩
    have hsame : m'.text = m.text := by
      rw [← h.text, hdeny, fixed_nil]
    have hparsed := h.parsed
    rw [hsame] at hparsed
    rcases cut_or_refused m.lines_ne_nil m.newline_lines with ⟨⟨cut⟩⟩ | ⟨refusal, hrefused⟩
    · refine ⟨cut, (agrees_iff crates m cut).mpr fun pin => ?_⟩
      rw [Allowlist.text, cut.parsePins_eq] at hparsed
      rw [mem_updated, Except.ok.inj hparsed, h.pins]
      simp [added_nil crates m hdeny]
    · rw [parsePins, Allowlist.text, hrefused] at hparsed
      cases hparsed
  · obtain ⟨cut, hpins, -⟩ := h.exists_cut hdeny
    refine ⟨⟨cut, ?_⟩, .inr (h.found hdeny)⟩
    rw [agrees_iff, ← hpins]
    exact h.pins

end

/-- **One repair converges and loses nothing where the lines it takes for the list read as the
pins of the list, up to those it drops or adds anyway, and are in the list if there is
something to add; and in no other case.** -/
theorem converges_iff (m : Allowlist) {lockfile : List Char} (crates : Crates lockfile) :
    Converges crates m ↔ Repairable crates m := by
  constructor
  · rintro ⟨m', h⟩
    exact h.repairable
  · rintro ⟨hread, hdeny | hfound⟩
    · obtain ⟨cut, hagrees⟩ := hread
      exact converges_of_clean hdeny cut hagrees
    · by_cases hdeny : deny crates m = []
      · obtain ⟨cut, hagrees⟩ := hread
        exact converges_of_clean hdeny cut hagrees
      · exact converges_of_found hdeny hfound hread

/-- A list in an indented table: so is its bracket. -/
def indented : Allowlist where
  before := ["[bans.build]".toList]
  list := ["  allow-build-scripts = [".toList, "    \"anyhow@1.0.103\",".toList]
  closing := "  ]".toList
  after := ["[licenses]".toList, "allow = [".toList, "    \"MIT\",".toList, "]".toList, []]
  before_lines := by
    intro line hline
    obtain rfl := List.mem_singleton.mp hline
    exact ⟨by decide +kernel, fun hopens => absurd hopens.key (by decide +kernel)⟩
  list_lines := by
    refine ⟨⟨⟨"  ".toList, none, " ".toList, " ".toList⟩, ⟨[], none, none⟩, ?_, ?_, rfl⟩, ?_⟩
    · exact ⟨by simp, by simp [isWhite], margin_spaces 1, margin_spaces 1⟩
    · exact ⟨nofun, nofun, nofun⟩
    · intro row hrow
      obtain rfl := List.mem_singleton.mp hrow
      refine ⟨⟨"    ".toList, some ⟨.basic, "anyhow@1.0.103".toList, [], true, []⟩, none⟩, ?_, rfl⟩
      refine ⟨margin_spaces 4, ?_, nofun⟩
      rintro entry ⟨⟩
      exact ⟨by decide +kernel, nofun, nofun⟩
  closing_line := by decide +kernel
  after_lines := by decide +kernel

def bumpedLock : List Char :=
  "[[package]]\nname = \"anyhow\"\nversion = \"1.0.104\"\n".toList

/-- The crate the bump made an offender. -/
def bumped : Crates bumpedLock where
  offenders := [⟨"anyhow".toList, "1.0.104".toList, none⟩]
  names := by decide +kernel
  quotable := by decide +kernel
  resolved := by
    intro crate hcrate
    obtain rfl := List.mem_singleton.mp hcrate
    rw [← mem_resolvedVersions]
    decide +kernel

/-- The bracket and the table below the list are taken for pins. -/
theorem indented_is_not_repaired :
    parsePins indented.text = .ok {"anyhow@1.0.103".toList, "]".toList, "[licenses]".toList,
        "allow = [".toList, "MIT".toList} ∧
      ¬ Converges bumped indented := by
  refine ⟨by decide +kernel, ?_⟩
  rintro ⟨m', h⟩
  have hflush := (h.found (by decide +kernel)).flush
  exact absurd (Option.some.inj hflush) (by decide)

/-! ### Lists in the tool's spelling -/

/-- What is pinned is in double quotes, with nothing behind them but a comma and blanks. -/
def Row.Plain (row : Row) : Prop :=
  ∀ entry ∈ row.entry, entry.quote = .basic ∧ entry.gap = [] ∧ row.comment = none

/-- The list is opened by the opening text, and its rows are plain. -/
structure Spelled (m : Allowlist) (lead : List Char) (first : Row) (rows : List Row) : Prop where
  list : m.list = (lead ++ (listOpening ++ first.text)) :: rows.map Row.text
  lead : '[' ∉ lead
  rows : ∀ row ∈ first :: rows, row.Valid ∧ row.Plain

/-- A plain row is read as its pin. -/
theorem Row.readRow_text {row : Row} (h : row.Valid) (hplain : row.Plain) :
    readRow row.text = row.entry.map Entry.pin := by
  rcases row with ⟨margin, - | ⟨quote, pin, gap, comma, trail⟩, comment⟩
  · rcases comment with - | comment
    · rw [Row.text, Row.code, List.append_nil, Option.map_none, Option.getD_none, List.append_nil]
      exact readRow_blank h.margin.white
    · rw [Row.text, Row.code, Option.map_none, Option.getD_none, List.append_nil]
      exact readRow_comment h.margin.white comment
  · obtain ⟨rfl, rfl, rfl⟩ := hplain _ rfl
    obtain ⟨hpin, -, htrail⟩ := h.entry _ rfl
    have hread := readRow_quoted h.margin.white htrail.white
      (strip_of_not_mem (hpin.bare .basic)) comma
    rw [Row.text, Row.code, List.append_nil]
    exact hread

namespace Spelled

variable {lockfile : List Char} {crates : Crates lockfile} {m : Allowlist} {lead : List Char}
  {first : Row} {rows : List Row}

/-- The opening text stands first where the list is opened. -/
theorem opening (h : Spelled m lead first rows) :
    splitOnceAt listOpening (lead ++ (listOpening ++ first.text)) = some (lead, first.text) := by
  have hfront : '[' ∉ lead ++ listOpening.dropLast := by
    rw [List.mem_append, not_or]
    exact ⟨h.lead, bracket_listOpening⟩
  have hconcat : lead ++ listOpening = (lead ++ listOpening.dropLast) ++ ['['] := by
    rw [List.append_assoc]
    rfl
  obtain ⟨x, y, hsplit⟩ := exists_splitOnceAt (List.suffix_append lead listOpening).isInfix
  obtain rfl : y = [] := by
    rw [hconcat] at hsplit
    exact splitOnceAt_concat hfront bracket_mem_listOpening hsplit
  obtain rfl : lead = x := by
    have htext := eq_of_splitOnceAt hsplit
    rw [List.append_nil] at htext
    exact List.append_cancel_right htext
  have happend := splitOnceAt_append hsplit first.text
  rwa [List.append_assoc] at happend

theorem behindBracket (h : Spelled m lead first rows) (rest : List Char) :
    behindBracket (lead ++ (listOpening ++ rest)) = rest := by
  have hfront : '[' ∉ lead ++ listOpening.dropLast := by
    rw [List.mem_append, not_or]
    exact ⟨h.lead, bracket_listOpening⟩
  have hsplit : lead ++ (listOpening ++ rest) = (lead ++ listOpening.dropLast) ++ '[' :: rest := by
    rw [List.append_assoc]
    rfl
  rw [DenyPins.behindBracket, hsplit, List.dropWhile_append_of_pos,
    List.dropWhile_cons_of_neg (by decide)]
  · rfl
  · intro c hc
    refine decide_eq_true ?_
    rintro rfl
    exact hfront hc

/-- With something to add, such a list is repaired where no line before it holds the opening
text and the line that closes it begins with the bracket, and nowhere else. -/
theorem repairable_iff (h : Spelled m lead first rows) (hdeny : deny crates m ≠ []) :
    Repairable crates m ↔
      (∀ line ∈ m.before, ¬ listOpening <:+: line) ∧ m.closing.head? = some listClosing := by
  constructor
  · rintro ⟨-, hnil | hfound⟩
    · exact absurd hnil hdeny
    · exact ⟨hfound.before, hfound.flush⟩
  · rintro ⟨hbefore, hflush⟩
    have hopening : listOpening <:+: lead ++ (listOpening ++ first.text) :=
      ⟨lead, first.text, by simp⟩
    have hfound : Found crates m := by
      refine ⟨hbefore, ⟨_, by rw [h.list]; exact List.mem_cons_self, hopening⟩, ?_, hflush⟩
      intro pin hpin
      -- nothing is pinned above the rows
      have hupto : upTo m.list = [lead ++ listOpening] := by
        rw [h.list, upTo, h.opening]
      have hnone := h.behindBracket []
      rw [List.append_nil] at hnone
      rw [hupto, pinsOf, hnone] at hpin
      cases hpin
    refine ⟨?_, .inr hfound⟩
    obtain ⟨cut, upper, line, lower, hlist, hsplit, hupper, -, hmid, -, -⟩ := hfound.exists_cut
    rw [h.list] at hlist
    obtain rfl : upper = [] := by
      rcases upper with - | ⟨other, upper⟩
      · rfl
      · rw [List.cons_append, List.cons.injEq] at hlist
        exact absurd hopening (hlist.1 ▸ hupper other List.mem_cons_self)
    rw [List.nil_append, List.cons.injEq] at hlist
    obtain ⟨rfl, rfl⟩ := hlist
    obtain ⟨-, hy⟩ := Prod.mk.inj (Option.some.inj (h.opening.symm.trans hsplit))
    have hread : ∀ pin, pin ∈ m.pins ↔ ∃ row ∈ cut.y :: cut.mid, readRow row = some pin := by
      intro pin
      rw [Allowlist.pins, List.mem_toFinset, h.list, pinsOf, h.behindBracket, ← hy, hmid,
        ← List.map_cons, List.mem_filterMap]
      refine exists_congr fun row => and_congr_right fun hrow => ?_
      obtain ⟨row, hmem, rfl⟩ := List.mem_map.mp hrow
      obtain ⟨hvalid, hplain⟩ := h.rows row hmem
      rw [Row.pinOf_text hvalid, Row.readRow_text hvalid hplain]
    refine ⟨cut, ⟨fun row hrow pin hpin => .inl ?_, fun pin hpin => .inr ?_⟩⟩
    · exact (hread pin).mpr ⟨row, hrow, hpin⟩
    · exact (hread pin).mp hpin

end Spelled

end AircraftApi.DenyPins
