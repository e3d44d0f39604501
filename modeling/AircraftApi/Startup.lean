/-
AircraftApi/Startup.lean

From the HTTP settings to the perimeter and the rate limits of the server.

`Settings::load` checks what the composition root then builds from, in another crate, with
constructors that refuse or panic on what the checks refuse.  `load_starts`: none of them
does, on any settings that load, but for the tier overrides, which are read last, and of
which the first one at fault is named.  `written_tiers_load` is the other direction: tiers
written down in the documented form load as these tiers.
-/
import AircraftApi.Perimeter
import AircraftApi.RateLimit
import AircraftApi.Statements

namespace AircraftApi

namespace Startup

open Text Statements

/-! ### Tier overrides -/

/-- Why no policy is built. -/
inductive InvalidPolicy
  | bucketCeiling
  | tierOverride (position : ℕ)
  deriving DecidableEq

/-- `str::parse::<u32>`. -/
def parseU32 (s : List Char) : Option ℕ := parseUnsigned (2 ^ 32 - 1) s

/-- One entry `CODE:capacity:refill_per_second`. -/
def parseOverride (entry : List Char) : Option (String × Quota) :=
  match entry.splitOn ':' with
  | [code, capacity, refill] => do
      let capacity ← parseU32 capacity
      let refill ← parseU32 refill
      let quota ← Quota.new capacity refill
      if code = [] then none else some (String.ofList code, quota)
  | _ => none

/-- The loop of `RateLimitPolicy::new`, at a position. -/
def loadTiers : ℕ → KeyMap String Quota → List (List Char) →
    Except InvalidPolicy (KeyMap String Quota)
  | _, tiers, [] => .ok tiers
  | position, tiers, entry :: rest =>
      match parseOverride entry with
      | none => .error (.tierOverride position)
      | some (code, quota) =>
          if code ∈ tiers then .error (.tierOverride position)
          else loadTiers (position + 1) (tiers.insert code quota) rest

/-- `RateLimitPolicy::new`. -/
def newPolicy (default : Quota) (maxBuckets : ℕ) (overrides : List (List Char)) :
    Except InvalidPolicy RateLimitPolicy :=
  if h : 0 < maxBuckets then
    (loadTiers 1 ∅ overrides).map fun tiers => ⟨default, tiers, maxBuckets, h⟩
  else .error .bucketCeiling

/-! ### Settings -/

/-- `http.*`, as the sources of the `config` crate are merged and typed. -/
structure RawHttp where
  host : List Char
  port : UInt16
  shutdownGraceSeconds : UInt64
  maxRequestBodyBytes : UInt64
  requestTimeoutSeconds : UInt64
  maxConcurrentRequests : UInt64
  rateLimitCapacity : UInt32
  rateLimitRefillPerSecond : UInt32
  rateLimitMaxBuckets : UInt64
  rateLimitTiers : List Char
  corsAllowedOrigins : List Char

/-- What no source sets. -/
def RawHttp.defaults : RawHttp where
  host := "127.0.0.1".toList
  port := 8080
  shutdownGraceSeconds := 30
  maxRequestBodyBytes := 1048576
  requestTimeoutSeconds := 30
  maxConcurrentRequests := 256
  rateLimitCapacity := 60
  rateLimitRefillPerSecond := 10
  rateLimitMaxBuckets := 10000
  rateLimitTiers := []
  corsAllowedOrigins := []

/-- The settings, with their lists split. -/
structure HttpSettings where
  raw : RawHttp
  rateLimitTiers : List (List Char)
  corsAllowedOrigins : List (List Char)

/-- A blank text is the empty list; blanks between commas are kept. -/
def commaSeparated (raw : List Char) : List (List Char) :=
  if trim raw = [] then [] else (raw.splitOn ',').map trim

/-- The parts of a URL. -/
structure Url where
  host : Option (List Char)
  path : List Char
  query : Option (List Char)
  fragment : Option (List Char)
  username : List Char
  password : Option (List Char)
  text : List Char

/-- `MAX_CONCURRENT_REQUESTS`, and `Semaphore::MAX_PERMITS`. -/
def maxPermits : ℕ := (2 ^ 64 - 1) / 8

/-- `Url::parse`, and how a text is written for debugging. -/
structure UrlCrate where
  parse : List Char → Option Url
  debug : List Char → String

variable (urls : UrlCrate)

/-- The text of a URL without its one slash at the end. -/
def Url.origin (url : Url) : List Char := (stripSuffix '/' url.text).getD url.text

/-- An origin is a scheme, a host and perhaps a port, spelt as a browser sends it. -/
def validateCorsOrigin (origin : List Char) : Except String Unit :=
  if origin = ['*'] then
    .error "http.cors_allowed_origins must not contain the wildcard `*`; name each allowed origin"
  else if origin = [] then .error "http.cors_allowed_origins must not contain a blank entry"
  else
    match urls.parse origin with
    | none =>
        .error "http.cors_allowed_origins contains an entry that is not a valid absolute URL"
    | some url =>
        if url.host.all (· = []) then
          .error "http.cors_allowed_origins contains an entry that names no host"
        else if url.path ≠ ['/'] ∨ url.query.isSome ∨ url.fragment.isSome ∨ url.username ≠ [] ∨
            url.password.isSome then
          .error ("http.cors_allowed_origins entries must contain only a scheme, host, and " ++
            "optional port")
        else if url.origin ≠ origin then
          .error ("http.cors_allowed_origins contains an entry that is not the spelling a " ++
            "browser sends; write " ++ urls.debug url.origin)
        else .ok ()

/-- A setting that must not be zero. -/
def greaterThanZero (path : String) (n : ℕ) : Except String Unit :=
  require (0 < n) (path ++ " must be greater than zero")

/-- The limits, in the order they are checked. -/
def validatePerimeterLimits (settings : HttpSettings) : Except String Unit := do
  greaterThanZero "http.max_request_body_bytes" settings.raw.maxRequestBodyBytes.toNat
  greaterThanZero "http.request_timeout_seconds" settings.raw.requestTimeoutSeconds.toNat
  greaterThanZero "http.max_concurrent_requests" settings.raw.maxConcurrentRequests.toNat
  greaterThanZero "http.rate_limit_capacity" settings.raw.rateLimitCapacity.toNat
  greaterThanZero "http.rate_limit_refill_per_second" settings.raw.rateLimitRefillPerSecond.toNat
  greaterThanZero "http.rate_limit_max_buckets" settings.raw.rateLimitMaxBuckets.toNat
  require (settings.raw.maxConcurrentRequests.toNat ≤ maxPermits)
    ("http.max_concurrent_requests must be at most " ++ toString maxPermits)
  settings.corsAllowedOrigins.forM (validateCorsOrigin urls)

/-- `Settings::load_from`, on the merged sources. -/
def load (raw : RawHttp) : Except String HttpSettings := do
  let settings : HttpSettings :=
    ⟨raw, commaSeparated raw.rateLimitTiers, commaSeparated raw.corsAllowedOrigins⟩
  require (trim raw.host ≠ []) "http.host must not be empty"
  require (raw.port ≠ 0)
    ("http.port must be between 1 and 65535; zero requests an arbitrary OS-assigned port")
  validatePerimeterLimits urls settings
  .ok settings

/-! ### The composition root -/

/-- The limits of the perimeter, with its deadline and its origins. -/
structure PerimeterBounds where
  limits : Perimeter.PerimeterLimits
  timeoutSeconds : ℕ
  allowedOrigins : List (List Char)

/-- Why the service does not start. -/
inductive StartupError
  | origin (text : List Char)
  | quota
  | policy (error : InvalidPolicy)
  deriving DecidableEq

/-- `HeaderValue::from_str` takes visible ASCII. -/
def isHeaderText (text : List Char) : Bool :=
  text.all fun c => (0x20 ≤ c.toNat ∧ c.toNat < 0x7F) ∨ c = '\t'

/-- `PerimeterLimits::new`, on the origins. -/
def checkOrigin (origin : List Char) : Except StartupError Unit :=
  if origin = ['*'] then .error (.origin origin)
  else if isHeaderText origin then .ok () else .error (.origin origin)

theorem toNat_le_usizeMax (n : UInt64) : n.toNat ≤ Perimeter.usizeMax :=
  Nat.le_of_lt_succ n.toNat_lt

/-- The bounds of the settings. -/
def newLimits (settings : HttpSettings) : Except StartupError PerimeterBounds := do
  settings.corsAllowedOrigins.forM checkOrigin
  .ok ⟨⟨settings.raw.maxRequestBodyBytes.toNat, settings.raw.maxConcurrentRequests.toNat,
      toNat_le_usizeMax settings.raw.maxRequestBodyBytes⟩,
    settings.raw.requestTimeoutSeconds.toNat, settings.corsAllowedOrigins⟩

/-- What the service starts with. -/
structure Composed where
  bounds : PerimeterBounds
  policy : RateLimitPolicy

/-- The parts of `main` that are built from the settings, in order. -/
def compose (settings : HttpSettings) : Except StartupError Composed := do
  let bounds ← newLimits settings
  match Quota.new settings.raw.rateLimitCapacity.toNat
      settings.raw.rateLimitRefillPerSecond.toNat with
  | none => .error .quota
  | some quota =>
      match newPolicy quota settings.raw.rateLimitMaxBuckets.toNat settings.rateLimitTiers with
      | .error error => .error (.policy error)
      | .ok policy => .ok ⟨bounds, policy⟩

/-- `Semaphore::new`, which panics above its ceiling. -/
def PerimeterBounds.permits (bounds : PerimeterBounds) : Option ℕ :=
  if bounds.limits.maxConcurrent ≤ maxPermits then some bounds.limits.maxConcurrent else none

/-- `AllowOrigin::list`, which panics on a wildcard. -/
def PerimeterBounds.corsOrigins (bounds : PerimeterBounds) : Option (List (List Char)) :=
  if bounds.allowedOrigins.contains ['*'] then none else some bounds.allowedOrigins

/-! ### Which overrides load -/

/-- The tiers of a list of entries: each entry is an override, and no code comes twice. -/
def Reads (entries : List (List Char)) (tiers : List (String × Quota)) : Prop :=
  entries.map parseOverride = tiers.map some ∧ (tiers.map Prod.fst).Nodup

/-- The first entry at fault: it is no override, or one of a code that came before. -/
def FaultAt (entries : List (List Char)) (position : ℕ) : Prop :=
  ∃ before entry rest tiers, entries = before ++ entry :: rest ∧ position = before.length + 1 ∧
    Reads before tiers ∧
    ∀ code quota, parseOverride entry = some (code, quota) → code ∈ tiers.map Prod.fst

section

variable {entries : List (List Char)} {tiers loaded : KeyMap String Quota} {position : ℕ}

/-- The overrides that were read stand in front of those that were known. -/
theorem loadTiers_ok (h : loadTiers position tiers entries = .ok loaded) :
    ∃ read : List (String × Quota), entries.map parseOverride = read.map some ∧
      (read.map Prod.fst).Nodup ∧ (∀ code ∈ read.map Prod.fst, code ∉ tiers) ∧
      ∀ code, loaded.lookup code = (read.lookup code).or (tiers.lookup code) := by
  induction entries generalizing position tiers with
  | nil =>
      obtain rfl := Except.ok.inj h
      exact ⟨[], rfl, List.nodup_nil, nofun, fun _ => rfl⟩
  | cons entry rest ih =>
      rw [loadTiers] at h
      split at h
      · cases h
      · rename_i code quota hentry
        split_ifs at h with hknown
        obtain ⟨read, hmap, hnodup, hfresh, hlookup⟩ := ih h
        -- the rest was read with this code known, so it has not the code again
        have hnew : code ∉ read.map Prod.fst := fun hmem =>
          hfresh code hmem (AList.mem_insert _ |>.mpr (.inl rfl))
        refine ⟨(code, quota) :: read, ?_, List.nodup_cons.mpr ⟨hnew, hnodup⟩, ?_, ?_⟩
        · rw [List.map_cons, List.map_cons, hentry, hmap]
        · intro other hother
          rcases List.mem_cons.mp hother with rfl | hother
          · exact hknown
          · exact fun hmem => hfresh other hother (AList.mem_insert _ |>.mpr (.inr hmem))
        · intro other
          rw [hlookup, List.lookup_cons]
          by_cases hsame : other = code
          · subst hsame
            have hnone : read.lookup other = none := by
              rw [List.lookup_eq_none_iff]
              intro entry hmem
              exact bne_iff_ne.mpr fun heq => hnew (heq ▸ List.mem_map_of_mem hmem)
            rw [hnone, beq_self_eq_true, AList.lookup_insert]
            rfl
          · rw [beq_false_of_ne hsame, AList.lookup_insert_ne hsame]

/-- Reading stops at the first entry at fault. -/
theorem loadTiers_error {error : InvalidPolicy}
    (h : loadTiers position tiers entries = .error error) :
    ∃ before entry rest, ∃ read : List (String × Quota), entries = before ++ entry :: rest ∧
      error = .tierOverride (position + before.length) ∧
      before.map parseOverride = read.map some ∧ (read.map Prod.fst).Nodup ∧
      (∀ code ∈ read.map Prod.fst, code ∉ tiers) ∧
      ∀ code quota, parseOverride entry = some (code, quota) →
        code ∈ read.map Prod.fst ∨ code ∈ tiers := by
  induction entries generalizing position tiers with
  | nil => cases h
  | cons entry rest ih =>
      rw [loadTiers] at h
      split at h
      · -- the entry cannot be read
        rename_i hentry
        obtain rfl := Except.error.inj h
        refine ⟨[], entry, rest, [], rfl, rfl, rfl, List.nodup_nil, nofun, ?_⟩
        intro code quota hsome
        rw [hentry] at hsome
        cases hsome
      · rename_i code quota hentry
        split_ifs at h with hknown
        · obtain rfl := Except.error.inj h
          refine ⟨[], entry, rest, [], rfl, rfl, rfl, List.nodup_nil, nofun, ?_⟩
          intro other quota' hsome
          rw [hentry] at hsome
          obtain ⟨rfl, -⟩ := Prod.mk.inj (Option.some.inj hsome)
          -- or it names a tier for the second time
          exact .inr hknown
        · -- or it is one of the entries behind it
          obtain ⟨before, fault, rest, read, rfl, rfl, hmap, hnodup, hfresh, hfault⟩ := ih h
          have hnew : code ∉ read.map Prod.fst := fun hmem =>
            hfresh code hmem (AList.mem_insert _ |>.mpr (.inl rfl))
          refine ⟨entry :: before, fault, rest, (code, quota) :: read, rfl, ?_, ?_,
            List.nodup_cons.mpr ⟨hnew, hnodup⟩, ?_, ?_⟩
          · rw [List.length_cons]
            congr 1
            omega
          · rw [List.map_cons, List.map_cons, hentry, hmap]
          · intro other hother
            rcases List.mem_cons.mp hother with rfl | hother
            · exact hknown
            · exact fun hmem => hfresh other hother (AList.mem_insert _ |>.mpr (.inr hmem))
          · intro other quota' hsome
            rcases hfault other quota' hsome with hmem | hmem
            · exact .inl (List.mem_cons_of_mem _ hmem)
            · rcases AList.mem_insert _ |>.mp hmem with rfl | hmem
              · exact .inl List.mem_cons_self
              · exact .inr hmem

variable {maxBuckets : ℕ}

/-- A policy has the tiers that its overrides read as, or the first one at fault is
named. -/
theorem newPolicy_cases (default : Quota) (entries : List (List Char)) (hpos : 0 < maxBuckets) :
    (∃ policy read, newPolicy default maxBuckets entries = .ok policy ∧ Reads entries read ∧
      ∀ tier, policy.quotaFor tier = (read.lookup tier).getD default) ∨
    ∃ position, newPolicy default maxBuckets entries = .error (.tierOverride position) ∧
      FaultAt entries position := by
  rw [newPolicy, dif_pos hpos]
  rcases h : loadTiers 1 ∅ entries with error | loaded
  · obtain ⟨before, entry, rest, read, rfl, rfl, hmap, hnodup, -, hfault⟩ := loadTiers_error h
    refine .inr ⟨1 + before.length, rfl, before, entry, rest, read, rfl, Nat.add_comm _ _,
      ⟨hmap, hnodup⟩, fun code quota hsome => ?_⟩
    rcases hfault code quota hsome with hmem | hmem
    · exact hmem
    · exact absurd hmem (AList.notMem_empty code)
  · obtain ⟨read, hmap, hnodup, -, hlookup⟩ := loadTiers_ok h
    refine .inl ⟨_, read, rfl, ⟨hmap, hnodup⟩, fun tier => ?_⟩
    show (loaded.lookup tier).getD default = _
    rw [hlookup, AList.lookup_empty, Option.or_none]

/-- What reads whole has no entry at fault. -/
theorem Reads.not_faultAt {read : List (String × Quota)} (h : Reads entries read) :
    ¬ FaultAt entries position := by
  rintro ⟨before, entry, rest, tiers, rfl, -, ⟨hbefore, -⟩, hfault⟩
  obtain ⟨hmap, hnodup⟩ := h
  rw [List.map_append, List.map_cons] at hmap
  obtain ⟨first, last, rfl, hfirst, hlast⟩ := List.append_eq_map_iff.mp hmap
  obtain ⟨⟨code, quota⟩, more, rfl, hentry, -⟩ := List.map_eq_cons_iff.mp hlast
  have hsame : first = tiers :=
    List.map_injective_iff.mpr (Option.some_injective _) (hfirst.trans hbefore)
  subst hsame
  rw [List.map_append, List.map_cons, List.nodup_append] at hnodup
  exact hnodup.2.2 code (hfault code quota hentry.symm) code List.mem_cons_self rfl

end

/-! ### Tiers as an operator writes them -/

/-- `aircraft_ref.lookup_code`: what the code of a stored tier may be. -/
def isLookupChar (c : Char) : Bool := c.isUpper ∨ c.isDigit ∨ c = '_'

/-- A code of the lookup tables. -/
def isLookupCode : List Char → Bool
  | [] => false
  | c :: rest => c.isUpper ∧ rest.all isLookupChar

/-- `CODE:capacity:refill_per_second`. -/
def written (tier : String × Quota) : List Char :=
  [':'].intercalate [tier.1.toList, Nat.toDigits 10 tier.2.capacity,
    Nat.toDigits 10 tier.2.refillPerSecond]

/-- An entry with white space around it, or none. -/
def Padded (entry piece : List Char) : Prop :=
  ∃ front back, (∀ c ∈ front, isWhite c = true) ∧ (∀ c ∈ back, isWhite c = true) ∧
    piece = front ++ (entry ++ back)

/-- The entries with a comma between them. -/
def Joined (entries : List (List Char)) (text : List Char) : Prop :=
  ∃ pieces, List.Forall₂ Padded entries pieces ∧ text = [','].intercalate pieces

section

theorem natural_toDigits (n : ℕ) : natural (Nat.toDigits 10 n) = some n := by
  have hdigits : Nat.toDigits 10 n ≠ [] ∧ (Nat.toDigits 10 n).all Char.isDigit = true :=
    ⟨Nat.toDigits_ne_nil, List.all_eq_true.mpr fun c hc =>
      Nat.isDigit_of_mem_toDigits (by decide) (by decide) hc⟩
  rw [natural, if_pos hdigits]
  have hvalue := Nat.ofDigitChars_ten_toDigits (n := n)
  rw [Nat.ofDigitChars_eq_foldl] at hvalue
  exact congrArg some hvalue

theorem parseUnsigned_toDigits {high n : ℕ} (h : n ≤ high) :
    parseUnsigned high (Nat.toDigits 10 n) = some n := by
  have hplus : ∀ digits, Nat.toDigits 10 n ≠ '+' :: digits := by
    intro digits heq
    have hdigit := Nat.isDigit_of_mem_toDigits (c := '+') (b := 10) (n := n) (by decide)
      (by decide) (heq ▸ List.mem_cons_self)
    exact absurd hdigit (by decide)
  unfold parseUnsigned
  split
  · rename_i digits heq
    exact absurd heq (hplus digits)
  · show (natural (Nat.toDigits 10 n)).filter _ = some n
    rw [natural_toDigits]
    exact Option.filter_eq_some_iff.mpr ⟨rfl, decide_eq_true h⟩

theorem lookupChar_spec {c : Char} (h : isLookupChar c = true) :
    c ≠ ':' ∧ c ≠ ',' ∧ isWhite c = false := by
  have hrange : c.toNat = 95 ∨ (48 ≤ c.toNat ∧ c.toNat ≤ 57) ∨ (65 ≤ c.toNat ∧ c.toNat ≤ 90) := by
    rcases of_decide_eq_true h with hupper | hdigit | rfl
    · simp only [Char.isUpper, decide_eq_true_eq] at hupper
      exact .inr (.inr hupper)
    · simp only [Char.isDigit, Bool.and_eq_true, decide_eq_true_eq] at hdigit
      exact .inr (.inl hdigit)
    · exact .inl rfl
  refine ⟨?_, ?_, ?_⟩
  · rintro rfl
    simp at hrange
  · rintro rfl
    simp at hrange
  · rw [isWhite, decide_eq_false_iff_not]
    omega

theorem lookupChar_of_digit {n : ℕ} {c : Char} (h : c ∈ Nat.toDigits 10 n) :
    isLookupChar c = true :=
  decide_eq_true (.inr (.inl (Nat.isDigit_of_mem_toDigits (by decide) (by decide) h)))

theorem lookupChar_of_code {code : List Char} (h : isLookupCode code = true) :
    code ≠ [] ∧ ∀ c ∈ code, isLookupChar c = true := by
  cases code with
  | nil => cases h
  | cons first rest =>
      obtain ⟨hfirst, hrest⟩ := of_decide_eq_true h
      exact ⟨List.cons_ne_nil _ _, List.forall_mem_cons.mpr
        ⟨decide_eq_true (.inl hfirst), List.all_eq_true.mp hrest⟩⟩

variable {tier : String × Quota} {tiers : List (String × Quota)}

theorem parseOverride_written (h : isLookupCode tier.1.toList = true) :
    parseOverride (written tier) = some tier := by
  obtain ⟨hne, hcode⟩ := lookupChar_of_code h
  obtain ⟨code, capacity, refill, hcapacity, hcapacity', hrefill, hrefill'⟩ := tier
  have hsplit : (written ⟨code, capacity, refill, hcapacity, hcapacity', hrefill, hrefill'⟩).splitOn
      ':' = [code.toList, Nat.toDigits 10 capacity, Nat.toDigits 10 refill] := by
    refine List.splitOn_intercalate ':' (fun part hpart => ?_) (List.cons_ne_nil _ _)
    simp only [List.mem_cons, List.not_mem_nil, or_false] at hpart
    rcases hpart with rfl | rfl | rfl
    · exact fun hmem => (lookupChar_spec (hcode ':' hmem)).1 rfl
    · exact fun hmem => (lookupChar_spec (lookupChar_of_digit hmem)).1 rfl
    · exact fun hmem => (lookupChar_spec (lookupChar_of_digit hmem)).1 rfl
  have hquota : Quota.new capacity refill =
      some ⟨capacity, refill, hcapacity, hcapacity', hrefill, hrefill'⟩ :=
    dif_pos ⟨⟨hcapacity, hcapacity'⟩, hrefill, hrefill'⟩
  rw [parseOverride, hsplit]
  simp only [parseU32, parseUnsigned_toDigits (Nat.le_sub_one_of_lt hcapacity'),
    parseUnsigned_toDigits (Nat.le_sub_one_of_lt hrefill'), hquota, Option.bind_eq_bind,
    Option.bind_some, if_neg hne, String.ofList_toList]

/-- An entry is not split at a comma, and its ends are not white space. -/
theorem written_spec (h : isLookupCode tier.1.toList = true) :
    written tier ≠ [] ∧ ∀ c ∈ written tier, c ≠ ',' ∧ isWhite c = false := by
  obtain ⟨hne, hcode⟩ := lookupChar_of_code h
  constructor
  · simp [written, List.intercalate, hne]
  · intro c hc
    have hmem : c = ':' ∨ isLookupChar c = true := by
      simp only [written, List.intercalate, List.intersperse, List.flatten_cons, List.flatten_nil,
        List.append_nil, List.mem_append, List.mem_singleton] at hc
      rcases hc with hc | rfl | hc | rfl | hc
      · exact .inr (hcode c hc)
      · exact .inl rfl
      · exact .inr (lookupChar_of_digit hc)
      · exact .inl rfl
      · exact .inr (lookupChar_of_digit hc)
    rcases hmem with rfl | hc
    · decide
    · exact (lookupChar_spec hc).2

/-- The white space around an entry is taken off, and holds no comma. -/
theorem Padded.spec {entry piece : List Char} (h : Padded entry piece)
    (hentry : ∀ c ∈ entry, c ≠ ',' ∧ isWhite c = false) :
    trim piece = entry ∧ ',' ∉ piece := by
  obtain ⟨front, back, hfront, hback, rfl⟩ := h
  have hcomma : ∀ {space : List Char}, (∀ c ∈ space, isWhite c = true) → ',' ∉ space :=
    fun hspace hmem => absurd (hspace ',' hmem) (by decide)
  constructor
  · exact strip_append hfront hback (fun c hc => (hentry c (List.mem_of_mem_head? hc)).2)
      fun c hc => (hentry c (List.mem_of_mem_getLast? hc)).2
  · rw [List.mem_append, List.mem_append, not_or, not_or]
    exact ⟨hcomma hfront, fun hmem => (hentry ',' hmem).1 rfl, hcomma hback⟩

theorem trim_pieces {entries pieces : List (List Char)} (h : List.Forall₂ Padded entries pieces)
    (hchars : ∀ entry ∈ entries, ∀ c ∈ entry, c ≠ ',' ∧ isWhite c = false) :
    pieces.map trim = entries ∧ ∀ piece ∈ pieces, ',' ∉ piece := by
  induction h with
  | nil => exact ⟨rfl, nofun⟩
  | cons hpad _ ih =>
      obtain ⟨hfirst, hrest⟩ := List.forall_mem_cons.mp hchars
      obtain ⟨htrim, hcomma⟩ := hpad.spec hfirst
      obtain ⟨htrims, hcommas⟩ := ih hrest
      rw [List.map_cons, htrim, htrims]
      exact ⟨rfl, List.forall_mem_cons.mpr ⟨hcomma, hcommas⟩⟩

/-- What is joined is separated again. -/
theorem commaSeparated_joined {entries : List (List Char)} {text : List Char}
    (h : Joined entries text) (hne : ∀ entry ∈ entries, entry ≠ [])
    (hchars : ∀ entry ∈ entries, ∀ c ∈ entry, c ≠ ',' ∧ isWhite c = false) :
    commaSeparated text = entries := by
  obtain ⟨pieces, hpadded, rfl⟩ := h
  obtain ⟨htrims, hcommas⟩ := trim_pieces hpadded hchars
  cases hpadded with
  | nil => rfl
  | @cons entry piece entries pieces hpad _ =>
      have hsplit := List.splitOn_intercalate ',' hcommas (List.cons_ne_nil _ _)
      -- the text holds a character of its first entry, so it is not blank
      have htext : trim ([','].intercalate (piece :: pieces)) ≠ [] := by
        obtain ⟨c, hc⟩ := List.exists_mem_of_ne_nil entry (hne entry List.mem_cons_self)
        obtain ⟨front, back, -, -, rfl⟩ := hpad
        have hmem : c ∈ [','].intercalate ((front ++ (entry ++ back)) :: pieces) := by
          rw [List.intercalate]
          cases pieces with
          | nil => simp [hc]
          | cons next rest => simp [hc]
        exact List.ne_nil_of_mem (mem_strip hmem (hchars entry List.mem_cons_self c hc).2)
      rw [commaSeparated, if_neg htext, hsplit, htrims]

/-- **Tiers load as they are written**: any tiers with codes that the database can hold,
each once, written down as entries with a comma between them and any white space around
each, give the policy in which each of them has its own quota and every other tier the
default. -/
theorem written_tiers_load (default : Quota) {maxBuckets : ℕ} (hpos : 0 < maxBuckets)
    (hcodes : ∀ tier ∈ tiers, isLookupCode tier.1.toList = true)
    (hnodup : (tiers.map Prod.fst).Nodup) {text : List Char}
    (htext : Joined (tiers.map written) text) :
    ∃ policy, newPolicy default maxBuckets (commaSeparated text) = .ok policy ∧
      ∀ tier, policy.quotaFor tier = (tiers.lookup tier).getD default := by
  have hseparated : commaSeparated text = tiers.map written := by
    refine commaSeparated_joined htext ?_ ?_ <;>
      intro entry hentry <;> obtain ⟨tier, htier, rfl⟩ := List.mem_map.mp hentry
    · exact (written_spec (hcodes tier htier)).1
    · exact (written_spec (hcodes tier htier)).2
  have hread : Reads (tiers.map written) tiers := by
    refine ⟨?_, hnodup⟩
    rw [List.map_map]
    exact List.map_congr_left fun tier htier => parseOverride_written (hcodes tier htier)
  rw [hseparated]
  rcases newPolicy_cases default (tiers.map written) hpos with
    ⟨policy, read, hpolicy, hread', hquota⟩ | ⟨position, -, hfault⟩
  · obtain rfl : read = tiers := List.map_injective_iff.mpr (Option.some_injective _)
      (hread'.1.symm.trans hread.1)
    exact ⟨policy, hpolicy, hquota⟩
  · exact absurd hfault hread.not_faultAt

def standard : Quota := ⟨60, 10, by decide, by decide, by decide, by decide⟩

def burst : Quota := ⟨600, 100, by decide, by decide, by decide, by decide⟩

def partner : Quota := ⟨1200, 200, by decide, by decide, by decide, by decide⟩

def writtenTiers : List (String × Quota) :=
  [("STANDARD", standard), ("BURST", burst), ("PARTNER_2", partner)]

/-- No blank behind the first comma, and two behind the second. -/
def tiersText : List Char := " STANDARD:60:10,BURST:600:100,  PARTNER_2:1200:200".toList

theorem joined_tiersText : Joined (writtenTiers.map written) tiersText := by
  have hblank : ∀ c ∈ [' ', ' '], isWhite c = true := by simp [isWhite]
  refine ⟨[" STANDARD:60:10".toList, "BURST:600:100".toList, "  PARTNER_2:1200:200".toList],
    .cons ?_ (.cons ?_ (.cons ?_ .nil)), by decide +kernel⟩
  · exact ⟨[' '], [], fun c hc => hblank c (List.mem_cons_of_mem _ hc), List.forall_mem_nil _,
      by decide +kernel⟩
  · exact ⟨[], [], List.forall_mem_nil _, List.forall_mem_nil _, by decide +kernel⟩
  · exact ⟨[' ', ' '], [], hblank, List.forall_mem_nil _, by decide +kernel⟩

theorem written_tiers_load_partner : ∃ policy,
    newPolicy standard 16 (commaSeparated tiersText) = .ok policy ∧
      ∀ tier, policy.quotaFor tier = (writtenTiers.lookup tier).getD standard :=
  written_tiers_load standard (by decide) (by decide +kernel) (by decide) joined_tiersText

end

/-! ### Settings that load -/

section

variable {urls : UrlCrate} {raw : RawHttp} {settings : HttpSettings} {origin : List Char}

theorem forM_eq_ok {ε α : Type} {check : α → Except ε Unit} {l : List α} :
    l.forM check = .ok () ↔ ∀ a ∈ l, check a = .ok () := by
  induction l with
  | nil => exact iff_of_true rfl nofun
  | cons a l ih =>
      rw [List.forall_mem_cons, ← ih]
      show (check a >>= fun _ => l.forM check) = _ ↔ _
      rcases check a with error | -
      · exact iff_of_false nofun fun h => nomatch h.1
      · exact (and_iff_right rfl).symm

/-- An origin that the settings take is the text of a URL. -/
theorem validateCorsOrigin_ok (h : validateCorsOrigin urls origin = .ok ()) :
    origin ≠ ['*'] ∧ ∃ url, urls.parse origin = some url ∧ origin ⊆ url.text := by
  unfold validateCorsOrigin at h
  split_ifs at h with hwildcard hblank
  refine ⟨hwildcard, ?_⟩
  split at h
  · cases h
  · rename_i url hparse
    split_ifs at h with hhost hparts hspelling
    refine ⟨url, hparse, fun c hc => ?_⟩
    rw [← not_not.mp hspelling, Url.origin, stripSuffix] at hc
    split_ifs at hc
    · exact List.dropLast_subset _ hc
    · exact hc

/-- What the server relies on of settings that load. -/
structure Valid (urls : UrlCrate) (raw : RawHttp) (settings : HttpSettings) : Prop where
  same : settings =
    ⟨raw, commaSeparated raw.rateLimitTiers, commaSeparated raw.corsAllowedOrigins⟩
  concurrent : 0 < raw.maxConcurrentRequests.toNat ∧
    raw.maxConcurrentRequests.toNat ≤ maxPermits
  capacity : 0 < raw.rateLimitCapacity.toNat
  refill : 0 < raw.rateLimitRefillPerSecond.toNat
  buckets : 0 < raw.rateLimitMaxBuckets.toNat
  cors : ∀ origin ∈ commaSeparated raw.corsAllowedOrigins,
    validateCorsOrigin urls origin = .ok ()

theorem valid_of_load (h : load urls raw = .ok settings) : Valid urls raw settings := by
  obtain ⟨⟨⟩, -, h⟩ := ok_of_bind h
  obtain ⟨⟨⟩, -, h⟩ := ok_of_bind h
  obtain ⟨⟨⟩, hlimits, h⟩ := ok_of_bind h
  obtain rfl := Except.ok.inj h
  obtain ⟨⟨⟩, -, hlimits⟩ := ok_of_bind hlimits
  obtain ⟨⟨⟩, -, hlimits⟩ := ok_of_bind hlimits
  obtain ⟨⟨⟩, hconcurrent, hlimits⟩ := ok_of_bind hlimits
  obtain ⟨⟨⟩, hcapacity, hlimits⟩ := ok_of_bind hlimits
  obtain ⟨⟨⟩, hrefill, hlimits⟩ := ok_of_bind hlimits
  obtain ⟨⟨⟩, hbuckets, hlimits⟩ := ok_of_bind hlimits
  obtain ⟨⟨⟩, hpermits, hcors⟩ := ok_of_bind hlimits
  exact ⟨rfl, ⟨require_eq_ok.mp hconcurrent, require_eq_ok.mp hpermits⟩,
    require_eq_ok.mp hcapacity, require_eq_ok.mp hrefill, require_eq_ok.mp hbuckets,
    forM_eq_ok.mp hcors⟩

/-- **Settings that load start the server**: on URLs whose texts are visible ASCII, no
constructor that is given them panics, and none refuses them but the one of the policy: it
has the tiers that the overrides read as, with the configured default, or names the first
override at fault. -/
theorem load_starts (hascii : ∀ origin url, urls.parse origin = some url →
      ∀ c ∈ url.text, 0x20 ≤ c.toNat ∧ c.toNat < 0x7F)
    (h : load urls raw = .ok settings) :
    (∃ composed default read, compose settings = .ok composed ∧
      composed.bounds.permits = some raw.maxConcurrentRequests.toNat ∧
      0 < raw.maxConcurrentRequests.toNat ∧
      composed.bounds.corsOrigins = some (commaSeparated raw.corsAllowedOrigins) ∧
      Quota.new raw.rateLimitCapacity.toNat raw.rateLimitRefillPerSecond.toNat = some default ∧
      Reads (commaSeparated raw.rateLimitTiers) read ∧
      ∀ tier, composed.policy.quotaFor tier = (read.lookup tier).getD default) ∨
    ∃ position, compose settings = .error (.policy (.tierOverride position)) ∧
      FaultAt (commaSeparated raw.rateLimitTiers) position := by
  have hvalid := valid_of_load h
  obtain rfl := hvalid.same
  -- the text of a URL is ASCII, so every origin is the text of a header
  have horigins : (commaSeparated raw.corsAllowedOrigins).forM checkOrigin = .ok () := by
    refine forM_eq_ok.mpr fun origin horigin => ?_
    obtain ⟨hwildcard, url, hparse, hsubset⟩ := validateCorsOrigin_ok (hvalid.cors origin horigin)
    have htext : isHeaderText origin = true := List.all_eq_true.mpr fun c hc =>
      decide_eq_true (.inl (hascii origin url hparse c (hsubset hc)))
    rw [checkOrigin, if_neg hwildcard, if_pos htext]
  have hwildcard : ¬ (commaSeparated raw.corsAllowedOrigins).contains ['*'] = true := fun hmem =>
    (validateCorsOrigin_ok (hvalid.cors _ (List.contains_iff_mem.mp hmem))).1 rfl
  obtain ⟨default, hquota⟩ : ∃ default, Quota.new raw.rateLimitCapacity.toNat
      raw.rateLimitRefillPerSecond.toNat = some default :=
    ⟨_, dif_pos ⟨⟨hvalid.capacity, UInt32.toNat_lt _⟩, hvalid.refill, UInt32.toNat_lt _⟩⟩
  -- what is left to fail is the policy
  have hcompose : compose ⟨raw, commaSeparated raw.rateLimitTiers,
      commaSeparated raw.corsAllowedOrigins⟩ =
      match newPolicy default raw.rateLimitMaxBuckets.toNat (commaSeparated raw.rateLimitTiers) with
      | .error error => .error (.policy error)
      | .ok policy => .ok ⟨⟨⟨raw.maxRequestBodyBytes.toNat, raw.maxConcurrentRequests.toNat,
          toNat_le_usizeMax raw.maxRequestBodyBytes⟩, raw.requestTimeoutSeconds.toNat,
            commaSeparated raw.corsAllowedOrigins⟩, policy⟩ := by
    rw [compose, newLimits, horigins]
    show (match Quota.new _ _ with | none => _ | some quota => _) = _
    rw [hquota]
  rcases newPolicy_cases default (commaSeparated raw.rateLimitTiers) hvalid.buckets with
    ⟨policy, read, hpolicy, hread, hread'⟩ | ⟨position, hpolicy, hfault⟩
  · rw [hpolicy] at hcompose
    exact .inl ⟨_, default, read, hcompose, if_pos hvalid.concurrent.2, hvalid.concurrent.1,
      if_neg hwildcard, hquota, hread, hread'⟩
  · rw [hpolicy] at hcompose
    exact .inr ⟨position, hcompose, hfault⟩

/-- What no source sets loads. -/
theorem load_defaults (urls : UrlCrate) : load urls .defaults = .ok ⟨.defaults, [], []⟩ := by
  rfl

/-- A browser application, and one tier that is not written as an override. -/
def appSettings : RawHttp :=
  { RawHttp.defaults with
    rateLimitTiers := "STANDARD:60:10, BURST:600".toList
    corsAllowedOrigins := "https://app.example".toList }

def appUrls : UrlCrate where
  parse origin :=
    if origin = "https://app.example".toList then
      some ⟨some "app.example".toList, ['/'], none, none, [], none, "https://app.example/".toList⟩
    else none
  debug text := String.ofList text

theorem load_starts_app : (∃ composed default read, compose ⟨appSettings,
      ["STANDARD:60:10".toList, "BURST:600".toList], ["https://app.example".toList]⟩ =
        .ok composed ∧
      composed.bounds.permits = some appSettings.maxConcurrentRequests.toNat ∧
      0 < appSettings.maxConcurrentRequests.toNat ∧
      composed.bounds.corsOrigins = some (commaSeparated appSettings.corsAllowedOrigins) ∧
      Quota.new appSettings.rateLimitCapacity.toNat
        appSettings.rateLimitRefillPerSecond.toNat = some default ∧
      Reads (commaSeparated appSettings.rateLimitTiers) read ∧
      ∀ tier, composed.policy.quotaFor tier = (read.lookup tier).getD default) ∨
    ∃ position, compose ⟨appSettings,
        ["STANDARD:60:10".toList, "BURST:600".toList], ["https://app.example".toList]⟩ =
          .error (.policy (.tierOverride position)) ∧
      FaultAt (commaSeparated appSettings.rateLimitTiers) position := by
  refine @load_starts appUrls _ _ ?_ (by rfl)
  intro origin url hparse
  simp only [appUrls] at hparse
  split_ifs at hparse
  rw [← Option.some.inj hparse]
  have hall : "https://app.example/".toList.all fun c => 0x20 ≤ c.toNat ∧ c.toNat < 0x7F := by
    decide +kernel
  exact fun c hc => of_decide_eq_true (List.all_eq_true.mp hall c hc)

end

end Startup

end AircraftApi
