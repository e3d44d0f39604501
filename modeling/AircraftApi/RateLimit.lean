/-
AircraftApi/RateLimit.lean

The per-principal token-bucket limiter of `aircraft_api::rate_limit`, as a
state machine fed one `admit` call at a time.

* Instants are nanosecond counts.  The code never reads a clock, so a run is
  a list of calls that carry their own instants.
* `u64` arithmetic that the code saturates is `satAdd` and `satMul`; the
  elapsed milliseconds saturate at `u64Max` as well.
* The hash map of buckets is a `KeyMap`; the mutex only serialises the calls.

`Bucket.refill`, `Bucket.isFullAt` and `RateLimiter.spend` follow the source
function by function; the tail of `spend` is `charge`, which takes one token
with `Bucket.take`.  The rest of the file says, once, what a call does to the
bucket of its own principal (`admitCall_answered`, `admitCall_saturated`), to
every other one (`admitCall_other`) and to the size of the store
(`size_admitCall_le`); every result about runs is derived from these four.
-/
import AircraftApi.KeyMap
import Mathlib.Tactic.Ring
import Mathlib.Tactic.Linarith

namespace AircraftApi

/-! ### Saturating arithmetic -/

/-- The largest number of 64 bits. -/
def u64Max : ℕ := 2 ^ 64 - 1

/-- A sum that stops at the largest number. -/
def satAdd (a b : ℕ) : ℕ := min (a + b) u64Max

/-- A product that stops at the largest number. -/
def satMul (a b : ℕ) : ℕ := min (a * b) u64Max

/-! ### Quotas and policy -/

/-- Tokens are counted in thousandths. -/
def tokensPerUnit : ℕ := 1000

/-- What a refused caller is told to wait. -/
def retryAfterSeconds : ℕ := 1

/-- Nanoseconds in a millisecond. -/
def nsPerMs : ℕ := 1000000

/-- A tier's capacity and refill rate, two non-zero `u32`s. -/
structure Quota where
  capacity : ℕ
  refillPerSecond : ℕ
  capacity_pos : 0 < capacity
  capacity_lt : capacity < 2 ^ 32
  refill_pos : 0 < refillPerSecond
  refill_lt : refillPerSecond < 2 ^ 32
  deriving DecidableEq

/-- `Quota::new`, on values of type `u32`. -/
def Quota.new (capacity refillPerSecond : ℕ) : Option Quota :=
  if h : (0 < capacity ∧ capacity < 2 ^ 32) ∧
      0 < refillPerSecond ∧ refillPerSecond < 2 ^ 32 then
    some ⟨capacity, refillPerSecond, h.1.1, h.1.2, h.2.1, h.2.2⟩
  else none

/-- The capacity in the units tokens are counted in. -/
def Quota.capacityUnits (q : Quota) : ℕ := satMul q.capacity tokensPerUnit

/-- The quotas in force, and the ceiling on how many buckets may exist. -/
structure RateLimitPolicy where
  default : Quota
  tiers : KeyMap String Quota
  maxBuckets : ℕ
  maxBuckets_pos : 0 < maxBuckets

/-- The quota of a tier code, or the default for one nothing configures. -/
def RateLimitPolicy.quotaFor (policy : RateLimitPolicy) (tier : String) : Quota :=
  (policy.tiers.lookup tier).getD policy.default

/-! ### Buckets -/

/-- One principal's tokens, the instant they were last computed, and the
quota they were computed under. -/
structure Bucket where
  units : ℕ
  last : ℕ
  quota : Quota
  deriving DecidableEq

namespace Bucket

/-- Whole milliseconds since this bucket was last computed. -/
def elapsedMs (b : Bucket) (now : ℕ) : ℕ := min ((now - b.last) / nsPerMs) u64Max

/-- The units that much elapsed time is worth, uncapped. -/
def earned (b : Bucket) (elapsedMs : ℕ) : ℕ :=
  satMul elapsedMs b.quota.refillPerSecond

/-- Adds the tokens `now` has earned; `last` advances by whole milliseconds. -/
def refill (b : Bucket) (quota : Quota) (now : ℕ) : Bucket :=
  let b := { b with quota := quota }
  let elapsed := b.elapsedMs now
  { b with
    units := min (satAdd b.units (b.earned elapsed)) quota.capacityUnits
    last := b.last + elapsed * nsPerMs }

/-- Whether this bucket would be at capacity at `now`. -/
def isFullAt (b : Bucket) (now : ℕ) : Bool :=
  decide (b.quota.capacityUnits ≤ satAdd b.units (b.earned (b.elapsedMs now)))

/-- A bucket for a principal the store has not seen: full. -/
def fresh (quota : Quota) (now : ℕ) : Bucket := ⟨quota.capacityUnits, now, quota⟩

end Bucket

/-! ### The limiter -/

/-- What a call is answered. -/
inductive Admission
  | admitted
  | refused (retryAfterSeconds : ℕ)
  | saturated
  deriving DecidableEq

/-- Takes one token from a refilled bucket, or refuses. -/
def Bucket.take (b : Bucket) : Bucket × Admission :=
  if b.units < tokensPerUnit then (b, .refused retryAfterSeconds)
  else ({ b with units := b.units - tokensPerUnit }, .admitted)

/-- One `admit` call. -/
structure Call where
  principal : ℤ
  tier : String
  now : ℕ
  deriving DecidableEq

/-- The buckets by principal. -/
abbrev Buckets := KeyMap ℤ Bucket

namespace RateLimiter

/-- The bucket `RateLimiter::spend` finds or creates, refilled. -/
def bucketFor (buckets : Buckets) (principal : ℤ) (quota : Quota) (now : ℕ) : Bucket :=
  ((buckets.lookup principal).getD (.fresh quota now)).refill quota now

/-- The tail of `RateLimiter::spend`: one token from that bucket. -/
def charge (buckets : Buckets) (principal : ℤ) (quota : Quota) (now : ℕ) :
    Buckets × Admission :=
  let taken := (bucketFor buckets principal quota now).take
  (buckets.insert principal taken.1, taken.2)

/-- Drops every bucket that has refilled to capacity by `now`. -/
def sweep (buckets : Buckets) (now : ℕ) : Buckets :=
  KeyMap.retain buckets fun bucket => !bucket.isFullAt now

/-- `RateLimiter::spend`.  Admission control comes first: an untracked
principal that finds the store at its ceiling sweeps out every full bucket,
and is turned away if that frees nothing. -/
def spend (policy : RateLimitPolicy) (buckets : Buckets) (principal : ℤ)
    (quota : Quota) (now : ℕ) : Buckets × Admission :=
  if policy.maxBuckets ≤ KeyMap.size buckets ∧ (buckets.lookup principal).isNone then
    let swept := sweep buckets now
    if policy.maxBuckets ≤ KeyMap.size swept then (swept, .saturated)
    else charge swept principal quota now
  else charge buckets principal quota now

/-- `RateLimiter::admit`. -/
def admitCall (policy : RateLimitPolicy) (buckets : Buckets) (c : Call) :
    Buckets × Admission :=
  spend policy buckets c.principal (policy.quotaFor c.tier) c.now

/-- The instants of the calls never decrease. -/
def Chronological (calls : List Call) : Prop :=
  calls.Pairwise fun c d => c.now ≤ d.now

end RateLimiter

/-! ### Arithmetic of one bucket -/

theorem capacityUnits_eq (q : Quota) : q.capacityUnits = q.capacity * tokensPerUnit := by
  have := q.capacity_lt
  simp only [Quota.capacityUnits, satMul, tokensPerUnit, u64Max]
  omega

theorem tokensPerUnit_le_capacityUnits (q : Quota) :
    tokensPerUnit ≤ q.capacityUnits := by
  have := q.capacity_pos
  rw [capacityUnits_eq, tokensPerUnit]
  omega

theorem capacityUnits_le_u64Max (q : Quota) : q.capacityUnits ≤ u64Max :=
  Nat.min_le_right _ _

theorem le_satAdd_iff (a b : ℕ) {cap : ℕ} (h : cap ≤ u64Max) :
    cap ≤ satAdd a b ↔ cap ≤ a + b := by
  simp only [satAdd]
  omega

namespace Bucket

variable {b : Bucket} {q : Quota} {now : ℕ}

@[simp] theorem refill_quota : (b.refill q now).quota = q := rfl

theorem refill_units_le_capacity : (b.refill q now).units ≤ q.capacityUnits :=
  Nat.min_le_right _ _

/-- A refill never adds more than the elapsed milliseconds are worth. -/
theorem refill_units_le (b : Bucket) (q : Quota) (now : ℕ) :
    (b.refill q now).units ≤ b.units + b.elapsedMs now * q.refillPerSecond := by
  simp only [refill, earned, satMul, satAdd, elapsedMs]
  omega

theorem refill_last : (b.refill q now).last = b.last + b.elapsedMs now * nsPerMs := rfl

theorem elapsedMs_mul_le (hb : b.last ≤ now) :
    b.last + b.elapsedMs now * nsPerMs ≤ now := by
  have hdiv : (now - b.last) / nsPerMs * nsPerMs ≤ now - b.last := Nat.div_mul_le_self _ _
  have hmin : b.elapsedMs now ≤ (now - b.last) / nsPerMs := Nat.min_le_left _ _
  have := Nat.mul_le_mul_right nsPerMs hmin
  omega

/-- The clock of a bucket never passes the instant it is refilled at. -/
theorem refill_last_le (hb : b.last ≤ now) : (b.refill q now).last ≤ now :=
  elapsedMs_mul_le hb

/-- Short of `u64::MAX` milliseconds the clock keeps within one millisecond. -/
theorem lt_refill_last (hsat : (now - b.last) / nsPerMs ≤ u64Max) :
    now < (b.refill q now).last + nsPerMs := by
  have he : b.elapsedMs now = (now - b.last) / nsPerMs := Nat.min_eq_left hsat
  have := Nat.div_add_mod (now - b.last) nsPerMs
  have hmod : (now - b.last) % nsPerMs < nsPerMs := Nat.mod_lt _ (by decide)
  have hcomm : (now - b.last) / nsPerMs * nsPerMs = nsPerMs * ((now - b.last) / nsPerMs) :=
    Nat.mul_comm _ _
  rw [refill_last, he]
  omega

/-- A full bucket has earned its way back to capacity. -/
theorem le_of_isFullAt (h : b.isFullAt now) :
    b.quota.capacityUnits ≤ b.units + b.elapsedMs now * b.quota.refillPerSecond := by
  have hcap := capacityUnits_le_u64Max b.quota
  have := (le_satAdd_iff _ _ hcap).mp (of_decide_eq_true h)
  simp only [earned, satMul] at this
  omega

/-- A full bucket refills to exactly its capacity. -/
theorem refill_units_of_isFullAt (h : b.isFullAt now) :
    (b.refill b.quota now).units = b.quota.capacityUnits :=
  Nat.min_eq_right (of_decide_eq_true h)

theorem elapsedMs_mono {later : ℕ} (h : now ≤ later) :
    b.elapsedMs now ≤ b.elapsedMs later := by
  have : (now - b.last) / nsPerMs ≤ (later - b.last) / nsPerMs :=
    Nat.div_le_div_right (by omega)
  simp only [elapsedMs]
  omega

theorem earned_mono {e e' : ℕ} (h : e ≤ e') : b.earned e ≤ b.earned e' :=
  min_le_min_right _ (Nat.mul_le_mul_right _ h)

/-- Once full, full at every later instant. -/
theorem isFullAt_mono {later : ℕ} (h : now ≤ later) (hfull : b.isFullAt now) :
    b.isFullAt later := by
  have hearned : b.earned (b.elapsedMs now) ≤ b.earned (b.elapsedMs later) :=
    earned_mono (elapsedMs_mono h)
  have hsum : satAdd b.units (b.earned (b.elapsedMs now))
      ≤ satAdd b.units (b.earned (b.elapsedMs later)) :=
    min_le_min_right _ (Nat.add_le_add_left hearned _)
  exact decide_eq_true ((of_decide_eq_true hfull).trans hsum)

@[simp] theorem fresh_units : (fresh q now).units = q.capacityUnits := rfl

@[simp] theorem fresh_last : (fresh q now).last = now := rfl

@[simp] theorem fresh_quota : (fresh q now).quota = q := rfl

/-- Refilling a fresh bucket at its own instant changes nothing. -/
@[simp] theorem fresh_refill : (fresh q now).refill q now = fresh q now := by
  have hcap := capacityUnits_le_u64Max q
  have hunits : min (satAdd q.capacityUnits (satMul 0 q.refillPerSecond)) q.capacityUnits
      = q.capacityUnits := by
    simp only [satAdd, satMul]
    omega
  simp [refill, fresh, elapsedMs, earned, hunits]

/-! ### Taking a token -/

@[simp] theorem take_quota (b : Bucket) : b.take.1.quota = b.quota := by
  unfold take
  split <;> rfl

@[simp] theorem take_last (b : Bucket) : b.take.1.last = b.last := by
  unfold take
  split <;> rfl

/-- An admission costs a token and nothing else costs anything. -/
theorem take_units (b : Bucket) :
    b.take.1.units + (if b.take.2 = .admitted then tokensPerUnit else 0) = b.units := by
  unfold take
  split
  · simp
  · simp only [if_true]
    omega

theorem take_ne_saturated (b : Bucket) : b.take.2 ≠ .saturated := by
  unfold take
  split <;> simp

end Bucket

/-! ### What one call does -/

namespace RateLimiter

variable {policy : RateLimitPolicy} {m : Buckets} {c : Call} {p : ℤ} {q : Quota} {now : ℕ}

theorem bucketFor_quota : (bucketFor m p q now).quota = q := rfl

theorem bucketFor_units_le : (bucketFor m p q now).units ≤ q.capacityUnits :=
  Bucket.refill_units_le_capacity

/-- A swept store knows a principal as before, unless its bucket was full. -/
theorem lookup_sweep (m : Buckets) (now : ℕ) (p : ℤ) :
    (sweep m now).lookup p = m.lookup p ∨
      ∃ b, m.lookup p = some b ∧ b.isFullAt now ∧ (sweep m now).lookup p = none := by
  have hswept := KeyMap.lookup_retain m (fun b => !b.isFullAt now) p
  rw [← sweep] at hswept
  rcases hp : m.lookup p with - | b
  · simp [hswept, hp]
  · by_cases hfull : b.isFullAt now
    · exact .inr ⟨b, rfl, hfull, by simp [hswept, hp, hfull]⟩
    · exact .inl (by simp [hswept, hp, hfull])

theorem lookup_sweep_of_none {now : ℕ} {p : ℤ} (h : m.lookup p = none) :
    (sweep m now).lookup p = none := by
  rcases lookup_sweep m now p with hs | ⟨b, hb, -⟩
  · rw [hs, h]
  · simp [h] at hb

/-- **The two outcomes of a call**: it is turned away with the full buckets
swept out, or it is charged to the store, swept or not.  Only an untracked
principal is turned away or causes a sweep. -/
theorem admitCall_cases (policy : RateLimitPolicy) (m : Buckets) (c : Call) :
    (m.lookup c.principal = none ∧
      admitCall policy m c = (sweep m c.now, .saturated)) ∨
    ∃ m' : Buckets,
      (m' = m ∨ m.lookup c.principal = none ∧ m' = sweep m c.now) ∧
      (KeyMap.size m' < policy.maxBuckets ∨ c.principal ∈ m') ∧
      admitCall policy m c = charge m' c.principal (policy.quotaFor c.tier) c.now := by
  by_cases hroom : policy.maxBuckets ≤ KeyMap.size m ∧ (m.lookup c.principal).isNone
  · have hnone := Option.isNone_iff_eq_none.mp hroom.2
    by_cases hswept : policy.maxBuckets ≤ KeyMap.size (sweep m c.now)
    · exact .inl ⟨hnone, by simp [admitCall, spend, hroom, hswept]⟩
    · refine .inr ⟨_, .inr ⟨hnone, rfl⟩, .inl (by omega), ?_⟩
      simp [admitCall, spend, hroom, hswept]
  · refine .inr ⟨m, .inl rfl, ?_, by rw [admitCall, spend, if_neg hroom]⟩
    by_cases hfull : policy.maxBuckets ≤ KeyMap.size m
    · have hsome : (m.lookup c.principal).isSome := by
        simpa [hfull, Option.isSome_iff_ne_none] using hroom
      exact .inr (AList.lookup_isSome.mp hsome)
    · exact .inl (by omega)

/-- A call that is not turned away takes a token from the principal's
bucket, refilled, or from a fresh one. -/
theorem admitCall_answered (h : (admitCall policy m c).2 ≠ .saturated) :
    let taken := (bucketFor m c.principal (policy.quotaFor c.tier) c.now).take
    (admitCall policy m c).1.lookup c.principal = some taken.1 ∧
      (admitCall policy m c).2 = taken.2 := by
  rcases admitCall_cases policy m c with ⟨-, hsat⟩ | ⟨m', hm', -, hcharge⟩
  · simp [hsat] at h
  · have hlookup : m'.lookup c.principal = m.lookup c.principal := by
      rcases hm' with rfl | ⟨hnone, rfl⟩
      · rfl
      · rw [lookup_sweep_of_none hnone, hnone]
    simp [hcharge, charge, bucketFor, hlookup]

/-- Only an untracked principal is turned away, and it stays untracked. -/
theorem admitCall_saturated (h : (admitCall policy m c).2 = .saturated) :
    m.lookup c.principal = none ∧ (admitCall policy m c).1.lookup c.principal = none := by
  rcases admitCall_cases policy m c with ⟨hnone, hsat⟩ | ⟨m', -, -, hcharge⟩
  · exact ⟨hnone, by rw [hsat]; exact lookup_sweep_of_none hnone⟩
  · rw [hcharge] at h
    exact absurd h (Bucket.take_ne_saturated _)

/-- A call leaves the other principals' buckets alone, except that it may
drop one that is full by now. -/
theorem admitCall_other {p : ℤ} (hp : p ≠ c.principal) :
    (admitCall policy m c).1.lookup p = m.lookup p ∨
      ∃ b, m.lookup p = some b ∧ b.isFullAt c.now ∧
        (admitCall policy m c).1.lookup p = none := by
  rcases admitCall_cases policy m c with ⟨-, hsat⟩ | ⟨m', hm', -, hcharge⟩
  · rw [hsat]
    exact lookup_sweep m c.now p
  · have hlookup : (admitCall policy m c).1.lookup p = m'.lookup p := by
      rw [hcharge]
      exact AList.lookup_insert_ne hp
    rw [hlookup]
    rcases hm' with rfl | ⟨-, rfl⟩
    · exact .inl rfl
    · exact lookup_sweep m c.now p

/-- A call keeps the store within its ceiling. -/
theorem size_admitCall_le (hm : KeyMap.size m ≤ policy.maxBuckets) :
    KeyMap.size (admitCall policy m c).1 ≤ policy.maxBuckets := by
  have hsweep : KeyMap.size (sweep m c.now) ≤ KeyMap.size m := KeyMap.size_retain_le _ _
  rcases admitCall_cases policy m c with ⟨-, hsat⟩ | ⟨m', hm', hroom, hcharge⟩
  · rw [hsat]
    exact hsweep.trans hm
  · have hm'_le : KeyMap.size m' ≤ policy.maxBuckets := by
      rcases hm' with rfl | ⟨-, rfl⟩ <;> omega
    rw [hcharge]
    by_cases hmem : c.principal ∈ m'
    · exact (KeyMap.size_insert_of_mem _ _ hmem).le.trans hm'_le
    · exact (KeyMap.size_insert_of_notMem _ _ hmem).le.trans (hroom.resolve_right hmem)

end RateLimiter

end AircraftApi
