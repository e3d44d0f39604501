/-
AircraftApi/RateWindow.lean

The window bound of the rate limiter: over any stretch of time a principal is
admitted no more often than its capacity plus what its refill rate earns in
that stretch, whatever other principals do to the store in between.

The proof charges every admission to an allowance.  `allowance q tb t o` is
what a principal whose bucket is `o` at instant `t` can still spend up to
`tb`: a tracked bucket's units and the milliseconds its clock has left, or a
whole capacity for an untracked one.  No call raises it and an admission costs
a whole token of it (`allowance_step`), an eviction included: a bucket is
dropped only once it has earned its way back to capacity.

The bound holds while consecutive calls of the principal are at most
`u64::MAX` milliseconds apart.  Past that the elapsed time saturates, the
bucket's clock falls behind, and what it is behind by is earned a second time
(`not_window_bound_of_saturated_gap`).  The condition is consumed in
`lt_bucketFor_last` alone, which bounds how far behind the window's first call
can find the clock.
-/
import AircraftApi.RateLimit
import AircraftApi.Transition
import Mathlib.Algebra.Order.Floor.Div

namespace AircraftApi

namespace RateLimiter

open Transition

variable {policy : RateLimitPolicy} {m : Buckets} {c : Call} {calls : List Call}
variable {p : ℤ} {q : Quota} {t ta tb : ℕ}

/-! ### Runs and windows -/

/-- The principal's tier quota stays fixed. -/
def QuotaFixed (policy : RateLimitPolicy) (p : ℤ) (q : Quota) (calls : List Call) : Prop :=
  ∀ c ∈ calls, c.principal = p → policy.quotaFor c.tier = q

/-- The instants of one principal's calls. -/
def instantsOf (p : ℤ) (calls : List Call) : List ℕ :=
  (calls.filter fun c => c.principal = p).map Call.now

/-- A gap whose milliseconds fit in a `u64`. -/
def FitsU64 (s t : ℕ) : Prop := t ≤ s + u64Max * nsPerMs

/-- One answer is an admission of `p` inside the window. -/
def countsIn (p : ℤ) (ta tb : ℕ) (answer : Call × Admission) : Bool :=
  decide (answer.1.principal = p ∧ answer.2 = .admitted ∧
    ta ≤ answer.1.now ∧ answer.1.now ≤ tb)

/-- How often `p` was admitted in `[ta, tb]`. -/
def admittedIn (p : ℤ) (ta tb : ℕ) (answers : List (Call × Admission)) : ℕ :=
  answers.countP (countsIn p ta tb)

theorem admittedIn_transcript_cons :
    admittedIn p ta tb (transcript (admitCall policy) m (c :: calls))
      = admittedIn p ta tb (transcript (admitCall policy) (admitCall policy m c).1 calls)
        + if countsIn p ta tb (c, (admitCall policy m c).2) then 1 else 0 :=
  List.countP_cons

/-- Nothing after the window counts. -/
theorem admittedIn_eq_zero (h : ∀ c ∈ calls, tb < c.now) :
    admittedIn p ta tb (transcript (admitCall policy) m calls) = 0 := by
  induction calls generalizing m with
  | nil => rfl
  | cons c calls ih =>
      have hc : tb < c.now := h c List.mem_cons_self
      have hout : countsIn p ta tb (c, (admitCall policy m c).2) = false := by
        simp [countsIn, Nat.not_le.mpr hc]
      rw [admittedIn_transcript_cons, ih fun d hd => h d (List.mem_cons_of_mem _ hd), hout]
      rfl

/-! ### What a principal may still spend -/

/-- What a principal whose bucket is `o` at `t` can spend up to `tb`. -/
def allowance (q : Quota) (tb t : ℕ) : Option Bucket → ℕ
  | some b => b.units + q.refillPerSecond * ((tb - b.last) / nsPerMs)
  | none => q.capacityUnits + q.refillPerSecond * ((tb - t) / nsPerMs)

/-- The bucket of `p`, if there is one, is under `q` and its clock has not
passed `t`. -/
def Follows (p : ℤ) (q : Quota) (t : ℕ) (m : Buckets) : Prop :=
  ∀ b, m.lookup p = some b → b.quota = q ∧ b.last ≤ t

theorem follows_mono {t' : ℕ} (hm : Follows p q t m) (h : t ≤ t') : Follows p q t' m :=
  fun b hb => ⟨(hm b hb).1, (hm b hb).2.trans h⟩

theorem bucketFor_last_le (hm : Follows p q t m) : (bucketFor m p q t).last ≤ t := by
  rcases hp : m.lookup p with - | b
  · simp [bucketFor, hp]
  · simpa [bucketFor, hp] using Bucket.refill_last_le (hm b hp).2

/-- Every call of `p` itself leaves a bucket under its quota. -/
theorem follows_admitCall (hm : Follows p q t m) (ht : t ≤ c.now)
    (hq : c.principal = p → policy.quotaFor c.tier = q) :
    Follows p q c.now (admitCall policy m c).1 := by
  have hm' := follows_mono hm ht
  intro b hb
  by_cases hp : c.principal = p
  · subst hp
    by_cases hsat : (admitCall policy m c).2 = .saturated
    · simp [(admitCall_saturated hsat).2] at hb
    · rw [(admitCall_answered hsat).1, hq rfl] at hb
      obtain rfl := Option.some.inj hb
      exact ⟨by rw [Bucket.take_quota, bucketFor_quota], by
        rw [Bucket.take_last]; exact bucketFor_last_le hm'⟩
  · rcases admitCall_other (Ne.symm hp) with hsame | ⟨-, -, -, hnone⟩
    · exact hm' b (hsame ▸ hb)
    · simp [hnone] at hb

/-- Whole milliseconds of two adjacent stretches fit in those of their union. -/
theorem div_sub_add_div_sub_le {a b d : ℕ} (hab : a ≤ b) (hbd : b ≤ d) :
    (b - a) / nsPerMs + (d - b) / nsPerMs ≤ (d - a) / nsPerMs := by
  simp only [nsPerMs]
  omega

/-- Dropping a full bucket gives nothing away. -/
theorem allowance_evict {b : Bucket} {now : ℕ} (hquota : b.quota = q)
    (hlast : b.last ≤ now) (hfull : b.isFullAt now) (htb : now ≤ tb) :
    allowance q tb now none ≤ allowance q tb t (some b) := by
  have hcap := Bucket.le_of_isFullAt hfull
  rw [hquota] at hcap
  have hmin : b.elapsedMs now ≤ (now - b.last) / nsPerMs := Nat.min_le_left _ _
  have hdiv := div_sub_add_div_sub_le hlast htb
  have hearn : q.refillPerSecond * (b.elapsedMs now + (tb - now) / nsPerMs)
      ≤ q.refillPerSecond * ((tb - b.last) / nsPerMs) :=
    Nat.mul_le_mul_left _ (by omega)
  simp only [allowance]
  rw [Nat.mul_add, Nat.mul_comm _ (b.elapsedMs now)] at hearn
  omega

/-- Refilling moves what the clock had left into the units. -/
theorem allowance_bucketFor (hm : Follows p q t m) (ht : t ≤ c.now) (htb : c.now ≤ tb) :
    allowance q tb c.now (some (bucketFor m p q c.now)) ≤ allowance q tb t (m.lookup p) := by
  rcases hp : m.lookup p with - | b
  · have hdiv : (tb - c.now) / nsPerMs ≤ (tb - t) / nsPerMs :=
      Nat.div_le_div_right (by omega)
    have := Nat.mul_le_mul_left q.refillPerSecond hdiv
    simp only [bucketFor, hp, Option.getD_none, Bucket.fresh_refill, allowance,
      Bucket.fresh_units, Bucket.fresh_last]
    omega
  · have hlast := (hm b hp).2.trans ht
    have hunits := Bucket.refill_units_le b q c.now
    have hle := Bucket.elapsedMs_mul_le hlast
    have hdiv : (tb - (b.last + b.elapsedMs c.now * nsPerMs)) / nsPerMs + b.elapsedMs c.now
        = (tb - b.last) / nsPerMs := by
      simp only [nsPerMs] at hle ⊢
      omega
    simp only [bucketFor, hp, Option.getD_some, allowance, Bucket.refill_last]
    rw [← hdiv, Nat.mul_add, Nat.mul_comm _ (b.elapsedMs c.now)]
    omega

/-- Taking a token is paid for out of the allowance. -/
theorem allowance_take (q : Quota) (tb t : ℕ) (b : Bucket) :
    (if b.take.2 = .admitted then tokensPerUnit else 0) + allowance q tb t (some b.take.1)
      = allowance q tb t (some b) := by
  have := Bucket.take_units b
  simp only [allowance, Bucket.take_last]
  omega

theorem allowance_none_mono {t' : ℕ} (h : t ≤ t') :
    allowance q tb t' none ≤ allowance q tb t none := by
  have hdiv : (tb - t') / nsPerMs ≤ (tb - t) / nsPerMs := Nat.div_le_div_right (by omega)
  exact Nat.add_le_add_left (Nat.mul_le_mul_left _ hdiv) _

/-- **One call**: no call raises a principal's allowance, and an admission of
that principal costs a token of it. -/
theorem allowance_step (ta : ℕ) (hm : Follows p q t m) (ht : t ≤ c.now) (htb : c.now ≤ tb)
    (hq : c.principal = p → policy.quotaFor c.tier = q) :
    tokensPerUnit * (if countsIn p ta tb (c, (admitCall policy m c).2) then 1 else 0)
        + allowance q tb c.now ((admitCall policy m c).1.lookup p)
      ≤ allowance q tb t (m.lookup p) := by
  by_cases hp : c.principal = p
  · subst hp
    by_cases hsat : (admitCall policy m c).2 = .saturated
    · have huntracked := admitCall_saturated hsat
      simpa [countsIn, hsat, huntracked.1, huntracked.2] using allowance_none_mono ht
    · obtain ⟨hlookup, hanswer⟩ := admitCall_answered hsat
      rw [hq rfl] at hlookup hanswer
      have hcharge := allowance_bucketFor hm ht htb
      have htake := allowance_take q tb c.now (bucketFor m c.principal q c.now)
      -- an admitted call costs a token, another one nothing
      have hcost : tokensPerUnit *
            (if countsIn c.principal ta tb (c, (admitCall policy m c).2) then 1 else 0)
          ≤ if (bucketFor m c.principal q c.now).take.2 = .admitted then tokensPerUnit
            else 0 := by
        rw [hanswer]
        by_cases hadm : (bucketFor m c.principal q c.now).take.2 = .admitted
        · rw [if_pos hadm]
          split <;> simp
        · simp [countsIn, hadm]
      rw [hlookup]
      omega
  · have hno : countsIn p ta tb (c, (admitCall policy m c).2) = false := by
      simp [countsIn, hp]
    rw [hno]
    -- a call of somebody else may evict the bucket, but only a full one
    rcases admitCall_other (Ne.symm hp) with hsame | ⟨b, hb, hfull, hnone⟩
    · rw [hsame]
      rcases hlookup : m.lookup p with - | b
      · simpa using allowance_none_mono ht
      · simp [allowance]
    · rw [hnone, hb]
      obtain ⟨hquota, hlast⟩ := hm b hb
      simpa using allowance_evict hquota (hlast.trans ht) hfull htb

/-- **A run**: a principal is admitted at most as often as its allowance
pays for. -/
theorem admittedIn_le_allowance (ta tb : ℕ) (hm : Follows p q t m)
    (ht : ∀ c ∈ calls, t ≤ c.now) (hmono : Chronological calls) (hq : QuotaFixed policy p q calls) :
    tokensPerUnit * admittedIn p ta tb (transcript (admitCall policy) m calls)
      ≤ allowance q tb t (m.lookup p) := by
  induction calls generalizing m t with
  | nil => simp [transcript, admittedIn]
  | cons c calls ih =>
      obtain ⟨hlater, hmono⟩ := List.pairwise_cons.mp hmono
      have htc := ht c List.mem_cons_self
      have hqc := hq c List.mem_cons_self
      by_cases htb : c.now ≤ tb
      · have hrest := ih (follows_admitCall hm htc hqc) hlater hmono
          fun d hd => hq d (List.mem_cons_of_mem _ hd)
        have hstep := allowance_step ta hm htc htb hqc
        rw [admittedIn_transcript_cons, Nat.mul_add]
        omega
      · have hzero : ∀ d ∈ c :: calls, tb < d.now := by
          intro d hd
          rcases List.mem_cons.mp hd with rfl | hd
          · omega
          · exact (Nat.lt_of_not_le htb).trans_le (hlater d hd)
        rw [admittedIn_eq_zero hzero]
        simp

/-! ### The clock of a bucket -/

/-- The bucket of `p`, if there is one, was last computed within the
millisecond before some instant that the coming calls of `p` follow closely. -/
def Clocked (p : ℤ) (coming : List ℕ) (m : Buckets) : Prop :=
  ∀ b, m.lookup p = some b →
    ∃ s, s < b.last + nsPerMs ∧ (s :: coming).IsChain FitsU64

theorem instantsOf_cons_self (hp : c.principal = p) :
    instantsOf p (c :: calls) = c.now :: instantsOf p calls := by
  simp [instantsOf, hp]

theorem instantsOf_cons_other (hp : c.principal ≠ p) :
    instantsOf p (c :: calls) = instantsOf p calls := by
  simp [instantsOf, hp]

/-- A refill catches the clock up to within a millisecond. -/
theorem lt_bucketFor_last {coming : List ℕ} (hclock : Clocked p (t :: coming) m) :
    t < (bucketFor m p q t).last + nsPerMs := by
  rcases hp : m.lookup p with - | b
  · simp [bucketFor, hp, nsPerMs]
  · obtain ⟨s, hs, hchain⟩ := hclock b hp
    have hgap : t ≤ s + u64Max * nsPerMs := (List.isChain_cons_cons.mp hchain).1
    have hsat : (t - b.last) / nsPerMs ≤ u64Max := by
      simp only [nsPerMs, u64Max] at hs hgap ⊢
      omega
    simpa [bucketFor, hp] using Bucket.lt_refill_last hsat

theorem clocked_admitCall (hclock : Clocked p (instantsOf p (c :: calls)) m)
    (hchain : (instantsOf p (c :: calls)).IsChain FitsU64) :
    Clocked p (instantsOf p calls) (admitCall policy m c).1 := by
  intro b hb
  by_cases hp : c.principal = p
  · rw [instantsOf_cons_self hp] at hclock hchain
    subst hp
    by_cases hsat : (admitCall policy m c).2 = .saturated
    · simp [(admitCall_saturated hsat).2] at hb
    · rw [(admitCall_answered hsat).1] at hb
      obtain rfl := Option.some.inj hb
      exact ⟨c.now, by rw [Bucket.take_last]; exact lt_bucketFor_last hclock, hchain⟩
  · rw [instantsOf_cons_other hp] at hclock
    rcases admitCall_other (Ne.symm hp) with hsame | ⟨-, -, -, hnone⟩
    · exact hclock b (hsame ▸ hb)
    · simp [hnone] at hb

/-! ### The window bound -/

/-- What the window holds from one call of `p` inside it onwards. -/
theorem admittedIn_le_of_answered (hm : Follows c.principal q t m) (ht : t ≤ c.now)
    (hclock : Clocked c.principal (instantsOf c.principal (c :: calls)) m)
    (hlater : ∀ d ∈ calls, c.now ≤ d.now) (hmono : Chronological calls)
    (hq : QuotaFixed policy c.principal q (c :: calls))
    (hsat : (admitCall policy m c).2 ≠ .saturated) (hta : ta ≤ c.now) :
    tokensPerUnit * admittedIn c.principal ta tb (transcript (admitCall policy) m (c :: calls))
      ≤ tokensPerUnit * q.capacity + q.refillPerSecond * ((tb - ta) ⌈/⌉ nsPerMs) := by
  have hqc := hq c List.mem_cons_self
  have hrest := admittedIn_le_allowance ta tb (follows_admitCall hm ht hqc)
    hlater hmono fun d hd => hq d (List.mem_cons_of_mem _ hd)
  obtain ⟨hlookup, hanswer⟩ := admitCall_answered hsat
  rw [hqc rfl] at hlookup hanswer
  rw [hlookup] at hrest
  set b := bucketFor m c.principal q c.now with hb
  have htake := allowance_take q tb c.now b
  have hcost : tokensPerUnit *
        (if countsIn c.principal ta tb (c, (admitCall policy m c).2) then 1 else 0)
      ≤ if b.take.2 = .admitted then tokensPerUnit else 0 := by
    rw [hanswer]
    by_cases hadm : b.take.2 = .admitted
    · rw [if_pos hadm]
      split <;> simp
    · simp [countsIn, hadm]
  have hunits : b.units ≤ tokensPerUnit * q.capacity := by
    rw [Nat.mul_comm, ← capacityUnits_eq]
    exact bucketFor_units_le
  -- the bucket is at most a millisecond behind, which is what is rounded up
  have hms : (tb - b.last) / nsPerMs ≤ (tb - ta) ⌈/⌉ nsPerMs := by
    have hlast : c.now < b.last + nsPerMs := by
      rw [instantsOf_cons_self rfl] at hclock
      exact lt_bucketFor_last hclock
    rw [Nat.ceilDiv_eq_add_pred_div]
    simp only [nsPerMs] at hlast ⊢
    omega
  have hearn := Nat.mul_le_mul_left q.refillPerSecond hms
  rw [admittedIn_transcript_cons, Nat.mul_add]
  simp only [allowance] at hrest htake
  omega

theorem window_bound_from (hm : Follows p q t m)
    (hclock : Clocked p (instantsOf p calls) m) (ht : ∀ c ∈ calls, t ≤ c.now)
    (hmono : Chronological calls) (hq : QuotaFixed policy p q calls)
    (hgaps : (instantsOf p calls).IsChain FitsU64) :
    tokensPerUnit * admittedIn p ta tb (transcript (admitCall policy) m calls)
      ≤ tokensPerUnit * q.capacity + q.refillPerSecond * ((tb - ta) ⌈/⌉ nsPerMs) := by
  induction calls generalizing m t with
  | nil => simp [transcript, admittedIn]
  | cons c calls ih =>
      obtain ⟨hlater, hmono'⟩ := List.pairwise_cons.mp hmono
      have htc := ht c List.mem_cons_self
      by_cases hfirst : c.principal = p ∧ (admitCall policy m c).2 ≠ .saturated ∧ ta ≤ c.now
      · obtain ⟨rfl, hsat, hta⟩ := hfirst
        exact admittedIn_le_of_answered hm htc hclock hlater hmono' hq hsat hta
      · have hno : countsIn p ta tb (c, (admitCall policy m c).2) = false := by
          simp only [countsIn, decide_eq_false_iff_not]
          rintro ⟨hp, hadm, hta, -⟩
          exact hfirst ⟨hp, by simp [hadm], hta⟩
        have hgaps' : (instantsOf p calls).IsChain FitsU64 := by
          by_cases hp : c.principal = p
          · rw [instantsOf_cons_self hp] at hgaps
            exact hgaps.of_cons
          · rwa [instantsOf_cons_other hp] at hgaps
        rw [admittedIn_transcript_cons, hno]
        simpa using ih (follows_admitCall hm htc (hq c List.mem_cons_self))
          (clocked_admitCall hclock hgaps) hlater hmono'
          (fun d hd => hq d (List.mem_cons_of_mem _ hd)) hgaps'

/-- A run from the empty store keeps it within its ceiling. -/
theorem size_after_le (policy : RateLimitPolicy) (calls : List Call) :
    KeyMap.size (after (admitCall policy) ∅ calls) ≤ policy.maxBuckets := by
  refine after_invariant (P := fun m => KeyMap.size m ≤ policy.maxBuckets) ?_ ?_ calls
  · exact fun m c hm => size_admitCall_le hm
  · exact policy.maxBuckets_pos.le

/-- **The window bound**: in a chronological run that keeps a principal under
one quota and never leaves it alone for longer than `u64::MAX` milliseconds,
any window admits it at most its capacity plus what the window earns; and
after every call the store is within its ceiling. -/
theorem window_bound (policy : RateLimitPolicy) (calls : List Call)
    (hmono : Chronological calls) :
    (∀ p q ta tb, QuotaFixed policy p q calls → (instantsOf p calls).IsChain FitsU64 →
      ta ≤ tb →
      tokensPerUnit * admittedIn p ta tb (transcript (admitCall policy) ∅ calls)
        ≤ tokensPerUnit * q.capacity + q.refillPerSecond * ((tb - ta) ⌈/⌉ nsPerMs)) ∧
    ∀ n, KeyMap.size (after (admitCall policy) ∅ (calls.take n)) ≤ policy.maxBuckets := by
  refine ⟨fun p q ta tb hq hgaps _ => ?_, fun n => size_after_le policy _⟩
  refine window_bound_from (t := 0) ?_ ?_ (fun _ _ => Nat.zero_le _) hmono hq hgaps
  · intro b hb
    simp at hb
  · intro b hb
    simp at hb

/-! ### A gap beyond `u64::MAX` milliseconds -/

theorem one_lt_word : 1 < 2 ^ 32 := by decide

/-- One token a second, and room for a single bucket. -/
def singlePolicy : RateLimitPolicy where
  default := ⟨1, 1, Nat.one_pos, one_lt_word, Nat.one_pos, one_lt_word⟩
  tiers := ∅
  maxBuckets := 1
  maxBuckets_pos := Nat.one_pos

def callOf (now : ℕ) : Call := ⟨7, "STANDARD", now⟩

/-- The instant `2 ^ 65` milliseconds in. -/
def afterTheGap : ℕ := 2 ^ 65 * nsPerMs

/-- After a gap of `2 ^ 65` milliseconds the saturated elapsed time is earned
twice at one instant, so the bound without a limit on gaps is false. -/
theorem not_window_bound_of_saturated_gap :
    ¬ ∀ policy calls, Chronological calls →
      ∀ p q ta tb, QuotaFixed policy p q calls → ta ≤ tb →
        tokensPerUnit * admittedIn p ta tb (transcript (admitCall policy) ∅ calls)
          ≤ tokensPerUnit * q.capacity + q.refillPerSecond * ((tb - ta) ⌈/⌉ nsPerMs) := by
  intro hbound
  have h := hbound singlePolicy [callOf 0, callOf afterTheGap, callOf afterTheGap]
    (by simp [Chronological, callOf, afterTheGap]) 7 singlePolicy.default afterTheGap afterTheGap
    (by simp [QuotaFixed, callOf, RateLimitPolicy.quotaFor, singlePolicy]) le_rfl
  have htwo : admittedIn 7 afterTheGap afterTheGap (transcript (admitCall singlePolicy) ∅
      [callOf 0, callOf afterTheGap, callOf afterTheGap]) = 2 := by
    decide +kernel
  rw [htwo] at h
  simp [singlePolicy, tokensPerUnit] at h

/-- Three calls within four milliseconds: one admission. -/
theorem window_bound_three_calls :
    tokensPerUnit * admittedIn 7 0 4000000
        (transcript (admitCall singlePolicy) ∅ [callOf 0, callOf 1500000, callOf 4000000])
      ≤ tokensPerUnit * 1 + 1 * ((4000000 - 0) ⌈/⌉ nsPerMs) :=
  (window_bound singlePolicy [callOf 0, callOf 1500000, callOf 4000000]
      (by simp [Chronological, callOf])).1 7 singlePolicy.default 0 4000000
    (by simp [QuotaFixed, callOf, RateLimitPolicy.quotaFor, singlePolicy])
    (by simp [instantsOf, callOf, FitsU64, nsPerMs, u64Max]) (by decide)

end RateLimiter

end AircraftApi
