/-
AircraftApi/RetryAfter.lean

What a refused caller is told to wait, and when a caller is turned away.

A refused principal's bucket stands at the call that was refused or before it,
unless an earlier call of the principal carried a later instant.  A second
later at least a thousand milliseconds have been earned, a token at every
quota; and if the bucket was swept meanwhile, the principal starts full.

    retry_after_truthful      after the wait the principal is not refused, and
                              who is turned away and when
    retry_after_too_early     a call with an instant before the principal's
                              last one is told to come back too early
-/
import AircraftApi.RateWindow

namespace AircraftApi

namespace RateLimiter

open Transition

variable {policy : RateLimitPolicy} {m : Buckets} {c : Call} {p : ℤ} {t : ℕ}

/-- Nanoseconds in a second. -/
def nsPerSecond : ℕ := 1000 * nsPerMs

/-! ### The clock of a bucket -/

/-- No refill moves a clock past both the clock and the instant. -/
theorem refill_last_le_of {b : Bucket} {q : Quota} {now : ℕ} (hb : b.last ≤ t) (hnow : now ≤ t) :
    (b.refill q now).last ≤ t := by
  rcases le_total b.last now with hle | hle
  · exact (Bucket.refill_last_le hle).trans hnow
  · have helapsed : b.elapsedMs now = 0 := by
      simp [Bucket.elapsedMs, Nat.sub_eq_zero_of_le hle]
    rw [Bucket.refill_last, helapsed]
    omega

theorem bucketFor_last_le_of {q : Quota} {now : ℕ}
    (hm : ∀ b, m.lookup p = some b → b.last ≤ t) (hnow : now ≤ t) :
    (bucketFor m p q now).last ≤ t := by
  unfold bucketFor
  rcases hp : m.lookup p with - | b
  · exact refill_last_le_of hnow hnow
  · exact refill_last_le_of (hm b hp) hnow

/-- The bucket of a principal stands at one of its calls or before. -/
theorem lookup_last_le (policy : RateLimitPolicy) {calls : List Call} (h : ∀ e ∈ calls, e.principal = p → e.now ≤ t) :
    ∀ b, (after (admitCall policy) ∅ calls).lookup p = some b → b.last ≤ t := by
  induction calls using List.reverseRecOn with
  | nil =>
      intro b hb
      simp at hb
  | append_singleton calls e ih =>
      have hbefore := ih fun d hd => h d (List.mem_append_left _ hd)
      have hnow := h e (List.mem_append_right _ (List.mem_singleton_self e))
      rw [after_append_singleton]
      generalize after (admitCall policy) ∅ calls = m at hbefore ⊢
      intro b hb
      by_cases hp : e.principal = p
      · subst hp
        by_cases hsat : (admitCall policy m e).2 = .saturated
        · rw [(admitCall_saturated hsat).2] at hb
          cases hb
        · rw [(admitCall_answered hsat).1, Option.some.injEq] at hb
          rw [← hb, Bucket.take_last]
          exact bucketFor_last_le_of hbefore (hnow rfl)
      · have hkept : (admitCall policy m e).1.lookup p = m.lookup p ∨ _ :=
          admitCall_other (Ne.symm hp)
        rcases hkept with hsame | ⟨-, -, -, hnone⟩
        · exact hbefore b (hsame ▸ hb)
        · rw [hnone] at hb
          cases hb

/-! ### The wait -/

/-- A bucket earns a token in a second, at every quota. -/
theorem refill_after_second {b : Bucket} {q : Quota} {now : ℕ} (h : b.last + nsPerSecond ≤ now) :
    tokensPerUnit ≤ (b.refill q now).units := by
  have hcap := tokensPerUnit_le_capacityUnits q
  have hmax := capacityUnits_le_u64Max q
  have helapsed : 1000 ≤ (now - b.last) / nsPerMs := by
    rw [Nat.le_div_iff_mul_le (by decide)]
    exact Nat.le_sub_of_add_le' h
  have hms : tokensPerUnit ≤ ({ b with quota := q } : Bucket).elapsedMs now :=
    le_min helapsed (by decide)
  have hearned : tokensPerUnit
      ≤ ({ b with quota := q } : Bucket).earned (({ b with quota := q } : Bucket).elapsedMs now) :=
    le_min (hms.trans (Nat.le_mul_of_pos_right _ q.refill_pos)) (by decide)
  refine le_min (le_min ?_ (by decide)) hcap
  exact hearned.trans (Nat.le_add_left _ _)

theorem take_admitted {b : Bucket} (h : tokensPerUnit ≤ b.units) : b.take.2 = .admitted := by
  rw [Bucket.take, if_neg (Nat.not_lt_of_le h)]

/-- A principal whose bucket, if it has one, has stood for a second is not
refused. -/
theorem not_refused_after_second (hm : ∀ b, m.lookup c.principal = some b →
      b.last + nsPerSecond ≤ c.now) (r : ℕ) :
    (admitCall policy m c).2 ≠ .refused r := by
  by_cases hsat : (admitCall policy m c).2 = .saturated
  · rw [hsat]
    exact nofun
  · have hunits : tokensPerUnit
        ≤ (bucketFor m c.principal (policy.quotaFor c.tier) c.now).units := by
      unfold bucketFor
      rcases hp : m.lookup c.principal with - | b
      · rw [Option.getD_none, Bucket.fresh_refill]
        exact tokensPerUnit_le_capacityUnits _
      · exact refill_after_second (hm b hp)
    rw [(admitCall_answered hsat).2, take_admitted hunits]
    exact nofun

/-- What a refusal says, and the bucket it leaves. -/
theorem refused_spec {r : ℕ} (h : (admitCall policy m c).2 = .refused r) :
    r = retryAfterSeconds ∧ (admitCall policy m c).1.lookup c.principal
      = some (bucketFor m c.principal (policy.quotaFor c.tier) c.now) := by
  have hsat : (admitCall policy m c).2 ≠ .saturated := by
    rw [h]
    exact nofun
  obtain ⟨hlookup, hanswer⟩ := admitCall_answered hsat
  rw [hanswer] at h
  rw [hlookup]
  unfold Bucket.take at h ⊢
  split_ifs at h ⊢
  cases h
  exact ⟨rfl, rfl⟩

/-- Calls of others leave a bucket as it is or drop it. -/
theorem lookup_after_others (policy : RateLimitPolicy) {calls : List Call} (h : ∀ e ∈ calls, e.principal ≠ p) :
    (after (admitCall policy) m calls).lookup p = m.lookup p ∨
      (after (admitCall policy) m calls).lookup p = none := by
  induction calls generalizing m with
  | nil => exact .inl rfl
  | cons e calls ih =>
      have hrest := ih (m := (admitCall policy m e).1) fun d hd => h d (List.mem_cons_of_mem _ hd)
      have hother := h e List.mem_cons_self
      have hkept : (admitCall policy m e).1.lookup p = m.lookup p ∨ _ :=
        admitCall_other (Ne.symm hother)
      rcases hkept with hsame | ⟨-, -, -, hnone⟩
      · rw [hsame] at hrest
        exact hrest
      · rw [hnone, or_self] at hrest
        exact .inr hrest

/-! ### Who is turned away -/

/-- A call is turned away exactly when its principal has no bucket, the store is
at its ceiling and no bucket is back at capacity by then. -/
theorem saturated_iff (hsize : KeyMap.size m ≤ policy.maxBuckets) :
    (admitCall policy m c).2 = .saturated ↔
      m.lookup c.principal = none ∧ KeyMap.size m = policy.maxBuckets ∧
        ∀ p b, m.lookup p = some b → (b.refill b.quota c.now).units < b.quota.capacityUnits := by
  have hfull : KeyMap.size (sweep m c.now) = KeyMap.size m ↔
      ∀ p b, m.lookup p = some b → (b.refill b.quota c.now).units < b.quota.capacityUnits := by
    unfold sweep
    rw [KeyMap.size_retain_eq_iff]
    refine forall_congr' fun p => forall_congr' fun b => imp_congr_right fun _ => ?_
    rw [Bool.not_eq_true', Bucket.isFullAt, decide_eq_false_iff_not, not_le]
    show _ ↔ min _ _ < _
    rw [min_lt_iff]
    exact (or_iff_left (lt_irrefl _)).symm
  have hle : KeyMap.size (sweep m c.now) ≤ KeyMap.size m := KeyMap.size_retain_le _ _
  rw [← hfull]
  unfold admitCall spend
  by_cases hroom : policy.maxBuckets ≤ KeyMap.size m ∧ (m.lookup c.principal).isNone
  · have hnone := Option.isNone_iff_eq_none.mp hroom.2
    rw [if_pos hroom]
    dsimp only
    split_ifs with hswept
    · exact iff_of_true rfl ⟨hnone, by omega, by omega⟩
    · refine iff_of_false (Bucket.take_ne_saturated _) ?_
      rintro ⟨-, -, hsame⟩
      omega
  · rw [if_neg hroom]
    refine iff_of_false (Bucket.take_ne_saturated _) ?_
    rintro ⟨hnone, hmax, -⟩
    exact hroom ⟨hmax.ge, Option.isNone_iff_eq_none.mpr hnone⟩

/-- **Retry-After**: in every run in which a call is refused whose instant is not
before the earlier ones of its principal, the principal is not refused when it
next calls, with whatever tier, after the wait it was told or later.  And after
every run a call is turned away exactly when its principal has no bucket, the
store is at its ceiling and no bucket is back at capacity by then. -/
theorem retry_after_truthful (policy : RateLimitPolicy) :
    (∀ before c between d r,
      (admitCall policy (after (admitCall policy) ∅ before) c).2 = .refused r →
      (∀ e ∈ before, e.principal = c.principal → e.now ≤ c.now) →
      (∀ e ∈ between, e.principal ≠ c.principal) → d.principal = c.principal →
      c.now + r * nsPerSecond ≤ d.now →
        ∀ s, (admitCall policy (after (admitCall policy) ∅ (before ++ c :: between)) d).2
          ≠ .refused s) ∧
    ∀ calls c, (admitCall policy (after (admitCall policy) ∅ calls) c).2 = .saturated ↔
      (after (admitCall policy) ∅ calls).lookup c.principal = none ∧
        KeyMap.size (after (admitCall policy) ∅ calls) = policy.maxBuckets ∧
        ∀ p b, (after (admitCall policy) ∅ calls).lookup p = some b →
          (b.refill b.quota c.now).units < b.quota.capacityUnits := by
  refine ⟨?_, fun calls c => saturated_iff (size_after_le policy calls)⟩
  intro before c between d r hrefused hbefore hbetween hprincipal hwait s
  -- the bucket does not stand behind the refusal
  have hclock := lookup_last_le policy hbefore
  have hrun : after (admitCall policy) ∅ (before ++ c :: between)
      = after (admitCall policy)
        (admitCall policy (after (admitCall policy) ∅ before) c).1 between := List.foldl_append
  rw [hrun]
  generalize after (admitCall policy) ∅ before = m at hrefused hclock ⊢
  obtain ⟨hr, hlookup⟩ := refused_spec hrefused
  rw [hr, retryAfterSeconds, Nat.one_mul] at hwait
  refine not_refused_after_second (fun b hb => ?_) s
  rw [hprincipal] at hb
  -- between the two calls it is kept, or evicted and made anew
  rcases lookup_after_others policy hbetween with hsame | hnone
  · rw [hsame, hlookup, Option.some.injEq] at hb
    rw [← hb]
    exact (Nat.add_le_add_right (bucketFor_last_le_of hclock le_rfl) _).trans hwait
  · rw [hnone] at hb
    cases hb

/-- A second after the refusal, and other callers in between. -/
theorem retry_after_truthful_standard :
    (admitCall singlePolicy (after (admitCall singlePolicy) ∅
        ([callOf 0] ++ callOf 1500000 :: [⟨8, "STANDARD", 2000000⟩])) (callOf 1001500000)).2
      ≠ .refused 1 := by
  refine (retry_after_truthful singlePolicy).1 [callOf 0] (callOf 1500000)
    [⟨8, "STANDARD", 2000000⟩] (callOf 1001500000) 1 (by decide +kernel) ?_ ?_ rfl (by decide) 1
  · simp [callOf]
  · simp [callOf]

/-- Out of order: a call ten milliseconds in spends the one token, the next one
carries the instant 0 and is told to wait a second, and a second after that the
bucket has stood for 990 milliseconds only. -/
theorem retry_after_too_early : ¬ ∀ policy before c between d r,
    (admitCall policy (after (admitCall policy) ∅ before) c).2 = .refused r →
    (∀ e ∈ before ++ c :: between ++ [d], e.principal = c.principal → e.tier = c.tier) →
    Chronological (c :: between ++ [d]) →
    (∀ e ∈ between, e.principal ≠ c.principal) → d.principal = c.principal →
    c.now + r * nsPerSecond ≤ d.now →
      ∀ s, (admitCall policy (after (admitCall policy) ∅ (before ++ c :: between)) d).2
        ≠ .refused s := by
  intro h
  refine h singlePolicy [callOf 10000000] (callOf 0) [] (callOf 1000000000) 1 (by decide +kernel)
    ?_ ?_ (fun _ he => absurd he List.not_mem_nil) rfl (by decide) 1 (by decide +kernel)
  · simp [callOf]
  · simp [Chronological, callOf]

end RateLimiter

end AircraftApi
