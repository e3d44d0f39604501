/-
AircraftApi/RateEviction.lean

What evicting full buckets shows to the callers, as a simulation between the
limiter and one without a ceiling, which charges every call it is given.

The unlimited limiter is fed the calls the limiter did not turn away (`kept`).
Along a run the two stores are related principal by principal (`Agrees`):
either they hold the same bucket, or the limiter holds none and the unlimited
one holds none either, or one that is full by now.  A full bucket stays full,
so sweeps and idle time keep the relation.

A principal that comes back after its bucket was swept is where the two can
part.  The unlimited limiter refills the old bucket and keeps the fraction of
a millisecond its clock is ahead of, the limiter starts a clock at the call.
The tokens are the same, the clocks are not, unless the call falls on a whole
millisecond of the old clock (`OnClock`).  `clock` reads that clock off the
instants of the principal's earlier calls, so the condition is one on the
calls; `evicted_fraction_visible` is a run that breaks it and shows.
-/
import AircraftApi.RateLimit
import AircraftApi.Transition
import Mathlib.Algebra.Order.BigOperators.Group.List
import Mathlib.Data.List.Induction

namespace AircraftApi

namespace RateLimiter

open Transition

variable {policy : RateLimitPolicy} {m u : Buckets} {c : Call} {calls : List Call}
variable {p : ℤ} {q : Quota} {t : ℕ}

/-! ### The limiter without a ceiling -/

/-- Every call is charged; nothing is swept and nobody is turned away. -/
def admitUnlimited (policy : RateLimitPolicy) (u : Buckets) (c : Call) :
    Buckets × Admission :=
  charge u c.principal (policy.quotaFor c.tier) c.now

/-- The answers that say something about the principal's own rate. -/
def answered (policy : RateLimitPolicy) (calls : List Call) : List (Call × Admission) :=
  (transcript (admitCall policy) ∅ calls).filter fun answer => answer.2 ≠ .saturated

/-- The calls that got such an answer. -/
def kept (policy : RateLimitPolicy) (calls : List Call) : List Call :=
  (answered policy calls).map Prod.fst

/-- Each principal keeps one tier. -/
def OneTier (calls : List Call) : Prop :=
  ∀ c ∈ calls, ∀ d ∈ calls, c.principal = d.principal → c.tier = d.tier

/-! ### The clock of a principal -/

/-- A clock that stands at `last`, caught up with `now` by whole milliseconds. -/
def catchUp (last now : ℕ) : ℕ := last + min ((now - last) / nsPerMs) u64Max * nsPerMs

/-- The clock of `p` after calls at these instants: started by the first and
caught up by each. -/
def clock (p : ℤ) (calls : List Call) : Option ℕ :=
  calls.foldl (fun o c => if c.principal = p then some ((o.map (catchUp · c.now)).getD c.now)
    else o) none

/-- `now` is a whole number of milliseconds after the clock, and no more of
them than a `u64` counts. -/
def OnClock (last now : ℕ) : Prop :=
  nsPerMs ∣ now - last ∧ (now - last) / nsPerMs ≤ u64Max

instance (last now : ℕ) : Decidable (OnClock last now) :=
  inferInstanceAs (Decidable (_ ∧ _))

/-- The store can take another principal, if need be after a sweep. -/
def HasRoom (policy : RateLimitPolicy) (m : Buckets) (now : ℕ) : Prop :=
  KeyMap.size m < policy.maxBuckets ∨ KeyMap.size (sweep m now) < policy.maxBuckets

instance (policy : RateLimitPolicy) (m : Buckets) (now : ℕ) :
    Decidable (HasRoom policy m now) :=
  inferInstanceAs (Decidable (_ ∨ _))

/-- Whoever is let in without a bucket, having been let in before, comes on a
whole millisecond of its clock. -/
def ReturnsOnClock (policy : RateLimitPolicy) (calls : List Call) : Prop :=
  ∀ before c rest, calls = before ++ c :: rest →
    (after (admitCall policy) ∅ before).lookup c.principal = none →
    HasRoom policy (after (admitCall policy) ∅ before) c.now →
    ∀ last ∈ clock c.principal (kept policy before), OnClock last c.now

/-! ### One step further -/

theorem answered_append_singleton :
    answered policy (calls ++ [c]) = answered policy calls ++
      if (admitCall policy (after (admitCall policy) ∅ calls) c).2 = .saturated then []
      else [(c, (admitCall policy (after (admitCall policy) ∅ calls) c).2)] := by
  rw [answered, transcript_append_singleton, List.filter_append, ← answered]
  by_cases hsat : (admitCall policy (after (admitCall policy) ∅ calls) c).2 = .saturated <;>
    simp [hsat]

theorem kept_append_singleton :
    kept policy (calls ++ [c]) = kept policy calls ++
      if (admitCall policy (after (admitCall policy) ∅ calls) c).2 = .saturated then [] else [c] := by
  rw [kept, answered_append_singleton, List.map_append, ← kept]
  split <;> rfl

theorem clock_append_self (hp : c.principal = p) :
    clock p (calls ++ [c]) = some (((clock p calls).map (catchUp · c.now)).getD c.now) := by
  simp [clock, hp]

theorem clock_append_other (hp : c.principal ≠ p) :
    clock p (calls ++ [c]) = clock p calls := by
  simp [clock, hp]

theorem admitUnlimited_answer : (admitUnlimited policy u c).2
    = (bucketFor u c.principal (policy.quotaFor c.tier) c.now).take.2 := rfl

theorem admitUnlimited_self : (admitUnlimited policy u c).1.lookup c.principal
    = some (bucketFor u c.principal (policy.quotaFor c.tier) c.now).take.1 :=
  AList.lookup_insert _

theorem admitUnlimited_other (hp : p ≠ c.principal) :
    (admitUnlimited policy u c).1.lookup p = u.lookup p :=
  AList.lookup_insert_ne hp

/-- Whoever has no bucket and is answered found room. -/
theorem hasRoom_of_ne_saturated (hnone : m.lookup c.principal = none)
    (hsat : (admitCall policy m c).2 ≠ .saturated) : HasRoom policy m c.now := by
  rcases admitCall_cases policy m c with ⟨-, heq⟩ | ⟨m', hm', hroom, -⟩
  · simp [heq] at hsat
  · have hout : c.principal ∉ m' := by
      rw [← AList.lookup_eq_none]
      rcases hm' with rfl | ⟨-, rfl⟩
      · exact hnone
      · exact lookup_sweep_of_none hnone
    rcases hm' with rfl | ⟨-, rfl⟩
    · exact .inl (hroom.resolve_right hout)
    · exact .inr (hroom.resolve_right hout)

/-! ### The simulation relation -/

/-- The limiter's view `o` of a principal against the unlimited one's. -/
def Agrees (t : ℕ) (o o' : Option Bucket) : Prop :=
  o = o' ∨ o = none ∧ ∃ b, o' = some b ∧ b.isFullAt t

theorem agrees_mono {o o' : Option Bucket} {t' : ℕ} (h : Agrees t o o') (ht : t ≤ t') :
    Agrees t' o o' := by
  rcases h with h | ⟨ho, b, hb, hfull⟩
  · exact .inl h
  · exact .inr ⟨ho, b, hb, Bucket.isFullAt_mono ht hfull⟩

/-- Another principal's call can only drop a bucket that is full. -/
theorem agrees_admitCall_other {o' : Option Bucket} (hp : p ≠ c.principal)
    (h : Agrees c.now (m.lookup p) o') : Agrees c.now ((admitCall policy m c).1.lookup p) o' := by
  rcases @admitCall_other policy m c p hp with hsame | ⟨b, hb, hfull, hnone⟩
  · rwa [hsame]
  · rcases h with rfl | ⟨hout, -⟩
    · exact .inr ⟨hnone, b, hb, hfull⟩
    · simp [hb] at hout

/-- A full bucket refilled on a whole millisecond of its clock is a fresh one. -/
theorem refill_eq_fresh {b : Bucket} {now : ℕ} (hfull : b.isFullAt now) (hlast : b.last ≤ now)
    (hclock : OnClock b.last now) : b.refill b.quota now = .fresh b.quota now := by
  have hunits := Bucket.refill_units_of_isFullAt hfull
  have hcaught : (b.refill b.quota now).last = now := by
    have he : b.elapsedMs now = (now - b.last) / nsPerMs := Nat.min_eq_left hclock.2
    rw [Bucket.refill_last, he, Nat.div_mul_cancel hclock.1]
    omega
  exact congrArg₂ (Bucket.mk · · b.quota) hunits hcaught

/-- Views that agree give the same bucket to charge, provided that whoever
lost a bucket comes on its clock. -/
theorem bucketFor_eq_of_agrees (hagree : Agrees t (m.lookup p) (u.lookup p))
    (hback : m.lookup p = none → ∀ b, u.lookup p = some b →
      b.quota = q ∧ b.last ≤ t ∧ OnClock b.last t) :
    bucketFor m p q t = bucketFor u p q t := by
  rcases hagree with heq | ⟨hnone, b, hb, hfull⟩
  · simp only [bucketFor, heq]
  · obtain ⟨rfl, hlast, hclock⟩ := hback hnone b hb
    simp only [bucketFor, hnone, hb, Option.getD_none, Option.getD_some,
      Bucket.fresh_refill]
    exact (refill_eq_fresh hfull hlast hclock).symm

/-- The two limiters after `calls`, none of them later than `t`. -/
structure Simulates (policy : RateLimitPolicy) (calls : List Call) (t : ℕ) : Prop where
  agrees : ∀ p, Agrees t ((after (admitCall policy) ∅ calls).lookup p)
    ((after (admitUnlimited policy) ∅ (kept policy calls)).lookup p)
  bucket : ∀ p b,
    (after (admitUnlimited policy) ∅ (kept policy calls)).lookup p = some b →
      (∃ d ∈ calls, d.principal = p ∧ b.quota = policy.quotaFor d.tier) ∧
      b.last ≤ t ∧ clock p (kept policy calls) = some b.last
  clockless : ∀ p,
    (after (admitUnlimited policy) ∅ (kept policy calls)).lookup p = none →
      clock p (kept policy calls) = none
  answers : answered policy calls
    = transcript (admitUnlimited policy) ∅ (kept policy calls)

theorem Simulates.mono {t' : ℕ} (hsim : Simulates policy calls t) (ht : t ≤ t') :
    Simulates policy calls t' where
  agrees := fun p => agrees_mono (hsim.agrees p) ht
  bucket := fun p b hb =>
    have h := hsim.bucket p b hb
    ⟨h.1, h.2.1.trans ht, h.2.2⟩
  clockless := hsim.clockless
  answers := hsim.answers

theorem simulates_nil : Simulates policy [] t where
  agrees := fun _ => .inl rfl
  bucket := by simp [kept, answered]
  clockless := fun _ _ => rfl
  answers := rfl

/-- A call that is turned away changes the limiter only by its sweep. -/
theorem Simulates.append_saturated (hsim : Simulates policy calls t) (ht : t ≤ c.now)
    (hsat : (admitCall policy (after (admitCall policy) ∅ calls) c).2 = .saturated) :
    Simulates policy (calls ++ [c]) c.now := by
  have hkept : kept policy (calls ++ [c]) = kept policy calls := by
    rw [kept_append_singleton, if_pos hsat, List.append_nil]
  refine ⟨fun p => ?_, fun p b hb => ?_, ?_, ?_⟩
  · rw [hkept, after_append_singleton]
    have hagree := agrees_mono (hsim.agrees p) ht
    by_cases hp : p = c.principal
    · subst hp
      obtain ⟨hbefore, hafter⟩ := admitCall_saturated hsat
      rwa [hafter, ← hbefore]
    · exact agrees_admitCall_other hp hagree
  · rw [hkept] at hb ⊢
    obtain ⟨⟨d, hd, hquota⟩, hlast, hclock⟩ := hsim.bucket p b hb
    exact ⟨⟨d, List.mem_append_left _ hd, hquota⟩, hlast.trans ht, hclock⟩
  · rw [hkept]
    exact hsim.clockless
  · rw [hkept, answered_append_singleton, if_pos hsat, List.append_nil]
    exact hsim.answers

theorem refill_last_eq_catchUp (b : Bucket) :
    (b.refill q t).last = catchUp b.last t := by
  rw [Bucket.refill_last, Bucket.elapsedMs, catchUp]

/-- The clock of an unlimited bucket is the principal's. -/
theorem last_bucketFor (hsome : ∀ b, u.lookup c.principal = some b →
      clock c.principal calls = some b.last)
    (hnone : u.lookup c.principal = none → clock c.principal calls = none) :
    clock c.principal (calls ++ [c]) = some (bucketFor u c.principal q c.now).last := by
  rw [clock_append_self rfl]
  rcases hu : u.lookup c.principal with - | b
  · simp [bucketFor, hu, hnone hu]
  · rw [hsome b hu, bucketFor, hu, Option.getD_some, refill_last_eq_catchUp,
      Option.map_some, Option.getD_some]

/-- A call that is answered charges the same bucket in both. -/
theorem Simulates.append_answered (hsim : Simulates policy calls t) (ht : t ≤ c.now)
    (hsat : (admitCall policy (after (admitCall policy) ∅ calls) c).2 ≠ .saturated)
    (htier : ∀ d ∈ calls, d.principal = c.principal → d.tier = c.tier)
    (hclock : (after (admitCall policy) ∅ calls).lookup c.principal = none →
      HasRoom policy (after (admitCall policy) ∅ calls) c.now →
      ∀ last ∈ clock c.principal (kept policy calls), OnClock last c.now) :
    Simulates policy (calls ++ [c]) c.now := by
  have hkept : kept policy (calls ++ [c]) = kept policy calls ++ [c] := by
    rw [kept_append_singleton, if_neg hsat]
  set m := after (admitCall policy) ∅ calls with hm
  set u := after (admitUnlimited policy) ∅ (kept policy calls) with hu
  have hu' : after (admitUnlimited policy) ∅ (kept policy (calls ++ [c]))
      = (admitUnlimited policy u c).1 := by
    rw [hkept, after_append_singleton]
  -- both start from the same bucket, be it stored or made anew
  have hbucket : bucketFor m c.principal (policy.quotaFor c.tier) c.now
      = bucketFor u c.principal (policy.quotaFor c.tier) c.now := by
    refine bucketFor_eq_of_agrees (agrees_mono (hsim.agrees c.principal) ht) ?_
    intro hnone b hb
    obtain ⟨⟨d, hd, hdp, hquota⟩, hlast, hstands⟩ := hsim.bucket c.principal b hb
    exact ⟨by rw [hquota, htier d hd hdp], hlast.trans ht,
      hclock hnone (hasRoom_of_ne_saturated hnone hsat) _ hstands⟩
  obtain ⟨hlookup, hanswer⟩ := admitCall_answered hsat
  refine ⟨fun p => ?_, fun p b hb => ?_, fun p hp => ?_, ?_⟩
  · rw [hu', after_append_singleton, ← hm]
    by_cases hp : p = c.principal
    · subst hp
      exact .inl (by rw [hlookup, admitUnlimited_self, hbucket])
    · rw [admitUnlimited_other hp]
      exact agrees_admitCall_other hp (agrees_mono (hsim.agrees p) ht)
  · rw [hu'] at hb
    rw [hkept]
    by_cases hp : p = c.principal
    · subst hp
      rw [admitUnlimited_self] at hb
      obtain rfl := Option.some.inj hb
      refine ⟨⟨c, by simp, rfl, by rw [Bucket.take_quota, bucketFor_quota]⟩, ?_, ?_⟩
      · rw [Bucket.take_last]
        rcases hlu : u.lookup c.principal with - | b
        · simp [bucketFor, hlu]
        · simpa [bucketFor, hlu] using
            Bucket.refill_last_le ((hsim.bucket _ b hlu).2.1.trans ht)
      · rw [Bucket.take_last]
        exact last_bucketFor (fun b hb => (hsim.bucket _ b hb).2.2) (hsim.clockless _)
    · rw [admitUnlimited_other hp] at hb
      obtain ⟨⟨d, hd, hquota⟩, hlast, hstands⟩ := hsim.bucket p b hb
      rw [clock_append_other (Ne.symm hp)]
      exact ⟨⟨d, List.mem_append_left _ hd, hquota⟩, hlast.trans ht, hstands⟩
  · rw [hu'] at hp
    by_cases hpc : p = c.principal
    · subst hpc
      simp [admitUnlimited_self] at hp
    · rw [admitUnlimited_other hpc] at hp
      rw [hkept, clock_append_other (Ne.symm hpc)]
      exact hsim.clockless p hp
  · rw [hkept, answered_append_singleton, transcript_append_singleton, if_neg hsat,
      hsim.answers, hanswer, hbucket, admitUnlimited_answer]

theorem returnsOnClock_init (h : ReturnsOnClock policy (calls ++ [c])) :
    ReturnsOnClock policy calls := by
  intro before d rest heq
  exact h before d (rest ++ [c]) (by simp [heq])

theorem oneTier_init (h : OneTier (calls ++ [c])) : OneTier calls :=
  fun d hd e he => h d (List.mem_append_left _ hd) e (List.mem_append_left _ he)

/-- **The simulation**, along a whole run. -/
theorem simulates (hmono : Chronological calls) (htier : OneTier calls)
    (hback : ReturnsOnClock policy calls) (ht : ∀ c ∈ calls, c.now ≤ t) :
    Simulates policy calls t := by
  induction calls using List.reverseRecOn generalizing t with
  | nil => exact simulates_nil
  | append_singleton calls c ih =>
      obtain ⟨hmono', -, hlast⟩ := List.pairwise_append.mp hmono
      have hsim : Simulates policy calls c.now :=
        ih hmono' (oneTier_init htier) (returnsOnClock_init hback)
          fun d hd => hlast d hd c (by simp)
      have hct : c.now ≤ t := ht c (by simp)
      refine (?_ : Simulates policy (calls ++ [c]) c.now).mono hct
      by_cases hsat : (admitCall policy (after (admitCall policy) ∅ calls) c).2 = .saturated
      · exact hsim.append_saturated le_rfl hsat
      · exact hsim.append_answered le_rfl hsat
          (fun d hd hp => htier d (by simp [hd]) c (by simp) hp) (hback calls c [] rfl)

/-! ### Isolation -/

/-- Without a ceiling the answers of a principal are those of its own calls. -/
theorem transcript_unlimited_filter {u u' : Buckets} (h : u.lookup p = u'.lookup p) :
    (transcript (admitUnlimited policy) u calls).filter (fun answer => answer.1.principal = p)
      = transcript (admitUnlimited policy) u' (calls.filter fun c => c.principal = p) := by
  induction calls generalizing u u' with
  | nil => rfl
  | cons c calls ih =>
      by_cases hp : c.principal = p
      · subst hp
        have hbucket : bucketFor u c.principal = bucketFor u' c.principal := by
          funext q now
          simp only [bucketFor, h]
        have hnext : (admitUnlimited policy u c).1.lookup c.principal
            = (admitUnlimited policy u' c).1.lookup c.principal := by
          rw [admitUnlimited_self, admitUnlimited_self, hbucket]
        have hanswer : (admitUnlimited policy u c).2 = (admitUnlimited policy u' c).2 := by
          rw [admitUnlimited_answer, admitUnlimited_answer, hbucket]
        rw [List.filter_cons_of_pos (by simp)]
        simp only [transcript, hanswer, decide_true, List.filter_cons_of_pos, ih hnext]
      · have hnext : (admitUnlimited policy u c).1.lookup p = u'.lookup p :=
          (admitUnlimited_other (Ne.symm hp)).trans h
        rw [List.filter_cons_of_neg (by simpa using hp)]
        simp only [transcript, hp, decide_false, Bool.false_eq_true, not_false_eq_true,
          List.filter_cons_of_neg, ih hnext]

/-- **Eviction is invisible** to a run whose evicted principals return on the
clock: the answers are those of the unlimited limiter on the kept calls, and
each principal's are those of its own. -/
theorem eviction_invisible (policy : RateLimitPolicy) (calls : List Call)
    (hmono : Chronological calls) (htier : OneTier calls)
    (hback : ReturnsOnClock policy calls) :
    answered policy calls = transcript (admitUnlimited policy) ∅ (kept policy calls) ∧
      ∀ p, (answered policy calls).filter (fun answer => answer.1.principal = p)
        = transcript (admitUnlimited policy) ∅
            ((kept policy calls).filter fun c => c.principal = p) := by
  have hlatest : ∀ c ∈ calls, c.now ≤ (calls.map Call.now).sum := fun c hc =>
    List.le_sum_of_mem (List.mem_map_of_mem hc)
  have hanswers := (simulates hmono htier hback hlatest).answers
  refine ⟨hanswers, fun p => ?_⟩
  rw [hanswers]
  exact transcript_unlimited_filter rfl

/-! ### A return off the clock -/

/-- A thousand tokens a second, one at a time, and room for two buckets. -/
def pairPolicy : RateLimitPolicy where
  default := ⟨1, 1000, by decide, by decide, by decide, by decide⟩
  tiers := ∅
  maxBuckets := 2
  maxBuckets_pos := by decide

/-- Principal 1 is swept out at 1.2 ms and comes back at 1.5 ms. -/
def sweptCalls : List Call :=
  [⟨1, "STANDARD", 0⟩, ⟨2, "STANDARD", 0⟩, ⟨3, "STANDARD", 1200000⟩,
    ⟨1, "STANDARD", 1500000⟩, ⟨1, "STANDARD", 2000000⟩]

/-- The swept bucket had half a millisecond on its clock; half a millisecond
later the unlimited limiter admits the call that the limiter refuses. -/
theorem evicted_fraction_visible :
    ¬ ∀ policy calls, Chronological calls → OneTier calls →
      answered policy calls = transcript (admitUnlimited policy) ∅ (kept policy calls) := by
  intro hinvisible
  have h := hinvisible pairPolicy sweptCalls (by simp [Chronological, sweptCalls])
    (by simp [OneTier, sweptCalls])
  have hlimited : (answered pairPolicy sweptCalls).getLast?.map Prod.snd
      = some (.refused retryAfterSeconds) := by
    decide +kernel
  have hunlimited : (transcript (admitUnlimited pairPolicy) ∅
      (kept pairPolicy sweptCalls)).getLast?.map Prod.snd = some .admitted := by
    decide +kernel
  rw [h, hunlimited] at hlimited
  simp at hlimited

/-- Principal 1 is swept out at 1.2 ms and comes back at 2 ms. -/
def returningCalls : List Call :=
  [⟨1, "STANDARD", 0⟩, ⟨2, "STANDARD", 0⟩, ⟨3, "STANDARD", 1200000⟩,
    ⟨1, "STANDARD", 2000000⟩]

theorem returningCalls_onClock : ReturnsOnClock pairPolicy returningCalls := by
  rintro before c rest hsplit
  rcases before with - | ⟨b₀, - | ⟨b₁, - | ⟨b₂, - | ⟨b₃, before⟩⟩⟩⟩ <;>
    simp [returningCalls] at hsplit
  · obtain ⟨rfl, -⟩ := hsplit
    decide +kernel
  · obtain ⟨rfl, rfl, -⟩ := hsplit
    decide +kernel
  · obtain ⟨rfl, rfl, rfl, -⟩ := hsplit
    decide +kernel
  · obtain ⟨rfl, rfl, rfl, rfl, -⟩ := hsplit
    decide +kernel

/-- A whole number of milliseconds after its clock the return does not show. -/
theorem eviction_invisible_returningCalls :
    answered pairPolicy returningCalls
      = transcript (admitUnlimited pairPolicy) ∅ (kept pairPolicy returningCalls) :=
  (eviction_invisible pairPolicy returningCalls (by simp [Chronological, returningCalls])
    (by simp [OneTier, returningCalls]) returningCalls_onClock).1

end RateLimiter

end AircraftApi
