/-
AircraftApi/RoutePolicy.lean

The policy in front of a handler, `aircraft_api::routes::Policed`.

A scoped route authenticates, then spends a token of the principal, then compares
the scope, and only then calls its handler.  `Policed.call` is one request against
the limiter's buckets; a request touches the limiter once, under its lock, so every
interleaving of requests is a list of arrivals in the order of those calls.  The
credential store may change at any time, so every arrival brings its own lookup.
-/
import AircraftApi.Authentication
import AircraftApi.RateLimit
import AircraftApi.Transition

namespace AircraftApi

namespace Routes

open Authentication Problem Transition

/-- What a route asks for. -/
inductive RoutePolicy
  | anyone
  | catalogRead
  | militaryRead
  | curationRead
  | curationWrite
  | admin
  deriving DecidableEq

/-- `RoutePolicy::required_scope`; `anyone` is `RoutePolicy::Public`. -/
def RoutePolicy.requiredScope : RoutePolicy → Option Scope
  | anyone => none
  | catalogRead => some .catalogRead
  | militaryRead => some .militaryRead
  | curationRead => some .curationRead
  | curationWrite => some .curationWrite
  | admin => some .admin

/-- The path a refusal names. -/
def instanceOf (request : Request) : String := request.originalUri.getD request.uriPath

/-- The handler runs on a request, or a problem is the response. -/
inductive Answer
  | handled (request : Request)
  | problem (response : ProblemResponse)
  deriving DecidableEq

/-- A request at a route, with the stored credentials and the instant it meets. -/
structure Arrival where
  policy : RoutePolicy
  request : Request
  lookup : Lookup
  now : ℕ

/-- The answer, and the key identifiers that were looked up for it. -/
structure Served where
  answer : Answer
  lookups : List Uuid
  deriving DecidableEq

variable (crates : AuthCrates) (limits : RateLimitPolicy)

/-- The answer that refuses. -/
def refusal (kind : ProblemKind) (path : String) : Answer :=
  .problem (ApiProblem.new crates.parseUri kind path).intoResponse

/-- The `admit` call of a principal's request. -/
def callOf (principal : AuthenticatedPrincipal) (now : ℕ) : Call :=
  ⟨principal.principalId, principal.tier, now⟩

/-- A request goes through the layers in the order they are composed. -/
def Policed.call (buckets : Buckets) (arrival : Arrival) : Buckets × Served :=
  match arrival.policy.requiredScope with
  | none => (buckets, ⟨.handled arrival.request, []⟩)
  | some required =>
      let path := instanceOf arrival.request
      match authenticate crates arrival.lookup arrival.request path with
      | (.error problem, _, lookups) => (buckets, ⟨.problem problem.intoResponse, lookups⟩)
      | (.ok principal, request, lookups) =>
          let (buckets, admission) := RateLimiter.admitCall limits buckets (callOf principal arrival.now)
          match admission with
          | .refused seconds => (buckets, ⟨refusal crates (.rateLimited seconds) path, lookups⟩)
          | .saturated => (buckets, ⟨refusal crates .overloaded path, lookups⟩)
          | .admitted =>
              if required ∈ principal.scopes then
                (buckets, ⟨.handled { request with principal := some principal }, lookups⟩)
              else
                (buckets, ⟨refusal crates (.insufficientScope required.required) path, lookups⟩)

/-! ### What a policy promises -/

/-- One token of the principal's refilled bucket is spent and nothing else is, though a
bucket that is full again may be dropped. -/
structure Spends (limits : RateLimitPolicy) (m m' : Buckets) (c : Call) : Prop where
  had : tokensPerUnit
    ≤ (RateLimiter.bucketFor m c.principal (limits.quotaFor c.tier) c.now).units
  own : m'.lookup c.principal =
    let bucket := RateLimiter.bucketFor m c.principal (limits.quotaFor c.tier) c.now
    some { bucket with units := bucket.units - tokensPerUnit }
  others : ∀ p, p ≠ c.principal → m'.lookup p = m.lookup p ∨
    ∃ b, m.lookup p = some b ∧ b.isFullAt c.now ∧ m'.lookup p = none

/-- What one arrival at a route of a scope does to the buckets, and is answered. -/
structure Enforced (crates : AuthCrates) (limits : RateLimitPolicy) (m : Buckets)
    (arrival : Arrival) (scope : Scope) (m' : Buckets) (served : Served) : Prop where
  handled_iff : ∀ request, served.answer = .handled request ↔
    ∃ principal, Authenticates crates arrival.lookup arrival.request principal ∧
      (RateLimiter.admitCall limits m (callOf principal arrival.now)).2 = .admitted ∧
      scope ∈ principal.scopes ∧
      request = { arrival.request.withoutAuthorization with principal := some principal }
  header_removed : ∀ request, served.answer = .handled request → request.authorizations = []
  spends : ∀ principal, Authenticates crates arrival.lookup arrival.request principal →
    (RateLimiter.admitCall limits m (callOf principal arrival.now)).2 = .admitted →
    Spends limits m m' (callOf principal arrival.now)
  forbidden : ∀ principal, Authenticates crates arrival.lookup arrival.request principal →
    (RateLimiter.admitCall limits m (callOf principal arrival.now)).2 = .admitted →
    scope ∉ principal.scopes →
    served.answer
      = refusal crates (.insufficientScope scope.required) (instanceOf arrival.request)
  unauthenticated : (∀ principal, ¬ Authenticates crates arrival.lookup arrival.request principal) →
    m' = m
  no_lookup : Malformed crates arrival.request → served.lookups = []

variable {crates} {limits} {m : Buckets} {arrival : Arrival} {scope : Scope}
  {principal : AuthenticatedPrincipal}

theorem withoutAuthorization_authorizations (request : Request) :
    request.withoutAuthorization.authorizations = [] := by
  simp [Request.authorizations, Request.withoutAuthorization, List.filter_filter]

/-- An admitted call spends. -/
theorem spends_of_admitted {c : Call} (h : (RateLimiter.admitCall limits m c).2 = .admitted) :
    Spends limits m (RateLimiter.admitCall limits m c).1 c := by
  have hanswered : (RateLimiter.admitCall limits m c).2 ≠ .saturated := by simp [h]
  obtain ⟨hown, htaken⟩ := RateLimiter.admitCall_answered hanswered
  rw [h] at htaken
  by_cases hshort : (RateLimiter.bucketFor m c.principal (limits.quotaFor c.tier) c.now).units
      < tokensPerUnit
  · rw [Bucket.take, if_pos hshort] at htaken
    cases htaken
  · refine ⟨not_lt.mp hshort, ?_, fun p hp => RateLimiter.admitCall_other hp⟩
    rw [hown, Bucket.take, if_neg hshort]

/-! ### One request -/

/-- A request from nobody is answered for its credentials and changes nothing. -/
theorem call_of_error (hscope : arrival.policy.requiredScope = some scope) {problem : ApiProblem}
    (h : (authenticate crates arrival.lookup arrival.request (instanceOf arrival.request)).1
      = .error problem) :
    Policed.call crates limits m arrival
      = (m, ⟨.problem problem.intoResponse,
          (authenticate crates arrival.lookup arrival.request
            (instanceOf arrival.request)).2.2⟩) := by
  unfold Policed.call
  rw [hscope]
  dsimp only
  rcases hauth : authenticate crates arrival.lookup arrival.request (instanceOf arrival.request)
    with ⟨answer, request, lookups⟩
  rw [hauth] at h
  dsimp only at h
  subst h
  rfl

/-- A principal's request is answered by the limiter, then by the scope. -/
theorem call_of_ok (hscope : arrival.policy.requiredScope = some scope)
    (h : Authenticates crates arrival.lookup arrival.request principal) :
    Policed.call crates limits m arrival
      = ((RateLimiter.admitCall limits m (callOf principal arrival.now)).1,
          ⟨match (RateLimiter.admitCall limits m (callOf principal arrival.now)).2 with
            | .refused seconds =>
                refusal crates (.rateLimited seconds) (instanceOf arrival.request)
            | .saturated => refusal crates .overloaded (instanceOf arrival.request)
            | .admitted =>
                if scope ∈ principal.scopes then
                  .handled
                    { arrival.request.withoutAuthorization with principal := some principal }
                else refusal crates (.insufficientScope scope.required)
                  (instanceOf arrival.request),
            (authenticate crates arrival.lookup arrival.request
              (instanceOf arrival.request)).2.2⟩) := by
  have hok : (authenticate crates arrival.lookup arrival.request
      (instanceOf arrival.request)).1 = .ok principal := authenticate_ok_iff.mpr h
  -- the handler sees the request without its token
  have hrequest : (authenticate crates arrival.lookup arrival.request
      (instanceOf arrival.request)).2.1 = arrival.request.withoutAuthorization :=
    authenticate_request
  unfold Policed.call
  rw [hscope]
  dsimp only
  rcases hauth : authenticate crates arrival.lookup arrival.request (instanceOf arrival.request)
    with ⟨answer, request, lookups⟩
  rw [hauth] at hok hrequest
  dsimp only at hok hrequest
  subst hok hrequest
  rcases hadmission : RateLimiter.admitCall limits m (callOf principal arrival.now) with
    ⟨buckets, - | seconds | -⟩
  · simp only [hadmission]
    split_ifs <;> rfl
  · simp only [hadmission]
  · simp only [hadmission]

/-- Whatever the answer, the key identifiers looked up are those `authenticate` asks for. -/
theorem call_lookups (hscope : arrival.policy.requiredScope = some scope) :
    (Policed.call crates limits m arrival).2.lookups
      = (candidateOf crates arrival.request).toList.map CredentialCandidate.keyId := by
  have hlookups : (authenticate crates arrival.lookup arrival.request
      (instanceOf arrival.request)).2.2
        = (candidateOf crates arrival.request).toList.map CredentialCandidate.keyId :=
    authenticate_lookups
  rcases hauth : (authenticate crates arrival.lookup arrival.request
    (instanceOf arrival.request)).1 with problem | principal
  · rw [call_of_error hscope hauth, ← hlookups]
  · rw [call_of_ok hscope (authenticate_ok_iff.mp hauth), ← hlookups]

/-- **A handler runs exactly for the admitted requests of a principal with the scope.** -/
theorem handled_iff (hscope : arrival.policy.requiredScope = some scope) {request : Request} :
    (Policed.call crates limits m arrival).2.answer = .handled request ↔
      ∃ principal, Authenticates crates arrival.lookup arrival.request principal ∧
        (RateLimiter.admitCall limits m (callOf principal arrival.now)).2 = .admitted ∧
        scope ∈ principal.scopes ∧
        request = { arrival.request.withoutAuthorization with principal := some principal } := by
  constructor
  · intro h
    rcases hauth : (authenticate crates arrival.lookup arrival.request
      (instanceOf arrival.request)).1 with problem | principal
    · rw [call_of_error hscope hauth] at h
      cases h
    · have hprincipal := authenticate_ok_iff.mp hauth
      rw [call_of_ok hscope hprincipal] at h
      rcases hadmission : (RateLimiter.admitCall limits m (callOf principal arrival.now)).2
        with - | seconds | -
      · simp only [hadmission] at h
        split_ifs at h with hheld
        · exact ⟨principal, hprincipal, hadmission, hheld, (Answer.handled.inj h).symm⟩
        · cases h
      · simp only [hadmission] at h
        cases h
      · simp only [hadmission] at h
        cases h
  · rintro ⟨principal, hprincipal, hadmission, hheld, rfl⟩
    rw [call_of_ok hscope hprincipal]
    simp only [hadmission, if_pos hheld]

/-- A refused request of any route that asks for a scope has the answer of its path. -/
theorem call_refused (hscope : arrival.policy.requiredScope = some scope)
    (h : Refused crates arrival.lookup arrival.request) :
    (Policed.call crates limits m arrival).2.answer
      = refusal crates .authenticationRequired (instanceOf arrival.request) := by
  rw [call_of_error hscope (authenticate_refused h), refusal]

theorem enforced (hscope : arrival.policy.requiredScope = some scope) :
    Enforced crates limits m arrival scope (Policed.call crates limits m arrival).1
      (Policed.call crates limits m arrival).2 where
  handled_iff request := handled_iff hscope
  header_removed := by
    intro request h
    obtain ⟨principal, -, -, -, rfl⟩ := (handled_iff hscope).mp h
    exact withoutAuthorization_authorizations arrival.request
  spends := by
    intro principal hprincipal hadmitted
    rw [call_of_ok hscope hprincipal]
    exact spends_of_admitted hadmitted
  forbidden := by
    intro principal hprincipal hadmitted hheld
    rw [call_of_ok hscope hprincipal]
    simp only [hadmitted, if_neg hheld]
  unauthenticated := by
    intro h
    rcases hauth : (authenticate crates arrival.lookup arrival.request
      (instanceOf arrival.request)).1 with problem | principal
    · rw [call_of_error hscope hauth]
    · exact absurd (authenticate_ok_iff.mp hauth) (h principal)
  no_lookup := by
    intro h
    rw [call_lookups hscope, malformed_iff.mp h, Option.toList_none, List.map_nil]

/-! ### Every run -/

/-- **Route policies are enforced**: in every run, each arrival at a scoped route is answered
as its policy says, and the refusals for credentials at one path are one response. -/
theorem scoped_routes_enforced (crates : AuthCrates) (limits : RateLimitPolicy)
    (start : Buckets) (arrivals : List Arrival) :
    (∀ earlier arrival later scope, arrivals = earlier ++ arrival :: later →
      arrival.policy.requiredScope = some scope →
      Enforced crates limits (after (Policed.call crates limits) start earlier) arrival scope
        (after (Policed.call crates limits) start (earlier ++ [arrival]))
        (Policed.call crates limits
          (after (Policed.call crates limits) start earlier) arrival).2) ∧
    ∀ entry ∈ transcript (Policed.call crates limits) start arrivals,
      ∀ entry' ∈ transcript (Policed.call crates limits) start arrivals,
        entry.1.policy.requiredScope ≠ none → entry'.1.policy.requiredScope ≠ none →
        Refused crates entry.1.lookup entry.1.request →
        Refused crates entry'.1.lookup entry'.1.request →
        instanceOf entry.1.request = instanceOf entry'.1.request →
        entry.2.answer = entry'.2.answer := by
  -- a refusal says nothing but the path it happened on
  have hrefused : ∀ entry ∈ transcript (Policed.call crates limits) start arrivals,
      entry.1.policy.requiredScope ≠ none → Refused crates entry.1.lookup entry.1.request →
      entry.2.answer
        = refusal crates .authenticationRequired (instanceOf entry.1.request) := by
    refine forall_mem_transcript (P := fun (arrival : Arrival) (served : Served) =>
      arrival.policy.requiredScope ≠ none → Refused crates arrival.lookup arrival.request →
      served.answer = refusal crates .authenticationRequired (instanceOf arrival.request)) ?_
    intro m arrival hpolicy h
    obtain ⟨scope, hscope⟩ := Option.ne_none_iff_exists'.mp hpolicy
    exact call_refused hscope h
  constructor
  · intro earlier arrival later scope _ hscope
    rw [after_append_singleton]
    exact enforced hscope
  · intro entry hentry entry' hentry' hpolicy hpolicy' h h' hpath
    rw [hrefused entry hentry hpolicy h, hrefused entry' hentry' hpolicy' h', hpath]

end Routes

end AircraftApi
