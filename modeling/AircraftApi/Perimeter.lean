/-
AircraftApi/Perimeter.lean

The perimeter of one server process: the layers every request passes on its way to a
handler and back (`router_with_routes`), and `serve`, which waits for a signal, drains
and cancels.

The requests share a semaphore, a count of those in flight and the phase of the shutdown.
A request steps where one layer hands on to the next or answers; a run is any
interleaving of such steps with those of `serve` (`Perimeter.step`).  When a deadline
passes, a client goes away or the grace period ends is left open: each of these may
happen at any moment at which its timer or connection exists.
-/
import AircraftApi.Problem
import AircraftApi.Slots
import AircraftApi.Text
import AircraftApi.Transition
import AircraftApi.Validators

namespace AircraftApi

namespace Perimeter

open Problem
open Reference (isVisibleAscii toChar)

/-! ### Correlation -/

/-- The longest identifier a client may choose. -/
def maxRequestIdLength : ℕ := 128

/-- A visible character, no blank. -/
def isAsciiGraphic (b : UInt8) : Bool := 0x21 ≤ b ∧ b ≤ 0x7E

/-- A value a client may read back: short, and visible ASCII. -/
def Usable (value : List UInt8) : Prop :=
  (1 ≤ value.length ∧ value.length ≤ maxRequestIdLength) ∧ ∀ b ∈ value, isAsciiGraphic b = true

instance (value : List UInt8) : Decidable (Usable value) := inferInstanceAs (Decidable (_ ∧ _))

/-- An identifier fit for the logs. -/
structure RequestId where
  value : List UInt8
  usable : Usable value

/-- The identifier a client chose, if it is fit. -/
def RequestId.accepted (value : List UInt8) : Option RequestId :=
  if h : Usable value then some ⟨value, h⟩ else none

/-- The identifier of the one field, or the generated one. -/
def RequestId.fromHeaders (values : List (List UInt8)) (generated : RequestId) : RequestId :=
  (match values with
    | [value] => accepted value
    | _ => none).getD generated

/-! ### Requests and answers -/

/-- What the perimeter reads of a request beside its body: whether the method is
`OPTIONS`, the path, the `X-Request-Id` values, and the first `Content-Length`. -/
structure Request where
  preflight : Bool
  path : String
  requestIds : List (List UInt8)
  contentLength : Option (List UInt8)

/-- The problems the perimeter answers with. -/
inductive Refusal
  | malformedInput
  | payloadTooLarge
  | overloaded
  | deadlineExceeded
  | shutdownCancelled
  deriving DecidableEq, Repr

/-- What a refused client is told. -/
def Refusal.contract : Refusal → ProblemContract
  | malformedInput =>
      ⟨"/problems/malformed-input", "Bad Request", 400, "The request body could not be read."⟩
  | payloadTooLarge =>
      ⟨"/problems/payload-too-large", "Payload Too Large", 413,
        "The request body is larger than this service accepts."⟩
  | overloaded => ProblemKind.overloaded.contract
  | deadlineExceeded =>
      ⟨"/problems/deadline-exceeded", "Gateway Timeout", 504,
        "The service did not produce a response within its deadline."⟩
  | shutdownCancelled =>
      ⟨"/problems/shutting-down", "Service Unavailable", 503,
        "The service stopped waiting for this request so it could shut down."⟩

/-- The document of a refusal. -/
def Refusal.details (parseUri : String → Option Uri) (refusal : Refusal) (request : Request) :
    ProblemDetails where
  kind := refusal.contract.kind
  title := refusal.contract.title
  status := refusal.contract.status
  detail := refusal.contract.detail
  instancePath := boundedInstance parseUri request.path
  requiredScope := none

theorem Refusal.details_valid (parseUri : String → Option Uri) (refusal : Refusal)
    (request : Request) : ValidInstance (refusal.details parseUri request).instancePath.toList :=
  boundedInstance_valid parseUri request.path

/-- What a request is answered: by its handler, by the CORS layer, or by a refusal. -/
inductive Answer (R : Type*)
  | served (response : R)
  | preflight
  | refused (refusal : Refusal)

/-- `usize::MAX`. -/
def usizeMax : ℕ := 18446744073709551615

/-- `str::parse::<usize>`. -/
def parseUsize (s : List Char) : Option ℕ := Text.parseUnsigned usizeMax s

/-- `HeaderValue::to_str`, then a number. -/
def declaredLength (request : Request) : Option ℕ :=
  request.contentLength.bind fun value =>
    if value.all isVisibleAscii then parseUsize (value.map toChar) else none

/-- The request announces a larger body than is taken. -/
def declaresMoreThan (request : Request) (maxBytes : ℕ) : Bool :=
  (declaredLength request).any fun length => maxBytes < length

/-- `usize::checked_add`. -/
def checkedAdd (a b : ℕ) : Option ℕ := if a + b ≤ usizeMax then some (a + b) else none

/-- The bounds of the perimeter. -/
structure PerimeterLimits where
  bodyBytes : ℕ
  maxConcurrent : ℕ
  bodyBytes_le : bodyBytes ≤ usizeMax

/-! ### One request -/

/-- Where a request that holds a permit is: before `track_in_flight`, before the body is
read, at its body, in its handler, and behind `track_in_flight` again.  `none` is the
answer of a future that was dropped. -/
inductive Stage (R : Type*)
  | admitted
  | entered
  | receiving (buffered : List UInt8)
  | handling (body : List UInt8)
  | leaving (answer : Option (Answer R))

/-- What has become of a request. -/
inductive Slot (R : Type*)
  | absent
  | carried (request : Request) (id : RequestId) (stage : Stage R)
  | answered (request : Request) (id : RequestId) (answer : Answer R)
  | dropped (request : Request)

/-- The steps of a request that holds a permit. -/
inductive Own (R : Type*)
  | enter
  | begin
  | chunk (bytes : List UInt8)
  | broken
  | complete
  | respond (response : R)
  | expire
  | abort
  | disconnect
  | leave

/-- How far the shutdown has come. -/
inductive Phase
  | serving
  | draining
  | cancelled
  deriving DecidableEq, Repr

/-- The shutdown goes one way. -/
def Phase.rank : Phase → ℕ
  | serving => 0
  | draining => 1
  | cancelled => 2

instance : LinearOrder Phase :=
  LinearOrder.lift' Phase.rank fun a b h => by cases a <;> cases b <;> first | rfl | cases h

variable {R : Type*} (limits : PerimeterLimits)

/-- `refuse_oversized_body`: what a chunk of the body does. -/
def receive (buffered chunk : List UInt8) : Stage R :=
  if (checkedAdd buffered.length chunk.length).any (· ≤ limits.bodyBytes) then
    .receiving (buffered ++ chunk)
  else .leaving (some (.refused .payloadTooLarge))

/-- What a request's own step makes of its stage. -/
def Stage.next (phase : Phase) (request : Request) : Stage R → Own R → Option (Stage R)
  | .admitted, .enter => some .entered
  | .entered, .begin =>
      if declaresMoreThan request limits.bodyBytes then
        some (.leaving (some (.refused .payloadTooLarge)))
      else some (.receiving [])
  | .receiving buffered, .chunk bytes => some (receive limits buffered bytes)
  | .receiving _, .broken => some (.leaving (some (.refused .malformedInput)))
  | .receiving buffered, .complete => some (.handling buffered)
  | .handling _, .respond response => some (.leaving (some (.served response)))
  -- `enforce_deadline` spans the body and the handler
  | .receiving _, .expire | .handling _, .expire =>
      some (.leaving (some (.refused .deadlineExceeded)))
  -- and `track_in_flight` whatever is inside it
  | .entered, .abort | .receiving _, .abort | .handling _, .abort =>
      if phase = .cancelled then some (.leaving (some (.refused .shutdownCancelled))) else none
  | .receiving _, .disconnect | .handling _, .disconnect => some (.leaving none)
  | _, _ => none

/-- A request behind the perimeter. -/
def Slot.left (request : Request) (id : RequestId) : Option (Answer R) → Slot R
  | some answer => .answered request id answer
  | none => .dropped request

/-- A step of the request itself. -/
def Slot.own (phase : Phase) : Slot R → Own R → Option (Slot R)
  | .carried request id (.leaving answer), .leave => some (.left request id answer)
  | .carried request id stage, e => (stage.next limits phase request e).map (.carried request id)
  | _, _ => none

/-! ### The process -/

/-- Where `serve` is; behind the grace period with the count it reported. -/
inductive Serve
  | accepting
  | draining
  | expired (cut : ℕ)
  | flushing (cut : ℕ)
  | returned (cut : Option ℕ)
  deriving DecidableEq, Repr

/-- The listener, the phase of the shutdown, the permits, and every request that ever
arrived. -/
structure Server (R : Type*) where
  serve : Serve
  phase : Phase
  permits : ℕ
  inFlight : ℕ
  arrived : ℕ
  slots : ℕ → Slot R

/-- What happens next: a request arrives or takes a step, or the shutdown goes on. -/
inductive Event (R : Type*)
  | arrive (request : Request) (generated : RequestId)
  | own (i : ℕ) (e : Own R)
  | signal
  | drain
  | expire
  | cancel
  | finish
  | flushed

/-- A server that has just started. -/
def init : Server R where
  serve := .accepting
  phase := .serving
  permits := limits.maxConcurrent
  inFlight := 0
  arrived := 0
  slots := fun _ => .absent

/-- `ShutdownState::advance_to`. -/
def Server.advanceTo (s : Server R) (phase : Phase) : Server R :=
  if s.phase < phase then { s with phase } else s

/-- The slot of a request is written. -/
def Server.put (s : Server R) (i : ℕ) (slot : Slot R) : Server R :=
  { s with slots := Function.update s.slots i slot }

/-- A request reaches the outer layers: `correlate`, `refuse_oversized_preflight`, CORS and
`shed_when_saturated`. -/
def Server.arrive (s : Server R) (request : Request) (generated : RequestId) : Server R :=
  let id := RequestId.fromHeaders request.requestIds generated
  let s' := { s with arrived := s.arrived + 1 }
  if request.preflight then
    if declaresMoreThan request limits.bodyBytes then
      s'.put s.arrived (.answered request id (.refused .payloadTooLarge))
    else s'.put s.arrived (.answered request id .preflight)
  else if s.permits = 0 then s'.put s.arrived (.answered request id (.refused .overloaded))
  else { s'.put s.arrived (.carried request id .admitted) with permits := s.permits - 1 }

/-- The guards of a request: the count goes up where it enters and down where it is
settled, the permit returns where it leaves. -/
def Server.account (s : Server R) (e : Own R) (slot : Slot R) : Server R :=
  match e, slot with
  | .enter, _ => { s with inFlight := s.inFlight + 1 }
  | .leave, _ => { s with permits := s.permits + 1 }
  | _, .carried _ _ (.leaving _) => { s with inFlight := s.inFlight - 1 }
  | _, _ => s

/-- A request takes a step of its own. -/
def Server.own (s : Server R) (i : ℕ) (e : Own R) : Option (Server R) :=
  ((s.slots i).own limits s.phase e).map fun slot => (s.account e slot).put i slot

/-- The request is being worked on. -/
def Slot.isCarried : Slot R → Bool
  | .carried _ _ _ => true
  | _ => false

/-- No request is inside: what `axum` waits for, its connections closed. -/
def Server.Idle (s : Server R) : Prop := ∀ i < s.arrived, (s.slots i).isCarried = false

instance (s : Server R) : Decidable s.Idle :=
  inferInstanceAs (Decidable (∀ i < s.arrived, (s.slots i).isCarried = false))

/-- One step of the process; none once `serve` has returned. -/
def step (s : Server R) (event : Event R) : Option (Server R) :=
  match s.serve, event with
  | .returned _, _ => none
  | _, .arrive request generated => some (s.arrive limits request generated)
  | _, .own i e => s.own limits i e
  | _, .signal => some (s.advanceTo .draining)
  | .accepting, .drain =>
      if .draining ≤ s.phase then some { s with serve := .draining } else none
  | .draining, .expire => some { s with serve := .expired s.inFlight }
  | .expired cut, .cancel => some { s.advanceTo .cancelled with serve := .flushing cut }
  | .draining, .finish => if s.Idle then some { s with serve := .returned none } else none
  | .flushing cut, .finish => if s.Idle then some { s with serve := .returned (some cut) } else none
  | .flushing cut, .flushed => some { s with serve := .returned (some cut) }
  | _, _ => none

/-- The events come in any order. -/
def system : Transition.System (Server R) (Event R) := .ofStep (init limits) (step limits)

/-! ### What a step can do -/

section

variable {limits}

/-- The body a deadline or a lost connection cuts off, read or being read. -/
def Stage.body : Stage R → Option (List UInt8)
  | .receiving buffered => some buffered
  | .handling body => some body
  | _ => none

/-- The request is counted: `track_in_flight` holds its guard. -/
def Stage.isCounted : Stage R → Bool
  | .entered | .receiving _ | .handling _ => true
  | _ => false

/-- The moves of a request that holds a permit. -/
inductive Moves (limits : PerimeterLimits) (phase : Phase) (request : Request) :
    Stage R → Own R → Stage R → Prop
  | enter : Moves limits phase request .admitted .enter .entered
  | declared (h : declaresMoreThan request limits.bodyBytes = true) :
      Moves limits phase request .entered .begin (.leaving (some (.refused .payloadTooLarge)))
  | begin (h : declaresMoreThan request limits.bodyBytes = false) :
      Moves limits phase request .entered .begin (.receiving [])
  | chunk {buffered bytes} (h : (buffered ++ bytes).length ≤ limits.bodyBytes) :
      Moves limits phase request (.receiving buffered) (.chunk bytes)
        (.receiving (buffered ++ bytes))
  | sent {buffered bytes} (h : limits.bodyBytes < (buffered ++ bytes).length) :
      Moves limits phase request (.receiving buffered) (.chunk bytes)
        (.leaving (some (.refused .payloadTooLarge)))
  | broken {buffered} : Moves limits phase request (.receiving buffered) .broken
      (.leaving (some (.refused .malformedInput)))
  | complete {buffered} :
      Moves limits phase request (.receiving buffered) .complete (.handling buffered)
  | respond {body response} : Moves limits phase request (.handling body) (.respond response)
      (.leaving (some (.served response)))
  | expire {stage body} (h : stage.body = some body) : Moves limits phase request stage .expire
      (.leaving (some (.refused .deadlineExceeded)))
  | abort {stage} (h : stage.isCounted = true) (hphase : phase = .cancelled) :
      Moves limits phase request stage .abort (.leaving (some (.refused .shutdownCancelled)))
  | disconnect {stage body} (h : stage.body = some body) :
      Moves limits phase request stage .disconnect (.leaving none)

/-- A sum that overflows is beyond every limit. -/
theorem receive_eq (buffered bytes : List UInt8) : (receive limits buffered bytes : Stage R) =
    if (buffered ++ bytes).length ≤ limits.bodyBytes then .receiving (buffered ++ bytes)
    else .leaving (some (.refused .payloadTooLarge)) := by
  have hle := limits.bodyBytes_le
  rw [receive, checkedAdd, List.length_append]
  by_cases hfits : buffered.length + bytes.length ≤ limits.bodyBytes
  · have hsum : buffered.length + bytes.length ≤ usizeMax := hfits.trans hle
    rw [if_pos hsum, if_pos hfits]
    simp [hfits]
  · rw [if_neg hfits]
    apply if_neg
    split_ifs
    · rw [Option.any_some, decide_eq_true_eq]
      exact hfits
    · exact Bool.false_ne_true

theorem moves_of_next {phase : Phase} {request : Request} {stage stage' : Stage R} {e : Own R}
    (h : stage.next limits phase request e = some stage') :
    Moves limits phase request stage e stage' := by
  cases stage <;> cases e <;> simp only [Stage.next, reduceCtorEq] at h
  case admitted.enter => cases h; exact .enter
  case entered.begin =>
      split_ifs at h with hdeclared
      · cases h
        exact .declared hdeclared
      · cases h
        exact .begin (Bool.not_eq_true _ ▸ hdeclared)
  case receiving.chunk buffered bytes =>
      rw [receive_eq, Option.some.injEq] at h
      split_ifs at h with hfits
      · cases h
        exact .chunk hfits
      · cases h
        exact .sent (not_le.mp hfits)
  case receiving.broken => cases h; exact .broken
  case receiving.complete => cases h; exact .complete
  case handling.respond => cases h; exact .respond
  case receiving.expire => cases h; exact .expire rfl
  case handling.expire => cases h; exact .expire rfl
  case receiving.disconnect => cases h; exact .disconnect rfl
  case handling.disconnect => cases h; exact .disconnect rfl
  all_goals
    split_ifs at h with hphase
    cases h
    exact .abort rfl hphase

/-- A step of one request: it moves on, or leaves. -/
theorem own_cases {phase : Phase} {slot slot' : Slot R} {e : Own R}
    (h : slot.own limits phase e = some slot') : ∃ request id,
      (∃ answer, slot = .carried request id (.leaving answer) ∧ e = .leave ∧
        slot' = .left request id answer) ∨
      ∃ stage stage', slot = .carried request id stage ∧ slot' = .carried request id stage' ∧
        Moves limits phase request stage e stage' := by
  cases slot with
  | absent => cases h
  | answered request id answer => cases h
  | dropped request => cases h
  | carried request id stage =>
      refine ⟨request, id, ?_⟩
      by_cases hleave : ∃ answer, stage = .leaving answer ∧ e = .leave
      · obtain ⟨answer, rfl, rfl⟩ := hleave
        exact .inl ⟨answer, rfl, rfl, (Option.some.inj h).symm⟩
      · have hmap :
            (stage.next limits phase request e).map (Slot.carried request id) = some slot' := by
          rw [← h]
          cases stage <;> cases e <;> first | rfl | exact absurd ⟨_, rfl, rfl⟩ hleave
        obtain ⟨stage', hnext, rfl⟩ := Option.map_eq_some_iff.mp hmap
        exact .inr ⟨stage, stage', rfl, rfl, moves_of_next hnext⟩

/-- A step of the process: a request comes, a request steps, or the shutdown moves. -/
theorem step_cases {s t : Server R} {event : Event R} (h : step limits s event = some t) :
    (∀ cut, s.serve ≠ .returned cut) ∧
    ((∃ request generated, event = .arrive request generated ∧
      t = s.arrive limits request generated) ∨
    (∃ i e slot, event = .own i e ∧ (s.slots i).own limits s.phase e = some slot ∧
      t = (s.account e slot).put i slot) ∨
    (event = .signal ∧ t = s.advanceTo .draining) ∨
    (event = .drain ∧ s.serve = .accepting ∧ .draining ≤ s.phase ∧
      t = { s with serve := .draining }) ∨
    (event = .expire ∧ s.serve = .draining ∧ t = { s with serve := .expired s.inFlight }) ∨
    (∃ cut, event = .cancel ∧ s.serve = .expired cut ∧
      t = { s.advanceTo .cancelled with serve := .flushing cut }) ∨
    (event = .finish ∧ s.serve = .draining ∧ s.Idle ∧ t = { s with serve := .returned none }) ∨
    (∃ cut, (event = .finish ∧ s.Idle ∨ event = .flushed) ∧ s.serve = .flushing cut ∧
      t = { s with serve := .returned (some cut) })) := by
  have hrunning : ∀ cut, s.serve ≠ .returned cut := by
    intro cut hcut
    simp only [step, hcut, reduceCtorEq] at h
  refine ⟨hrunning, ?_⟩
  -- a request may step in every state but the last
  have hown : ∀ i e, event = .own i e → s.own limits i e = some t := by
    rintro i e rfl
    rcases hserve : s.serve with - | - | cut | cut | cut <;>
      simp only [step, hserve, reduceCtorEq] at h
    · exact h
    · exact h
    · exact h
    · exact h
  have harrive : ∀ request generated, event = .arrive request generated →
      t = s.arrive limits request generated := by
    rintro request generated rfl
    rcases hserve : s.serve with - | - | cut | cut | cut <;>
      simp only [step, hserve, reduceCtorEq, Option.some.injEq] at h <;> exact h.symm
  cases event with
  | arrive request generated => exact .inl ⟨request, generated, rfl, harrive _ _ rfl⟩
  | own i e =>
      obtain ⟨slot, hslot, rfl⟩ := Option.map_eq_some_iff.mp (hown i e rfl)
      exact .inr (.inl ⟨i, e, slot, rfl, hslot, rfl⟩)
  | signal =>
      rcases hserve : s.serve with - | - | cut | cut | cut <;>
        simp only [step, hserve, reduceCtorEq, Option.some.injEq] at h <;>
        exact .inr (.inr (.inl ⟨rfl, h.symm⟩))
  | drain =>
      rcases hserve : s.serve with - | - | cut | cut | cut <;>
        simp only [step, hserve, reduceCtorEq] at h
      -- draining begins once the signal is in
      split_ifs at h with hphase
      exact .inr (.inr (.inr (.inl ⟨rfl, rfl, hphase, (Option.some.inj h).symm⟩)))
  | expire =>
      rcases hserve : s.serve with - | - | cut | cut | cut <;>
        simp only [step, hserve, reduceCtorEq] at h
      exact .inr (.inr (.inr (.inr (.inl ⟨rfl, rfl, (Option.some.inj h).symm⟩))))
  | cancel =>
      rcases hserve : s.serve with - | - | cut | cut | cut <;>
        simp only [step, hserve, reduceCtorEq] at h
      exact .inr (.inr (.inr (.inr (.inr (.inl ⟨cut, rfl, rfl, (Option.some.inj h).symm⟩)))))
  | finish =>
      rcases hserve : s.serve with - | - | cut | cut | cut <;>
        simp only [step, hserve, reduceCtorEq] at h
      · -- the drain ends by itself when nothing is in flight
        split_ifs at h with hidle
        exact .inr (.inr (.inr (.inr (.inr (.inr (.inl
          ⟨rfl, rfl, hidle, (Option.some.inj h).symm⟩))))))
      · split_ifs at h with hidle
        exact .inr (.inr (.inr (.inr (.inr (.inr (.inr
          ⟨cut, .inl ⟨rfl, hidle⟩, rfl, (Option.some.inj h).symm⟩))))))
  | flushed =>
      rcases hserve : s.serve with - | - | cut | cut | cut <;>
        simp only [step, hserve, reduceCtorEq] at h
      exact .inr (.inr (.inr (.inr (.inr (.inr (.inr
        ⟨cut, .inr rfl, rfl, (Option.some.inj h).symm⟩))))))

end

end Perimeter

end AircraftApi
