/-
AircraftApi/PerimeterSafety.lean

What the counters of the perimeter stand for, in every state some interleaving reaches.

The semaphore and the count of requests in flight are two counters, and no step moves
both.  The free permits are those no request holds; the count is of the requests inside
`track_in_flight`, of which each holds a permit; and what is buffered of their bodies is
bounded by both limits together (`bounded`).
-/
import AircraftApi.Perimeter

namespace AircraftApi

namespace Perimeter

open Slots Transition

variable {R : Type*} {limits : PerimeterLimits} {s t : Server R} {i : ℕ} {e : Own R} {slot : Slot R}

/-- The permits a slot holds. -/
def Slot.held : Slot R → ℕ
  | .carried _ _ _ => 1
  | _ => 0

/-- The guards of `track_in_flight` a slot holds. -/
def Slot.counted : Slot R → ℕ
  | .carried _ _ stage => if stage.isCounted then 1 else 0
  | _ => 0

/-- The bytes of a body a slot keeps. -/
def Slot.buffered : Slot R → ℕ
  | .carried _ _ stage => (stage.body.getD []).length
  | _ => 0

/-- How many requests hold a permit. -/
def Server.carried (s : Server R) : ℕ := total Slot.held s.arrived s.slots

/-- How many are inside `track_in_flight`. -/
def Server.counted (s : Server R) : ℕ := total Slot.counted s.arrived s.slots

/-- The bytes of bodies held. -/
def Server.buffered (s : Server R) : ℕ := total Slot.buffered s.arrived s.slots

/-- The count reported where the grace period ended. -/
def Serve.cut : Serve → Option ℕ
  | .expired cut | .flushing cut => some cut
  | .returned cut => cut
  | _ => none

theorem held_le_one (slot : Slot R) : slot.held ≤ 1 := by
  cases slot <;> simp [Slot.held]

theorem counted_le_held (slot : Slot R) : slot.counted ≤ slot.held := by
  cases slot with
  | carried request id stage =>
      show (if stage.isCounted then 1 else 0) ≤ 1
      split_ifs <;> decide
  | _ => exact le_rfl

theorem counted_le_carried (s : Server R) : s.counted ≤ s.carried := by
  have h := total_le_mul 1 s.arrived s.slots
    fun i _ => (counted_le_held (s.slots i)).trans (mul_one _).ge
  rwa [mul_one] at h

/-! ### One step -/

@[simp] theorem account_arrived (s : Server R) (e : Own R) (slot : Slot R) :
    (s.account e slot).arrived = s.arrived := by
  unfold Server.account
  split <;> rfl

@[simp] theorem account_slots (s : Server R) (e : Own R) (slot : Slot R) :
    (s.account e slot).slots = s.slots := by
  unfold Server.account
  split <;> rfl

@[simp] theorem account_serve (s : Server R) (e : Own R) (slot : Slot R) :
    (s.account e slot).serve = s.serve := by
  unfold Server.account
  split <;> rfl

@[simp] theorem account_phase (s : Server R) (e : Own R) (slot : Slot R) :
    (s.account e slot).phase = s.phase := by
  unfold Server.account
  split <;> rfl

/-- A slot comes into use. -/
structure Arrives (s t : Server R) (slot : Slot R) : Prop where
  arrived : t.arrived = s.arrived + 1
  slots : t.slots = Function.update s.slots s.arrived slot
  serve : t.serve = s.serve
  phase : t.phase = s.phase
  inFlight : t.inFlight = s.inFlight
  permits : t.permits + slot.held = s.permits

/-- A request is answered at once, or takes a permit. -/
theorem arrive_cases (limits : PerimeterLimits) (s : Server R) (request : Request)
    (generated : RequestId) :
    ∃ slot, Arrives s (s.arrive limits request generated) slot ∧
      (request.preflight = true ∧ declaresMoreThan request limits.bodyBytes = true ∧
          slot = .answered request (.fromHeaders request.requestIds generated)
            (.refused .payloadTooLarge) ∨
        request.preflight = true ∧ declaresMoreThan request limits.bodyBytes = false ∧
          slot = .answered request (.fromHeaders request.requestIds generated) .preflight ∨
        request.preflight = false ∧ s.permits = 0 ∧
          slot = .answered request (.fromHeaders request.requestIds generated)
            (.refused .overloaded) ∨
        request.preflight = false ∧
          slot = .carried request (.fromHeaders request.requestIds generated) .admitted) := by
  rw [Server.arrive]
  dsimp only
  split_ifs with hpreflight hdeclared hshed
  · exact ⟨_, ⟨rfl, rfl, rfl, rfl, rfl, rfl⟩, .inl ⟨hpreflight, hdeclared, rfl⟩⟩
  · exact ⟨_, ⟨rfl, rfl, rfl, rfl, rfl, rfl⟩,
      .inr (.inl ⟨hpreflight, Bool.not_eq_true _ ▸ hdeclared, rfl⟩)⟩
  · exact ⟨_, ⟨rfl, rfl, rfl, rfl, rfl, rfl⟩,
      .inr (.inr (.inl ⟨Bool.not_eq_true _ ▸ hpreflight, hshed, rfl⟩))⟩
  · exact ⟨_, ⟨rfl, rfl, rfl, rfl, rfl, Nat.sub_add_cancel (Nat.pos_of_ne_zero hshed)⟩,
      .inr (.inr (.inr ⟨Bool.not_eq_true _ ▸ hpreflight, rfl⟩))⟩

/-- The counters move by what the slot holds before and after. -/
theorem account_own (h : (s.slots i).own limits s.phase e = some slot) :
    (s.account e slot).permits + slot.held = s.permits + (s.slots i).held ∧
      ((s.slots i).counted ≤ s.inFlight →
        (s.account e slot).inFlight + (s.slots i).counted = s.inFlight + slot.counted) := by
  obtain ⟨request, id, ⟨answer, hslot, rfl, rfl⟩ | ⟨stage, stage', hslot, rfl, hmoves⟩⟩ :=
    own_cases h
  · rw [hslot]
    cases answer <;> exact ⟨rfl, fun _ => rfl⟩
  · rw [hslot]
    cases hmoves with
    | enter => exact ⟨rfl, fun _ => rfl⟩
    | begin | chunk | complete => exact ⟨rfl, fun _ => rfl⟩
    | declared | sent | broken | respond =>
        exact ⟨rfl, fun hle => Nat.sub_add_cancel hle⟩
    | abort hcounted =>
        refine ⟨rfl, fun hle => ?_⟩
        simp only [Slot.counted, hcounted, if_true] at hle ⊢
        exact Nat.sub_add_cancel hle
    | expire hbody | disconnect hbody =>
        refine ⟨rfl, fun hle => ?_⟩
        have hcounted : stage.isCounted = true := by
          cases stage <;> first | rfl | cases hbody
        simp only [Slot.counted, hcounted, if_true] at hle ⊢
        exact Nat.sub_add_cancel hle

/-- A body is kept by a permit's holder, and within the limit. -/
theorem buffered_own (h : (s.slots i).own limits s.phase e = some slot)
    (hold : (s.slots i).buffered ≤ limits.bodyBytes) :
    slot.buffered ≤ slot.held * limits.bodyBytes := by
  obtain ⟨request, id, ⟨answer, hslot, rfl, rfl⟩ | ⟨stage, stage', hslot, rfl, hmoves⟩⟩ :=
    own_cases h
  · cases answer <;> exact Nat.zero_le _
  · rw [hslot] at hold
    rw [show (Slot.carried request id stage').held = 1 from rfl, one_mul]
    cases hmoves with
    | chunk hfits => exact hfits
    | complete => exact hold
    | _ => exact Nat.zero_le _

/-! ### The invariant -/

/-- The counters are what the slots hold. -/
structure Accounted (limits : PerimeterLimits) (s : Server R) : Prop where
  permits : s.permits + s.carried = limits.maxConcurrent
  inFlight : s.inFlight = s.counted
  absent : ∀ i, s.arrived ≤ i → s.slots i = .absent
  buffered : ∀ i, (s.slots i).buffered ≤ (s.slots i).held * limits.bodyBytes
  cut : ∀ cut ∈ s.serve.cut, cut ≤ limits.maxConcurrent

theorem accounted_init : Accounted limits (init limits : Server R) where
  permits := rfl
  inFlight := rfl
  absent _ _ := rfl
  buffered _ := Nat.zero_le _
  cut _ h := by cases h

/-- The shutdown moves no counter; what it reports is the count. -/
theorem Accounted.of_eq (h : Accounted limits s) (hpermits : t.permits = s.permits)
    (hinFlight : t.inFlight = s.inFlight) (harrived : t.arrived = s.arrived)
    (hslots : t.slots = s.slots)
    (hcut : ∀ cut ∈ t.serve.cut, cut ∈ s.serve.cut ∨ cut = s.inFlight) : Accounted limits t where
  permits := by rw [hpermits, Server.carried, harrived, hslots]; exact h.permits
  inFlight := by rw [hinFlight, Server.counted, harrived, hslots]; exact h.inFlight
  absent := by rw [harrived, hslots]; exact h.absent
  buffered := by rw [hslots]; exact h.buffered
  cut := by
    intro cut hmem
    rcases hcut cut hmem with hold | rfl
    · exact h.cut cut hold
    · have hcarried := counted_le_carried s
      have hpermits := h.permits
      have hinFlight := h.inFlight
      omega

/-- A slot comes into use; its permit, if it takes one, is gone from the semaphore. -/
theorem Accounted.new (h : Accounted limits s) (hpermits : t.permits + slot.held = s.permits)
    (hinFlight : t.inFlight = s.inFlight) (harrived : t.arrived = s.arrived + 1)
    (hslots : t.slots = Function.update s.slots s.arrived slot) (hserve : t.serve = s.serve)
    (hcounted : slot.counted = 0) (hbuffered : slot.buffered = 0) : Accounted limits t where
  permits := by
    rw [Server.carried, harrived, hslots, total_succ, ← h.permits, ← hpermits, Server.carried]
    ring
  inFlight := by
    rw [Server.counted, harrived, hslots, total_succ, hcounted, hinFlight, h.inFlight]
    rfl
  absent := by
    intro i hi
    rw [harrived] at hi
    rw [hslots, Function.update_of_ne (by omega)]
    exact h.absent i (by omega)
  buffered := by
    intro i
    rw [hslots]
    by_cases hi : i = s.arrived
    · rw [hi, Function.update_self, hbuffered]
      exact Nat.zero_le _
    · rw [Function.update_of_ne hi]
      exact h.buffered i
  cut := by rw [hserve]; exact h.cut

theorem Accounted.arrive (h : Accounted limits s) (request : Request) (generated : RequestId) :
    Accounted limits (s.arrive limits request generated) := by
  obtain ⟨slot, ⟨harrived, hslots, hserve, -, hinFlight, hpermits⟩, hslot⟩ :=
    arrive_cases limits s request generated
  apply h.new hpermits hinFlight harrived hslots hserve
  · rcases hslot with ⟨-, -, rfl⟩ | ⟨-, -, rfl⟩ | ⟨-, -, rfl⟩ | ⟨-, rfl⟩ <;> rfl
  · rcases hslot with ⟨-, -, rfl⟩ | ⟨-, -, rfl⟩ | ⟨-, -, rfl⟩ | ⟨-, rfl⟩ <;> rfl

theorem own_lt_arrived (h : Accounted limits s)
    (hown : (s.slots i).own limits s.phase e = some slot) :
    i < s.arrived := by
  by_contra hi
  rw [h.absent i (not_lt.mp hi)] at hown
  cases hown

theorem Accounted.own (h : Accounted limits s)
    (hown : (s.slots i).own limits s.phase e = some slot) :
    Accounted limits ((s.account e slot).put i slot) := by
  have hi := own_lt_arrived h hown
  have hheld := total_update Slot.held s.slots hi slot
  have hcounted := total_update Slot.counted s.slots hi slot
  -- the request is counted among those in flight, so the count does not fall below zero
  have hle : (s.slots i).counted ≤ s.inFlight := by
    rw [h.inFlight]
    exact le_total Slot.counted hi
  obtain ⟨hpermits, hinFlight⟩ := account_own hown
  replace hinFlight := hinFlight hle
  have hp := h.permits
  have hf := h.inFlight
  rw [Server.carried] at hp
  rw [Server.counted] at hf
  constructor
  case permits =>
    show (s.account e slot).permits + total Slot.held (s.account e slot).arrived
      (Function.update (s.account e slot).slots i slot) = _
    rw [account_arrived, account_slots]
    omega
  case inFlight =>
    show (s.account e slot).inFlight = total Slot.counted (s.account e slot).arrived
      (Function.update (s.account e slot).slots i slot)
    rw [account_arrived, account_slots]
    omega
  case absent =>
    intro j hj
    have hj' : s.arrived ≤ j := by rwa [← account_arrived s e slot]
    show Function.update (s.account e slot).slots i slot j = _
    rw [Function.update_of_ne (by omega), account_slots]
    exact h.absent j hj'
  case buffered =>
    intro j
    show (Function.update (s.account e slot).slots i slot j).buffered ≤
      (Function.update (s.account e slot).slots i slot j).held * _
    rw [account_slots]
    -- what a body may hold is bounded while its permit is held
    by_cases hj : j = i
    · rw [hj, Function.update_self]
      apply buffered_own hown
      calc (s.slots i).buffered ≤ (s.slots i).held * limits.bodyBytes := h.buffered i
        _ ≤ 1 * limits.bodyBytes := Nat.mul_le_mul_right _ (held_le_one _)
        _ = limits.bodyBytes := one_mul _
    · rw [Function.update_of_ne hj]
      exact h.buffered j
  case cut =>
    intro cut hcut
    apply h.cut
    rw [← account_serve s e slot]
    exact hcut

theorem Accounted.step {event : Event R} (h : Accounted limits s)
    (hstep : step limits s event = some t) :
    Accounted limits t := by
  obtain ⟨-, ⟨request, generated, -, rfl⟩ | ⟨i, e, slot, -, hown, rfl⟩ | ⟨-, rfl⟩ |
    ⟨-, hserve, -, rfl⟩ | ⟨-, -, rfl⟩ | ⟨cut, -, hserve, rfl⟩ | ⟨-, hserve, -, rfl⟩ |
    ⟨cut, -, hserve, rfl⟩⟩ := step_cases hstep
  · exact h.arrive request generated
  · exact h.own hown
  · rw [Server.advanceTo]
    split_ifs
    · exact h.of_eq rfl rfl rfl rfl fun cut hcut => .inl hcut
    · exact h
  · exact h.of_eq rfl rfl rfl rfl fun cut hcut => by cases hcut
  · exact h.of_eq rfl rfl rfl rfl fun cut hcut => .inr (Option.some.inj hcut).symm
  · have hold : ∀ cut' ∈ (Serve.flushing cut).cut, cut' ∈ s.serve.cut := by
      rw [hserve]
      exact fun cut' hcut => hcut
    rw [Server.advanceTo]
    split_ifs
    · exact h.of_eq rfl rfl rfl rfl fun cut' hcut => .inl (hold cut' hcut)
    · exact h.of_eq rfl rfl rfl rfl fun cut' hcut => .inl (hold cut' hcut)
  · exact h.of_eq rfl rfl rfl rfl fun cut hcut => by cases hcut
  · refine h.of_eq rfl rfl rfl rfl fun cut' hcut => .inl ?_
    rw [hserve]
    exact hcut

theorem accounted (hs : (system limits).Reachable s) : Accounted limits s :=
  hs.invariant (fun h => h ▸ accounted_init) fun h hstep => h.step hstep

/-- **In every state of every interleaving the free permits are those no request holds,
the count is of the requests inside `track_in_flight`, each with a permit, and the
buffered bytes are within the body limit for each permit held.** -/
theorem bounded (hs : (system limits).Reachable s) :
    s.permits + s.carried = limits.maxConcurrent ∧
      s.inFlight = s.counted ∧ s.inFlight ≤ s.carried ∧
      s.buffered ≤ s.carried * limits.bodyBytes ∧
      ∀ cut ∈ s.serve.cut, cut ≤ limits.maxConcurrent := by
  have h := accounted hs
  refine ⟨h.permits, h.inFlight, ?_, total_le_mul _ _ _ fun i _ => h.buffered i, h.cut⟩
  rw [h.inFlight]
  exact counted_le_carried s

/-- One permit, and four bytes. -/
def narrow : PerimeterLimits := ⟨4, 1, by decide⟩

def minted : RequestId := ⟨[0x61], by decide +kernel⟩

def post : Request := ⟨false, "/v1/models", [], none⟩

/-- A request is sending its body, another finds no permit. -/
def uploading : List (Event Unit) :=
  [.arrive post minted, .own 0 .enter, .arrive post minted, .own 0 .begin, .own 0 (.chunk [1, 2]),
    .own 0 (.chunk [3])]

theorem bounded_uploading : ∃ s, exec (step narrow) (init narrow) uploading = some s ∧
    s.permits + s.carried = narrow.maxConcurrent ∧
      s.inFlight = s.counted ∧ s.inFlight ≤ s.carried ∧
      s.buffered ≤ s.carried * narrow.bodyBytes ∧
      ∀ cut ∈ s.serve.cut, cut ≤ narrow.maxConcurrent :=
  ⟨_, rfl, bounded (reachable_of_exec uploading rfl)⟩

end Perimeter

end AircraftApi
