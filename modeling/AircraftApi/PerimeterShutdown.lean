/-
AircraftApi/PerimeterShutdown.lean

How the process ends.

A shutdown that ends within the grace period cuts nobody off (`drained_cuts_nobody`).
One that does not cancels what is left, and from then on no client and no handler can
hold it up: the steps that settle every request are the process's own, and at most three
for each permit (`cancelled_drains`).
-/
import AircraftApi.PerimeterSafety

namespace AircraftApi

namespace Perimeter

open Slots Transition

variable {R : Type*} {limits : PerimeterLimits} {s t : Server R} {i : ℕ} {e : Own R}
  {slot slot' : Slot R}

/-! ### Draining -/

/-- The request is answered, or is leaving, because of the shutdown. -/
def Slot.Cut : Slot R → Prop
  | .carried _ _ (.leaving answer) => answer = some (.refused .shutdownCancelled)
  | .answered _ _ answer => answer = .refused .shutdownCancelled
  | _ => False

/-- The phase and `serve` agree, and before the cancellation nobody is cut off. -/
structure Orderly (s : Server R) : Prop where
  cancelled : s.phase = .cancelled → ∃ cut, s.serve = .flushing cut ∨ s.serve = .returned (some cut)
  flushing : ∀ cut, s.serve = .flushing cut → s.phase = .cancelled
  uncut : s.phase ≠ .cancelled → ∀ i, ¬ (s.slots i).Cut
  idle : s.serve = .returned none → s.Idle

theorem cut_own (h : slot.own limits s.phase e = some slot') (hphase : s.phase ≠ .cancelled)
    (hcut : ¬ slot.Cut) : ¬ slot'.Cut := by
  obtain ⟨request, id, ⟨answer, rfl, rfl, rfl⟩ | ⟨stage, stage', rfl, rfl, hmoves⟩⟩ := own_cases h
  · cases answer with
    | none => exact fun h => h
    | some answer => exact fun h => hcut (congrArg some h)
  · cases hmoves with
    | abort _ hcancelled => exact absurd hcancelled hphase
    | declared | sent | broken | respond | expire | disconnect => exact fun h => by cases h
    | _ => exact fun h => h

theorem orderly_init : Orderly (init limits : Server R) where
  cancelled h := by cases h
  flushing _ h := by cases h
  uncut _ _ h := h
  idle h := by cases h

theorem Orderly.step {event : Event R} (h : Orderly s) (hstep : step limits s event = some t) :
    Orderly t := by
  obtain ⟨hrunning, ⟨request, generated, -, rfl⟩ | ⟨i, e, slot, -, hown, rfl⟩ | ⟨-, rfl⟩ |
    ⟨-, hserve, -, rfl⟩ | ⟨-, hserve, rfl⟩ | ⟨cut, -, hserve, rfl⟩ | ⟨-, hserve, hidle, rfl⟩ |
    ⟨cut, -, hserve, rfl⟩⟩ := step_cases hstep
  · -- a new request is not cut off yet
    obtain ⟨slot, harrives, hslot⟩ := arrive_cases limits s request generated
    constructor
    · rw [harrives.serve, harrives.phase]
      exact h.cancelled
    · rw [harrives.serve, harrives.phase]
      exact h.flushing
    · rw [harrives.phase, harrives.slots]
      intro hphase i
      by_cases hi : i = s.arrived
      · rw [hi, Function.update_self]
        rcases hslot with ⟨-, -, rfl⟩ | ⟨-, -, rfl⟩ | ⟨-, -, rfl⟩ | ⟨-, rfl⟩ <;>
          exact fun hcut => by cases hcut
      · rw [Function.update_of_ne hi]
        exact h.uncut hphase i
    · rw [harrives.serve]
      exact fun hreturned => absurd hreturned (hrunning none)
  · constructor
    · show (s.account e slot).phase = _ →
        ∃ cut, (s.account e slot).serve = _ ∨ (s.account e slot).serve = _
      rw [account_phase, account_serve]
      exact h.cancelled
    · show ∀ cut, (s.account e slot).serve = _ → (s.account e slot).phase = _
      rw [account_phase, account_serve]
      exact h.flushing
    · show (s.account e slot).phase ≠ _ →
        ∀ j, ¬ (Function.update (s.account e slot).slots i slot j).Cut
      rw [account_phase, account_slots]
      intro hphase j
      by_cases hj : j = i
      · rw [hj, Function.update_self]
        -- a request cuts itself off only once the phase is cancelled
        exact cut_own hown hphase (h.uncut hphase i)
      · rw [Function.update_of_ne hj]
        exact h.uncut hphase j
    · show (s.account e slot).serve = _ → _
      rw [account_serve]
      exact fun hreturned => absurd hreturned (hrunning none)
  · rw [Server.advanceTo]
    split_ifs with hphase
    · -- the signal does not come behind the cancellation
      have hlive : s.phase ≠ .cancelled := by
        intro hcancelled
        rw [hcancelled] at hphase
        exact absurd hphase (by decide)
      exact ⟨fun hcancelled => (by cases hcancelled),
        fun cut hflushing => absurd (h.flushing cut hflushing) hlive, fun _ => h.uncut hlive,
        fun hreturned => absurd hreturned (hrunning none)⟩
    · exact h
  · refine ⟨fun hcancelled => ?_, fun cut hcut => (by cases hcut), h.uncut,
      fun hreturned => by cases hreturned⟩
    obtain ⟨cut, hcut | hcut⟩ := h.cancelled hcancelled <;> rw [hserve] at hcut <;> cases hcut
  · refine ⟨fun hcancelled => ?_, fun cut hcut => (by cases hcut), h.uncut,
      fun hreturned => by cases hreturned⟩
    obtain ⟨cut, hcut | hcut⟩ := h.cancelled hcancelled <;> rw [hserve] at hcut <;> cases hcut
  · -- here the phase becomes cancelled, and the cut is noted
    have hphase : (s.advanceTo .cancelled).phase = .cancelled := by
      rw [Server.advanceTo]
      split_ifs with hlt
      · rfl
      · cases hphase : s.phase with
        | cancelled => rfl
        | _ => rw [hphase] at hlt; exact absurd (by decide) hlt
    exact ⟨fun _ => ⟨cut, .inl rfl⟩, fun _ _ => hphase, fun hne => absurd hphase hne,
      fun hreturned => (by cases hreturned)⟩
  · refine ⟨fun hcancelled => ?_, fun cut hcut => (by cases hcut), h.uncut, fun _ => hidle⟩
    obtain ⟨cut, hcut | hcut⟩ := h.cancelled hcancelled <;> rw [hserve] at hcut <;> cases hcut
  · exact ⟨fun _ => ⟨cut, .inr rfl⟩, fun cut hcut => (by cases hcut), h.uncut,
      fun hreturned => by cases hreturned⟩

theorem orderly (hs : (system limits).Reachable s) : Orderly s :=
  hs.invariant (fun h => h ▸ orderly_init) fun h hstep => h.step hstep

/-- Nobody is inside: every permit is free, and the count is at zero. -/
theorem Accounted.free (h : Accounted limits s) (hidle : s.Idle) :
    s.permits = limits.maxConcurrent ∧ s.inFlight = 0 := by
  have hcarried : s.carried = 0 := by
    by_contra hne
    obtain ⟨i, hi, hheld⟩ := exists_of_total_pos (Nat.pos_of_ne_zero hne)
    have hslot := hidle i hi
    cases hi : s.slots i with
    | carried request id stage => rw [hi] at hslot; cases hslot
    | _ => rw [hi] at hheld; exact lt_irrefl 0 hheld
  have hpermits := h.permits
  have hcounted := counted_le_carried s
  rw [← h.inFlight] at hcounted
  omega

/-- No request is before its first step. -/
theorem present (hs : (system limits).Reachable s) : ∀ i < s.arrived, s.slots i ≠ .absent := by
  refine hs.invariant (P := fun s => ∀ i < s.arrived, s.slots i ≠ .absent) ?_ ?_
  · rintro s rfl i hi
    exact absurd hi (Nat.not_lt_zero i)
  · intro s event t h hstep
    obtain ⟨-, ⟨request, generated, -, rfl⟩ | ⟨j, e, slot, -, hown, rfl⟩ | ⟨-, rfl⟩ |
      ⟨-, -, -, rfl⟩ | ⟨-, -, rfl⟩ | ⟨cut, -, -, rfl⟩ | ⟨-, -, -, rfl⟩ | ⟨cut, -, -, rfl⟩⟩ :=
      step_cases hstep
    · obtain ⟨slot, harrives, hslot⟩ := arrive_cases limits s request generated
      intro i hi
      rw [harrives.slots]
      rw [harrives.arrived] at hi
      -- the slot just taken, or one taken before
      by_cases hnew : i = s.arrived
      · rw [hnew, Function.update_self]
        rcases hslot with ⟨-, -, rfl⟩ | ⟨-, -, rfl⟩ | ⟨-, -, rfl⟩ | ⟨-, rfl⟩ <;>
          exact fun habsent => by cases habsent
      · rw [Function.update_of_ne hnew]
        exact h i (by omega)
    · intro i hi
      show Function.update (s.account e slot).slots j slot i ≠ _
      rw [account_slots]
      -- a step leaves its slot taken
      by_cases hij : i = j
      · subst hij
        rw [Function.update_self]
        obtain ⟨request, id, ⟨answer, -, -, rfl⟩ | ⟨stage, stage', -, rfl, -⟩⟩ := own_cases hown
        · cases answer <;> exact fun habsent => by cases habsent
        · exact fun habsent => by cases habsent
      · rw [Function.update_of_ne hij]
        exact h i ((account_arrived s e slot) ▸ hi)
    · rw [Server.advanceTo]
      split_ifs <;> exact h
    · exact h
    · exact h
    · rw [Server.advanceTo]
      split_ifs <;> exact h
    · exact h
    · exact h

/-- **A shutdown that ends within the grace period cuts nobody off: when `serve` returns,
every request that ever came has its answer, none of them because of the shutdown, or its
client is gone; and nothing is held.** -/
theorem drained_cuts_nobody (hs : (system limits).Reachable s) (hserve : s.serve = .returned none) :
    s.permits = limits.maxConcurrent ∧ s.inFlight = 0 ∧
      ∀ i < s.arrived, (∃ request id answer, s.slots i = .answered request id answer ∧
        answer ≠ .refused .shutdownCancelled) ∨ ∃ request, s.slots i = .dropped request := by
  have horderly := orderly hs
  have hidle := horderly.idle hserve
  have hphase : s.phase ≠ .cancelled := by
    intro hcancelled
    obtain ⟨cut, hcut | hcut⟩ := horderly.cancelled hcancelled <;>
      rw [hserve] at hcut <;> cases hcut
  obtain ⟨hpermits, hinFlight⟩ := (accounted hs).free hidle
  refine ⟨hpermits, hinFlight, fun i hi => ?_⟩
  have huncut := horderly.uncut hphase i
  have hcarried := hidle i hi
  cases hslot : s.slots i with
  | absent => exact absurd hslot (present hs i hi)
  | carried request id stage => rw [hslot] at hcarried; cases hcarried
  | answered request id answer =>
      rw [hslot] at huncut
      exact .inl ⟨request, id, answer, rfl, huncut⟩
  | dropped request => exact .inr ⟨request, rfl⟩

/-- The body is complete, the handler answers, and the drain ends. -/
def drained : List (Event Unit) :=
  uploading ++ [.signal, .drain, .own 0 .complete, .own 0 (.respond ()), .own 0 .leave, .finish]

theorem drained_cuts_nobody_drained : ∃ s, exec (step narrow) (init narrow) drained = some s ∧
    s.permits = narrow.maxConcurrent ∧ s.inFlight = 0 ∧
      ∀ i < s.arrived, (∃ request id answer, s.slots i = .answered request id answer ∧
        answer ≠ .refused .shutdownCancelled) ∨ ∃ request, s.slots i = .dropped request :=
  ⟨_, rfl, drained_cuts_nobody (reachable_of_exec drained rfl) rfl⟩

/-! ### Cancelling -/

/-- How many steps settle a request once the process is cancelled. -/
def Slot.toGo : Slot R → ℕ
  | .carried _ _ .admitted => 3
  | .carried _ _ (.leaving _) => 1
  | .carried _ _ _ => 2
  | _ => 0

/-- What becomes of a request then: it has the answer it was leaving with, or that of the
shutdown. -/
def Slot.finish : Slot R → Slot R
  | .carried request id (.leaving answer) => .left request id answer
  | .carried request id _ => .answered request id (.refused .shutdownCancelled)
  | slot => slot

theorem toGo_le (slot : Slot R) : slot.toGo ≤ slot.held * 3 := by
  cases slot with
  | carried request id stage => cases stage <;> simp [Slot.toGo, Slot.held]
  | _ => exact Nat.zero_le _

theorem finish_of_toGo (h : slot.toGo = 0) : slot.finish = slot := by
  cases slot with
  | carried request id stage => cases stage <;> cases h
  | _ => rfl

theorem isCarried_of_toGo (h : slot.toGo = 0) : slot.isCarried = false := by
  cases slot with
  | carried request id stage => cases stage <;> cases h
  | _ => rfl

theorem isCarried_finish (slot : Slot R) : slot.finish.isCarried = false := by
  cases slot with
  | carried request id stage =>
      cases stage with
      | leaving answer => cases answer <;> rfl
      | _ => rfl
  | _ => rfl

/-- The step is possible, and one step nearer to the same end. -/
theorem settle_own (h : 0 < slot.toGo) : ∃ e slot', (e = .enter ∨ e = .abort ∨ e = .leave) ∧
    slot.own limits .cancelled e = some slot' ∧ slot'.toGo + 1 = slot.toGo ∧
    slot'.finish = slot.finish := by
  cases slot with
  | carried request id stage =>
      cases stage with
      | admitted => exact ⟨.enter, _, .inl rfl, rfl, rfl, rfl⟩
      | entered => exact ⟨.abort, _, .inr (.inl rfl), rfl, rfl, rfl⟩
      | receiving buffered => exact ⟨.abort, _, .inr (.inl rfl), rfl, rfl, rfl⟩
      | handling body => exact ⟨.abort, _, .inr (.inl rfl), rfl, rfl, rfl⟩
      | leaving answer => cases answer <;> exact ⟨.leave, _, .inr (.inr rfl), rfl, rfl, rfl⟩
  | _ => exact absurd h (lt_irrefl 0)

/-- The counters at the end: nothing is held any more. -/
def Server.finished (limits : PerimeterLimits) (s : Server R) : Server R :=
  { s with permits := limits.maxConcurrent, inFlight := 0, slots := fun i => (s.slots i).finish }

/-- A step of one request in a running process. -/
theorem step_own {cut : ℕ} (hserve : s.serve = .flushing cut) (i : ℕ) (e : Own R) :
    step limits s (.own i e) = s.own limits i e := by
  simp only [step, hserve]

/-- As many steps as there are to go lead to the end. -/
theorem exists_settled {cut n : ℕ} (haccounted : Accounted limits s)
    (hserve : s.serve = .flushing cut)
    (hphase : s.phase = .cancelled) (hn : total Slot.toGo s.arrived s.slots = n) :
    ∃ es : List (Event R), es.length = n ∧
      (∀ event ∈ es, ∃ i < s.arrived, ∃ e, event = .own i e ∧
        (e = .enter ∨ e = .abort ∨ e = .leave)) ∧
      exec (step limits) s es = some (s.finished limits) := by
  -- the induction is on the steps all requests together still have to go
  induction n generalizing s with
  | zero =>
      have hdone : ∀ i, (s.slots i).toGo = 0 := by
        intro i
        by_cases hi : i < s.arrived
        · exact Nat.le_zero.mp (hn ▸ le_total Slot.toGo hi)
        · rw [haccounted.absent i (not_lt.mp hi)]
          rfl
      obtain ⟨hpermits, hinFlight⟩ := haccounted.free fun i _ => isCarried_of_toGo (hdone i)
      refine ⟨[], rfl, fun event hevent => absurd hevent List.not_mem_nil, ?_⟩
      -- nobody has a step left, so nothing is to be done
      have hslots : s.slots = fun i => (s.slots i).finish :=
        funext fun i => (finish_of_toGo (hdone i)).symm
      show some s =
        some { s with permits := _, inFlight := 0, slots := fun i => (s.slots i).finish }
      rw [← hpermits, ← hinFlight, ← hslots]
  | succ n ih =>
      -- somebody has a step left; it is one less behind it
      obtain ⟨i, hi, hpos⟩ := exists_of_total_pos (hn.trans_ge (Nat.succ_le_succ (Nat.zero_le n)))
      obtain ⟨e, slot, he, hown, hless, hfinish⟩ := settle_own hpos
      rw [← hphase] at hown
      have hstep : step limits s (.own i e) = some ((s.account e slot).put i slot) := by
        rw [step_own hserve, Server.own, hown]
        rfl
      have hslots : ((s.account e slot).put i slot).slots = Function.update s.slots i slot := by
        show Function.update (s.account e slot).slots i slot = _
        rw [account_slots]
      have harrived : ((s.account e slot).put i slot).arrived = s.arrived :=
        account_arrived s e slot
      have htotal : total Slot.toGo ((s.account e slot).put i slot).arrived
          ((s.account e slot).put i slot).slots = n := by
        have hupdate := total_update Slot.toGo s.slots hi slot
        rw [hslots, harrived]
        rw [hn] at hupdate
        omega
      obtain ⟨es, hlength, hes, hexec⟩ :=
        ih (haccounted.own hown) ((account_serve s e slot).trans hserve)
        ((account_phase s e slot).trans hphase) htotal
      have hends : ((s.account e slot).put i slot).finished limits = s.finished limits := by
        have hsame : (fun j => (((s.account e slot).put i slot).slots j).finish) =
            fun j => (s.slots j).finish := by
          funext j
          rw [hslots]
          by_cases hj : j = i
          · rw [hj, Function.update_self, hfinish]
          · rw [Function.update_of_ne hj]
        rw [Server.finished, Server.finished, hsame, harrived]
        show Server.mk (s.account e slot).serve (s.account e slot).phase _ _ _ _ = _
        rw [account_serve, account_phase]
      refine ⟨.own i e :: es, by rw [List.length_cons, hlength], ?_, ?_⟩
      · intro event hevent
        rcases List.mem_cons.mp hevent with rfl | hevent
        · exact ⟨i, hi, e, rfl, he⟩
        · obtain ⟨j, hj, e', hevent⟩ := hes event hevent
          exact ⟨j, harrived ▸ hj, e', hevent⟩
      · rw [exec, hstep, ← hends]
        exact hexec

/-- **Once the process is cancelled nobody holds it up: at most three steps for each
permit, all of them its own, settle every request, with the answer it was leaving with or
that of the shutdown.** -/
theorem cancelled_drains (hs : (system limits).Reachable s) {cut : ℕ}
    (hserve : s.serve = .flushing cut) :
    ∃ es : List (Event R), es.length ≤ 3 * limits.maxConcurrent ∧
      (∀ event ∈ es, ∃ i < s.arrived, ∃ e, event = .own i e ∧
        (e = .enter ∨ e = .abort ∨ e = .leave)) ∧
      exec (step limits) s es = some (s.finished limits) ∧ (s.finished limits).Idle := by
  have haccounted := accounted hs
  obtain ⟨es, hlength, hes, hexec⟩ :=
    exists_settled haccounted hserve ((orderly hs).flushing cut hserve) rfl
  refine ⟨es, ?_, hes, hexec, fun i _ => isCarried_finish (s.slots i)⟩
  calc es.length = total Slot.toGo s.arrived s.slots := hlength
    _ ≤ s.carried * 3 := total_le_mul _ _ _ fun i _ => toGo_le (s.slots i)
    _ ≤ 3 * limits.maxConcurrent := by
      have hpermits := haccounted.permits
      omega

/-- The grace period ends over the body. -/
def cutOff : List (Event Unit) := uploading ++ [.signal, .drain, .expire, .cancel]

theorem cancelled_drains_cutOff : ∃ s, exec (step narrow) (init narrow) cutOff = some s ∧
    ∃ es : List (Event Unit), es.length ≤ 3 * narrow.maxConcurrent ∧
      (∀ event ∈ es, ∃ i < s.arrived, ∃ e, event = .own i e ∧
        (e = .enter ∨ e = .abort ∨ e = .leave)) ∧
      exec (step narrow) s es = some (s.finished narrow) ∧ (s.finished narrow).Idle :=
  ⟨_, rfl, cancelled_drains (reachable_of_exec cutOff rfl) rfl⟩

end Perimeter

end AircraftApi
