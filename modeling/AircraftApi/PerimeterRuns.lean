/-
AircraftApi/PerimeterRuns.lean

One request in a run of the process.

Whatever the others do, the steps of a request follow one course: it enters, its body is
read chunk by chunk, its handler is called, and it leaves with an answer.  So the handler
is called with the body the client sent (`handled_body`), and an answer is explained by
the request's own steps, or by the permits that were held when it came
(`answered_explained`).
-/
import AircraftApi.PerimeterSafety

namespace AircraftApi

namespace Perimeter

open Slots Transition

variable {R : Type*} {limits : PerimeterLimits} {s t : Server R} {as : List (Event R)} {i : ℕ}
  {request : Request} {id : RequestId} {stage stage' : Stage R} {steps : List (Own R)} {e : Own R}

/-! ### The course of a request -/

/-- The steps of a run that are the request's own. -/
def ownOf (i : ℕ) (as : List (Event R)) : List (Own R) :=
  as.filterMap fun
    | .own j e => if j = i then some e else none
    | _ => none

/-- The requests that came, in order, with the identifiers generated for them. -/
def arrivals (as : List (Event R)) : List (Request × RequestId) :=
  as.filterMap fun
    | .arrive request generated => some (request, generated)
    | _ => none

/-- The steps up to here, when these chunks have been read. -/
def reading (chunks : List (List UInt8)) : List (Own R) := .enter :: .begin :: chunks.map .chunk

/-- The chunks are within the limit, and so is the length declared for them. -/
structure Received (limits : PerimeterLimits) (request : Request) (chunks : List (List UInt8)) :
    Prop where
  declared : declaresMoreThan request limits.bodyBytes = false
  fits : chunks.flatten.length ≤ limits.bodyBytes

/-- The body is being read, or has been read and the handler called. -/
def Reads (limits : PerimeterLimits) (request : Request) (steps : List (Own R)) : Prop :=
  ∃ chunks, Received limits request chunks ∧
    (steps = reading chunks ∨ steps = reading chunks ++ [.complete])

/-- The steps that settle a request, with the answer they leave; none for a request whose
future was dropped. -/
inductive Explained (limits : PerimeterLimits) (request : Request) :
    List (Own R) → Option (Answer R) → Prop
  | declared (h : declaresMoreThan request limits.bodyBytes = true) :
      Explained limits request [.enter, .begin] (some (.refused .payloadTooLarge))
  | sent {chunks last} (h : Received limits request chunks)
      (hover : limits.bodyBytes < (chunks ++ [last]).flatten.length) :
      Explained limits request (reading (chunks ++ [last])) (some (.refused .payloadTooLarge))
  | broken {chunks} (h : Received limits request chunks) :
      Explained limits request (reading chunks ++ [.broken]) (some (.refused .malformedInput))
  | served {chunks response} (h : Received limits request chunks) :
      Explained limits request (reading chunks ++ [.complete, .respond response])
        (some (.served response))
  | expired {before} (h : Reads limits request before) :
      Explained limits request (before ++ [.expire]) (some (.refused .deadlineExceeded))
  | cancelled {before} (h : before = [.enter] ∨ Reads limits request before) :
      Explained limits request (before ++ [.abort]) (some (.refused .shutdownCancelled))
  | dropped {before} (h : Reads limits request before) :
      Explained limits request (before ++ [.disconnect]) none

/-- The steps of a request that holds a permit, and where they lead. -/
inductive Course (limits : PerimeterLimits) (request : Request) : List (Own R) → Stage R → Prop
  | admitted : Course limits request [] .admitted
  | entered : Course limits request [.enter] .entered
  | receiving {chunks} (h : Received limits request chunks) :
      Course limits request (reading chunks) (.receiving chunks.flatten)
  | handling {chunks} (h : Received limits request chunks) :
      Course limits request (reading chunks ++ [.complete]) (.handling chunks.flatten)
  | leaving {settled answer} (h : Explained limits request settled answer) :
      Course limits request settled (.leaving answer)

theorem Course.explained {answer : Option (Answer R)}
    (h : Course limits request steps (.leaving answer)) :
    Explained limits request steps answer := by
  cases h with
  | leaving h => exact h

theorem reading_concat (chunks : List (List UInt8)) (last : List UInt8) :
    (reading (chunks ++ [last]) : List (Own R)) = reading chunks ++ [.chunk last] := by
  simp [reading]

theorem flatten_concat (chunks : List (List UInt8)) (last : List UInt8) :
    (chunks ++ [last]).flatten = chunks.flatten ++ last := by
  rw [List.flatten_append, List.flatten_singleton]

theorem Course.reads {body : List UInt8} (h : Course limits request steps stage)
    (hbody : stage.body = some body) : Reads limits request steps := by
  cases h with
  | receiving h => exact ⟨_, h, .inl rfl⟩
  | handling h => exact ⟨_, h, .inr rfl⟩
  | _ => cases hbody

theorem Course.move {phase : Phase} (h : Course limits request steps stage)
    (hmoves : Moves limits phase request stage e stage') :
    Course limits request (steps ++ [e]) stage' := by
  cases hmoves with
  | enter =>
      cases h
      exact .entered
  | declared hdeclared =>
      cases h
      exact .leaving (.declared hdeclared)
  | begin hdeclared =>
      cases h
      have hnone : Received limits request [] := ⟨hdeclared, Nat.zero_le _⟩
      exact .receiving hnone
  | chunk hfits =>
      cases h with
      | receiving h =>
          -- the chunk joins those read before it
          rw [← reading_concat, ← flatten_concat]
          exact .receiving ⟨h.declared, by rwa [flatten_concat]⟩
  | sent hover =>
      cases h with
      | receiving h =>
          rw [← reading_concat]
          exact .leaving (.sent h (by rwa [flatten_concat]))
  | broken =>
      cases h with
      | receiving h => exact .leaving (.broken h)
  | complete =>
      cases h with
      | receiving h => exact .handling h
  | respond =>
      cases h with
      | handling h =>
          rw [List.append_assoc]
          exact .leaving (.served h)
  | expire hbody => exact .leaving (.expired (h.reads hbody))
  | disconnect hbody => exact .leaving (.dropped (h.reads hbody))
  | abort hcounted =>
      -- an abort finds the request before, within or behind its body
      apply Course.leaving
      apply Explained.cancelled
      cases h with
      | entered => exact .inl rfl
      | receiving h => exact .inr ⟨_, h, .inl rfl⟩
      | handling h => exact .inr ⟨_, h, .inr rfl⟩
      | _ => cases hcounted

/-! ### Runs -/

/-- As the request came, every permit was held. -/
def Saturated (limits : PerimeterLimits) (as : List (Event R)) (i : ℕ) (request : Request)
    (generated : RequestId) : Prop :=
  ∃ before after s, as = before ++ .arrive request generated :: after ∧
    (arrivals before).length = i ∧ exec (step limits) (init limits) before = some s ∧
    s.carried = limits.maxConcurrent

/-- Why a request is answered as it is. -/
inductive Verdict (limits : PerimeterLimits) (as : List (Event R)) (i : ℕ) (request : Request)
    (generated : RequestId) : Answer R → Prop
  | preflight (hpreflight : request.preflight = true)
      (h : declaresMoreThan request limits.bodyBytes = false) (hown : ownOf i as = []) :
      Verdict limits as i request generated .preflight
  | oversized (hpreflight : request.preflight = true)
      (h : declaresMoreThan request limits.bodyBytes = true) (hown : ownOf i as = []) :
      Verdict limits as i request generated (.refused .payloadTooLarge)
  | shed (hpreflight : request.preflight = false) (h : Saturated limits as i request generated)
      (hown : ownOf i as = []) : Verdict limits as i request generated (.refused .overloaded)
  | settled {settled answer} (hpreflight : request.preflight = false)
      (h : Explained limits request settled (some answer))
      (hown : ownOf i as = settled ++ [.leave]) :
      Verdict limits as i request generated answer

/-- What a run says of a slot it leads to. -/
def Told (limits : PerimeterLimits) (as : List (Event R)) (i : ℕ) : Slot R → Prop
  | .absent => ownOf i as = []
  | .carried request id stage => ∃ generated, (arrivals as)[i]? = some (request, generated) ∧
      id = .fromHeaders request.requestIds generated ∧ request.preflight = false ∧
      Course limits request (ownOf i as) stage
  | .answered request id answer => ∃ generated, (arrivals as)[i]? = some (request, generated) ∧
      id = .fromHeaders request.requestIds generated ∧ Verdict limits as i request generated answer
  | .dropped request => ∃ generated, (arrivals as)[i]? = some (request, generated) ∧
      ∃ settled, ownOf i as = settled ++ [.leave] ∧ Explained limits request settled none

theorem ownOf_concat_of_ne (event : Event R) (h : ∀ e, event ≠ .own i e) :
    ownOf i (as ++ [event]) = ownOf i as := by
  rw [ownOf, List.filterMap_append, ← ownOf]
  cases event with
  | own j e =>
      have hj : j ≠ i := fun hj => h e (hj ▸ rfl)
      simp [hj]
  | _ => simp

theorem ownOf_concat_self : ownOf i (as ++ [.own i e]) = ownOf i as ++ [e] := by
  rw [ownOf, List.filterMap_append, ← ownOf]
  simp

theorem arrivals_concat (event : Event R)
    (h : ∀ request generated, event ≠ .arrive request generated) :
    arrivals (as ++ [event]) = arrivals as := by
  rw [arrivals, List.filterMap_append, ← arrivals]
  cases event with
  | arrive request generated => exact absurd rfl (h request generated)
  | _ => simp

theorem arrivals_concat_arrive (request : Request) (generated : RequestId) :
    arrivals (as ++ [.arrive request generated] : List (Event R)) =
      arrivals as ++ [(request, generated)] := by
  rw [arrivals, List.filterMap_append, ← arrivals]
  rfl

theorem Saturated.append {generated : RequestId} (h : Saturated limits as i request generated)
    (event : Event R) : Saturated limits (as ++ [event]) i request generated := by
  obtain ⟨before, after, s, rfl, hlength, hs, hheld⟩ := h
  exact ⟨before, after ++ [event], s, by simp, hlength, hs, hheld⟩

/-- A step of another leaves what is told of a slot. -/
theorem Told.append {slot : Slot R} (h : Told limits as i slot) {event : Event R}
    (hevent : ∀ e, event ≠ .own i e) : Told limits (as ++ [event]) i slot := by
  have hown : ownOf i (as ++ [event]) = ownOf i as := ownOf_concat_of_ne event hevent
  -- the event of another request leaves this one its arrival and its steps
  have hgrow : arrivals as <+: arrivals (as ++ [event]) := by
    rw [arrivals, arrivals, List.filterMap_append]
    exact List.prefix_append _ _
  have harrived : ∀ request generated, (arrivals as)[i]? = some (request, generated) →
      (arrivals (as ++ [event]))[i]? = some (request, generated) := by
    intro request generated hget
    obtain ⟨hi, hget⟩ := List.getElem?_eq_some_iff.mp hget
    rw [← hget, List.getElem?_eq_some_iff]
    exact ⟨hi.trans_le hgrow.length_le, (hgrow.getElem hi).symm⟩
  cases slot with
  | absent => exact hown.trans h
  | carried request id stage =>
      obtain ⟨generated, hget, hid, hpreflight, hcourse⟩ := h
      exact ⟨generated, harrived _ _ hget, hid, hpreflight, hown ▸ hcourse⟩
  | dropped request =>
      obtain ⟨generated, hget, settled, howned, hexplained⟩ := h
      exact ⟨generated, harrived _ _ hget, settled, hown.trans howned, hexplained⟩
  | answered request id answer =>
      obtain ⟨generated, hget, hid, hverdict⟩ := h
      refine ⟨generated, harrived _ _ hget, hid, ?_⟩
      cases hverdict with
      | preflight hpreflight hdeclared howned =>
          exact .preflight hpreflight hdeclared (hown.trans howned)
      | oversized hpreflight hdeclared howned =>
          exact .oversized hpreflight hdeclared (hown.trans howned)
      | shed hpreflight hsaturated howned =>
          exact .shed hpreflight (hsaturated.append event) (hown.trans howned)
      | settled hpreflight hexplained howned =>
          exact .settled hpreflight hexplained (hown.trans howned)

/-- A step of the request itself. -/
theorem Told.own {slot slot' : Slot R} {phase : Phase} (h : Told limits as i slot)
    (hown : slot.own limits phase e = some slot') : Told limits (as ++ [.own i e]) i slot' := by
  have harrivals : arrivals (as ++ [.own i e]) = arrivals as :=
    arrivals_concat _ fun _ _ hevent => by cases hevent
  obtain ⟨request, id, ⟨answer, rfl, rfl, rfl⟩ | ⟨stage, stage', rfl, rfl, hmoves⟩⟩ :=
    own_cases hown
  · obtain ⟨generated, hget, hid, hpreflight, hcourse⟩ := h
    have hexplained := hcourse.explained
    cases answer with
    | none => exact ⟨generated, harrivals ▸ hget, _, ownOf_concat_self, hexplained⟩
    | some answer =>
        exact ⟨generated, harrivals ▸ hget, hid, .settled hpreflight hexplained ownOf_concat_self⟩
  · obtain ⟨generated, hget, hid, hpreflight, hcourse⟩ := h
    refine ⟨generated, harrivals ▸ hget, hid, hpreflight, ?_⟩
    rw [ownOf_concat_self]
    exact hcourse.move hmoves

/-- A request comes. -/
theorem Told.arrive {generated : RequestId} (hs : exec (step limits) (init limits) as = some s)
    (haccounted : Accounted limits s) (hcount : s.arrived = (arrivals as).length)
    (h : Told limits as s.arrived .absent) :
    Told limits (as ++ [.arrive request generated]) s.arrived
      ((s.arrive limits request generated).slots s.arrived) := by
  have hget :
      (arrivals (as ++ [.arrive request generated]))[s.arrived]? = some (request, generated) := by
    rw [arrivals_concat_arrive, hcount]
    exact List.getElem?_concat_length
  have hown : ownOf s.arrived (as ++ [.arrive request generated]) = [] :=
    (ownOf_concat_of_ne _ fun _ hevent => by cases hevent).trans h
  obtain ⟨slot, harrives, hslot⟩ := arrive_cases limits s request generated
  rw [harrives.slots, Function.update_self]
  rcases hslot with ⟨hpreflight, hdeclared, rfl⟩ | ⟨hpreflight, hdeclared, rfl⟩ |
    ⟨hpreflight, hshed, rfl⟩ | ⟨hpreflight, rfl⟩
  · exact ⟨generated, hget, rfl, .oversized hpreflight hdeclared hown⟩
  · exact ⟨generated, hget, rfl, .preflight hpreflight hdeclared hown⟩
  · have hheld : s.carried = limits.maxConcurrent := by
      have hpermits := haccounted.permits
      omega
    exact ⟨generated, hget, rfl, .shed hpreflight ⟨as, [], s, rfl, hcount.symm, hs, hheld⟩ hown⟩
  · refine ⟨generated, hget, rfl, hpreflight, ?_⟩
    rw [hown]
    exact .admitted

/-- The shutdown touches no request. -/
theorem step_slots {event : Event R} (h : step limits s event = some t)
    (harrive : ∀ request generated, event ≠ .arrive request generated)
    (hown : ∀ i e, event ≠ .own i e) : t.slots = s.slots ∧ t.arrived = s.arrived := by
  have hadvance : ∀ phase,
      (s.advanceTo phase).slots = s.slots ∧ (s.advanceTo phase).arrived = s.arrived := by
    intro phase
    rw [Server.advanceTo]
    split_ifs <;> exact ⟨rfl, rfl⟩
  obtain ⟨-, ⟨request, generated, rfl, -⟩ | ⟨i, e, slot, rfl, -, -⟩ | ⟨-, rfl⟩ | ⟨-, -, -, rfl⟩ |
    ⟨-, -, rfl⟩ | ⟨cut, -, -, rfl⟩ | ⟨-, -, -, rfl⟩ | ⟨cut, -, -, rfl⟩⟩ := step_cases h
  · exact absurd rfl (harrive request generated)
  · exact absurd rfl (hown i e)
  · exact hadvance _
  · exact ⟨rfl, rfl⟩
  · exact ⟨rfl, rfl⟩
  · exact hadvance _
  · exact ⟨rfl, rfl⟩
  · exact ⟨rfl, rfl⟩

/-- A run tells of every slot. -/
theorem told (as : List (Event R)) : ∀ s, exec (step limits) (init limits) as = some s →
    s.arrived = (arrivals as).length ∧ ∀ i, Told limits as i (s.slots i) := by
  induction as using List.reverseRecOn with
  | nil =>
      rintro s hs
      obtain rfl : init limits = s := Option.some.inj hs
      exact ⟨rfl, fun i => rfl⟩
  | append_singleton as event ih =>
      intro t ht
      obtain ⟨s, hs, hstep⟩ := exec_append_singleton ht
      obtain ⟨hcount, htold⟩ := ih s hs
      have haccounted : Accounted limits s := accounted (reachable_of_exec as hs)
      cases event with
      | arrive request generated =>
          -- a new request: its slot is the next one, and was absent
          obtain rfl : t = s.arrive limits request generated := by
            obtain ⟨-, ⟨_, _, hevent, ht⟩ | ⟨_, _, _, hevent, -⟩ | ⟨hevent, -⟩ | ⟨hevent, -⟩ |
              ⟨hevent, -⟩ | ⟨_, hevent, -⟩ | ⟨hevent, -⟩ | ⟨_, ⟨hevent, -⟩ | hevent, -⟩⟩ :=
              step_cases hstep
            · cases hevent
              exact ht
            all_goals cases hevent
          obtain ⟨slot, harrives, -⟩ := arrive_cases limits s request generated
          refine ⟨?_, fun i => ?_⟩
          · rw [harrives.arrived, arrivals_concat_arrive, List.length_append, hcount]
            rfl
          · by_cases hi : i = s.arrived
            · subst hi
              have habsent := htold s.arrived
              rw [haccounted.absent _ le_rfl] at habsent
              exact .arrive hs haccounted hcount habsent
            · rw [harrives.slots, Function.update_of_ne hi]
              exact (htold i).append fun _ hevent => by cases hevent
      | own j e =>
          -- a step of one request, which leaves the others alone
          obtain ⟨slot, hown, rfl⟩ : ∃ slot, (s.slots j).own limits s.phase e = some slot ∧
              t = (s.account e slot).put j slot := by
            obtain ⟨-, ⟨_, _, hevent, -⟩ | ⟨_, _, slot, hevent, hown, ht⟩ | ⟨hevent, -⟩ |
              ⟨hevent, -⟩ | ⟨hevent, -⟩ | ⟨_, hevent, -⟩ | ⟨hevent, -⟩ | ⟨_, ⟨hevent, -⟩ | hevent, -⟩⟩ :=
              step_cases hstep
            case inr.inl =>
                cases hevent
                exact ⟨slot, hown, ht⟩
            all_goals cases hevent
          refine ⟨?_, fun i => ?_⟩
          · rw [arrivals_concat _ (fun _ _ hevent => by cases hevent), ← hcount]
            exact account_arrived s e slot
          · show Told limits _ i (Function.update (s.account e slot).slots j slot i)
            rw [account_slots]
            by_cases hi : i = j
            · subst hi
              rw [Function.update_self]
              exact (htold i).own hown
            · rw [Function.update_of_ne hi]
              exact (htold i).append fun e hevent => hi (Event.own.inj hevent).1.symm
      | _ =>
          -- an event of the shutdown touches no slot
          obtain ⟨hslots, harrived⟩ := step_slots hstep (fun _ _ hevent => by cases hevent)
            fun _ _ hevent => by cases hevent
          refine ⟨?_, fun i => ?_⟩
          · rw [arrivals_concat _ (fun _ _ hevent => by cases hevent), harrived, hcount]
          · rw [hslots]
            exact (htold i).append fun _ hevent => by cases hevent

/-- **A handler is called with the body its client sent: the chunks of its own request, in
their order and none left out, within the limit whatever length was declared.** -/
theorem handled_body (as : List (Event R)) (s : Server R)
    (hs : exec (step limits) (init limits) as = some s) {i : ℕ} {body : List UInt8}
    (h : s.slots i = .carried request id (.handling body)) :
    ∃ chunks, ownOf i as = reading chunks ++ [.complete] ∧ body = chunks.flatten ∧
      body.length ≤ limits.bodyBytes ∧ declaresMoreThan request limits.bodyBytes = false := by
  have htold := (told as s hs).2 i
  rw [h] at htold
  obtain ⟨generated, -, -, -, hcourse⟩ := htold
  generalize hown : ownOf i as = steps at hcourse
  cases hcourse with
  | handling hreceived => exact ⟨_, rfl, rfl, hreceived.fits, hreceived.declared⟩

theorem handled_body_uploaded : ∃ chunks,
    ownOf 0 (uploading ++ [.own 0 .complete]) = reading chunks ++ [.complete] ∧
      [1, 2, 3] = chunks.flatten ∧ [1, 2, 3].length ≤ narrow.bodyBytes ∧
      declaresMoreThan post narrow.bodyBytes = false :=
  handled_body (uploading ++ [.own 0 .complete]) _ rfl rfl

/-- **Every answer is explained: by the request alone for a preflight, by the permits that
were all held as it came, or by the steps of the request, which are its own whatever the
others do; and it carries the identifier the client sent, or the generated one.** -/
theorem answered_explained (as : List (Event R)) (s : Server R)
    (hs : exec (step limits) (init limits) as = some s) {i : ℕ} {answer : Answer R}
    (h : s.slots i = .answered request id answer) :
    ∃ generated, (arrivals as)[i]? = some (request, generated) ∧
      id = .fromHeaders request.requestIds generated ∧
        Verdict limits as i request generated answer := by
  have htold := (told as s hs).2 i
  rw [h] at htold
  exact htold

/-- The request that finds no permit. -/
theorem answered_explained_shed : ∃ generated,
    (arrivals uploading)[1]? = some (post, generated) ∧
      minted = .fromHeaders post.requestIds generated ∧
      Verdict narrow uploading 1 post generated (.refused .overloaded) :=
  answered_explained uploading _ rfl rfl

end Perimeter

end AircraftApi
