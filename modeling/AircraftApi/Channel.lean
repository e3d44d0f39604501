/-
AircraftApi/Channel.lean

A bounded channel between two threads: a sender that is a program of its own, with a
branch for every send that is refused, and a receiver that folds the messages until it
has an answer or the sender hangs up.

Whatever the interleaving, the receiver answers what it would have answered reading the
sender's messages as a list (`Channel.answer_eq`); the channel never holds more than its
capacity; no state is stuck before both threads are through (`Channel.exists_step`); and
every step uses up some of a measure (`Channel.step_measure`), so both end.
-/
import AircraftApi.Transition

namespace Channel

open Transition

variable {μ κ ρ : Type*}

/-! ### The two threads -/

/-- A thread that sends: it goes on one way when a message was taken, another when nobody
listens any more. -/
inductive Sender (μ : Type*)
  | stop
  | send (message : μ) (sent refused : Sender μ)

/-- The messages of a sender nobody refuses. -/
def Sender.messages : Sender μ → List μ
  | stop => []
  | send message sent _ => message :: sent.messages

/-- The most sends a sender attempts. -/
def Sender.size : Sender μ → ℕ
  | stop => 0
  | send _ sent refused => max sent.size refused.size + 1

/-- A thread that receives: what it makes of a message, and of the end. -/
structure Receiver (μ κ ρ : Type*) where
  message : κ → μ → κ ⊕ ρ
  ended : κ → ρ

/-- The receiver on a list of messages. -/
def Receiver.read (r : Receiver μ κ ρ) : κ → List μ → ρ
  | k, [] => r.ended k
  | k, message :: rest =>
      match r.message k message with
      | .inl k => r.read k rest
      | .inr answer => answer

/-! ### The channel -/

/-- The sender is gone once it has hung up; the receiver folds or has answered, and
listens until its end of the channel is dropped. -/
structure State (μ κ ρ : Type*) where
  sender : Option (Sender μ)
  queue : List μ
  receiver : κ ⊕ ρ
  listening : Bool

/-- What one of the two threads does next: the sender sends or hangs up, the receiver
takes a message or drops its end. -/
inductive Act
  | send
  | hangUp
  | receive
  | drop
  deriving DecidableEq, Repr

variable (capacity : ℕ) (r : Receiver μ κ ρ)

/-- A step of a thread. A send waits while the channel is full and is refused once nobody
listens; the receiver waits while the channel is empty and the sender is still there. -/
def step (s : State μ κ ρ) : Act → Option (State μ κ ρ)
  | .send =>
      match s.sender with
      | some (.send message sent refused) =>
          if s.listening then
            -- a full channel blocks
            if s.queue.length < capacity then
              some { s with sender := some sent, queue := s.queue ++ [message] }
            else none
          else some { s with sender := some refused }
      | _ => none
  | .hangUp =>
      match s.sender with
      | some .stop => some { s with sender := none }
      | _ => none
  | .receive =>
      match s.receiver, s.queue, s.sender with
      | .inl k, message :: queue, _ => some { s with queue, receiver := r.message k message }
      | .inl k, [], none => some { s with receiver := .inr (r.ended k) }
      | _, _, _ => none
  | .drop =>
      match s.receiver, s.listening with
      | .inr _, true => some { s with queue := [], listening := false }
      | _, _ => none

/-- Both threads at their start, nothing on the way. -/
def init (sender : Sender μ) (k : κ) : State μ κ ρ where
  sender := some sender
  queue := []
  receiver := .inl k
  listening := true

/-- The threads take their steps in any order. -/
def system (sender : Sender μ) (k : κ) : System (State μ κ ρ) Act :=
  .ofStep (init sender k) (step capacity r)

/-- Both threads are through. -/
def State.Settled (s : State μ κ ρ) : Prop := s.sender = none ∧ s.listening = false

/-! ### What a step can do -/

variable {capacity r} {s t : State μ κ ρ}

/-- Everything a step can do, with what it needs to be taken. -/
theorem step_cases {act : Act} (h : step capacity r s act = some t) :
    (∃ message sent refused, act = .send ∧ s.sender = some (.send message sent refused) ∧
      ((s.listening = true ∧ s.queue.length < capacity ∧
          t = { s with sender := some sent, queue := s.queue ++ [message] }) ∨
        (s.listening = false ∧ t = { s with sender := some refused }))) ∨
    (act = .hangUp ∧ s.sender = some .stop ∧ t = { s with sender := none }) ∨
    (∃ k message queue, act = .receive ∧ s.receiver = .inl k ∧ s.queue = message :: queue ∧
      t = { s with queue, receiver := r.message k message }) ∨
    (∃ k, act = .receive ∧ s.receiver = .inl k ∧ s.queue = [] ∧ s.sender = none ∧
      t = { s with receiver := .inr (r.ended k) }) ∨
    (∃ answer, act = .drop ∧ s.receiver = .inr answer ∧ s.listening = true ∧
      t = { s with queue := [], listening := false }) := by
  cases act with
  | send =>
      rcases hsender : s.sender with - | - | ⟨message, sent, refused⟩ <;>
        simp only [step, hsender, reduceCtorEq] at h
      refine .inl ⟨message, sent, refused, rfl, rfl, ?_⟩
      -- taken, or refused because nobody listens; a full channel is no step
      split_ifs at h with hlistening hroom
      · exact .inl ⟨hlistening, hroom, (Option.some.inj h).symm⟩
      · exact .inr ⟨Bool.not_eq_true _ ▸ hlistening, (Option.some.inj h).symm⟩
  | hangUp =>
      rcases hsender : s.sender with - | - | ⟨message, sent, refused⟩ <;>
        simp only [step, hsender, reduceCtorEq] at h
      exact .inr (.inl ⟨rfl, rfl, (Option.some.inj h).symm⟩)
  | receive =>
      rcases hreceiver : s.receiver with k | answer
      · -- the messages that wait are read before the end is
        rcases hqueue : s.queue with - | ⟨message, queue⟩
        · rcases hsender : s.sender with - | sender <;>
            simp only [step, hreceiver, hqueue, hsender, reduceCtorEq] at h
          exact .inr (.inr (.inr (.inl ⟨k, rfl, rfl, rfl, rfl, (Option.some.inj h).symm⟩)))
        · simp only [step, hreceiver, hqueue] at h
          exact .inr (.inr (.inl ⟨k, message, queue, rfl, rfl, rfl, (Option.some.inj h).symm⟩))
      · simp only [step, hreceiver, reduceCtorEq] at h
  | drop =>
      rcases hreceiver : s.receiver with k | answer
      · simp only [step, hreceiver, reduceCtorEq] at h
      · rcases hlistening : s.listening <;>
          simp only [step, hreceiver, hlistening, reduceCtorEq] at h
        exact .inr (.inr (.inr (.inr ⟨answer, rfl, rfl, rfl, (Option.some.inj h).symm⟩)))

/-! ### The answer -/

/-- What the sender still has to say. -/
def State.pending (s : State μ κ ρ) : List μ := (s.sender.map Sender.messages).getD []

/-- The receiver is still owed the rest of the messages, or has answered. -/
structure Owed (capacity : ℕ) (r : Receiver μ κ ρ) (answer : ρ) (s : State μ κ ρ) : Prop where
  bounded : s.queue.length ≤ capacity
  folding : ∀ k, s.receiver = .inl k →
    s.listening = true ∧ r.read k (s.queue ++ s.pending) = answer
  answered : ∀ given, s.receiver = .inr given → given = answer

/-- No step changes the answer the receiver owes. -/
theorem Owed.step {answer : ρ} {act : Act} (h : Owed capacity r answer s)
    (hstep : step capacity r s act = some t) : Owed capacity r answer t := by
  obtain ⟨message, sent, refused, -, hsender, ⟨-, hroom, rfl⟩ | ⟨hclosed, rfl⟩⟩ |
    ⟨-, hsender, rfl⟩ | ⟨k, message, queue, -, hreceiver, hqueue, rfl⟩ |
    ⟨k, -, hreceiver, hqueue, hsender, rfl⟩ | ⟨given, -, hreceiver, -, rfl⟩ := step_cases hstep
  · -- the message moves from the end of what is pending to the end of the queue
    refine ⟨?_, fun k hk => ?_, h.answered⟩
    · show (s.queue ++ [message]).length ≤ capacity
      rw [List.length_append]
      exact hroom
    · obtain ⟨hlistening, hread⟩ := h.folding k hk
      refine ⟨hlistening, ?_⟩
      rw [State.pending, hsender] at hread
      show r.read k ((s.queue ++ [message]) ++ sent.messages) = answer
      rw [List.append_assoc]
      exact hread
  · refine ⟨h.bounded, fun k hk => ?_, h.answered⟩
    have hlistening := (h.folding k hk).1
    rw [hclosed] at hlistening
    cases hlistening
  · refine ⟨h.bounded, fun k hk => ?_, h.answered⟩
    obtain ⟨hlistening, hread⟩ := h.folding k hk
    rw [State.pending, hsender] at hread
    exact ⟨hlistening, hread⟩
  · obtain ⟨hlistening, hread⟩ := h.folding k hreceiver
    rw [hqueue, List.cons_append, Receiver.read] at hread
    refine ⟨?_, fun k' hk' => ?_, fun given hgiven => ?_⟩
    · have hlength := h.bounded
      rw [hqueue] at hlength
      exact Nat.le_trans (Nat.le_succ _) hlength
    · have hmessage : r.message k message = .inl k' := hk'
      rw [hmessage] at hread
      exact ⟨hlistening, hread⟩
    · have hmessage : r.message k message = .inr given := hgiven
      rw [hmessage] at hread
      exact hread
  · refine ⟨h.bounded, fun k' hk' => (by cases hk'), fun given hgiven => ?_⟩
    have hread := (h.folding k hreceiver).2
    rw [hqueue, State.pending, hsender] at hread
    exact (Sum.inr.inj hgiven).symm.trans hread
  · refine ⟨Nat.zero_le _, fun k hk => ?_, h.answered⟩
    have habsurd : s.receiver = .inl k := hk
    rw [hreceiver] at habsurd
    cases habsurd

/-- In every state reached the receiver owes what the whole list of messages gives. -/
theorem owed {sender : Sender μ} {k : κ} (hs : (system capacity r sender k).Reachable s) :
    Owed capacity r (r.read k sender.messages) s := by
  refine hs.invariant ?_ fun h hstep => h.step hstep
  rintro s rfl
  refine ⟨Nat.zero_le _, fun k' hk' => ⟨rfl, ?_⟩, fun given hgiven => (by cases hgiven)⟩
  cases hk'
  rfl

/-- **The answer is that of the list**, whatever the interleaving. -/
theorem answer_eq {sender : Sender μ} {k : κ} {answer : ρ}
    (hs : (system capacity r sender k).Reachable s) (h : s.receiver = .inr answer) :
    answer = r.read k sender.messages :=
  (owed hs).answered answer h

/-! ### Progress -/

/-- No reachable state is stuck while a thread is not through. -/
theorem exists_step (hcapacity : 0 < capacity) {answer : ρ} (h : Owed capacity r answer s)
    (hs : ¬ s.Settled) : ∃ act t, step capacity r s act = some t := by
  rcases hreceiver : s.receiver with k | given
  · have hlistening := (h.folding k hreceiver).1
    rcases hqueue : s.queue with - | ⟨message, queue⟩
    · rcases hsender : s.sender with - | - | ⟨message, sent, refused⟩
      · exact ⟨.receive, _, by simp only [step, hreceiver, hqueue, hsender]; rfl⟩
      · exact ⟨.hangUp, _, by simp only [step, hsender]; rfl⟩
      · refine ⟨.send, { s with sender := some sent, queue := s.queue ++ [message] }, ?_⟩
        simp only [step, hsender, hlistening, hqueue, List.length_nil, hcapacity, if_true]
    · exact ⟨.receive, _, by simp only [step, hreceiver, hqueue]; rfl⟩
  · rcases hlistening : s.listening with - | -
    · rcases hsender : s.sender with - | - | ⟨message, sent, refused⟩
      · exact absurd ⟨hsender, hlistening⟩ hs
      · exact ⟨.hangUp, _, by simp only [step, hsender]; rfl⟩
      · exact ⟨.send, { s with sender := some refused },
          by simp only [step, hsender, hlistening, Bool.false_eq_true, if_false]⟩
    · exact ⟨.drop, _, by simp only [step, hreceiver, hlistening]; rfl⟩

/-- Nobody drops an end that is still read. -/
theorem Owed.settled {answer : ρ} (h : Owed capacity r answer s) (hs : s.Settled) :
    s.receiver = .inr answer := by
  rcases hreceiver : s.receiver with k | given
  · have hlistening := (h.folding k hreceiver).1
    rw [hs.2] at hlistening
    cases hlistening
  · rw [h.answered given hreceiver]

/-- A stuck state is one where both are through. -/
theorem settled_of_stuck (hcapacity : 0 < capacity) {answer : ρ} (h : Owed capacity r answer s)
    (hstuck : ∀ act, step capacity r s act = none) : s.Settled := by
  by_contra hnot
  obtain ⟨act, t, hstep⟩ := exists_step hcapacity h hnot
  rw [hstuck act] at hstep
  cases hstep

/-- What the two threads have left to do. -/
def State.measure (s : State μ κ ρ) : ℕ :=
  (s.sender.map fun sender => 2 * sender.size + 1).getD 0 + s.queue.length
    + (if s.receiver.isLeft then 1 else 0) + if s.listening then 1 else 0

/-- Every step uses up some of the measure. -/
theorem step_measure {act : Act} (hstep : step capacity r s act = some t) :
    t.measure < s.measure := by
  obtain ⟨message, sent, refused, -, hsender, ⟨-, -, rfl⟩ | ⟨-, rfl⟩⟩ | ⟨-, hsender, rfl⟩ |
    ⟨k, message, queue, -, hreceiver, hqueue, rfl⟩ | ⟨k, -, hreceiver, -, -, rfl⟩ |
    ⟨given, -, hreceiver, hlistening, rfl⟩ := step_cases hstep
  · have hsize : sent.size < (Sender.send message sent refused).size :=
      Nat.lt_succ_of_le (Nat.le_max_left _ _)
    simp only [State.measure, hsender, Option.map_some, Option.getD_some, List.length_append,
      List.length_singleton]
    omega
  · have hsize : refused.size < (Sender.send message sent refused).size :=
      Nat.lt_succ_of_le (Nat.le_max_right _ _)
    simp only [State.measure, hsender, Option.map_some, Option.getD_some]
    omega
  · simp only [State.measure, hsender, Option.map_some, Option.getD_some, Option.map_none,
      Option.getD_none]
    omega
  · have hdone : (if (r.message k message).isLeft then 1 else 0) ≤ 1 := by split_ifs <;> omega
    simp only [State.measure, hreceiver, hqueue, List.length_cons, Sum.isLeft_inl, if_true]
    omega
  · simp only [State.measure, hreceiver, Sum.isLeft_inl, Sum.isLeft_inr, if_true,
      Bool.false_eq_true, if_false]
    omega
  · simp only [State.measure, hreceiver, hlistening, List.length_nil, if_true,
      Bool.false_eq_true, if_false]
    omega

/-- A run is no longer than what there was to do. -/
theorem exec_length_le {as : List Act} (h : exec (step capacity r) s as = some t) :
    as.length + t.measure ≤ s.measure := by
  induction as generalizing s with
  | nil =>
      cases h
      exact Nat.le_of_eq (Nat.zero_add _)
  | cons a as ih =>
      obtain ⟨u, hu, hrest⟩ := Option.bind_eq_some_iff.mp h
      have hlt := step_measure hu
      have hle := ih hrest
      rw [List.length_cons]
      omega

/-- From every state some run settles both threads. -/
theorem exists_settled (hcapacity : 0 < capacity) {answer : ρ} (h : Owed capacity r answer s) :
    ∃ as t, exec (step capacity r) s as = some t ∧ t.Settled := by
  induction hn : s.measure using Nat.strongRecOn generalizing s with
  | ind n ih =>
      by_cases hs : s.Settled
      · exact ⟨[], s, rfl, hs⟩
      · obtain ⟨act, u, hu⟩ := exists_step hcapacity h hs
        obtain ⟨as, t, hexec, ht⟩ := ih u.measure (hn ▸ step_measure hu) (h.step hu) rfl
        refine ⟨act :: as, t, ?_, ht⟩
        rw [exec, hu]
        exact hexec

end Channel
