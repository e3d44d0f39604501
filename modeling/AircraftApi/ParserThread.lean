/-
AircraftApi/ParserThread.lean

The thread that parses an artifact and the import that consumes it, over a channel of 16
records (`open_records`, `PlanePhdRecordReader::next_record`).

Elsewhere the records are a list (`consumeLoop` on `openRecords`).  Here the two run side by
side: the thread normalizes a record and blocks until the channel takes it, the import asks
for the next one, and once it has given up nobody listens and the thread's callback fails.
However they interleave, the loop of the import answers as on the list, and neither is left
waiting for the other.

    parserThread   the sends of the thread, with what it does when one is refused
    importLoop     the body of the `while let` of `consume_records`, as a receiver
-/
import AircraftApi.Channel
import AircraftApi.PlanePhd

namespace AircraftApi

open Channel ImportService

namespace PlanePhd

/-! ### The thread -/

section Thread

variable (crates : Crates)

/-- What the thread sends when `parse_records` has failed, its last message. -/
def reportParse (error : SourceError) :
    Sender (Except PreparedInputError PreparedAircraftRecord) :=
  .send (.error (.invalid error.code error.message)) .stop .stop

/-- The closure `open_records` spawns, on the entries the JSON reader delivers.  `closed`
is what the reader's error says of `ConsumerClosed`, position included. -/
def parserThread (closed : String) : List (String × String × Json) → Except String Unit →
    Sender (Except PreparedInputError PreparedAircraftRecord)
  | [], .ok () => .stop
  | [], .error message => reportParse (.json message)
  | entry :: rest, outcome =>
      .send (.ok (normalizeRecord crates entry.1 entry.2.1 entry.2.2))
        (parserThread closed rest outcome)
        -- the callback fails, and so does the document
        (reportParse (.json closed))

theorem messages_parserThread (closed : String) (entries : List (String × String × Json))
    (outcome : Except String Unit) :
    (parserThread crates closed entries outcome).messages
      = (entries.map fun entry =>
          Except.ok (normalizeRecord crates entry.1 entry.2.1 entry.2.2)) ++
        match outcome with
        | .ok () => []
        | .error message =>
            [.error (.invalid (SourceError.json message).code
              (SourceError.json message).message)] := by
  induction entries with
  | nil => cases outcome <;> rfl
  | cons entry rest ih => exact congrArg (_ :: ·) ih

/-- The thread sends the stream. -/
theorem messages_openRecords (deserialize : List UInt8 → Document) (closed : String)
    (bytes : List UInt8) :
    (parserThread crates closed (deserialize bytes).entries (deserialize bytes).outcome).messages
      = openRecords crates deserialize bytes := by
  have hsent : ∀ records : List PreparedAircraftRecord,
      records.foldl (fun sent record => sent ++ [Except.ok record]) ([] : RecordStream)
        = records.map .ok := by
    intro records
    rw [List.foldl_append_eq_append, ← List.flatMap_def, ← List.map_eq_flatMap, List.nil_append]
  rw [messages_parserThread, openRecords, parseRecords_eq, hsent, recordsOf, List.map_map]
  cases (deserialize bytes).outcome with
  | ok => exact List.append_nil _
  | error message => rfl

theorem size_parserThread (closed : String) (entries : List (String × String × Json))
    (outcome : Except String Unit) :
    (parserThread crates closed entries outcome).size ≤ entries.length + 1 := by
  induction entries with
  | nil =>
      cases outcome with
      | ok => exact Nat.zero_le _
      | error message => exact le_rfl
  | cons entry rest ih =>
      have hrefused : (reportParse (.json closed)).size = 1 := rfl
      rw [parserThread, Sender.size, hrefused, List.length_cons]
      omega

end Thread

/-! ### The import -/

section Loop

variable {σ : Type*} (store : Store σ)

/-- What the loop of `consume_records` makes of one answer of `next_record`; it carries the
calls it has made. -/
def importLoop : Receiver (Except PreparedInputError PreparedAircraftRecord)
    (Progress × σ × List Event) (Ran σ (Except ImportError Progress)) where
  message
    | (_, env, calls), .error error =>
        .inr (.error (.input error), env, calls ++ [.next (.error error)])
    | (progress, env, calls), .ok record =>
        match record.firstError with
        | some issue =>
            .inr (.error (.input (.invalid issue.code issue.message)), env,
              calls ++ [.next (.ok (some record))])
        | none =>
            match store.stageAndPromote record env with
            | (.error error, env) =>
                .inr (.error (.persistence error), env,
                  calls ++ [.next (.ok (some record)), .stage record (.error error)])
            | (.ok outcome, env) =>
                .inl ((progress.hash record).stage outcome, env,
                  calls ++ [.next (.ok (some record)), .stage record (.ok outcome)])
  ended := fun (progress, env, calls) => (.ok progress, env, calls ++ [.next (.ok none)])

theorem read_importLoop (stream : RecordStream) (progress : Progress) (env : σ)
    (calls : List Event) :
    (importLoop store).read (progress, env, calls) stream
      = ((consumeLoop store stream progress env).1, (consumeLoop store stream progress env).2.1,
          calls ++ (consumeLoop store stream progress env).2.2) := by
  induction stream generalizing progress env calls with
  | nil => rfl
  | cons answer rest ih =>
      cases answer with
      | error error => rfl
      | ok record =>
          rw [Receiver.read, consumeLoop]
          cases hfirst : record.firstError with
          | some issue => simp only [importLoop, hfirst]
          | none =>
              rcases hstage : store.stageAndPromote record env with ⟨error | outcome, env'⟩
              · simp only [importLoop, hfirst, hstage]
              · simp only [importLoop, hfirst, hstage]
                show (importLoop store).read _ rest = _
                rw [ih, List.append_assoc]
                rfl

end Loop

/-! ### Side by side -/

section

variable {σ : Type*} (crates : Crates) (deserialize : List UInt8 → Document) (store : Store σ)

/-- How many records may wait for the store. -/
def channelCapacity : ℕ := 16

/-- The thread on an artifact beside the loop of an import that starts from `progress`. -/
def threads (closed : String) (bytes : List UInt8) (progress : Progress) (env : σ) :
    Transition.System (State (Except PreparedInputError PreparedAircraftRecord)
      (Progress × σ × List Event) (Ran σ (Except ImportError Progress))) Act :=
  system channelCapacity (importLoop store)
    (parserThread crates closed (deserialize bytes).entries (deserialize bytes).outcome)
    (progress, env, [])

variable (closed : String) (bytes : List UInt8) (progress : Progress) (env : σ)

theorem read_document :
    (importLoop store).read (progress, env, [])
        (parserThread crates closed (deserialize bytes).entries
          (deserialize bytes).outcome).messages
      = consumeLoop store (openRecords crates deserialize bytes) progress env := by
  rw [messages_openRecords, read_importLoop]
  rfl

theorem threads_owed {s} (hs :
      (threads crates deserialize store closed bytes progress env).Reachable s) :
    Owed channelCapacity (importLoop store)
      (consumeLoop store (openRecords crates deserialize bytes) progress env) s :=
  read_document crates deserialize store closed bytes progress env ▸ owed hs

/-- **The loop reads the document**: what an import can find when it runs beside the thread
is what it finds in the list of the records. -/
theorem outcome_iff (ran : Ran σ (Except ImportError Progress)) :
    (∃ s, (threads crates deserialize store closed bytes progress env).Reachable s ∧
        s.receiver = .inr ran) ↔
      ran = consumeLoop store (openRecords crates deserialize bytes) progress env := by
  constructor
  · rintro ⟨s, hs, hran⟩
    exact (threads_owed _ _ _ _ _ _ _ hs).answered ran hran
  · rintro rfl
    have hinit : (threads crates deserialize store closed bytes progress env).Reachable _ :=
      .init rfl
    obtain ⟨as, s, hexec, hsettled⟩ :=
      exists_settled (Nat.succ_pos 15) (threads_owed _ _ _ _ _ _ _ hinit)
    have hs := hinit.exec hexec
    exact ⟨s, hs, (threads_owed _ _ _ _ _ _ _ hs).settled hsettled⟩

/-- **Neither waits for ever**: a run has at most two steps an entry and five more, the
channel holds sixteen messages at most, and a run that cannot go on has ended the thread,
dropped the reader and answered the import. -/
theorem threads_end {as : List Act} {s} (h : Transition.exec
      (step channelCapacity (importLoop store))
      (init (parserThread crates closed (deserialize bytes).entries (deserialize bytes).outcome)
        (progress, env, [])) as = some s) :
    as.length ≤ 2 * (deserialize bytes).entries.length + 5 ∧
      s.queue.length ≤ channelCapacity ∧
      ((∀ act, step channelCapacity (importLoop store) s act = none) →
        s.Settled ∧ s.receiver = .inr
          (consumeLoop store (openRecords crates deserialize bytes) progress env)) := by
  have hs : Owed channelCapacity (importLoop store)
      (consumeLoop store (openRecords crates deserialize bytes) progress env) s :=
    threads_owed _ _ _ closed _ _ _ (Transition.reachable_of_exec as h)
  refine ⟨?_, hs.bounded, fun hstuck => ?_⟩
  · have hlength := exec_length_le h
    have hsize := size_parserThread crates closed (deserialize bytes).entries
      (deserialize bytes).outcome
    simp only [State.measure, init, Option.map_some, Option.getD_some, List.length_nil,
      Sum.isLeft_inl, if_true] at hlength
    omega
  · have hsettled := settled_of_stuck (Nat.succ_pos 15) hs hstuck
    exact ⟨hsettled, hs.settled hsettled⟩

/-- A store that stages one record and refuses the next. -/
def refusingStore : Store ℕ where
  startImport _ env := (.ok (.ready 1 1), env)
  stageAndPromote record env :=
    if env = 0 then (.ok (sqlxOutcome record), 1)
    else (.error (.database "UNIQUE_VIOLATION" "duplicate key"), env)
  refreshReadModels env := (.ok (), env)
  markSucceeded _ env := (.ok (), env)
  commit env := (.ok (), env)
  rollback env := (.ok (), env)
  markFailed _ _ _ _ env := (.ok (), env)

/-- The import gives up at the second of three records, two of them sent: the thread is
refused the third, reports that nobody listens, is refused again, and hangs up. -/
def givingUp : List Act :=
  [.send, .send, .receive, .receive, .drop, .send, .send, .hangUp]

/-- The two beside one another, on the three records and a store that refuses the second. -/
def givenUp : Option (State (Except PreparedInputError PreparedAircraftRecord)
    (Progress × ℕ × List Event) (Ran ℕ (Except ImportError Progress))) :=
  Transition.exec (step channelCapacity (importLoop refusingStore))
    (init (parserThread fleetCrates "record consumer closed"
      (fleetDocument fleetBytes).entries (fleetDocument fleetBytes).outcome)
      (⟨0, [], startReport fleetRequest 1 1⟩, 0, [])) givingUp

theorem threads_end_giving_up : ∃ s, givenUp = some s ∧
    givingUp.length ≤ 2 * 3 + 5 ∧ s.queue.length ≤ channelCapacity ∧ s.Settled ∧
    s.receiver = .inr (consumeLoop refusingStore
      (openRecords fleetCrates fleetDocument fleetBytes)
      ⟨0, [], startReport fleetRequest 1 1⟩ 0) := by
  have hstuck : givenUp.any (fun s => [Act.send, .hangUp, .receive, .drop].all fun act =>
      (step channelCapacity (importLoop refusingStore) s act).isNone) = true := by
    decide +kernel
  rcases hexec : givenUp with - | s
  · rw [hexec] at hstuck
    cases hstuck
  rw [hexec, Option.any_some, List.all_eq_true] at hstuck
  obtain ⟨hlength, hqueue, hend⟩ := threads_end fleetCrates fleetDocument refusingStore
    "record consumer closed" fleetBytes ⟨0, [], startReport fleetRequest 1 1⟩ 0 hexec
  obtain ⟨hsettled, hanswer⟩ := hend fun act =>
    Option.isNone_iff_eq_none.mp (hstuck act (by cases act <;> decide))
  exact ⟨s, rfl, hlength, hqueue, hsettled, hanswer⟩

end

end PlanePhd

end AircraftApi
