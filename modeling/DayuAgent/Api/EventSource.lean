import DayuAgent.Agents.Reconnect
import DayuAgent.Agents.StreamDelivery
import DayuAgent.Api.Sse

/-! A client that follows one run over HTTP: it parses the frames that arrive, and when the
connection breaks, at whatever character, it asks for the events after its last one. -/

namespace DayuAgent

open Library InMemorySessionStore

/-- The text that `event_source` has sent on a connection. -/
def StreamRun.sent (stream : StreamRun) : List Char :=
  (String.join (stream.yielded.map sseFrame)).toList

/-- `last_event_id: int | None` with `ge=0`, for a given parser of integers. -/
def lastEventId (parseInt : String → Option Int) (header : String) : Option Nat :=
  (parseInt header).bind fun id => if 0 ≤ id then some id.toNat else none

/-- What the earlier connections of a client have brought it, and the current one. -/
structure EventSource where
  store : InMemorySessionStore
  dispatched : List EventStream.Event
  connection : StreamRun

/-- Another party calls the store, the connection goes on, or it breaks after some of the
characters that were sent and the client connects again. -/
inductive EventSourceLabel where
  | call (ambient : Ambient) (operation : Operation)
  | resume
  | reconnect (characters : Nat)

def EventSourceLabel.Streams : EventSourceLabel → Prop
  | .call _ operation => operation.Streams
  | .resume | .reconnect _ => True

instance : (label : EventSourceLabel) → Decidable label.Streams
  | .call _ operation => inferInstanceAs (Decidable operation.Streams)
  | .resume | .reconnect _ => inferInstanceAs (Decidable True)

def EventSourceLabel.isResume : EventSourceLabel → Bool
  | .resume => true
  | _ => false

def EventSourceLabel.Uncut : EventSourceLabel → Prop
  | .call _ _ | .resume => True
  | .reconnect _ => False

instance : (label : EventSourceLabel) → Decidable label.Uncut
  | .call _ _ | .resume => inferInstanceAs (Decidable True)
  | .reconnect _ => inferInstanceAs (Decidable False)

namespace EventSource

variable (parseInt : String → Option Int)

def start (runId : String) : EventSource :=
  { store := .empty, dispatched := [], connection := .start runId 0 }

/-- The events of a client to which that many characters of the connection have come. -/
def events (client : EventSource) (characters : Nat) : List EventStream.Event :=
  client.dispatched ++ EventStream.parse (.ofList (client.connection.sent.take characters))

/-- Where the next request resumes: `last_event_id or 0`. -/
def resumesAfter (events : List EventStream.Event) : Option Nat :=
  match events.getLast? with
  | none => some 0
  | some last => DayuAgent.lastEventId parseInt last.lastEventId

/-- `resume_stream` looks the run up before it answers. -/
def reconnect (client : EventSource) (characters : Nat) : Option EventSource :=
  match (getRun client.connection.runId client.store).1,
    resumesAfter parseInt (client.events characters) with
  | .ok _, some afterSequence => some { client with
      dispatched := client.events characters
      connection := .start client.connection.runId afterSequence }
  | _, _ => none

def next (client : EventSource) : EventSourceLabel → Option EventSource
  | .call ambient operation =>
    if ambient.Fresh client.store ∧ operation.Retains then
      some { client with store := (operation.perform ambient client.store).2 }
    else none
  | .resume =>
    (client.connection.resume client.store).map fun connection => { client with connection }
  | .reconnect characters => client.reconnect parseInt characters

def Steps (before : EventSource) (label : EventSourceLabel) (after : EventSource) : Prop :=
  before.next parseInt label = some after

/-- The client is where a reader of whole events is that has received the same ones. -/
structure Receives (client : EventSource) (reader : StreamClient) : Prop where
  store : client.store = reader.store
  connection : client.connection = reader.connection
  dispatched : List.Forall₂ Carries reader.received client.dispatched

/-- The payloads in the log of the run are well-formed JSON, and the decimal text of an event's
number is read as this number. -/
structure Legible (store : InMemorySessionStore) (runId : String) : Prop where
  formed : ∀ event ∈ store.logOf runId, (Json.obj event.payload).wellFormed = true
  reads : ∀ sequence : Nat, sequence ≤ (store.logOf runId).length →
    parseInt (toString sequence) = some (sequence : Int)

variable {parseInt}

theorem Legible.earlier {store later : InMemorySessionStore}
    (legible : Legible parseInt later runId)
    (grows : store.logOf runId <+: later.logOf runId) : Legible parseInt store runId where
  formed event member := legible.formed event (grows.subset member)
  reads sequence bound := legible.reads sequence (bound.trans grows.length_le)

theorem resumesAfter_carries {sent : List StreamEvent}
    (reads : parseInt (toString (StreamClient.lastEventId sent)) =
      some (StreamClient.lastEventId sent : Int))
    (carried : List.Forall₂ Carries sent received) :
    resumesAfter parseInt received = some (StreamClient.lastEventId sent) := by
  induction carried with
  | nil => rfl
  | @cons event first sent received carries rest ih =>
    cases rest with
    | nil =>
      rw [StreamClient.lastEventId, List.getLast?_singleton, Option.map_some,
        Option.getD_some] at reads ⊢
      simp only [resumesAfter, List.getLast?_singleton, carries.id, DayuAgent.lastEventId, reads,
        Option.bind_some, Int.natCast_nonneg, ↓reduceIte, Int.toNat_natCast]
    | cons next others =>
      rw [resumesAfter, StreamClient.lastEventId, List.getLast?_cons_cons, List.getLast?_cons_cons]
      rw [StreamClient.lastEventId, List.getLast?_cons_cons] at reads
      exact ih reads

variable {client before after : EventSource} {reader : StreamClient}

/-- Whatever number of characters comes through, it brings whole events. -/
theorem Receives.events (receives : client.Receives reader)
    (formed : ∀ event ∈ reader.connection.yielded, (Json.obj event.payload).wellFormed = true)
    (characters : Nat) :
    ∃ kept, List.Forall₂ Carries (reader.events kept) (client.events characters) := by
  obtain ⟨messages, text, carried⟩ := frames_messages formed
  have cut : client.connection.sent.take characters <+:
      messages.flatMap EventStream.Message.text := by
    rw [← text, receives.connection]
    exact List.take_prefix _ _
  obtain ⟨kept, parsed⟩ := EventStream.parse_cut messages cut
  refine ⟨kept, List.rel_append receives.dispatched ?_⟩
  rw [parsed, List.map_take]
  exact List.forall₂_take kept carried

theorem next_call (taken : Steps parseInt before (.call ambient operation) after) :
    ∃ reply, Answers before.store { ambient, operation, reply } after.store ∧
      operation.Retains ∧ ambient.Fresh before.store ∧
      after = { before with store := (operation.perform ambient before.store).2 } := by
  simp only [Steps, next] at taken
  split at taken
  · next allowed =>
    cases taken
    exact ⟨(operation.perform ambient before.store).1, ⟨allowed.1, rfl⟩, allowed.2, allowed.1, rfl⟩
  · contradiction

theorem next_resume (taken : Steps parseInt before .resume after) :
    ∃ connection, before.connection.resume before.store = some connection ∧
      after = { before with connection } := by
  simp only [Steps, next, Option.map_eq_some_iff] at taken
  obtain ⟨connection, resumed, same⟩ := taken
  exact ⟨connection, resumed, same.symm⟩

theorem next_reconnect (taken : Steps parseInt before (.reconnect characters) after) :
    ∃ afterSequence, resumesAfter parseInt (before.events characters) = some afterSequence ∧
      after = { before with
        dispatched := before.events characters
        connection := .start before.connection.runId afterSequence } := by
  simp only [Steps, next, reconnect] at taken
  split at taken
  · next afterSequence _ resumes =>
    cases taken
    exact ⟨afterSequence, resumes, rfl⟩
  · contradiction

theorem step_coherent (coherent : Coherent before.store)
    (taken : Steps parseInt before label after) :
    Coherent after.store := by
  cases label with
  | call ambient operation =>
    obtain ⟨_, answers, _⟩ := next_call taken
    exact answers.coherent coherent
  | resume =>
    obtain ⟨_, _, rfl⟩ := next_resume taken
    exact coherent
  | reconnect characters =>
    obtain ⟨_, _, rfl⟩ := next_reconnect taken
    exact coherent

theorem step_log (coherent : Coherent before.store) (taken : Steps parseInt before label after)
    (runId : String) : before.store.logOf runId <+: after.store.logOf runId := by
  cases label with
  | call ambient operation =>
    obtain ⟨_, answers, retains, _⟩ := next_call taken
    cases read : before.store.events.get? runId with
    | none =>
      simp only [logOf, read]
      exact List.nil_prefix
    | some log =>
      obtain ⟨more, grown⟩ := answers.log_grows coherent retains read
      simp only [logOf, read, grown]
      exact List.prefix_append log more
  | resume =>
    obtain ⟨_, _, rfl⟩ := next_resume taken
    exact List.prefix_rfl
  | reconnect characters =>
    obtain ⟨_, _, rfl⟩ := next_reconnect taken
    exact List.prefix_rfl

theorem run_log (run : Run (Steps parseInt) before labels client) (coherent : Coherent before.store)
    (runId : String) : before.store.logOf runId <+: client.store.logOf runId :=
  run.compares (fun one two => one.store.logOf runId <+: two.store.logOf runId) coherent
    step_coherent (fun _ => List.prefix_rfl) List.IsPrefix.trans
    (fun known taken => step_log known taken runId)

theorem run_coherent (run : Run (Steps parseInt) (start runId) labels client) :
    Coherent client.store :=
  run.invariant empty_coherent step_coherent

/-- The events that a reader has been sent are events of the log. -/
theorem yielded_formed (attached : reader.Attached)
    (legible : Legible parseInt reader.store reader.connection.runId) :
    ∀ event ∈ reader.connection.yielded, (Json.obj event.payload).wellFormed = true := by
  intro event member
  exact legible.formed event (List.mem_of_mem_drop (attached.follows.read.subset member))

/-- Whatever has come through, the next request asks for what a reader of whole events would. -/
theorem Receives.resumesAfter (receives : client.Receives reader) (attached : reader.Attached)
    (legible : Legible parseInt reader.store reader.connection.runId) (characters : Nat) :
    ∃ kept, List.Forall₂ Carries (reader.events kept) (client.events characters) ∧
      resumesAfter parseInt (client.events characters) =
        some (StreamClient.lastEventId (reader.events kept)) := by
  obtain ⟨kept, carried⟩ := receives.events (yielded_formed attached legible) characters
  refine ⟨kept, carried, resumesAfter_carries (legible.reads _ ?_) carried⟩
  rw [attached.lastEventId_length]
  exact (attached.events_prefix kept).length_le

/-- A step of the client is a step of the reader of whole events. -/
theorem Receives.step (receives : before.Receives reader) (attached : reader.Attached)
    (legible : Legible parseInt reader.store reader.connection.runId)
    (taken : Steps parseInt before label after) :
    ∃ step next, StreamClient.Steps reader step next ∧ after.Receives next := by
  obtain ⟨store, connection, dispatched⟩ := receives
  cases label with
  | call ambient operation =>
    obtain ⟨_, _, retains, fresh, rfl⟩ := next_call taken
    rw [store] at fresh
    refine ⟨.call ambient operation, _, if_pos ⟨fresh, retains⟩, ?_⟩
    exact ⟨by rw [store], connection, dispatched⟩
  | resume =>
    obtain ⟨later, resumed, rfl⟩ := next_resume taken
    rw [store, connection] at resumed
    refine ⟨.resume, _, Option.map_eq_some_iff.mpr ⟨later, resumed, rfl⟩, ?_⟩
    exact ⟨store, rfl, dispatched⟩
  | reconnect characters =>
    obtain ⟨afterSequence, resumes, rfl⟩ := next_reconnect taken
    obtain ⟨kept, carried, asks⟩ :=
      Receives.resumesAfter ⟨store, connection, dispatched⟩ attached legible characters
    cases resumes.symm.trans asks
    refine ⟨.reconnect kept, _, rfl, store, ?_, carried⟩
    rw [connection]

theorem run_receives (run : Run (Steps parseInt) (start runId) labels client)
    (legible : Legible parseInt client.store runId) : ∃ steps reader,
      Run StreamClient.Steps (StreamClient.start runId) steps reader ∧ client.Receives reader := by
  induction run with
  | nil => exact ⟨[], _, .nil, rfl, rfl, .nil⟩
  | snoc earlier taken ih =>
    have before := legible.earlier (step_log (run_coherent earlier) taken runId)
    obtain ⟨steps, reader, read, receives⟩ := ih before
    have attached := StreamClient.run_attached read
    rw [receives.store, ← StreamClient.run_runId read] at before
    obtain ⟨step, next, moved, related⟩ := receives.step attached before taken
    exact ⟨_, next, read.snoc moved, related⟩

/-- However its connections break, a client has received exactly the first events of the log
of its run, with their numbers, types and payloads, in order and each of them once. -/
theorem event_source_exact (run : Run (Steps parseInt) (start runId) labels client)
    (legible : Legible parseInt client.store runId) (characters : Nat) :
    ∃ count, count ≤ (client.store.logOf runId).length ∧
      List.Forall₂ Carries ((client.store.logOf runId).take count) (client.events characters) := by
  obtain ⟨steps, reader, read, receives⟩ := run_receives run legible
  have attached := StreamClient.run_attached read
  rw [receives.store, ← StreamClient.run_runId read] at legible ⊢
  obtain ⟨kept, carried⟩ := receives.events (yielded_formed attached legible) characters
  have received := attached.events_prefix kept
  refine ⟨_, received.length_le, ?_⟩
  rw [← List.prefix_iff_eq_take.mp received]
  exact carried

/-- A parser of headers that are decimal digits. -/
def parseDigits (header : String) : Option Int :=
  if Json.isDigits header.toList then some (Nat.ofDigitChars 10 header.toList 0 : Nat) else none

theorem parseDigits_toString (sequence : Nat) :
    parseDigits (toString sequence) = some (sequence : Int) := by
  have digits : (toString sequence).toList = Nat.toDigits 10 sequence := by
    rw [show toString sequence = Nat.repr sequence from rfl, Nat.toList_repr]
  have whole := Json.isWhole_toDigits sequence
  rw [Json.isWhole, Bool.and_eq_true] at whole
  rw [parseDigits, digits, if_pos whole.1, Nat.ofDigitChars_ten_toDigits]

/-- A client whose connection breaks within the first frame and then within the second. -/
def brokenConnection : List EventSourceLabel :=
  [.call (.sample "a" "a") (.createSession none (some "lake") none),
   .call (.sample "b" "run") (.reserveRun (.sample (some "lake") none "hash")),
   .call (.sample "c" "c") (.markRunRunning "run" "worker"),
   .resume, .resume, .reconnect 10,
   .call (.sample "d" "d") (.appendStreamEvent "run" .responseDelta [("delta", .str "\n\nid: 7")]),
   .resume, .resume, .resume, .reconnect 70, .resume, .resume]

theorem event_source_exact_brokenConnection : ∃ client,
    Run (Steps parseDigits) (start "run") brokenConnection client ∧
      client.dispatched.length = 1 ∧ (client.events 999).length = 2 ∧
      ∃ count, count ≤ (client.store.logOf "run").length ∧
        List.Forall₂ Carries ((client.store.logOf "run").take count) (client.events 999) := by
  obtain ⟨client, run, one, two, formed⟩ : ∃ client,
      Run (Steps parseDigits) (start "run") brokenConnection client ∧
        client.dispatched.length = 1 ∧ (client.events 999).length = 2 ∧
        ∀ event ∈ client.store.logOf "run", (Json.obj event.payload).wellFormed = true :=
    follow_reaches (by decide +kernel)
  exact ⟨client, run, one, two,
    event_source_exact run ⟨formed, fun sequence _ => parseDigits_toString sequence⟩ 999⟩

end EventSource

/-- A stream over a run that has ended, on its way to the terminal event. -/
structure StreamSystem.Ended (state : StreamSystem) (last : StreamEvent) : Prop where
  tracks : state.Tracks
  terminal : ∃ run, state.store.runs.get? state.stream.runId = some run ∧ run.Terminal
  logged : last ∈ state.store.logOf state.stream.runId
  ends : last.Ends
  beyond : state.stream.afterSequence < last.sequence
  prompt : ∀ run, state.store.runs.get? state.stream.runId = some run → state.stream.Prompt run

namespace StreamSystem

variable {before after : StreamSystem}

theorem Ended.step (ended : before.Ended last) (taken : Steps before label after) :
    after.Ended last := by
  obtain ⟨sameId, sameOrigin⟩ := step_same taken
  obtain ⟨run, found, terminal⟩ := ended.terminal
  obtain ⟨log, read⟩ := ended.tracks.coherent.logOf found
  obtain ⟨more, grown⟩ := step_log_grows taken ended.tracks read
  have tracks := ended.tracks.step taken
  have kept : after.store.runs.get? before.stream.runId = some run := by
    cases label with
    | call ambient operation =>
      obtain ⟨reply, answers, _⟩ := next_call taken
      exact answers.terminal ended.tracks.coherent found terminal
    | resume =>
      rw [(next_resume taken).2]
      exact found
  have logged : last ∈ log ++ more := by
    have known := ended.logged
    rw [logOf, read] at known
    exact List.mem_append_left more known
  have beyond : ∀ {other}, after.store.events.get? before.stream.runId = some other →
      ∀ event ∈ other, event.Ends → before.stream.afterSequence < event.sequence := by
    intro other present event member ends
    rw [grown] at present
    cases present
    rw [(tracks.sound.agrees kept grown).ending_unique member logged ends ended.ends]
    exact ended.beyond
  refine ⟨tracks, ⟨run, sameId ▸ kept, terminal⟩, ?_, ended.ends, sameOrigin ▸ ended.beyond, ?_⟩
  · rw [sameId, logOf, grown]
    exact logged
  · intro later present
    refine Steps.prompt taken ended.tracks ?_ beyond ended.prompt (sameId ▸ present)
    intro races
    obtain ⟨_, ⟨other, again, active⟩, _⟩ := races
    rw [found] at again
    cases again
    exact AgentRun.not_active_of_terminal terminal active

end StreamSystem

namespace StreamRun

variable {store : InMemorySessionStore} {stream : StreamRun}

/-- A connection on an ended run has been resumed so often: once for each event that it has
yielded and three times more at most. It neither sleeps nor raises. -/
def Spent (stream : StreamRun) (resumptions : Nat) : Prop :=
  match stream.phase with
  | .starting => resumptions = 0
  | .listing _ => resumptions = 1
  | .paused _ _ _ => resumptions ≤ 1 + stream.yielded.length
  | .checking _ => resumptions ≤ 2 + stream.yielded.length
  | .returned => resumptions ≤ 3 + stream.yielded.length
  | .sleeping _ | .raised _ => False

theorem Spent.bounded (spent : stream.Spent resumptions) :
    resumptions ≤ 3 + stream.yielded.length := by
  unfold Spent at spent
  split at spent <;> first | omega | exact spent.elim

private theorem deliver_spent (cursor : Nat) (events : List StreamEvent)
    (bound : resumptions ≤ 2 + stream.yielded.length) :
    (stream.deliver cursor events).Spent resumptions := by
  cases events with
  | nil => exact bound
  | cons event rest =>
    simp only [deliver, Spent, List.length_append, List.length_singleton]
    omega

section Ended

variable (found : store.runs.get? stream.runId = some run)

include found

theorem resume_spent (coherent : Coherent store) (terminal : run.Terminal)
    (spent : stream.Spent resumptions) (resumed : stream.resume store = some after) :
    after.Spent (resumptions + 1) := by
  simp only [resume] at resumed
  simp only [Spent] at spent
  split at resumed
  · next starting =>
    simp only [starting] at spent
    rw [getRun, runLocked_ok found] at resumed
    cases resumed
    exact congrArg (· + 1) spent
  · next cursor listing =>
    simp only [listing] at spent
    obtain ⟨log, read⟩ := coherent.logOf found
    rw [listStreamEvents_ok found read] at resumed
    cases resumed
    exact deliver_spent _ _ (by omega)
  · next cursor event rest paused =>
    simp only [paused] at spent
    split at resumed <;> cases resumed
    · simp only [Spent]
      omega
    · exact deliver_spent _ _ (by omega)
  · next cursor checking =>
    simp only [checking] at spent
    rw [getRun, runLocked_ok found] at resumed
    simp only [if_pos (show run.status ∈ terminalRunStatuses from terminal)] at resumed
    cases resumed
    simp only [Spent]
    omega
  · next sleeping =>
    simp only [sleeping] at spent
  · contradiction
  · contradiction

omit found in
/-- Such a connection can be resumed until it has returned. -/
theorem Spent.resumes (spent : stream.Spent resumptions) (store : InMemorySessionStore) :
    stream.phase = .returned ∨ ∃ after, stream.resume store = some after := by
  unfold Spent at spent
  cases phase : stream.phase with
  | returned => exact .inl rfl
  | sleeping | raised => simp [phase] at spent
  | starting | listing | checking =>
    right
    simp only [resume, phase]
    split
    · first | exact ⟨_, rfl⟩ | (split <;> exact ⟨_, rfl⟩)
    · exact ⟨_, rfl⟩
  | paused =>
    right
    simp only [resume, phase]
    split <;> exact ⟨_, rfl⟩

end Ended

end StreamRun

namespace EventSource

variable {parseInt : String → Option Int} {client before opened : EventSource}
  {reader : StreamClient}

section Uncut

variable (parseInt)

/-- The only events that other parties append are deltas, as the supervisor does. -/
def StreamingSteps (before : EventSource) (label : EventSourceLabel) (after : EventSource) :
    Prop :=
  Steps parseInt before label after ∧ label.Streams

/-- The connection stays up. -/
def UncutSteps (before : EventSource) (label : EventSourceLabel) (after : EventSource) : Prop :=
  StreamingSteps parseInt before label after ∧ label.Uncut

def system (client : EventSource) : StreamSystem :=
  { store := client.store, stream := client.connection }

end Uncut

theorem UncutSteps.system (taken : UncutSteps parseInt before label after) :
    ∃ step, StreamSystem.Steps before.system step after.system := by
  obtain ⟨⟨steps, streams⟩, uncut⟩ := taken
  cases label with
  | call ambient operation =>
    obtain ⟨_, _, _, fresh, rfl⟩ := next_call steps
    exact ⟨.call ambient operation, if_pos ⟨fresh, streams⟩⟩
  | resume =>
    obtain ⟨connection, resumed, rfl⟩ := next_resume steps
    exact ⟨.resume, Option.map_eq_some_iff.mpr ⟨connection, resumed, rfl⟩⟩
  | reconnect characters => exact uncut.elim

theorem run_soundLogs (run : Run (StreamingSteps parseInt) (start runId) labels client) :
    SoundLogs client.store := by
  induction run with
  | nil => exact empty_soundLogs
  | @snoc labels middle label final earlier taken ih =>
    obtain ⟨steps, streams⟩ := taken
    cases label with
    | call ambient operation =>
      obtain ⟨_, answers, _⟩ := next_call steps
      exact answers.soundLogs (run_coherent (earlier.mono And.left)) streams ih
    | resume =>
      obtain ⟨_, _, rfl⟩ := next_resume steps
      exact ih
    | reconnect characters =>
      obtain ⟨_, _, rfl⟩ := next_reconnect steps
      exact ih

theorem run_uncut (run : Run (UncutSteps parseInt) opened labels client)
    (ended : opened.system.Ended last) : client.system.Ended last := by
  induction run with
  | nil => exact ended
  | snoc earlier taken ih =>
    obtain ⟨step, moved⟩ := taken.system
    exact ih.step moved

theorem run_origin (run : Run (UncutSteps parseInt) opened labels client) :
    client.connection.runId = opened.connection.runId ∧
      client.connection.afterSequence = opened.connection.afterSequence := by
  induction run with
  | nil => exact ⟨rfl, rfl⟩
  | snoc earlier taken ih =>
    obtain ⟨step, moved⟩ := taken.system
    obtain ⟨sameRun, sameOrigin⟩ := StreamSystem.step_same moved
    exact ⟨sameRun.trans ih.1, sameOrigin.trans ih.2⟩

/-- A connection on an ended run whose resumptions are counted. -/
structure Counted (record : AgentRun) (client : EventSource) (resumptions : Nat) : Prop where
  coherent : Coherent client.store
  found : client.store.runs.get? client.connection.runId = some record
  spent : client.connection.Spent resumptions

private theorem Counted.step (counted : Counted record before resumptions)
    (terminal : record.Terminal)
    (taken : UncutSteps parseInt before label after) :
    Counted record after (resumptions + label.isResume.toNat) := by
  obtain ⟨⟨steps, streams⟩, uncut⟩ := taken
  cases label with
  | call ambient operation =>
    obtain ⟨_, answers, _, _, rfl⟩ := next_call steps
    exact ⟨answers.coherent counted.coherent,
      answers.terminal counted.coherent counted.found terminal, counted.spent⟩
  | resume =>
    obtain ⟨connection, resumed, rfl⟩ := next_resume steps
    refine ⟨counted.coherent, ?_,
      StreamRun.resume_spent counted.found counted.coherent terminal counted.spent resumed⟩
    rw [(StreamRun.resume_same resumed).1]
    exact counted.found
  | reconnect characters => exact uncut.elim

theorem run_counted (run : Run (UncutSteps parseInt) opened labels client)
    (opens : Counted record opened 0) (terminal : record.Terminal) :
    Counted record client (labels.countP EventSourceLabel.isResume) := by
  induction run with
  | nil => exact opens
  | @snoc labels middle label final earlier taken ih =>
    have counted := ih.step terminal taken
    rw [List.countP_append, List.countP_singleton]
    cases resumes : label.isResume <;> simpa [resumes] using counted

/-- What was read off a numbered log has numbers within its length. -/
theorem sequence_le {log read : List StreamEvent}
    (numbered : log.map (·.sequence) = List.range' 1 log.length) (received : read <+: log)
    (member : event ∈ read) : event.sequence ≤ read.length := by
  obtain ⟨index, here⟩ := List.mem_iff_getElem?.mp member
  have bound := (List.getElem?_eq_some_iff.mp here).1
  obtain ⟨more, rfl⟩ := received
  have found : (read ++ more)[index]? = some event := by
    rw [List.getElem?_append_left bound, here]
  have named := sequence_at numbered found
  omega

/-- A connection that is opened on a run that has ended sets out for its terminal event. -/
theorem opened_ended (sound : SoundLogs before.store) (coherent : Coherent before.store)
    (found : before.store.runs.get? before.connection.runId = some record)
    (terminal : record.Terminal) (opens : Steps parseInt before (.reconnect characters) opened) :
    ∃ last ∈ before.store.logOf before.connection.runId, last.Ends ∧
      (opened.connection.afterSequence < last.sequence → opened.system.Ended last) := by
  obtain ⟨log, read⟩ := coherent.logOf found
  obtain ⟨earlier, last, later, rfl, ends, _⟩ := (sound.agrees found read).ended terminal
  obtain ⟨afterSequence, _, rfl⟩ := next_reconnect opens
  have logged : last ∈ before.store.logOf before.connection.runId := by
    rw [logOf, read]
    simp
  refine ⟨last, logged, ends, fun beyond => ?_⟩
  exact ⟨⟨coherent, sound, .inl ⟨rfl, rfl⟩⟩, ⟨record, found, terminal⟩, logged, ends, beyond,
    fun _ _ => trivial⟩

/-- A client to which everything has come has the events of its connection, too. -/
theorem Receives.whole (receives : client.Receives reader)
    (formed : ∀ event ∈ reader.connection.yielded, (Json.obj event.payload).wellFormed = true) :
    List.Forall₂ Carries (reader.events reader.connection.yielded.length)
      (client.events client.connection.sent.length) := by
  obtain ⟨messages, text, carried⟩ := frames_messages formed
  have sent : client.connection.sent = messages.flatMap EventStream.Message.text := by
    rw [← text, receives.connection]
    rfl
  rw [EventSource.events, StreamClient.events, List.take_length, List.take_length, sent,
    EventStream.parse_messages]
  exact List.rel_append receives.dispatched carried

/-- A run in the store can be reconnected to. -/
theorem Receives.opens (receives : before.Receives reader) (attached : reader.Attached)
    (legible : Legible parseInt reader.store reader.connection.runId)
    (found : before.store.runs.get? before.connection.runId = some record) (characters : Nat) :
    ∃ opened, Steps parseInt before (.reconnect characters) opened := by
  obtain ⟨kept, _, asks⟩ := receives.resumesAfter attached legible characters
  simp only [Steps, next, reconnect, getRun, runLocked_ok found, asks]
  exact ⟨_, rfl⟩

/-- A connection that has returned has brought its client the terminal event. -/
theorem returned_completes (receives : client.Receives reader) (attached : reader.Attached)
    (legible : Legible parseInt reader.store reader.connection.runId)
    (reached : ∃ ending ∈ client.store.logOf client.connection.runId, ending.Ends ∧
      (ending.sequence ≤ reader.received.length ∨ ending ∈ reader.connection.yielded)) :
    ∃ last ∈ client.store.logOf client.connection.runId, last.Ends ∧ ∃ count,
      last.sequence ≤ count ∧
      List.Forall₂ Carries ((client.store.logOf client.connection.runId).take count)
        (client.events client.connection.sent.length) := by
  have carried := receives.whole (yielded_formed attached legible)
  have received := attached.events_prefix reader.connection.yielded.length
  rw [receives.connection] at carried
  rw [receives.store, receives.connection] at reached ⊢
  obtain ⟨ending, present, closes, position⟩ := reached
  refine ⟨ending, present, closes, (reader.events reader.connection.yielded.length).length, ?_, ?_⟩
  · rcases position with within | sent
    · refine within.trans ?_
      rw [StreamClient.events, List.length_append]
      exact Nat.le_add_right _ _
    · refine sequence_le attached.numbered received ?_
      rw [StreamClient.events, List.take_length]
      exact List.mem_append_right _ sent
  · rw [← List.prefix_iff_eq_take.mp received]
    exact carried

/-- Once its run has ended, a client can open one more connection; if that one does not break,
it returns after few resumptions and has then brought the log up to the terminal event. -/
theorem event_source_completes (first : Run (StreamingSteps parseInt) (start runId) labels before)
    (found : before.store.runs.get? runId = some record) (terminal : record.Terminal)
    (legible : Legible parseInt before.store runId) (characters : Nat) :
    ∃ opened, Steps parseInt before (.reconnect characters) opened ∧
      ∀ later client, Run (UncutSteps parseInt) opened later client →
        Legible parseInt client.store runId →
        later.countP EventSourceLabel.isResume ≤ 3 + (client.store.logOf runId).length ∧
        (client.connection.phase = .returned ∨
          ∃ next, UncutSteps parseInt client .resume next) ∧
        (client.connection.phase = .returned → ∃ last ∈ client.store.logOf runId, last.Ends ∧
          ∃ count, last.sequence ≤ count ∧
            List.Forall₂ Carries ((client.store.logOf runId).take count)
              (client.events client.connection.sent.length)) := by
  have steps := first.mono And.left
  have coherent := run_coherent steps
  obtain ⟨_, reader, read, receives⟩ := run_receives steps legible
  have attached := StreamClient.run_attached read
  obtain rfl : before.connection.runId = runId := by
    rw [receives.connection, StreamClient.run_runId read]
  have known : Legible parseInt reader.store reader.connection.runId := by
    rwa [← receives.store, ← receives.connection]
  obtain ⟨opened, opens⟩ := receives.opens attached known found characters
  refine ⟨opened, opens, fun later client rest legible => ?_⟩
  have whole := (steps.snoc opens).append (rest.mono fun taken => taken.1.1)
  obtain ⟨_, reader, read, receives⟩ := run_receives whole legible
  have attached := StreamClient.run_attached read
  obtain ⟨same, origin⟩ := run_origin rest
  have named : client.connection.runId = before.connection.runId := by
    rw [receives.connection, StreamClient.run_runId read]
  have counted : Counted record client (later.countP EventSourceLabel.isResume) := by
    refine run_counted rest ?_ terminal
    obtain ⟨_, _, rfl⟩ := next_reconnect opens
    exact ⟨coherent, found, rfl⟩
  rw [← named] at legible ⊢
  have heard : Legible parseInt reader.store reader.connection.runId := by
    rwa [← receives.store, ← receives.connection]
  refine ⟨?_, ?_, fun returned => returned_completes receives attached heard ?_⟩
  · have yields := attached.follows.read.length_le
    rw [List.length_drop, ← receives.store, ← receives.connection] at yields
    have bounded := counted.spent.bounded
    omega
  · refine (counted.spent.resumes client.store).imp_right fun ⟨connection, resumed⟩ => ?_
    exact ⟨_, ⟨Option.map_eq_some_iff.mpr ⟨connection, resumed, rfl⟩, trivial⟩, trivial⟩
  · obtain ⟨last, logged, ends, sets⟩ :=
      opened_ended (run_soundLogs first) coherent found terminal opens
    by_cases beyond : opened.connection.afterSequence < last.sequence
    · have ended := run_uncut rest (sets beyond)
      obtain ⟨run, kept, _⟩ := ended.terminal
      have prompt := ended.prompt run kept
      simp only [system, StreamRun.Prompt, returned] at prompt
      obtain ⟨ending, sent, closes⟩ := prompt
      rw [receives.connection] at sent
      refine ⟨ending, ?_, closes, .inr sent⟩
      rw [receives.store, receives.connection]
      exact List.mem_of_mem_drop (attached.follows.read.subset sent)
    · have grows := run_log (.cons opens (rest.mono fun taken => taken.1.1)) coherent
        before.connection.runId
      refine ⟨last, named ▸ grows.subset logged, ends, .inl ?_⟩
      have behind := attached.origin
      rw [← receives.connection, origin] at behind
      omega

/-- A run that fails while its client is away. -/
def failedRun : List EventSourceLabel :=
  [.call (.sample "a" "a") (.createSession none (some "lake") none),
   .call (.sample "b" "run") (.reserveRun (.sample (some "lake") none "hash")),
   .call (.sample "c" "c") (.markRunRunning "run" "worker"), .resume, .resume,
   .call (.sample "d" "d") (.failRun "run" "PROVIDER_ERROR")]

/-- The stream has returned. -/
def finishes (client : EventSource) : Bool :=
  match client.connection.phase with
  | .returned => true
  | _ => false

private theorem finishes_returned (finished : client.finishes = true) :
    client.connection.phase = .returned := by
  unfold finishes at finished
  split at finished
  · next returned => exact returned
  · contradiction

theorem event_source_completes_failedRun : ∃ client,
    Run (Steps parseDigits) (start "run")
      (failedRun ++ [.reconnect 60] ++ List.replicate 3 .resume) client ∧
      client.dispatched.length = 1 ∧ ∃ last ∈ client.store.logOf "run", last.Ends ∧
        ∃ count, last.sequence ≤ count ∧
          List.Forall₂ Carries ((client.store.logOf "run").take count)
            (client.events client.connection.sent.length) := by
  let streaming := admitted (next parseDigits) fun _ label _ => label.Streams
  let uncut := admitted (next parseDigits) fun _ label _ => label.Streams ∧ label.Uncut
  obtain ⟨before, first, ⟨terminal, clean⟩, follows⟩ : ∃ before,
      Run (fun before label after => streaming before label = some after) (start "run")
        failedRun before ∧
      ((before.store.runs.get? "run").any (fun record => record.Terminal) = true ∧
        ∀ event ∈ before.store.logOf "run", (Json.obj event.payload).wellFormed = true) ∧
      ((next parseDigits before (.reconnect 60)).bind fun opened =>
        follow uncut opened (List.replicate 3 .resume)).any (fun client =>
          client.finishes = true ∧ client.dispatched.length = 1 ∧
            ∀ event ∈ client.store.logOf "run", (Json.obj event.payload).wellFormed = true) =
          true :=
    follow_reaches (by decide +kernel)
  obtain ⟨record, found, ended⟩ := (Option.any_eq_true _ _).mp terminal
  obtain ⟨client, reached, checks⟩ := (Option.any_eq_true _ _).mp follows
  obtain ⟨opened, opens, followed⟩ := Option.bind_eq_some_iff.mp reached
  obtain ⟨finished, one, formed⟩ := of_decide_eq_true checks
  have rest : Run (UncutSteps parseDigits) opened (List.replicate 3 .resume) client :=
    (follow_run followed).mono fun taken =>
      ⟨⟨(admitted_some taken).1, (admitted_some taken).2.1⟩, (admitted_some taken).2.2⟩
  have streams : Run (StreamingSteps parseDigits) (start "run") failedRun before :=
    first.mono fun taken => ⟨(admitted_some taken).1, (admitted_some taken).2⟩
  obtain ⟨same, again, completes⟩ := event_source_completes streams found (of_decide_eq_true ended)
    ⟨clean, fun sequence _ => parseDigits_toString sequence⟩ 60
  obtain rfl : opened = same := Option.some.inj (opens.symm.trans again)
  obtain ⟨_, _, brings⟩ := completes _ client rest
    ⟨formed, fun sequence _ => parseDigits_toString sequence⟩
  refine ⟨client, ?_, one, brings (finishes_returned finished)⟩
  exact ((streams.mono And.left).snoc opens).append (rest.mono fun taken => taken.1.1)

end EventSource

end DayuAgent
