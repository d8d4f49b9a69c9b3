import DayuAgent.Agents.Stream

/-! A client that follows one run over a chain of connections. Every connection may be cut at
any point, and the next one resumes after the last event that the client has received. -/

namespace DayuAgent

open Library InMemorySessionStore

/-- Events are numbered from one without gaps. -/
def Sequenced (_run : AgentRun) (log : List StreamEvent) : Prop :=
  log.map (·.sequence) = List.range' 1 log.length

theorem sequenced_narrates : Narrates (fun _ => True) Sequenced where
  reserved _ _ _ := rfl
  attempted numbered _ := numbered
  emitted numbered _ := SoundLog.numbered_snoc numbered rfl
  moved numbered _ := SoundLog.numbered_snoc numbered rfl
  committed _ _ numbered _ := SoundLog.numbered_snoc numbered rfl

/-- The event log of a run, empty for a run that is not in the store. -/
def InMemorySessionStore.logOf (store : InMemorySessionStore) (runId : String) :
    List StreamEvent := (store.events.get? runId).getD []

/-- What a connection has yielded is read off the log from its origin on, and its cursor
stands behind the last event that it has yielded. -/
structure Follows (log : List StreamEvent) (origin : Nat) (yielded : List StreamEvent)
    (phase : StreamPhase) : Prop where
  read : yielded <+: log.drop origin
  cursor : match phase with
    | .starting => yielded = []
    | .listing cursor | .checking cursor | .sleeping cursor => cursor = origin + yielded.length
    | .paused cursor _ rest => cursor = origin + yielded.length ∧ rest <+: log.drop cursor
    | .returned | .raised _ => True

private theorem drop_append_grows (log more : List Value) (count : Nat) :
    log.drop count <+: (log ++ more).drop count :=
  ⟨_, (List.drop_append ..).symm⟩

theorem Follows.grow (follows : Follows log origin yielded phase) (more : List StreamEvent) :
    Follows (log ++ more) origin yielded phase := by
  refine ⟨follows.read.trans (drop_append_grows _ _ _), ?_⟩
  have cursor := follows.cursor
  cases phase with
  | paused here event rest => exact ⟨cursor.1, cursor.2.trans (drop_append_grows _ _ _)⟩
  | _ => exact cursor

/-- The loop over listed events goes on where the connection stands in the log. -/
theorem StreamRun.deliver_follows (stream : StreamRun) {log events : List StreamEvent}
    {origin cursor : Nat} (numbered : log.map (·.sequence) = List.range' 1 log.length)
    (read : stream.yielded <+: log.drop origin) (here : cursor = origin + stream.yielded.length)
    (listed : events <+: log.drop cursor) :
    Follows log origin (stream.deliver cursor events).yielded
      (stream.deliver cursor events).phase := by
  cases events with
  | nil => exact ⟨read, here⟩
  | cons event rest =>
    obtain ⟨more, ahead⟩ := listed
    have found : log[cursor]? = some event := by
      have head : (log.drop cursor)[0]? = some event := by
        rw [← ahead]
        rfl
      simpa using head
    have next : event.sequence = cursor + 1 := sequence_at numbered found
    have behind : log.drop (cursor + 1) = rest ++ more := by
      rw [← List.drop_drop, ← ahead]
      rfl
    refine ⟨?_, ?_, ?_⟩
    · refine ⟨rest ++ more, ?_⟩
      obtain ⟨later, same⟩ := read
      have remaining : log.drop cursor = later := by
        rw [here, ← List.drop_drop, ← same, List.drop_left]
      rw [← same, ← remaining, ← ahead]
      simp [deliver]
    · simp only [deliver, List.length_append, List.length_singleton]
      omega
    · rw [next]
      exact ⟨more, behind.symm⟩

/-- A connection that resumes keeps following the log, whatever it finds in the store. -/
theorem StreamRun.resume_follows {stream after : StreamRun} {store : InMemorySessionStore}
    (coherent : Coherent store) (logged : Logged Sequenced store)
    (origin : stream.afterSequence = count)
    (follows : Follows (store.logOf stream.runId) count stream.yielded stream.phase)
    (resumed : stream.resume store = some after) :
    Follows (store.logOf stream.runId) count after.yielded after.phase := by
  obtain ⟨read, cursor⟩ := follows
  simp only [resume] at resumed
  split at resumed
  · next starting =>
    simp only [starting] at cursor
    split at resumed <;> cases resumed
    · refine ⟨read, ?_⟩
      simp only [cursor, List.length_nil, origin]
      rfl
    · exact ⟨read, trivial⟩
  · next here listing =>
    simp only [listing] at cursor
    rcases listStreamEvents_cases coherent stream.runId here with
      ⟨_, answer⟩ | ⟨run, log, found, logRead, answer⟩ <;> rw [answer] at resumed <;> cases resumed
    · exact ⟨read, trivial⟩
    · have numbered := logged.agrees found logRead
      have same : store.logOf stream.runId = log := by rw [logOf, logRead]; rfl
      rw [same] at read ⊢
      rw [filter_numbered_tail numbered]
      exact stream.deliver_follows numbered read cursor (List.prefix_refl _)
  · next here event rest paused =>
    simp only [paused] at cursor
    split at resumed <;> cases resumed
    · exact ⟨read, trivial⟩
    · refine stream.deliver_follows ?_ read cursor.1 cursor.2
      cases logRead : store.events.get? stream.runId with
      | none => simp [logOf, logRead]
      | some log =>
        obtain ⟨run, found⟩ := coherent.runOf logRead
        rw [logOf, logRead]
        exact logged.agrees found logRead
  · next here checking =>
    simp only [checking] at cursor
    split at resumed
    · split at resumed <;> cases resumed
      · exact ⟨read, trivial⟩
      · exact ⟨read, cursor⟩
    · cases resumed
      exact ⟨read, trivial⟩
  · next here sleeping =>
    simp only [sleeping] at cursor
    cases resumed
    exact ⟨read, cursor⟩
  · contradiction
  · contradiction

/-- A client of one run: what its earlier connections brought it, and the current one. -/
structure StreamClient where
  store : InMemorySessionStore
  received : List StreamEvent
  connection : StreamRun

/-- Another party calls the store, the connection goes on, or it is cut after some of the
events that it has yielded and the client connects again. -/
inductive ClientLabel where
  | call (ambient : Ambient) (operation : Operation)
  | resume
  | reconnect (kept : Nat)

namespace StreamClient

def start (runId : String) : StreamClient :=
  { store := .empty, received := [], connection := .start runId 0 }

/-- The events of a client whose connection delivers only some of what it has yielded. -/
def events (client : StreamClient) (kept : Nat) : List StreamEvent :=
  client.received ++ client.connection.yielded.take kept

/-- `Last-Event-ID`, or zero before the first event. -/
def lastEventId (events : List StreamEvent) : Nat := (events.getLast?.map (·.sequence)).getD 0

def next (client : StreamClient) : ClientLabel → Option StreamClient
  | .call ambient operation =>
    if ambient.Fresh client.store ∧ operation.Retains then
      some { client with store := (operation.perform ambient client.store).2 }
    else none
  | .resume =>
    (client.connection.resume client.store).map fun connection => { client with connection }
  | .reconnect kept => some { client with
      received := client.events kept
      connection := .start client.connection.runId (lastEventId (client.events kept)) }

def Steps (before : StreamClient) (label : ClientLabel) (after : StreamClient) : Prop :=
  before.next label = some after

/-- The client has received the first events of the log, and its connection reads on. -/
structure Attached (client : StreamClient) : Prop where
  coherent : Coherent client.store
  logged : Logged Sequenced client.store
  received : client.received <+: client.store.logOf client.connection.runId
  origin : client.connection.afterSequence = client.received.length
  follows : Follows (client.store.logOf client.connection.runId) client.received.length
    client.connection.yielded client.connection.phase

theorem start_attached (runId : String) : Attached (start runId) where
  coherent := empty_coherent
  logged := empty_logged Sequenced
  received := List.nil_prefix
  origin := rfl
  follows := ⟨List.nil_prefix, rfl⟩

namespace Attached

variable {client before after : StreamClient}

theorem numbered (attached : Attached client) :
    (client.store.logOf client.connection.runId).map (·.sequence) =
      List.range' 1 (client.store.logOf client.connection.runId).length := by
  cases read : client.store.events.get? client.connection.runId with
  | none => simp [logOf, read]
  | some log =>
    obtain ⟨run, found⟩ := attached.coherent.runOf read
    rw [logOf, read]
    exact attached.logged.agrees found read

/-- Whatever part of the last connection got through, the client has a prefix of the log. -/
theorem events_prefix (attached : Attached client) (kept : Nat) :
    client.events kept <+: client.store.logOf client.connection.runId := by
  obtain ⟨later, same⟩ := attached.received
  have ahead :
      (client.store.logOf client.connection.runId).drop client.received.length = later := by
    rw [← same, List.drop_left]
  have yields := attached.follows.read
  rw [ahead] at yields
  obtain ⟨rest, more⟩ := (List.take_prefix kept client.connection.yielded).trans yields
  exact ⟨rest, by rw [events, List.append_assoc, more, same]⟩

theorem lastEventId_length (attached : Attached client) (kept : Nat) :
    lastEventId (client.events kept) = (client.events kept).length := by
  obtain ⟨rest, same⟩ := attached.events_prefix kept
  rcases List.eq_nil_or_concat (client.events kept) with none | ⟨earlier, last, shape⟩
  · rw [none]
    rfl
  · rw [List.concat_eq_append] at shape
    have found : (client.store.logOf client.connection.runId)[earlier.length]? = some last := by
      rw [← same, shape]
      simp
    rw [shape, lastEventId]
    simpa using sequence_at attached.numbered found

private theorem step (attached : Attached before) (taken : Steps before label after) :
    Attached after := by
  cases label with
  | call ambient operation =>
    simp only [Steps, next] at taken
    split at taken
    · next allowed =>
      cases taken
      have answers : Answers before.store
          { ambient, operation, reply := (operation.perform ambient before.store).1 }
          (operation.perform ambient before.store).2 := ⟨allowed.1, rfl⟩
      obtain ⟨effects, edits, makes⟩ := answers.refines attached.coherent
      have grows : ∃ more, (operation.perform ambient before.store).2.logOf
          before.connection.runId = before.store.logOf before.connection.runId ++ more := by
        cases read : before.store.events.get? before.connection.runId with
        | none => exact ⟨_, by simp only [logOf, read]; rfl⟩
        | some log =>
          obtain ⟨more, grown⟩ := answers.log_grows attached.coherent allowed.2 read
          exact ⟨more, by simp only [logOf, read, grown]; rfl⟩
      obtain ⟨more, grown⟩ := grows
      refine ⟨answers.coherent attached.coherent, edits_logged edits attached.coherent
        sequenced_narrates (makes_retains makes allowed.2) attached.logged, ?_, attached.origin, ?_⟩
      · rw [grown]
        exact attached.received.trans (List.prefix_append _ _)
      · rw [grown]
        exact attached.follows.grow more
    · contradiction
  | resume =>
    simp only [Steps, next, Option.map_eq_some_iff] at taken
    obtain ⟨connection, resumed, rfl⟩ := taken
    obtain ⟨sameId, sameOrigin⟩ := StreamRun.resume_same resumed
    have follows := StreamRun.resume_follows attached.coherent attached.logged attached.origin
      attached.follows resumed
    refine ⟨attached.coherent, attached.logged, ?_, sameOrigin.trans attached.origin, ?_⟩
    · rw [sameId]
      exact attached.received
    · rw [sameId]
      exact follows
  | reconnect kept =>
    simp only [Steps, next] at taken
    cases taken
    exact ⟨attached.coherent, attached.logged, attached.events_prefix kept,
      attached.lastEventId_length kept, ⟨List.nil_prefix, rfl⟩⟩

end Attached

theorem run_attached (run : Run Steps (start runId) labels client) : Attached client :=
  run.invariant (start_attached runId) Attached.step

private theorem step_runId (taken : Steps before label after) :
    after.connection.runId = before.connection.runId := by
  cases label with
  | call ambient operation =>
    simp only [Steps, next] at taken
    split at taken
    · cases taken
      rfl
    · contradiction
  | resume =>
    simp only [Steps, next, Option.map_eq_some_iff] at taken
    obtain ⟨connection, resumed, rfl⟩ := taken
    exact (StreamRun.resume_same resumed).1
  | reconnect kept =>
    cases taken
    rfl

theorem run_runId (run : Run Steps (start runId) labels client) :
    client.connection.runId = runId := by
  induction run with
  | nil => rfl
  | snoc earlier taken ih => rw [step_runId taken, ih]

/-- Over any chain of cut and resumed connections a client has received exactly the first
events of the log of its run, in order and each of them once. -/
theorem reconnection_exact (run : Run Steps (start runId) labels client) (kept : Nat) :
    ∃ count, client.events kept = (client.store.logOf runId).take count ∧
      (client.events kept).map (·.sequence) = List.range' 1 count := by
  have attached := run_attached run
  have numbered := attached.numbered
  have read := attached.events_prefix kept
  rw [run_runId run] at numbered read
  have same := List.prefix_iff_eq_take.mp read
  have bound := read.length_le
  refine ⟨_, same, ?_⟩
  rw [same, List.map_take, numbered, List.take_range'_of_length_ge (by simpa using bound)]
  simp [bound]

/-- A client that is cut after the first event of a run, resumes and reads its end. -/
def sampleReconnection : List ClientLabel :=
  [.call (.sample "a" "a") (.createSession none (some "lake") none),
   .call (.sample "b" "run") (.reserveRun (.sample (some "lake") none "hash")),
   .call (.sample "c" "c") (.markRunRunning "run" "worker"),
   .resume, .resume,
   .call (.sample "d" "d") (.appendStreamEvent "run" .responseDelta []), .reconnect 1,
   .resume, .resume, .resume, .resume,
   .call (.sample "e" "e") (.failRun "run" "PROVIDER_ERROR"), .resume, .resume]

theorem reconnection_exact_sampleReconnection : ∃ client,
    Run Steps (start "run") sampleReconnection client ∧
    (client.events 2).length = 3 ∧
    ∃ count, client.events 2 = (client.store.logOf "run").take count := by
  obtain ⟨client, run, three⟩ : ∃ client, Run Steps (start "run") sampleReconnection client ∧
      (client.events 2).length = 3 :=
    follow_reaches (by decide +kernel)
  obtain ⟨count, same, _⟩ := reconnection_exact run 2
  exact ⟨client, run, three, count, same⟩

end StreamClient

end DayuAgent
