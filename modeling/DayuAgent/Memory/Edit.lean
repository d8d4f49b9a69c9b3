import DayuAgent.Memory.Coherence

/-! The elementary edits that operations are made of. An operation that raises
makes none; every other one makes the edits its name promises. -/

namespace DayuAgent

open Library

/-- A run record leaves its current status, publishing one event. -/
inductive Move (run : AgentRun) : AgentRun → StreamEventType → JsonObject → Prop where
  | start (pending : run.status = .pending) (now : Time) (workerInstanceId : String) :
      Move run { run with status := .running, startedAt := some now, workerInstanceId }
        .runStarted (InMemorySessionStore.statusPayload .running)
  | fail (active : run.Active) (now : Time) (errorCode : String) :
      Move run { run with
          status := .failed, completedAt := some now, errorCode := some errorCode }
        .runFailed (InMemorySessionStore.statusPayload .failed ++
          [("error_code", .str errorCode)])
  | cancel (active : run.Active) (now : Time) :
      Move run { run with status := .cancelled, completedAt := some now }
        .runCancelled (InMemorySessionStore.statusPayload .cancelled)
  | interrupt (active : run.Active) (now : Time) :
      Move run { run with status := .interrupted, completedAt := some now }
        .runInterrupted (InMemorySessionStore.statusPayload .interrupted)

namespace Move

theorem active (move : Move run updated type payload) : run.Active := by
  cases move with
  | start pending => simp [AgentRun.Active, pending, activeRunStatuses]
  | fail active | cancel active | interrupt active => exact active

theorem allowed (move : Move run updated type payload) :
    updated.status ∈ allowedRunTransitions run.status := by
  cases move with
  | start pending => simp [pending, allowedRunTransitions]
  | fail active | cancel active | interrupt active =>
    cases status : run.status <;>
      simp_all [AgentRun.Active, activeRunStatuses, allowedRunTransitions]

/-- What no move touches. -/
theorem same (move : Move run updated type payload) :
    updated.id = run.id ∧ updated.sessionId = run.sessionId ∧
      updated.idempotencyKey = run.idempotencyKey ∧ updated.requestHash = run.requestHash := by
  cases move <;> exact ⟨rfl, rfl, rfl, rfl⟩

end Move

namespace InMemorySessionStore

def withTranscript (store : InMemorySessionStore) (record : SessionRecord)
    (history : List AgentMessage) (now : Time) : InMemorySessionStore :=
  { store with
    messages := store.messages.set record.id history
    sessions := store.sessions.set record.id (touched record now) }

def withSession (store : InMemorySessionStore) (record : SessionRecord) : InMemorySessionStore :=
  { store with
    sessions := store.sessions.set record.id record
    messages := store.messages.set record.id [] }

def withLog (store : InMemorySessionStore) (runId : String) (log : List StreamEvent) :
    InMemorySessionStore :=
  { store with events := store.events.set runId log }

def withUpdate (store : InMemorySessionStore) (runId : String) (updated : AgentRun) :
    InMemorySessionStore :=
  { store with runs := store.runs.set runId updated }

def nextEvent (log : List StreamEvent) (runId : String) (type : StreamEventType)
    (payload : JsonObject) (id : String) (now : Time) : StreamEvent :=
  { id, runId, sequence := log.length + 1, type, createdAt := now, payload }

def completedRun (run : AgentRun) (request : CommitRunRequest) (now : Time) : AgentRun :=
  { run with
    status := .completed, completedAt := some now, usage := request.result.usage
    result := some request.result.modelDump, errorCode := none }

def interruptedRun (run : AgentRun) (now : Time) : AgentRun :=
  { run with status := .interrupted, completedAt := some now }

/-- The store after a committed turn. -/
def withTurn (store : InMemorySessionStore) (run : AgentRun) (record : SessionRecord)
    (history : List AgentMessage) (log : List StreamEvent) (request : CommitRunRequest)
    (ambient : Ambient) : InMemorySessionStore :=
  (withTranscript store record
      (history ++ turnMessages run request (history.length + 1) ambient) (ambient.utcNow 2)
    |>.withUpdate run.id (completedRun run request (ambient.utcNow 2))
    |>.withLog run.id (log ++ [nextEvent log run.id .responseCompleted
      [("result", .obj request.result.modelDump)] (ambient.uuid4 2) (ambient.utcNow 3)]))

theorem withTurn_messages (store : InMemorySessionStore) (run : AgentRun)
    (record : SessionRecord) (history : List AgentMessage) (log : List StreamEvent)
    (request : CommitRunRequest) (ambient : Ambient) :
    (withTurn store run record history log request ambient).messages =
      store.messages.set record.id
        (history ++ turnMessages run request (history.length + 1) ambient) := rfl

end InMemorySessionStore

/-- What one elementary edit did, as an observer of the store would log it. -/
inductive Effect where
  | readied (flag : Bool)
  | opened (sessionId : String)
  | said (sessionId : String) (message : AgentMessage)
  | cleared (sessionId : String)
  | reserved (run : AgentRun)
  | attempted (runId : String)
  | emitted (runId : String) (event : StreamEvent)
  | moved (runId : String) (updated : AgentRun) (event : StreamEvent)
  | committed (runId : String) (request : CommitRunRequest)
  | pruned (runId : String) (before : Time)

open InMemorySessionStore in
/-- The run of a sweep is interrupted. -/
def Effect.Interrupts (run : AgentRun) (effect : Effect) : Prop :=
  ∃ completed event, effect = .moved run.id (interruptedRun run completed) event

theorem interrupts_mem (each : List.Forall₂ Effect.Interrupts runs effects)
    (member : effect ∈ effects) : ∃ run ∈ runs, effect.Interrupts run := by
  induction each with
  | nil => cases member
  | cons first _ ih =>
    rcases List.mem_cons.mp member with rfl | later
    · exact ⟨_, List.mem_cons_self, first⟩
    · obtain ⟨run, among, interrupts⟩ := ih later
      exact ⟨run, List.mem_cons_of_mem _ among, interrupts⟩

open InMemorySessionStore in
/-- One elementary edit of the store. -/
inductive Edit (store : InMemorySessionStore) : Effect → InMemorySessionStore → Prop where
  | ready (flag : Bool) : Edit store (.readied flag) { store with ready := flag }
  | openSession (record : SessionRecord) (absent : store.sessions.get? record.id = none)
      (first : record.version = 1) : Edit store (.opened record.id) (withSession store record)
  | say (found : store.sessions.get? record.id = some record)
      (read : store.messages.get? record.id = some history)
      (idle : activeRunLocked store record.id = none)
      (unbound : message.runId = none) (next : message.sequence = history.length + 1)
      (now : Time) : Edit store (.said record.id message)
        (withTranscript store record (history ++ [message]) now)
  | clear (found : store.sessions.get? record.id = some record)
      (idle : activeRunLocked store record.id = none) (now : Time) :
      Edit store (.cleared record.id) (withTranscript store record [] now)
  | reserve (request : ReserveRunRequest) (sessionId : String) (ambient : Ambient)
      (found : store.sessions.get? sessionId = some record)
      (absent : store.runs.get? (ambient.uuid4 1) = none)
      (idle : activeRunLocked store sessionId = none)
      (unused : request.idempotencyKey.bind store.idempotency.get? = none) :
      Edit store (.reserved (pendingRun request sessionId ambient))
        (withRun store (pendingRun request sessionId ambient))
  | attempt (found : store.runs.get? run.id = some run) (active : run.Active) :
      Edit store (.attempted run.id)
        (withUpdate store run.id { run with attemptCount := run.attemptCount + 1 })
  | emit (found : store.runs.get? run.id = some run)
      (read : store.events.get? run.id = some log) (type : StreamEventType)
      (payload : JsonObject) (id : String) (now : Time) :
      Edit store (.emitted run.id (nextEvent log run.id type payload id now))
        (withLog store run.id (log ++ [nextEvent log run.id type payload id now]))
  | move (found : store.runs.get? run.id = some run)
      (read : store.events.get? run.id = some log) (change : Move run updated type payload)
      (id : String) (now : Time) :
      Edit store (.moved run.id updated (nextEvent log run.id type payload id now))
        (withLog (withUpdate store run.id updated) run.id
          (log ++ [nextEvent log run.id type payload id now]))
  | commit (found : store.runs.get? run.id = some run) (running : run.status = .running)
      (session : store.sessions.get? record.id = some record) (own : run.sessionId = record.id)
      (transcript : store.messages.get? record.id = some history)
      (read : store.events.get? run.id = some log) (request : CommitRunRequest)
      (ambient : Ambient) : Edit store (.committed run.id request)
        (withTurn store run record history log request ambient)
  | prune (found : store.runs.get? run.id = some run) (terminal : run.Terminal)
      (read : store.events.get? run.id = some log) (before : Time) :
      Edit store (.pruned run.id before)
        (withLog store run.id (log.filter fun event => before ≤ event.createdAt))

namespace InMemorySessionStore

private theorem Coherent.withTranscript {store : InMemorySessionStore} (coherent : Coherent store)
    (record : SessionRecord) (history : List AgentMessage) (now : Time) :
    Coherent (withTranscript store record history now) :=
  coherent.putSession (show (touched record now).id = record.id from rfl) history

private theorem Coherent.withLog {store : InMemorySessionStore} (coherent : Coherent store)
    (found : store.runs.get? ref = some run) (log : List StreamEvent) :
    Coherent (withLog store ref log) := coherent.setLog found log

end InMemorySessionStore

open InMemorySessionStore in
theorem Edit.coherent (edit : Edit store effect after) (before : Coherent store) :
    Coherent after := by
  cases edit with
  | ready => exact ⟨before.sessionId, before.transcripts, before.runId, before.logs,
      before.runSession, before.bindings, before.oneActive⟩
  | openSession record => exact before.putSession rfl []
  | say | clear => exact before.withTranscript _ _ _
  | reserve request sessionId ambient found absent idle unused =>
    exact before.withRun found absent idle unused
  | attempt found active => exact before.setRun found rfl rfl rfl (fun _ => active)
  | emit found => exact before.withLog found _
  | move found read change =>
    obtain ⟨sameId, sameSession, sameKey, _⟩ := change.same
    have updated := before.setRun found sameId sameSession sameKey (fun _ => change.active)
    exact updated.withLog (Dict.get?_set_self _ _ _) _
  | @commit run record history log found running session own transcript read request ambient =>
    have written := before.withTranscript record
      (history ++ turnMessages run request (history.length + 1) ambient) (ambient.utcNow 2)
    have updated := @Coherent.setRun _ _ _ (completedRun run request (ambient.utcNow 2))
      written found rfl rfl rfl
      (fun active => by simp [completedRun, AgentRun.Active, activeRunStatuses] at active)
    exact updated.withLog (Dict.get?_set_self _ _ _) _
  | prune found => exact before.withLog found _

end DayuAgent
