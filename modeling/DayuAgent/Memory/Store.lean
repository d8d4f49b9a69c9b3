import DayuAgent.Library.Command
import DayuAgent.Library.Dict
import DayuAgent.Runtime.State

/-! The in-memory reference implementation of the runtime store. Every method
holds the store lock for its whole body, so each one is a single command. -/

namespace DayuAgent

open Library

/-- What one call draws from its surroundings: the identifiers `uuid4` returns
and the readings of `utc_now`, one index for each place of its body that asks. -/
structure Ambient where
  uuid4 : Nat → String
  utcNow : Nat → Time

structure InMemorySessionStore where
  sessions : Dict String SessionRecord
  messages : Dict String (List AgentMessage)
  runs : Dict String AgentRun
  events : Dict String (List StreamEvent)
  idempotency : Dict String String
  ready : Bool

abbrev StoreM := Command InMemorySessionStore PyException

structure ReserveRunRequest where
  sessionId : Option String
  sessionMetadata : JsonObject
  userId : Option String
  idempotencyKey : Option String
  requestHash : String
  requestId : String
  traceId : String
  provider : String
  model : String
  workerInstanceId : String
  runMetadata : JsonObject

structure CommitRunRequest where
  userContent : String
  userMetadata : JsonObject
  assistantContent : String
  assistantMetadata : JsonObject
  result : AgentResult

namespace InMemorySessionStore

def empty : InMemorySessionStore := ⟨.empty, .empty, .empty, .empty, .empty, true⟩

/-- Subscript a dictionary of the store; a miss is a `KeyError`. -/
def item (dict : InMemorySessionStore → Dict String Value) (key : String) : StoreM Value := do
  match (dict (← Command.read)).get? key with
  | some value => return value
  | none => Command.raise (.keyError key)

def initializeStore : StoreM Unit := Command.write fun store => { store with ready := true }

def close : StoreM Unit := Command.write fun store => { store with ready := false }

def ping : StoreM Bool := return (← Command.read).ready

/-- `session_id or str(uuid4())`: an empty identifier is replaced as well. -/
def chosenId (requested : Option String) (generated : String) : String :=
  match requested with
  | some id => if id = "" then generated else id
  | none => generated

def createSession (metadata : Option JsonObject) (sessionId userId : Option String)
    (ambient : Ambient) : StoreM SessionRecord := do
  let record : SessionRecord :=
    { id := chosenId sessionId (ambient.uuid4 0), userId, status := "open"
      metadata := metadata.getD [], version := 1
      createdAt := ambient.utcNow 0, updatedAt := ambient.utcNow 1 }
  match (← Command.read).sessions.get? record.id with
  | some _ => Command.raise (.domain (.new .sessionError
      (some "A session with this identifier already exists.")
      (some [("session_id", .str record.id)])))
  | none => do
    Command.write fun store => { store with
      sessions := store.sessions.set record.id record
      messages := store.messages.set record.id [] }
    return record

def sessionLocked (sessionId : String) : StoreM SessionRecord := do
  match (← Command.read).sessions.get? sessionId with
  | some record => return record
  | none => Command.raise (.of .sessionNotFoundError [("session_id", .str sessionId)])

def getSession (sessionId : String) : StoreM SessionRecord := sessionLocked sessionId

/-- The first run of the session in a pending or running state. -/
def activeRunLocked (store : InMemorySessionStore) (sessionId : String) : Option AgentRun :=
  store.runs.values.find? fun run => run.sessionId = sessionId ∧ run.Active

def sessionBusy (sessionId : String) (active : AgentRun) : PyException :=
  .of .sessionBusyError [("session_id", .str sessionId), ("run_id", .str active.id)]

/-- The session record after one transcript change. -/
def touched (record : SessionRecord) (now : Time) : SessionRecord :=
  { record with updatedAt := now, version := record.version + 1 }

def appendMessage (sessionId : String) (role : MessageRole) (content : String)
    (metadata : Option JsonObject) (ambient : Ambient) : StoreM AgentMessage := do
  let record ← sessionLocked sessionId
  match activeRunLocked (← Command.read) sessionId with
  | some active => Command.raise (sessionBusy sessionId active)
  | none => do
    let history ← item messages sessionId
    let message : AgentMessage :=
      { id := ambient.uuid4 0, sessionId := some sessionId, runId := none, role, content
        sequence := history.length + 1, committed := true, metadata := metadata.getD []
        createdAt := ambient.utcNow 0 }
    Command.write fun store => { store with
      messages := store.messages.set sessionId (history ++ [message]) }
    Command.write fun store => { store with
      sessions := store.sessions.set sessionId (touched record (ambient.utcNow 1)) }
    return message

def listMessages (sessionId : String) : StoreM (List AgentMessage) := do
  let _ ← sessionLocked sessionId
  item messages sessionId

def clearSession (sessionId : String) (ambient : Ambient) : StoreM Unit := do
  let record ← sessionLocked sessionId
  match activeRunLocked (← Command.read) sessionId with
  | some active => Command.raise (sessionBusy sessionId active)
  | none => do
    let _ ← item messages sessionId
    Command.write fun store => { store with messages := store.messages.set sessionId [] }
    Command.write fun store => { store with
      sessions := store.sessions.set sessionId (touched record (ambient.utcNow 0)) }

/-- The implicit session of a reservation without a session identifier. -/
def implicitSession (request : ReserveRunRequest) (ambient : Ambient) : SessionRecord :=
  { id := ambient.uuid4 0, userId := request.userId, status := "open"
    metadata := request.sessionMetadata, version := 1
    createdAt := ambient.utcNow 0, updatedAt := ambient.utcNow 1 }

def pendingRun (request : ReserveRunRequest) (sessionId : String) (ambient : Ambient) :
    AgentRun :=
  { id := ambient.uuid4 1, requestId := request.requestId, traceId := request.traceId, sessionId
    idempotencyKey := request.idempotencyKey, requestHash := request.requestHash
    status := .pending, provider := request.provider, model := request.model
    attemptCount := 0, workerInstanceId := request.workerInstanceId
    createdAt := ambient.utcNow 2, startedAt := none, completedAt := none
    usage := .empty, errorCode := none, result := none, metadata := request.runMetadata }

/-- The run already bound to the idempotency key of a request. -/
def replayed (request : ReserveRunRequest) (runId : String) : StoreM RunReservation := do
  let existing ← item runs runId
  if existing.requestHash ≠ request.requestHash then
    Command.raise (.of .idempotencyConflictError
      [("idempotency_key", .ofOption .str request.idempotencyKey), ("run_id", .str existing.id)])
  else return { run := existing, ownsExecution := false }

/-- Resolve the session of a new run, creating one when the request names none. -/
def reservedSession (request : ReserveRunRequest) (ambient : Ambient) : StoreM SessionRecord :=
  match request.sessionId with
  | some sessionId => sessionLocked sessionId
  | none => do
    let session := implicitSession request ambient
    Command.write fun store => { store with
      sessions := store.sessions.set session.id session
      messages := store.messages.set session.id [] }
    return session

/-- Insert the run of a fresh key unless its session is busy. -/
def admitRun (request : ReserveRunRequest) (sessionId : String) (ambient : Ambient) :
    StoreM RunReservation := do
  match activeRunLocked (← Command.read) sessionId with
  | some active => Command.raise (sessionBusy sessionId active)
  | none => do
    let run := pendingRun request sessionId ambient
    Command.write fun store => { store with
      runs := store.runs.set run.id run
      events := store.events.set run.id [] }
    match request.idempotencyKey with
    | some key => Command.write fun store => { store with
        idempotency := store.idempotency.set key run.id }
    | none => pure ()
    return { run, ownsExecution := true }

def reserveRun (request : ReserveRunRequest) (ambient : Ambient) : StoreM RunReservation := do
  match request.idempotencyKey.bind (← Command.read).idempotency.get? with
  | some runId => replayed request runId
  | none => do
    let session ← reservedSession request ambient
    admitRun request session.id ambient

def runLocked (runId : String) : StoreM AgentRun := do
  match (← Command.read).runs.get? runId with
  | some run => return run
  | none => Command.raise (.of .runNotFoundError [("run_id", .str runId)])

def getRun (runId : String) : StoreM AgentRun := runLocked runId

def appendEventLocked (runId : String) (type : StreamEventType) (payload : JsonObject)
    (id : String) (now : Time) : StoreM StreamEvent := do
  let log ← item events runId
  let event : StreamEvent :=
    { id, runId, sequence := log.length + 1, type, createdAt := now, payload }
  Command.write fun store => { store with events := store.events.set runId (log ++ [event]) }
  return event

/-- Store the changed record of one run. -/
def putRun (runId : String) (updated : AgentRun) : StoreM Unit :=
  Command.write fun store => { store with runs := store.runs.set runId updated }

def statusPayload (status : RunStatus) : JsonObject := [("status", .str status.value)]

def markRunRunning (runId workerInstanceId : String) (ambient : Ambient) : StoreM AgentRun := do
  let run ← runLocked runId
  Command.lift (validateRunTransition run.status .running)
  let updated := { run with
    status := .running, startedAt := some (ambient.utcNow 0), workerInstanceId }
  putRun runId updated
  let _ ← appendEventLocked runId .runStarted (statusPayload .running)
    (ambient.uuid4 0) (ambient.utcNow 1)
  return updated

def incrementRunAttempt (runId : String) : StoreM AgentRun := do
  let run ← runLocked runId
  if run.status ≠ .running then Command.lift (validateRunTransition run.status .running)
  else pure ()
  let updated := { run with attemptCount := run.attemptCount + 1 }
  putRun runId updated
  return updated

def appendStreamEvent (runId : String) (type : StreamEventType) (payload : JsonObject)
    (ambient : Ambient) : StoreM StreamEvent := do
  let _ ← runLocked runId
  appendEventLocked runId type payload (ambient.uuid4 0) (ambient.utcNow 0)

def listStreamEvents (runId : String) (afterSequence : Nat) : StoreM (List StreamEvent) := do
  let _ ← runLocked runId
  let log ← item events runId
  return log.filter fun event => afterSequence < event.sequence

/-- The two messages of a committed turn. -/
def turnMessages (run : AgentRun) (request : CommitRunRequest) (sequence : Nat)
    (ambient : Ambient) : List AgentMessage :=
  [{ id := ambient.uuid4 0, sessionId := some run.sessionId, runId := some run.id, role := .user
     content := request.userContent, sequence, committed := true
     metadata := request.userMetadata, createdAt := ambient.utcNow 0 },
   { id := ambient.uuid4 1, sessionId := some run.sessionId, runId := some run.id
     role := .assistant, content := request.assistantContent, sequence := sequence + 1
     committed := true, metadata := request.assistantMetadata, createdAt := ambient.utcNow 1 }]

def commitRunSuccess (runId : String) (request : CommitRunRequest) (ambient : Ambient) :
    StoreM AgentRun := do
  let run ← runLocked runId
  Command.lift (validateRunTransition run.status .completed)
  let session ← sessionLocked run.sessionId
  let history ← item messages run.sessionId
  Command.write fun store => { store with
    messages := store.messages.set run.sessionId
      (history ++ turnMessages run request (history.length + 1) ambient) }
  let now := ambient.utcNow 2
  Command.write fun store => { store with
    sessions := store.sessions.set run.sessionId (touched session now) }
  let updated := { run with
    status := .completed, completedAt := some now, usage := request.result.usage
    result := some request.result.modelDump, errorCode := none }
  putRun runId updated
  let _ ← appendEventLocked runId .responseCompleted
    [("result", .obj request.result.modelDump)] (ambient.uuid4 2) (ambient.utcNow 3)
  return updated

def failRun (runId errorCode : String) (ambient : Ambient) : StoreM AgentRun := do
  let run ← runLocked runId
  if run.Terminal then return run
  else do
    Command.lift (validateRunTransition run.status .failed)
    let updated := { run with
      status := .failed, completedAt := some (ambient.utcNow 0), errorCode := some errorCode }
    putRun runId updated
    let _ ← appendEventLocked runId .runFailed
      (statusPayload .failed ++ [("error_code", .str errorCode)])
      (ambient.uuid4 0) (ambient.utcNow 1)
    return updated

def cancelRun (runId workerInstanceId : String) (ambient : Ambient) : StoreM CancelResult := do
  let run ← runLocked runId
  if run.status = .cancelled then return { run, disposition := .alreadyCancelled }
  else if run.Terminal then return { run, disposition := .alreadyTerminal }
  else if run.workerInstanceId ≠ workerInstanceId then
    Command.raise (.of .cancellationUnavailableError
      [("run_id", .str run.id), ("worker_instance_id", .str run.workerInstanceId)])
  else do
    Command.lift (validateRunTransition run.status .cancelled)
    let updated := { run with status := .cancelled, completedAt := some (ambient.utcNow 0) }
    putRun runId updated
    let _ ← appendEventLocked runId .runCancelled (statusPayload .cancelled)
      (ambient.uuid4 0) (ambient.utcNow 1)
    return { run := updated, disposition := .cancelled }

def interruptLocked (run : AgentRun) (id : String) (completed created : Time) : StoreM Unit := do
  Command.lift (validateRunTransition run.status .interrupted)
  putRun run.id { run with status := .interrupted, completedAt := some completed }
  let _ ← appendEventLocked run.id .runInterrupted (statusPayload .interrupted) id created

/-- The loop over the collected runs; `index` counts the runs already handled. -/
def interruptEach (ambient : Ambient) (index : Nat) : List AgentRun → StoreM Unit
  | [] => return ()
  | run :: rest => do
    interruptLocked run (ambient.uuid4 index) (ambient.utcNow (2 * index))
      (ambient.utcNow (2 * index + 1))
    interruptEach ambient (index + 1) rest

/-- Interrupt every active run that the filter selects. -/
def interruptMatching (selected : AgentRun → Bool) (ambient : Ambient) : StoreM Nat := do
  let matching := (← Command.read).runs.values.filter fun run => run.Active ∧ selected run
  interruptEach ambient 0 matching
  return matching.length

def interruptWorkerRuns (workerInstanceId : String) (ambient : Ambient) : StoreM Nat :=
  interruptMatching (fun run => run.workerInstanceId = workerInstanceId) ambient

def reconcileOrphanedRuns (workerInstanceId : String) (ambient : Ambient) : StoreM Nat :=
  interruptMatching (fun run => run.workerInstanceId ≠ workerInstanceId) ambient

/-- The loop over the event logs; the result counts the removed events. -/
def pruneEach (before : Time) : List (String × List StreamEvent) → StoreM Nat
  | [] => return 0
  | (runId, log) :: rest => do
    let run ← item runs runId
    if run.Terminal then do
      let retained := log.filter fun event => before ≤ event.createdAt
      Command.write fun store => { store with events := store.events.set runId retained }
      let removed ← pruneEach before rest
      return log.length - retained.length + removed
    else pruneEach before rest

def pruneStreamEvents (before : Time) : StoreM Nat := do
  pruneEach before (← Command.read).events.entries

end InMemorySessionStore

end DayuAgent
