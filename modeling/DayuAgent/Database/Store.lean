import DayuAgent.Database.Transaction
import DayuAgent.Memory.Operation

namespace DayuAgent

/-- The stored events of one run. -/
def Database.eventLog (database : Database) (ref : String) : List StreamEvent :=
  database.events.filter fun event => event.runId = ref

/-- The stored messages of one session. -/
def Database.transcript (database : Database) (sessionId : String) : List AgentMessage :=
  database.messages.filter fun message => message.sessionId = some sessionId

def Database.row (database : Database) (ref : String) : Option AgentRun := database.runs.get? ref

/-- The events that a pruning may delete: expired ones of terminal runs. -/
def Database.Expired (database : Database) (before : Time) (event : StreamEvent) : Prop :=
  event.createdAt < before ∧ ∃ run, database.row event.runId = some run ∧ run.Terminal

instance (database : Database) (before : Time) (event : StreamEvent) :
    Decidable (database.Expired before event) :=
  decidable_of_iff (event.createdAt < before ∧
    (database.row event.runId).any (fun run => run.Terminal) = true) (by
      simp [Database.Expired, Option.any_eq_true])

/-- The database without the events that a pruning removes. -/
def Database.without (database : Database) (removed : StreamEvent → Bool) : Database :=
  { database with events := database.events.filter fun event => ¬ removed event }

theorem Database.without_sublist (database : Database) (removed : StreamEvent → Bool)
    (ref : String) :
    ((database.without removed).eventLog ref).Sublist (database.eventLog ref) :=
  List.filter_sublist.filter _

namespace SQLAlchemyRuntimeStore

open Library
open InMemorySessionStore (chosenId pendingRun implicitSession sessionBusy touched statusPayload)

def lockedSession (sessionId : String) : Txn SessionRecord :=
  .lockSession sessionId fun
    | some record => pure record
    | none => .raise (.of .sessionNotFoundError [("session_id", .str sessionId)])

def lockedRun (runId : String) : Txn AgentRun :=
  .lockRun (.byId runId) fun
    | some run => pure run
    | none => .raise (.of .runNotFoundError [("run_id", .str runId)])

def activeRunIn (sessionId : String) (database : Database) : Option AgentRun :=
  database.runs.values.find? fun run => run.sessionId = sessionId ∧ run.Active

def activeRun (sessionId : String) : Txn (Option AgentRun) := .readRun (activeRunIn sessionId) pure

/-- Resolve an idempotency key, locking an existing row if asked to. -/
def idempotentRun (idempotencyKey : Option String) (lock : Bool) : Txn (Option AgentRun) :=
  match idempotencyKey with
  | none => pure none
  | some key =>
    if lock then .lockRun (.byKey key) pure else .readRun (RunQuery.byKey key).find pure

def idempotentReservation (model : AgentRun) (requestHash : String) : Txn RunReservation :=
  if model.requestHash ≠ requestHash then
    .raise (.of .idempotencyConflictError
      [("idempotency_key", .ofOption .str model.idempotencyKey), ("run_id", .str model.id)])
  else pure { run := model, ownsExecution := false }

/-- `func.max(sequence)` over the selected rows, or zero. -/
def maxSequence (sequences : List Nat) : Nat := sequences.foldl max 0

def nextMessageSequence (sessionId : String) : Txn Nat := do
  let last ← .readCount (fun database => maxSequence
    ((database.messages.filter fun message => message.sessionId = some sessionId).map
      (·.sequence))) pure
  return last + 1

def appendEvent (run : AgentRun) (type : StreamEventType) (payload : JsonObject) (id : String)
    (now : Time) : Txn StreamEvent := do
  let last ← .readCount (fun database => maxSequence
    ((database.events.filter fun event => event.runId = run.id).map (·.sequence))) pure
  let event : StreamEvent :=
    { id, runId := run.id, sequence := last + 1, type, createdAt := now, payload }
  .flush (.event event)
  return event

def appendMessage (sessionId : String) (role : MessageRole) (content : String)
    (metadata : Option JsonObject) (ambient : Ambient) : Txn AgentMessage := do
  let record ← lockedSession sessionId
  match ← activeRun sessionId with
  | some active => .raise (sessionBusy sessionId active)
  | none => do
    let sequence ← nextMessageSequence sessionId
    let message : AgentMessage :=
      { id := ambient.uuid4 0, sessionId := some sessionId, runId := none, role, content, sequence
        committed := true, metadata := metadata.getD [], createdAt := ambient.utcNow 0 }
    .flush (.message message)
    .flush (.session (touched record (ambient.utcNow 1)))
    return message

def clearSession (sessionId : String) (ambient : Ambient) : Txn Unit := do
  let record ← lockedSession sessionId
  match ← activeRun sessionId with
  | some active => .raise (sessionBusy sessionId active)
  | none => do
    .flush (.deleteMessages sessionId)
    .flush (.session (touched record (ambient.utcNow 0)))

section Reservation

variable (request : ReserveRunRequest) (ambient : Ambient)

/-- `session_id or str(uuid4())`. -/
def resolvedSessionId : String :=
  chosenId request.sessionId (ambient.uuid4 0)

/-- The row that the transaction inserts; it is built before the block is entered. -/
def runModel : AgentRun :=
  pendingRun request (resolvedSessionId request ambient) ambient

def insertReserved : Txn RunReservation :=
  .insertRun (runModel request ambient)
    (pure { run := runModel request ambient, ownsExecution := true })

/-- The active-run check and the insert. -/
def reserveIdle : Txn RunReservation := do
  match ← activeRun (resolvedSessionId request ambient) with
  | some active => .raise (sessionBusy (resolvedSessionId request ambient) active)
  | none => insertReserved request ambient

/-- The second key lookup, under the session row. -/
def reserveLocked : Txn RunReservation := do
  match ← idempotentRun request.idempotencyKey true with
  | some existing => idempotentReservation existing request.requestHash
  | none => reserveIdle request ambient

/-- The new session row of a reservation without a session, or the lock on its row. -/
def reserveSession : Txn RunReservation :=
  match request.sessionId with
  | none => do
    .flush (.session (implicitSession request ambient))
    reserveLocked request ambient
  | some _ => do
    let _ ← lockedSession (resolvedSessionId request ambient)
    reserveLocked request ambient

def reserveRun : Txn RunReservation := do
  match ← idempotentRun request.idempotencyKey true with
  | some existing => idempotentReservation existing request.requestHash
  | none => reserveSession request ambient

/-- The second half of the resolution: the active run of the session, if any. -/
def resolveBusy : Txn RunReservation := do
  match ← activeRun (resolvedSessionId request ambient) with
  | some active => .raise (sessionBusy (resolvedSessionId request ambient) active)
  | none => .raise (Cluster.databaseError "reserve_run")

/-- Translate a uniqueness race into a replay or a busy outcome. -/
def resolveReservationRace : Txn RunReservation := do
  match ← idempotentRun request.idempotencyKey false with
  | some existing => idempotentReservation existing request.requestHash
  | none => resolveBusy request ambient

/-- One call of `reserve_run` at its start. -/
def reserveProcess : Process RunReservation :=
  { activity := .running (reserveRun request ambient)
    recovery := some (resolveReservationRace request ambient), pending := [] }

end Reservation

/-- Write a changed run row and publish one event about it. -/
def publishRun (run : AgentRun) (type : StreamEventType) (payload : JsonObject) (id : String)
    (now : Time) : Txn AgentRun := do
  .flush (.run run)
  let _ ← appendEvent run type payload id now
  return run

def markRunRunning (runId workerInstanceId : String) (ambient : Ambient) : Txn AgentRun := do
  let run ← lockedRun runId
  .lift (validateRunTransition run.status .running)
  publishRun { run with
      status := .running, startedAt := some (ambient.utcNow 0), workerInstanceId }
    .runStarted (statusPayload .running) (ambient.uuid4 0) (ambient.utcNow 1)

def incrementRunAttempt (runId : String) : Txn AgentRun := do
  let run ← lockedRun runId
  if run.status ≠ .running then .lift (validateRunTransition run.status .running)
  else pure ()
  let updated := { run with attemptCount := run.attemptCount + 1 }
  .flush (.run updated)
  return updated

def appendStreamEvent (runId : String) (type : StreamEventType) (payload : JsonObject)
    (ambient : Ambient) : Txn StreamEvent := do
  let run ← lockedRun runId
  appendEvent run type payload (ambient.uuid4 0) (ambient.utcNow 0)

def commitRunSuccess (runId : String) (request : CommitRunRequest) (ambient : Ambient) :
    Txn AgentRun := do
  let run ← lockedRun runId
  .lift (validateRunTransition run.status .completed)
  let record ← lockedSession run.sessionId
  let sequence ← nextMessageSequence run.sessionId
  .flush (.message
    { id := ambient.uuid4 0, sessionId := some run.sessionId, runId := some run.id, role := .user
      content := request.userContent, sequence, committed := true
      metadata := request.userMetadata, createdAt := ambient.utcNow 0 })
  .flush (.message
    { id := ambient.uuid4 1, sessionId := some run.sessionId, runId := some run.id
      role := .assistant, content := request.assistantContent, sequence := sequence + 1
      committed := true, metadata := request.assistantMetadata, createdAt := ambient.utcNow 1 })
  .flush (.session (touched record (ambient.utcNow 2)))
  publishRun { run with
      status := .completed, completedAt := some (ambient.utcNow 2), usage := request.result.usage
      result := some request.result.modelDump, errorCode := none }
    .responseCompleted [("result", .obj request.result.modelDump)] (ambient.uuid4 2)
    (ambient.utcNow 3)

def failRun (runId errorCode : String) (ambient : Ambient) : Txn AgentRun := do
  let run ← lockedRun runId
  if run.Terminal then return run
  else do
    .lift (validateRunTransition run.status .failed)
    publishRun { run with
        status := .failed, completedAt := some (ambient.utcNow 0), errorCode := some errorCode }
      .runFailed (statusPayload .failed ++ [("error_code", .str errorCode)])
      (ambient.uuid4 0) (ambient.utcNow 1)

def cancelRun (runId workerInstanceId : String) (ambient : Ambient) : Txn CancelResult := do
  let run ← lockedRun runId
  if run.status = .cancelled then return { run, disposition := .alreadyCancelled }
  else if run.Terminal then return { run, disposition := .alreadyTerminal }
  else if run.workerInstanceId ≠ workerInstanceId then
    .raise (.of .cancellationUnavailableError
      [("run_id", .str run.id), ("worker_instance_id", .str run.workerInstanceId)])
  else do
    .lift (validateRunTransition run.status .cancelled)
    let updated ← publishRun
      { run with status := .cancelled, completedAt := some (ambient.utcNow 0) }
      .runCancelled (statusPayload .cancelled) (ambient.uuid4 0) (ambient.utcNow 1)
    return { run := updated, disposition := .cancelled }

/-- The loop over the locked rows; `index` counts the runs already handled. -/
def interruptEach (ambient : Ambient) (index : Nat) : List AgentRun → Txn Unit
  | [] => return ()
  | run :: rest => do
    .lift (validateRunTransition run.status .interrupted)
    let _ ← publishRun
      { run with status := .interrupted, completedAt := some (ambient.utcNow (2 * index)) }
      .runInterrupted (statusPayload .interrupted) (ambient.uuid4 index)
      (ambient.utcNow (2 * index + 1))
    interruptEach ambient (index + 1) rest

def interruptMatching (workerInstanceId : String) (sameWorker : Bool) (ambient : Ambient) :
    Txn Nat := do
  let runs ← .lockSkipping (fun run => run.Active ∧
    (if sameWorker then run.workerInstanceId = workerInstanceId
      else run.workerInstanceId ≠ workerInstanceId)) pure
  interruptEach ambient 0 runs
  return runs.length

def interruptWorkerRuns (workerInstanceId : String) (ambient : Ambient) : Txn Nat :=
  interruptMatching workerInstanceId true ambient

def reconcileOrphanedRuns (workerInstanceId : String) (ambient : Ambient) : Txn Nat :=
  interruptMatching workerInstanceId false ambient

/-- `create_session`: the primary key rejects a second row. -/
def createSession (metadata : Option JsonObject) (sessionId userId : Option String)
    (ambient : Ambient) (database : Database) : Except PyException SessionRecord × Database :=
  let record : SessionRecord :=
    { id := chosenId sessionId (ambient.uuid4 0), userId, status := "open"
      metadata := metadata.getD [], version := 1
      createdAt := ambient.utcNow 0, updatedAt := ambient.utcNow 1 }
  match database.sessions.get? record.id with
  | some _ => (.error (.domain (.new .sessionError
      (some "A session with this identifier already exists.")
      (some [("session_id", .str record.id)]))), database)
  | none => (.ok record, database.apply (.session record))

section Reads

/-! The reads lock nothing and see what is committed. -/

variable (database : Database)

def getSession (sessionId : String) : Except PyException SessionRecord :=
  match database.sessions.get? sessionId with
  | some record => .ok record
  | none => .error (.of .sessionNotFoundError [("session_id", .str sessionId)])

def listMessages (sessionId : String) : Except PyException (List AgentMessage) :=
  match database.sessions.get? sessionId with
  | some _ => .ok ((database.messages.filter fun message =>
      message.sessionId = some sessionId ∧ message.committed).mergeSort
        fun first second => first.sequence ≤ second.sequence)
  | none => .error (.of .sessionNotFoundError [("session_id", .str sessionId)])

def getRun (runId : String) : Except PyException AgentRun :=
  match database.runs.get? runId with
  | some run => .ok run
  | none => .error (.of .runNotFoundError [("run_id", .str runId)])

def listStreamEvents (runId : String) (afterSequence : Nat) :
    Except PyException (List StreamEvent) :=
  match database.runs.get? runId with
  | some _ => .ok ((database.events.filter fun event =>
      event.runId = runId ∧ afterSequence < event.sequence).mergeSort
        fun first second => first.sequence ≤ second.sequence)
  | none => .error (.of .runNotFoundError [("run_id", .str runId)])

end Reads

/-- `prune_stream_events`: one `DELETE`, whose row count is the answer. -/
def pruneStreamEvents (before : Time) (database : Database) : Nat × Database :=
  let expired := fun event => decide (database.Expired before event)
  ((database.events.filter expired).length, database.without expired)

end SQLAlchemyRuntimeStore

end DayuAgent
