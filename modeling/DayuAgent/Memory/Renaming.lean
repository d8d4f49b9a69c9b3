import DayuAgent.Memory.Operation

namespace DayuAgent

/-- A one-to-one renaming. The empty text, which identifies nothing, stays. -/
structure Renaming where
  apply : String → String
  injective : Function.Injective apply
  blank : apply "" = ""

instance : CoeFun Renaming fun _ => String → String := ⟨Renaming.apply⟩

variable (names : Renaming)

theorem Renaming.eq_blank_iff (id : String) : names id = "" ↔ id = "" := by
  constructor
  · intro empty
    exact names.injective (empty.trans names.blank.symm)
  · rintro rfl
    exact names.blank

def SessionRecord.rename (record : SessionRecord) : SessionRecord :=
  { record with id := names record.id }

def AgentMessage.rename (message : AgentMessage) : AgentMessage :=
  { message with
    id := names message.id, sessionId := message.sessionId.map names
    runId := message.runId.map names }

def AgentRun.rename (run : AgentRun) : AgentRun :=
  { run with id := names run.id, sessionId := names run.sessionId }

@[simp] theorem AgentRun.rename_id (run : AgentRun) : (run.rename names).id = names run.id := rfl

@[simp] theorem AgentRun.rename_sessionId (run : AgentRun) :
    (run.rename names).sessionId = names run.sessionId := rfl

@[simp] theorem AgentRun.rename_status (run : AgentRun) :
    (run.rename names).status = run.status := rfl

@[simp] theorem AgentRun.rename_terminal (run : AgentRun) :
    (run.rename names).Terminal ↔ run.Terminal := Iff.rfl

@[simp] theorem AgentRun.rename_workerInstanceId (run : AgentRun) :
    (run.rename names).workerInstanceId = run.workerInstanceId := rfl

def StreamEvent.rename (event : StreamEvent) : StreamEvent :=
  { event with id := names event.id, runId := names event.runId }

def RunReservation.rename (reservation : RunReservation) : RunReservation :=
  { reservation with run := reservation.run.rename names }

def CancelResult.rename (result : CancelResult) : CancelResult :=
  { result with run := result.run.rename names }

def Reply.rename : Reply → Reply
  | .unit => .unit
  | .session record => .session (record.rename names)
  | .message appended => .message (appended.rename names)
  | .messages history => .messages (history.map (·.rename names))
  | .reservation reserved => .reservation (reserved.rename names)
  | .run found => .run (found.rename names)
  | .event published => .event (published.rename names)
  | .events log => .events (log.map (·.rename names))
  | .cancel result => .cancel (result.rename names)
  | .count total => .count total
  | .flag ready => .flag ready

/-- Other generated identifiers at the same clock readings. -/
def Ambient.rename (ambient : Ambient) : Ambient :=
  { ambient with uuid4 := fun index => names (ambient.uuid4 index) }

def ReserveRunRequest.rename (request : ReserveRunRequest) : ReserveRunRequest :=
  { request with sessionId := request.sessionId.map names }

@[simp] theorem ReserveRunRequest.rename_idempotencyKey (request : ReserveRunRequest) :
    (request.rename names).idempotencyKey = request.idempotencyKey := rfl

def Operation.rename : Operation → Operation
  | .initializeStore => .initializeStore
  | .createSession metadata sessionId userId =>
    .createSession metadata (sessionId.map names) userId
  | .getSession sessionId => .getSession (names sessionId)
  | .appendMessage sessionId role content metadata =>
    .appendMessage (names sessionId) role content metadata
  | .listMessages sessionId => .listMessages (names sessionId)
  | .clearSession sessionId => .clearSession (names sessionId)
  | .reserveRun request => .reserveRun (request.rename names)
  | .getRun runId => .getRun (names runId)
  | .markRunRunning runId workerInstanceId => .markRunRunning (names runId) workerInstanceId
  | .incrementRunAttempt runId => .incrementRunAttempt (names runId)
  | .appendStreamEvent runId type payload => .appendStreamEvent (names runId) type payload
  | .listStreamEvents runId afterSequence => .listStreamEvents (names runId) afterSequence
  | .commitRunSuccess runId request => .commitRunSuccess (names runId) request
  | .failRun runId errorCode => .failRun (names runId) errorCode
  | .cancelRun runId workerInstanceId => .cancelRun (names runId) workerInstanceId
  | .interruptWorkerRuns workerInstanceId => .interruptWorkerRuns workerInstanceId
  | .reconcileOrphanedRuns workerInstanceId => .reconcileOrphanedRuns workerInstanceId
  | .pruneStreamEvents before => .pruneStreamEvents before
  | .ping => .ping
  | .close => .close

/-- The same script for a client that was given other identifiers. -/
def renameScript (script : List (Ambient × Operation)) : List (Ambient × Operation) :=
  script.map fun entry => (entry.1.rename names, entry.2.rename names)

open InMemorySessionStore in
theorem chosenId_rename (requested : Option String) (generated : String) :
    chosenId (requested.map names) (names generated) = names (chosenId requested generated) := by
  cases requested with
  | none => rfl
  | some id =>
    simp only [chosenId, Option.map_some, names.eq_blank_iff]
    split <;> rfl

end DayuAgent
