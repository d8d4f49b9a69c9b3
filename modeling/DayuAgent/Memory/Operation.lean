import DayuAgent.Library.Transition
import DayuAgent.Memory.Store

namespace DayuAgent

open Library

/-- One call of the store, with every argument but its surroundings. -/
inductive Operation where
  | initializeStore
  | createSession (metadata : Option JsonObject) (sessionId userId : Option String)
  | getSession (sessionId : String)
  | appendMessage (sessionId : String) (role : MessageRole) (content : String)
      (metadata : Option JsonObject)
  | listMessages (sessionId : String)
  | clearSession (sessionId : String)
  | reserveRun (request : ReserveRunRequest)
  | getRun (runId : String)
  | markRunRunning (runId workerInstanceId : String)
  | incrementRunAttempt (runId : String)
  | appendStreamEvent (runId : String) (type : StreamEventType) (payload : JsonObject)
  | listStreamEvents (runId : String) (afterSequence : Nat)
  | commitRunSuccess (runId : String) (request : CommitRunRequest)
  | failRun (runId errorCode : String)
  | cancelRun (runId workerInstanceId : String)
  | interruptWorkerRuns (workerInstanceId : String)
  | reconcileOrphanedRuns (workerInstanceId : String)
  | pruneStreamEvents (before : Time)
  | ping
  | close

inductive Reply where
  | unit
  | session (record : SessionRecord)
  | message (message : AgentMessage)
  | messages (history : List AgentMessage)
  | reservation (reservation : RunReservation)
  | run (run : AgentRun)
  | event (event : StreamEvent)
  | events (log : List StreamEvent)
  | cancel (result : CancelResult)
  | count (count : Nat)
  | flag (flag : Bool)

namespace Operation

open InMemorySessionStore in
def perform (ambient : Ambient) : Operation → StoreM Reply
  | initializeStore => do InMemorySessionStore.initializeStore; return .unit
  | createSession metadata sessionId userId =>
    return .session (← InMemorySessionStore.createSession metadata sessionId userId ambient)
  | getSession sessionId => return .session (← InMemorySessionStore.getSession sessionId)
  | appendMessage sessionId role content metadata =>
    return .message (← InMemorySessionStore.appendMessage sessionId role content metadata ambient)
  | listMessages sessionId => return .messages (← InMemorySessionStore.listMessages sessionId)
  | clearSession sessionId => do
    InMemorySessionStore.clearSession sessionId ambient
    return .unit
  | reserveRun request =>
    return .reservation (← InMemorySessionStore.reserveRun request ambient)
  | getRun runId => return .run (← InMemorySessionStore.getRun runId)
  | markRunRunning runId workerInstanceId =>
    return .run (← InMemorySessionStore.markRunRunning runId workerInstanceId ambient)
  | incrementRunAttempt runId => return .run (← InMemorySessionStore.incrementRunAttempt runId)
  | appendStreamEvent runId type payload =>
    return .event (← InMemorySessionStore.appendStreamEvent runId type payload ambient)
  | listStreamEvents runId afterSequence =>
    return .events (← InMemorySessionStore.listStreamEvents runId afterSequence)
  | commitRunSuccess runId request =>
    return .run (← InMemorySessionStore.commitRunSuccess runId request ambient)
  | failRun runId errorCode =>
    return .run (← InMemorySessionStore.failRun runId errorCode ambient)
  | cancelRun runId workerInstanceId =>
    return .cancel (← InMemorySessionStore.cancelRun runId workerInstanceId ambient)
  | interruptWorkerRuns workerInstanceId =>
    return .count (← InMemorySessionStore.interruptWorkerRuns workerInstanceId ambient)
  | reconcileOrphanedRuns workerInstanceId =>
    return .count (← InMemorySessionStore.reconcileOrphanedRuns workerInstanceId ambient)
  | pruneStreamEvents before => return .count (← InMemorySessionStore.pruneStreamEvents before)
  | ping => return .flag (← InMemorySessionStore.ping)
  | close => do InMemorySessionStore.close; return .unit

/-- The run that an operation appends an event to by hand. -/
def appendsTo : Operation → Option String
  | appendStreamEvent runId _ _ => some runId
  | _ => none

end Operation

/-- An answered call. -/
structure Call where
  ambient : Ambient
  operation : Operation
  reply : Except PyException Reply

/-- The identifiers that a call would give to a new session and to a new run are
not in use; `uuid4` does not repeat. -/
def Ambient.Fresh (ambient : Ambient) (store : InMemorySessionStore) : Prop :=
  store.sessions.get? (ambient.uuid4 0) = none ∧ store.runs.get? (ambient.uuid4 1) = none

instance (ambient : Ambient) (store : InMemorySessionStore) : Decidable (ambient.Fresh store) :=
  decidable_of_iff ((store.sessions.get? (ambient.uuid4 0)).isNone ∧
    (store.runs.get? (ambient.uuid4 1)).isNone) (by simp [Ambient.Fresh])

namespace InMemorySessionStore

/-- One answered call moves the store from one state to the next. -/
def Answers (before : InMemorySessionStore) (call : Call) (after : InMemorySessionStore) : Prop :=
  call.ambient.Fresh before ∧ call.operation.perform call.ambient before = (call.reply, after)

/-- A finite history of calls, in the order in which they took the store lock. -/
abbrev History := Run Answers

def Reachable (store : InMemorySessionStore) : Prop := ∃ calls, History empty calls store

/-- Perform a script of operations and record the answers. -/
def execute (store : InMemorySessionStore) :
    List (Ambient × Operation) → List Call × InMemorySessionStore
  | [] => ([], store)
  | (ambient, operation) :: rest =>
    let answer := operation.perform ambient store
    let (calls, final) := execute answer.2 rest
    ({ ambient, operation, reply := answer.1 } :: calls, final)

/-- Every call of a script draws unused identifiers. -/
def FreshScript (store : InMemorySessionStore) : List (Ambient × Operation) → Prop
  | [] => True
  | (ambient, operation) :: rest =>
    ambient.Fresh store ∧ FreshScript (operation.perform ambient store).2 rest

instance decideFreshScript (store : InMemorySessionStore) :
    (script : List (Ambient × Operation)) → Decidable (FreshScript store script)
  | [] => inferInstanceAs (Decidable True)
  | (ambient, operation) :: rest =>
    have := decideFreshScript (operation.perform ambient store).2 rest
    inferInstanceAs (Decidable (_ ∧ _))

theorem execute_history (script : List (Ambient × Operation)) (store : InMemorySessionStore)
    (fresh : FreshScript store script) :
    History store (execute store script).1 (execute store script).2 := by
  induction script generalizing store with
  | nil => exact .nil
  | cons entry rest ih => exact .cons ⟨fresh.1, rfl⟩ (ih _ fresh.2)

end InMemorySessionStore

/-- Surroundings that hand out two identifiers and a ticking clock. -/
def Ambient.sample (first second : String) : Ambient where
  uuid4 index := if index = 0 then first else second
  utcNow index := index

def ReserveRunRequest.sample (sessionId idempotencyKey : Option String) (requestHash : String) :
    ReserveRunRequest :=
  { sessionId, sessionMetadata := [], userId := none, idempotencyKey, requestHash
    requestId := "request", traceId := "trace", provider := "fake", model := "model"
    workerInstanceId := "worker", runMetadata := [] }

def CommitRunRequest.sample : CommitRunRequest :=
  { userContent := "level?", userMetadata := [], assistantContent := "high"
    assistantMetadata := []
    result :=
      { requestId := "request", runId := some "run", traceId := some "trace", sessionId := "lake"
        agent := "supervisor", content := "high", status := .success, usage := .empty
        toolCalls := [], warnings := [], metadata := [] } }

/-- One session and one turn in it, from the reservation to the commit. -/
def sampleTurn : List (Ambient × Operation) :=
  [(.sample "a" "a", .createSession none (some "lake") none),
   (.sample "b" "run", .reserveRun (.sample (some "lake") (some "key") "hash")),
   (.sample "c" "c", .markRunRunning "run" "worker"),
   (.sample "d" "d", .commitRunSuccess "run" .sample)]

end DayuAgent
