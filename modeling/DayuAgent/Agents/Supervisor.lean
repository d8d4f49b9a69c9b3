import DayuAgent.Agents.Task

namespace DayuAgent

open Library
open InMemorySessionStore (chosenId)

/-- The arguments of `_start` after its synchronous prefix. -/
structure StartRequest where
  content : String
  sessionId : Option String
  userId : Option String
  metadata : JsonObject
  requestId : String
  traceId : String
  idempotencyKey : Option String
  streaming : Bool

/-- The await at which a method call is suspended, or how it ended. -/
inductive CallPhase where
  | checkingInput (start : StartRequest) (remaining : Nat)
  | reserving (start : StartRequest)
  | accepted (run : AgentRun)
  | joining (runId : String) (task : Nat)
  | polling (runId : String)
  | dozing (runId : String)
  | delivered (runId : String) (joined : Option Nat) (outcome : Except PyException AgentResult)
  | cancelling (runId : String)
  | stopping (outcome : CancelResult) (task : Nat)
  | cancelled (outcome : CancelResult)
  | interrupting
  | gathering (tasks : List Nat) (interrupted : Nat)
  | stopped (interrupted : Nat)
  | initializing
  | reconciling
  | pruning (before : Time) (interrupted : Nat)
  | initialized (interrupted : Nat)
  | raised (error : PyException)

structure MethodCall where
  phase : CallPhase
  answer : Option (Except PyException Reply)

def StartRequest.provisional (start : StartRequest) (config : Config) : AgentContext :=
  { requestId := start.requestId, runId := none, traceId := start.traceId
    sessionId := chosenId start.sessionId "unassigned", userId := start.userId
    agentName := config.name, metadata := start.metadata }

/-- The keyword arguments of `reserve_run`. -/
def StartRequest.reservation (start : StartRequest) (config : Config) : ReserveRunRequest :=
  { sessionId := start.sessionId, sessionMetadata := start.metadata, userId := start.userId
    idempotencyKey := start.idempotencyKey
    requestHash :=
      config.codec.requestHash start.content start.sessionId start.userId start.metadata
    requestId := start.requestId, traceId := start.traceId, provider := config.provider
    model := config.modelName, workerInstanceId := config.workerInstanceId
    runMetadata := [("streaming", .bool start.streaming)] }

def CallPhase.operation (config : Config) : CallPhase → Option Operation
  | .reserving start => some (.reserveRun (start.reservation config))
  | .polling runId => some (.getRun runId)
  | .cancelling runId => some (.cancelRun runId config.workerInstanceId)
  | .interrupting => some (.interruptWorkerRuns config.workerInstanceId)
  | .initializing => some .initializeStore
  | .reconciling => some (.reconcileOrphanedRuns config.workerInstanceId)
  | .pruning before _ => some (.pruneStreamEvents before)
  | _ => none

inductive Method where
  | run (message : String) (sessionId userId : Option String) (metadata : Option JsonObject)
      (requestId idempotencyKey : Option String)
  | startStream (message : String) (sessionId userId : Option String)
      (metadata : Option JsonObject) (requestId idempotencyKey : Option String)
  | cancel (runId : String)
  | shutdown
  | initializeSupervisor

/-- `tasks` lists every task ever created, `registry` is the table `_tasks`. -/
structure Supervisor where
  config : Config
  accepting : Bool
  registry : Dict String Nat
  tasks : List Task
  calls : List MethodCall
  metrics : RuntimeMetrics

namespace Supervisor

def new (config : Config) : Supervisor :=
  { config, accepting := true, registry := .empty, tasks := [], calls := []
    metrics := .zero }

section Methods

variable (supervisor : Supervisor)

def settle (index : Nat) (phase : CallPhase) : Supervisor :=
  { supervisor with calls := supervisor.calls.set index { phase, answer := none } }

def begin (phase : CallPhase) : Supervisor :=
  { supervisor with calls := supervisor.calls ++ [{ phase, answer := none }] }

/-- `_check_input`, up to its next evaluation or to the reservation. -/
def checkInput (start : StartRequest) (remaining : Nat) : CallPhase :=
  if remaining = 0 then .reserving start else .checkingInput start remaining

def startPhase (message : String) (sessionId userId : Option String)
    (metadata : Option JsonObject) (requestId idempotencyKey : Option String) (streaming : Bool)
    (ambient : Ambient) : CallPhase :=
  if ¬ supervisor.accepting then .raised (.domain (.new .runtimeUnavailableError none none))
  else checkInput
    { content := strip message, sessionId, userId, metadata := metadata.getD []
      requestId := chosenId requestId (ambient.uuid4 0), traceId := ambient.uuid4 1
      idempotencyKey, streaming } supervisor.config.inputGuardrails

/-- A method call up to its first await. -/
def invoke (method : Method) (ambient : Ambient) : Supervisor :=
  match method with
  | .run message sessionId userId metadata requestId idempotencyKey =>
    supervisor.begin (supervisor.startPhase message sessionId userId metadata requestId
      idempotencyKey false ambient)
  | .startStream message sessionId userId metadata requestId idempotencyKey =>
    supervisor.begin (supervisor.startPhase message sessionId userId metadata requestId
      idempotencyKey true ambient)
  | .cancel runId => supervisor.begin (.cancelling runId)
  | .shutdown => { supervisor with accepting := false }.begin .interrupting
  | .initializeSupervisor => supervisor.begin .initializing

/-- `asyncio.create_task` for an owned reservation, entered into `_tasks`. -/
def createTask (start : StartRequest) (run : AgentRun) : Supervisor :=
  let context := { start.provisional supervisor.config with
    sessionId := run.sessionId, runId := some run.id }
  { supervisor with
    metrics := supervisor.metrics.observe .runStarted
    tasks := supervisor.tasks ++
      [.new run context start.content start.metadata start.streaming]
    registry := supervisor.registry.set run.id supervisor.tasks.length }

/-- `_wait_for_result` up to its first await: the local task or the store. -/
def waitForResult (runId : String) : CallPhase :=
  match supervisor.registry.get? runId with
  | some task => .joining runId task
  | none => .polling runId

/-- `_start` and its caller after `reserve_run` has answered. -/
def reserved (index : Nat) (start : StartRequest) (reservation : RunReservation) : Supervisor :=
  let owning :=
    if reservation.ownsExecution then supervisor.createTask start reservation.run
    else supervisor
  owning.settle index
    (if start.streaming then .accepted reservation.run
      else owning.waitForResult reservation.run.id)

def polled (runId : String) (run : AgentRun) : CallPhase :=
  match run.status, run.result with
  | .completed, some stored =>
    .delivered runId none (match AgentResult.modelValidate stored with
      | some result => .ok result
      | none => .error (.other "ValidationError"))
  | .cancelled, _ =>
    .delivered runId none (.error (.of .runCancelledError [("run_id", .str run.id)]))
  | .interrupted, _ =>
    .delivered runId none (.error (.of .runInterruptedError [("run_id", .str run.id)]))
  | .failed, _ => .delivered runId none (.error (.domain (.new .runError
      (some "The idempotent agent run previously failed.")
      (some [("run_id", .str run.id), ("error_code", .ofOption .str run.errorCode)]))))
  | _, _ => .dozing runId

def cancelTask (task : Nat) : Supervisor :=
  { supervisor with tasks := supervisor.tasks.modify task Task.cancel }

def TaskDone (task : Nat) : Prop := ∃ found, supervisor.tasks[task]? = some found ∧ found.Done

instance (task : Nat) : Decidable (supervisor.TaskDone task) :=
  decidable_of_iff ((supervisor.tasks[task]?).any fun found => found.Done) (by
    cases found : supervisor.tasks[task]? <;> simp [TaskDone, found])

def signal (index : Nat) (runId : String) (outcome : CancelResult) : Supervisor :=
  if outcome.run.status = .cancelled then
    match supervisor.registry.get? runId with
    | some task =>
      if supervisor.TaskDone task then supervisor.settle index (.cancelled outcome)
      else (supervisor.cancelTask task).settle index (.stopping outcome task)
    | none => supervisor.settle index (.cancelled outcome)
  else supervisor.settle index (.cancelled outcome)

/-- `shutdown` after the store has answered: snapshot, cancel and gather. -/
def drain (index : Nat) (interrupted : Nat) : Supervisor :=
  let tasks := supervisor.registry.values
  if tasks = [] then supervisor.settle index (.stopped interrupted)
  else (tasks.foldl cancelTask supervisor).settle index (.gathering tasks interrupted)

/-- Go on with a method call after an answered store call. -/
def answered (index : Nat) (phase : CallPhase) (reply : Except PyException Reply)
    (clock : Clock) : Option Supervisor :=
  match phase, reply with
  | .reserving start, .ok (.reservation reservation) =>
    some (supervisor.reserved index start reservation)
  | .polling runId, .ok (.run run) => some (supervisor.settle index (polled runId run))
  | .polling runId, .error error =>
    some (supervisor.settle index (.delivered runId none (.error error)))
  | .cancelling runId, .ok (.cancel outcome) => some (supervisor.signal index runId outcome)
  | .interrupting, .ok (.count interrupted) => some (supervisor.drain index interrupted)
  | .initializing, .ok _ => some (supervisor.settle index .reconciling)
  | .reconciling, .ok (.count interrupted) => some (supervisor.settle index
      (.pruning (clock.utcNow - supervisor.config.streamEventRetentionSeconds) interrupted))
  | .pruning _ interrupted, .ok _ =>
    some ({ supervisor with accepting := true }.settle index (.initialized interrupted))
  | _, .error error => some (supervisor.settle index (.raised error))
  | _, _ => none

def informed (index : Nat) (phase : CallPhase) (input : Input) : Option Supervisor :=
  match phase, input with
  | .checkingInput start remaining, .decision (.ok decision) =>
    some (supervisor.settle index
      (if decision.allowed then checkInput start (remaining - 1)
        else .raised (.domain (.new .guardrailError decision.reason none))))
  | .checkingInput _ _, .decision (.error failure) =>
    some (supervisor.settle index (.raised failure.exception))
  | .joining runId task, .wake =>
    match (supervisor.tasks[task]?).bind Task.outcome with
    | some outcome => some (supervisor.settle index (.delivered runId (some task) outcome))
    | none => none
  | .dozing runId, .wake => some (supervisor.settle index (.polling runId))
  | .stopping outcome task, .wake =>
    if supervisor.TaskDone task then some (supervisor.settle index (.cancelled outcome))
    else none
  | .gathering tasks interrupted, .wake =>
    if ∀ task ∈ tasks, supervisor.TaskDone task then
      some (supervisor.settle index (.stopped interrupted))
    else none
  | _, _ => none

def resumeCall (index : Nat) (input : Input) (clock : Clock) : Option Supervisor :=
  match supervisor.calls[index]? with
  | none => none
  | some call =>
    match input, call.answer with
    | .wake, some reply => supervisor.answered index call.phase reply clock
    | _, _ => supervisor.informed index call.phase input

def resumeTask (index : Nat) (input : Input) (clock : Clock) : Option Supervisor :=
  match supervisor.tasks[index]? with
  | none => none
  | some task => (task.resume supervisor.config input clock).map fun resumed =>
    { supervisor with
      tasks := supervisor.tasks.set index resumed.task
      metrics := resumed.metrics.foldl RuntimeMetrics.observe supervisor.metrics }

/-- The done callback of a finished task. -/
def taskDone (index : Nat) : Option Supervisor :=
  match supervisor.tasks[index]? with
  | none => none
  | some task =>
    if task.Done then some { supervisor with registry := supervisor.registry.erase task.run.id }
    else none

end Methods

end Supervisor

end DayuAgent
