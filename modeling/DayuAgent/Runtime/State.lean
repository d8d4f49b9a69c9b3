import DayuAgent.Exceptions
import DayuAgent.Runtime.Result

namespace DayuAgent

/-- A clock reading. -/
abbrev Time := Nat

inductive MessageRole where
  | user
  | assistant
  deriving Repr, DecidableEq

structure AgentMessage where
  id : String
  sessionId : Option String
  runId : Option String
  role : MessageRole
  content : String
  sequence : Nat
  committed : Bool
  metadata : JsonObject
  createdAt : Time

structure SessionRecord where
  id : String
  userId : Option String
  status : String
  metadata : JsonObject
  version : Nat
  createdAt : Time
  updatedAt : Time

inductive RunStatus where
  | pending
  | running
  | completed
  | failed
  | cancelled
  | interrupted
  deriving Repr, DecidableEq

def RunStatus.value : RunStatus → String
  | .pending => "pending"
  | .running => "running"
  | .completed => "completed"
  | .failed => "failed"
  | .cancelled => "cancelled"
  | .interrupted => "interrupted"

def activeRunStatuses : List RunStatus := [.pending, .running]

def terminalRunStatuses : List RunStatus := [.completed, .failed, .cancelled, .interrupted]

def allowedRunTransitions : RunStatus → List RunStatus
  | .pending => [.running, .failed, .cancelled, .interrupted]
  | .running => [.completed, .failed, .cancelled, .interrupted]
  | _ => []

/-- Reject terminal rewrites and every transition absent from the table. -/
def validateRunTransition (current target : RunStatus) : Except PyException Unit :=
  if target ∈ allowedRunTransitions current then .ok ()
  else .error (.of .invalidRunTransitionError
    [("current_status", .str current.value), ("target_status", .str target.value)])

theorem active_or_terminal (status : RunStatus) :
    status ∈ activeRunStatuses ∨ status ∈ terminalRunStatuses := by
  cases status <;> decide

theorem not_active_iff_terminal (status : RunStatus) :
    status ∉ activeRunStatuses ↔ status ∈ terminalRunStatuses := by
  cases status <;> decide

theorem allowed_from_active (allowed : target ∈ allowedRunTransitions current) :
    current ∈ activeRunStatuses := by
  cases current <;> simp_all [allowedRunTransitions, activeRunStatuses]

/-- Terminal statuses have no outgoing transition. -/
theorem terminal_no_transition (terminal : current ∈ terminalRunStatuses)
    (target : RunStatus) : target ∉ allowedRunTransitions current := by
  intro allowed
  exact (not_active_iff_terminal current).mpr terminal (allowed_from_active allowed)

inductive StreamEventType where
  | runStarted
  | responseDelta
  | responseCompleted
  | runFailed
  | runCancelled
  | runInterrupted
  deriving Repr, DecidableEq

def StreamEventType.value : StreamEventType → String
  | .runStarted => "run.started"
  | .responseDelta => "response.delta"
  | .responseCompleted => "response.completed"
  | .runFailed => "run.failed"
  | .runCancelled => "run.cancelled"
  | .runInterrupted => "run.interrupted"

def terminalEventTypes : List StreamEventType :=
  [.responseCompleted, .runFailed, .runCancelled, .runInterrupted]

structure AgentRun where
  id : String
  requestId : String
  traceId : String
  sessionId : String
  idempotencyKey : Option String
  requestHash : String
  status : RunStatus
  provider : String
  model : String
  attemptCount : Nat
  workerInstanceId : String
  createdAt : Time
  startedAt : Option Time
  completedAt : Option Time
  usage : TokenUsage
  errorCode : Option String
  result : Option JsonObject
  metadata : JsonObject

def AgentRun.Active (run : AgentRun) : Prop := run.status ∈ activeRunStatuses

def AgentRun.Terminal (run : AgentRun) : Prop := run.status ∈ terminalRunStatuses

instance (run : AgentRun) : Decidable run.Active := inferInstanceAs (Decidable (_ ∈ _))

instance (run : AgentRun) : Decidable run.Terminal := inferInstanceAs (Decidable (_ ∈ _))

structure RunReservation where
  run : AgentRun
  ownsExecution : Bool

structure StreamEvent where
  id : String
  runId : String
  sequence : Nat
  type : StreamEventType
  createdAt : Time
  payload : JsonObject

inductive CancelDisposition where
  | cancelled
  | alreadyCancelled
  | alreadyTerminal
  deriving Repr, DecidableEq

structure CancelResult where
  run : AgentRun
  disposition : CancelDisposition

end DayuAgent
