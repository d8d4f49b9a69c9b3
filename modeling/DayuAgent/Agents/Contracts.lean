import Mathlib.Algebra.Order.Ring.Rat
import DayuAgent.Exceptions
import DayuAgent.Runtime.Result
import DayuAgent.Runtime.Retry

namespace DayuAgent

structure AgentContext where
  requestId : String
  runId : Option String
  traceId : String
  sessionId : String
  userId : Option String
  agentName : String
  metadata : JsonObject

/-- The roles of the provider boundary. -/
inductive ProviderRole where
  | user
  | assistant
  deriving Repr, DecidableEq

structure ProviderMessage where
  role : ProviderRole
  content : String
  deriving Repr, DecidableEq

structure ProviderRequest where
  context : AgentContext
  messages : List ProviderMessage

structure ProviderResponse where
  content : String
  usage : TokenUsage

structure ProviderStreamEvent where
  delta : Option String
  response : Option ProviderResponse
  done : Bool

structure GuardrailDecision where
  allowed : Bool
  reason : Option String

structure ToolExecutionResult where
  name : String
  output : JsonObject
  durationMs : String

/-- What a provider, a guardrail or a tool can raise: a domain error, a timeout or any
other `Exception`. None of them raises a `CancelledError` of its own. -/
inductive Failure where
  | domain (error : DayuAgentError)
  | timeout
  | other (type : String)

def timeoutError : PyException := .other "TimeoutError"

def Failure.exception : Failure → PyException
  | .domain error => .domain error
  | .timeout => timeoutError
  | .other type => .other type

/-- The standard library functions whose values the supervisor passes on unread. -/
structure Codec where
  loads : String → Option Json
  dumps : JsonObject → String
  requestHash : String → Option String → Option String → JsonObject → String
  rounded : ℚ → String

/-- What a supervisor is constructed with; guardrails are counted, their verdicts come
from outside. -/
structure Config where
  workerInstanceId : String
  provider : String
  modelName : String
  retryBudget : RetryBudget
  streamEventRetentionSeconds : Nat
  inputGuardrails : Nat
  outputGuardrails : Nat
  toolGuardrails : Nat
  tools : List String
  codec : Codec

def Config.name (_ : Config) : String := "SupervisorAgent"

/-- `{"provider": ..., "model": ...}`. -/
def Config.origin (config : Config) : JsonObject :=
  [("provider", .str config.provider), ("model", .str config.modelName)]

/-- One call of a method of `RuntimeMetrics`. -/
inductive Metric where
  | runStarted
  | runFinished (durationSeconds : ℚ) (failed cancelled : Bool)
  | providerAttempt
  | providerRetry
  deriving DecidableEq

structure RuntimeMetrics where
  agentRunsTotal : Nat
  agentRunsFailed : Nat
  agentRunsCancelled : Nat
  providerAttemptsTotal : Nat
  providerRetriesTotal : Nat
  agentRunDurationCount : Nat
  agentRunDurationSumSeconds : ℚ
  activeRuns : Nat

namespace RuntimeMetrics

def zero : RuntimeMetrics := ⟨0, 0, 0, 0, 0, 0, 0, 0⟩

/-- The gauge of active runs stops at zero, as `max(0, active - 1)`. -/
def observe (metrics : RuntimeMetrics) : Metric → RuntimeMetrics
  | .runStarted =>
    { metrics with
      agentRunsTotal := metrics.agentRunsTotal + 1, activeRuns := metrics.activeRuns + 1 }
  | .runFinished durationSeconds failed cancelled =>
    { metrics with
      activeRuns := metrics.activeRuns - 1
      agentRunDurationCount := metrics.agentRunDurationCount + 1
      agentRunDurationSumSeconds := metrics.agentRunDurationSumSeconds + max 0 durationSeconds
      agentRunsFailed := metrics.agentRunsFailed + failed.toNat
      agentRunsCancelled := metrics.agentRunsCancelled + cancelled.toNat }
  | .providerAttempt =>
    { metrics with providerAttemptsTotal := metrics.providerAttemptsTotal + 1 }
  | .providerRetry => { metrics with providerRetriesTotal := metrics.providerRetriesTotal + 1 }

end RuntimeMetrics

end DayuAgent
