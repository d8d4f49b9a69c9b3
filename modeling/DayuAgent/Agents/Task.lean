import DayuAgent.Agents.ToolGrammar
import DayuAgent.Memory.Operation

/-! The owned task of one run: `_execute_owned` and the coroutines it awaits, with one
phase for every await. -/

namespace DayuAgent

open Library

/-- The local variables of the retry loop during one attempt. -/
structure Attempt where
  started : ℚ
  attemptCount : Nat
  emittedDelta : Bool
  finalResponse : Option ProviderResponse

/-- The await at which a task is suspended. -/
inductive Phase where
  | created
  | marking
  | guardingTool (name : String) (payload : JsonObject) (remaining : Nat)
  | executingTool (name : String) (payload : JsonObject)
  | loading
  | incrementing (started : ℚ)
  | calling (attempt : Attempt)
  | streaming (attempt : Attempt)
  | persisting (attempt : Attempt) (event : ProviderStreamEvent) (delta : String)
  | sleeping (started : ℚ)
  | checkingOutput (result : AgentResult) (remaining : Nat)
  | committing (result : AgentResult)
  | cancelling
  | failing (error : PyException) (errorCode : String)
  | finished (outcome : Except PyException AgentResult)

/-- What an await outside the store hands back. -/
inductive Input where
  | wake
  | decision (verdict : Except Failure GuardrailDecision)
  | executed (result : Except Failure ToolExecutionResult)
  | response (result : Except Failure ProviderResponse)
  | event (next : Except Failure (Option ProviderStreamEvent))
  | timeout

structure Clock where
  monotonic : ℚ
  randomValue : ℚ
  utcNow : Time

/-- One asyncio task. A store call is answered before the task is resumed, and a
requested cancellation is delivered at the next resumption. -/
structure Task where
  run : AgentRun
  context : AgentContext
  userContent : String
  userMetadata : JsonObject
  streams : Bool
  started : ℚ
  request : Option ProviderRequest
  phase : Phase
  answer : Option (Except PyException Reply)
  cancelRequested : Bool

/-- A task after one resumption, and the metrics it has reported meanwhile. -/
structure Resumed where
  task : Task
  metrics : List Metric := []

namespace Task

def outcome (task : Task) : Option (Except PyException AgentResult) :=
  match task.phase with
  | .finished outcome => some outcome
  | _ => none

def Done (task : Task) : Prop := task.outcome.isSome

instance (task : Task) : Decidable task.Done := inferInstanceAs (Decidable (_ = true))

/-- The coroutine of a newly reserved run, before its first step. -/
def new (run : AgentRun) (context : AgentContext) (userContent : String)
    (userMetadata : JsonObject) (streams : Bool) : Task :=
  { run, context, userContent, userMetadata, streams, started := 0, request := none
    phase := .created, answer := none, cancelRequested := false }

/-- `task.cancel()`; a finished task ignores it. -/
def cancel (task : Task) : Task :=
  if task.Done then task else { task with cancelRequested := true }

/-- Suspend at the next await; a store call that was under way is given up. -/
def enter (task : Task) (phase : Phase) : Task := { task with phase, answer := none }

section Execution

variable (config : Config)

def operation (task : Task) : Option Operation :=
  match task.phase with
  | .marking => some (.markRunRunning task.run.id config.workerInstanceId)
  | .loading => some (.listMessages task.context.sessionId)
  | .incrementing _ => some (.incrementRunAttempt task.run.id)
  | .persisting _ _ delta =>
    some (.appendStreamEvent task.run.id .responseDelta [("delta", .str delta)])
  | .committing result => some (.commitRunSuccess task.run.id
      { userContent := task.userContent, userMetadata := task.userMetadata
        assistantContent := result.content, assistantMetadata := config.origin, result })
  | .cancelling => some (.cancelRun task.run.id config.workerInstanceId)
  | .failing _ errorCode => some (.failRun task.run.id errorCode)
  | _ => none

/-- The `except` clauses around the body. -/
def except (task : Task) (error : PyException) : Task :=
  match error with
  | .cancelled => task.enter .cancelling
  | .domain domain => task.enter (.failing error domain.errorCode)
  | .keyError _ | .other _ =>
    task.enter (.failing (.of .providerError config.origin) ErrorClass.providerError.errorCode)

/-- A loop over guardrails, up to its next evaluation or to its end. -/
def guarded (task : Task) (remaining : Nat) (waiting : Nat → Phase) (passed : Phase) : Task :=
  task.enter (if remaining = 0 then passed else waiting remaining)

def decided (task : Task) (verdict : Except Failure GuardrailDecision) (remaining : Nat)
    (waiting : Nat → Phase) (passed : Phase) : Task :=
  match verdict with
  | .error failure => task.except config failure.exception
  | .ok decision =>
    if decision.allowed then task.guarded (remaining - 1) waiting passed
    else task.except config (.domain (.new .guardrailError decision.reason none))

def checkOutput (task : Task) (result : AgentResult) : Task :=
  task.guarded config.outputGuardrails (.checkingOutput result) (.committing result)

def runTool (task : Task) (name : String) (payload : JsonObject) : Task :=
  if name ∈ config.tools then
    task.guarded config.toolGuardrails (.guardingTool name payload) (.executingTool name payload)
  else task.except config (.of .toolNotFoundError [("tool_name", .str name)])

def dispatch (task : Task) : Task :=
  match parseToolCommand config.codec task.userContent with
  | .error error => task.except config error
  | .ok (some (name, payload)) => task.runTool config name payload
  | .ok none => task.enter .loading

/-- The result both paths share but for content, usage and tool calls. -/
def successResult (task : Task) (content : String) (usage : TokenUsage)
    (toolCalls : List ToolCallRecord) : AgentResult :=
  { requestId := task.context.requestId, runId := task.context.runId
    traceId := some task.context.traceId, sessionId := task.context.sessionId
    agent := config.name, content, status := .success, usage, toolCalls, warnings := []
    metadata := config.origin }

def toolResult (task : Task) (name : String) (execution : ToolExecutionResult) : AgentResult :=
  task.successResult config (config.codec.dumps execution.output) .empty
    [{ name, status := .success, durationMs := execution.durationMs
       output := some execution.output, errorCode := none }]

def resultFromProvider (task : Task) (response : ProviderResponse) : AgentResult :=
  task.successResult config response.content response.usage []

def shown (message : AgentMessage) : ProviderMessage :=
  { role := if message.role = .user then .user else .assistant, content := message.content }

def providerRequest (task : Task) (history : List AgentMessage) : ProviderRequest :=
  { context := task.context
    messages := history.map shown ++ [{ role := .user, content := task.userContent }] }

/-- The end of a loop iteration: back off or give up. -/
def retry (task : Task) (attempt : Attempt) (error : DayuAgentError) (clock : Clock) : Resumed :=
  let elapsed := clock.monotonic - attempt.started
  let delay := config.retryBudget.delayAfter attempt.attemptCount clock.randomValue
  if config.retryBudget.permitsRetry attempt.attemptCount elapsed delay then
    { task := task.enter (.sleeping attempt.started), metrics := [.providerRetry] }
  else
    { task := task.except config (.of .retryBudgetExhaustedError
        [("attempt_count", .int attempt.attemptCount),
         ("elapsed_seconds", .float (config.codec.rounded elapsed)),
         ("last_error", .str error.errorCode)]) }

/-- The `except` clauses inside the retry loop. -/
def attemptFailed (task : Task) (attempt : Attempt) (error : PyException) (clock : Clock) :
    Resumed :=
  match error with
  | .domain domain =>
    if domain.cls.isProviderError then
      if attempt.emittedDelta ∨ ¬ domain.retryable then { task := task.except config error }
      else task.retry config attempt domain clock
    else { task := task.except config error }
  | .other "TimeoutError" =>
    let timeout := DayuAgentError.new .providerTimeoutError none (some config.origin)
    if attempt.emittedDelta then { task := task.except config (.domain timeout) }
    else task.retry config attempt timeout clock
  | _ => { task := task.except config error }

def startAttempt (task : Task) (started : ℚ) (durable : AgentRun) (clock : Clock) : Resumed :=
  let attempt : Attempt :=
    { started, attemptCount := durable.attemptCount, emittedDelta := false
      finalResponse := none }
  let next :=
    if config.retryBudget.maxElapsedSeconds - (clock.monotonic - started) ≤ 0 then
      task.attemptFailed config attempt (.of .retryBudgetExhaustedError
        [("attempt_count", .int durable.attemptCount)]) clock
    else { task := task.enter (if task.streams then .streaming attempt else .calling attempt) }
  { next with metrics := .providerAttempt :: next.metrics }

def afterEvent (task : Task) (attempt : Attempt) (event : ProviderStreamEvent) : Task :=
  task.enter (.streaming
    (if event.done then { attempt with finalResponse := event.response } else attempt))

def finish (task : Task) (outcome : Except PyException AgentResult) (clock : Clock)
    (failed cancelled : Bool) : Resumed :=
  { task := task.enter (.finished outcome)
    metrics := [.runFinished (clock.monotonic - task.started) failed cancelled] }

/-- Go on after an answered store call. -/
def answered (task : Task) (reply : Except PyException Reply) (clock : Clock) : Option Resumed :=
  match task.phase, reply with
  | .marking, .ok _ => some { task := task.dispatch config }
  | .loading, .ok (.messages history) => some
    { task := { task with request := some (task.providerRequest history) }.enter
        (.incrementing clock.monotonic) }
  | .incrementing started, .ok (.run durable) =>
    some (task.startAttempt config started durable clock)
  | .persisting attempt event _, .ok _ => some { task := task.afterEvent attempt event }
  | .persisting attempt _ _, .error error => some (task.attemptFailed config attempt error clock)
  | .committing result, .ok _ => some (task.finish (.ok result) clock false false)
  | .cancelling, .ok _ | .cancelling, .error (.domain _) =>
    some (task.finish (.error .cancelled) clock false true)
  | .failing error _, .ok _ => some (task.finish (.error error) clock true false)
  -- What an `except` clause raises is caught by none of its siblings.
  | .cancelling, .error error | .failing _ _, .error error =>
    some { task := task.enter (.finished (.error error)) }
  | .marking, .error error | .loading, .error error | .incrementing _, .error error
  | .committing _, .error error => some { task := task.except config error }
  | _, _ => none

def informed (task : Task) (input : Input) (clock : Clock) : Option Resumed :=
  match task.phase, input with
  | .created, .wake =>
    some { task := { task with started := clock.monotonic }.enter .marking }
  | .guardingTool name payload remaining, .decision verdict => some
    { task := task.decided config verdict remaining (.guardingTool name payload)
        (.executingTool name payload) }
  | .executingTool name _, .executed (.ok execution) =>
    some { task := task.checkOutput config (task.toolResult config name execution) }
  | .executingTool _ _, .executed (.error failure) =>
    some { task := task.except config failure.exception }
  | .calling _, .response (.ok response) =>
    some { task := task.checkOutput config (task.resultFromProvider config response) }
  | .calling attempt, .response (.error failure) | .streaming attempt, .event (.error failure) =>
    some (task.attemptFailed config attempt failure.exception clock)
  | .calling attempt, .timeout | .streaming attempt, .timeout | .persisting attempt _ _, .timeout =>
    some (task.attemptFailed config attempt timeoutError clock)
  | .streaming attempt, .event (.ok (some event)) =>
    match event.delta with
    | some delta => some
      { task := task.enter (.persisting { attempt with emittedDelta := true } event delta) }
    | none => some { task := task.afterEvent attempt event }
  | .streaming attempt, .event (.ok none) =>
    match attempt.finalResponse with
    | some response =>
      some { task := task.checkOutput config (task.resultFromProvider config response) }
    | none => some (task.attemptFailed config attempt (.domain (.new .providerError
        (some "The provider stream ended without a final response.") none)) clock)
  | .sleeping started, .wake => some { task := task.enter (.incrementing started) }
  | .checkingOutput result remaining, .decision verdict => some
    { task := task.decided config verdict remaining (.checkingOutput result)
        (.committing result) }
  | _, _ => none

/-- `CancelledError` at the await: before the body and inside a handler it ends the task. -/
def interrupted (task : Task) : Option Resumed :=
  let delivered := { task with cancelRequested := false }
  match task.phase with
  | .finished _ => none
  | .created | .cancelling | .failing _ _ =>
    some { task := delivered.enter (.finished (.error .cancelled)) }
  | _ => some { task := delivered.enter .cancelling }

def resume (task : Task) (input : Input) (clock : Clock) : Option Resumed :=
  if task.cancelRequested then task.interrupted
  else
    match input, task.answer with
    | .wake, some reply => task.answered config reply clock
    | _, _ => task.informed config input clock

end Execution

end Task

end DayuAgent
