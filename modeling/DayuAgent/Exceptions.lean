import DayuAgent.Json

namespace DayuAgent

inductive ErrorClass where
  | dayuAgentError
  | configurationError
  | providerError
  | providerUnavailableError
  | providerTimeoutError
  | retryBudgetExhaustedError
  | toolError
  | toolNotFoundError
  | toolConflictError
  | toolPermissionError
  | toolValidationError
  | toolTimeoutError
  | sessionError
  | sessionNotFoundError
  | sessionBusyError
  | runError
  | runNotFoundError
  | invalidRunTransitionError
  | idempotencyConflictError
  | runCancelledError
  | runInterruptedError
  | cancellationUnavailableError
  | runtimeUnavailableError
  | databaseUnavailableError
  | guardrailError
  deriving Repr, DecidableEq

namespace ErrorClass

def errorCode : ErrorClass → String
  | dayuAgentError => "DAYU_AGENT_ERROR"
  | configurationError => "CONFIGURATION_ERROR"
  | providerError => "PROVIDER_ERROR"
  | providerUnavailableError => "PROVIDER_UNAVAILABLE"
  | providerTimeoutError => "PROVIDER_TIMEOUT"
  | retryBudgetExhaustedError => "RETRY_BUDGET_EXHAUSTED"
  | toolError => "TOOL_ERROR"
  | toolNotFoundError => "TOOL_NOT_FOUND"
  | toolConflictError => "TOOL_NAME_CONFLICT"
  | toolPermissionError => "TOOL_PERMISSION_DENIED"
  | toolValidationError => "TOOL_VALIDATION_ERROR"
  | toolTimeoutError => "TOOL_TIMEOUT"
  | sessionError => "SESSION_ERROR"
  | sessionNotFoundError => "SESSION_NOT_FOUND"
  | sessionBusyError => "SESSION_BUSY"
  | runError => "RUN_ERROR"
  | runNotFoundError => "RUN_NOT_FOUND"
  | invalidRunTransitionError => "INVALID_RUN_TRANSITION"
  | idempotencyConflictError => "IDEMPOTENCY_CONFLICT"
  | runCancelledError => "RUN_CANCELLED"
  | runInterruptedError => "RUN_INTERRUPTED"
  | cancellationUnavailableError => "CANCELLATION_UNAVAILABLE"
  | runtimeUnavailableError => "RUNTIME_UNAVAILABLE"
  | databaseUnavailableError => "DATABASE_UNAVAILABLE"
  | guardrailError => "GUARDRAIL_BLOCKED"

def defaultMessage : ErrorClass → String
  | dayuAgentError => "Dayu Water Agent could not complete the request."
  | configurationError => "The agent runtime is not configured correctly."
  | providerError => "The model provider could not complete the request."
  | providerUnavailableError => "The model provider is temporarily unavailable."
  | providerTimeoutError => "The model provider attempt timed out."
  | retryBudgetExhaustedError => "The provider retry budget was exhausted."
  | toolError => "The tool could not complete the request."
  | toolNotFoundError => "The requested tool is not registered."
  | toolConflictError => "A tool with the same name is already registered."
  | toolPermissionError => "The requested tool is not permitted."
  | toolValidationError => "The tool input or output failed schema validation."
  | toolTimeoutError => "The tool exceeded its execution timeout."
  | sessionError => "The session operation failed."
  | sessionNotFoundError => "The requested session does not exist."
  | sessionBusyError => "The session already has an active run."
  | runError => "The agent run operation failed."
  | runNotFoundError => "The requested agent run does not exist."
  | invalidRunTransitionError => "The requested agent run transition is not allowed."
  | idempotencyConflictError => "The idempotency key is already bound to a different request."
  | runCancelledError => "The agent run was cancelled."
  | runInterruptedError => "The agent run was interrupted and was not replayed automatically."
  | cancellationUnavailableError => "This process does not own the active provider task."
  | runtimeUnavailableError => "The agent runtime is not accepting new runs."
  | databaseUnavailableError => "The configured runtime database is unavailable."
  | guardrailError => "A guardrail blocked the request."

/-- Subclasses of `ProviderError`, which one `except` clause catches together. -/
def isProviderError : ErrorClass → Bool
  | providerError | providerUnavailableError | providerTimeoutError
  | retryBudgetExhaustedError => true
  | _ => false

/-- Subclasses of `ToolError`. -/
def isToolError : ErrorClass → Bool
  | toolError | toolNotFoundError | toolConflictError | toolPermissionError
  | toolValidationError | toolTimeoutError => true
  | _ => false

/-- The retry classification fixed by the constructor of a provider error class. -/
def retryableByDefault : ErrorClass → Bool
  | providerUnavailableError | providerTimeoutError => true
  | _ => false

end ErrorClass

/-- A raised domain error. Only provider errors read `retryable`. -/
structure DayuAgentError where
  cls : ErrorClass
  message : String
  details : Option JsonObject
  retryable : Bool

namespace DayuAgentError

/-- The constructor: an absent or empty message falls back to the class text. -/
def new (cls : ErrorClass) (message : Option String) (details : Option JsonObject) :
    DayuAgentError :=
  { cls
    message := match message with
      | some text => if text = "" then cls.defaultMessage else text
      | none => cls.defaultMessage
    details
    retryable := cls.retryableByDefault }

def errorCode (error : DayuAgentError) : String := error.cls.errorCode

@[simp] theorem new_cls (cls : ErrorClass) (message : Option String)
    (details : Option JsonObject) : (new cls message details).cls = cls := rfl

end DayuAgentError

/-- What a Python call of this program can raise. -/
inductive PyException where
  | domain (error : DayuAgentError)
  | keyError (key : String)
  | other (type : String)
  | cancelled

/-- Raise a domain error with its class text and the given details. -/
def PyException.of (cls : ErrorClass) (details : JsonObject) : PyException :=
  .domain (.new cls none (some details))

end DayuAgent
