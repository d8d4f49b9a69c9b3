import DayuAgent.Json

namespace DayuAgent

inductive AgentStatus where
  | success
  | failed
  | blocked
  | partialSuccess
  deriving Repr, DecidableEq

def AgentStatus.value : AgentStatus → String
  | .success => "success"
  | .failed => "failed"
  | .blocked => "blocked"
  | .partialSuccess => "partial"

/-- Usage counters. The validator of the source fills a missing total, so a zero
total means that both directions are zero. -/
structure TokenUsage where
  requests : Nat
  inputTokens : Nat
  outputTokens : Nat
  totalTokens : Nat
  normalized : totalTokens = 0 → inputTokens = 0 ∧ outputTokens = 0

/-- `TokenUsage.normalize_total`. -/
def TokenUsage.normalizeTotal (requests inputTokens outputTokens totalTokens : Nat) :
    TokenUsage where
  requests := requests
  inputTokens := inputTokens
  outputTokens := outputTokens
  totalTokens := if totalTokens = 0 then inputTokens + outputTokens else totalTokens
  normalized := by
    intro zero
    split at zero
    · omega
    · contradiction

def TokenUsage.empty : TokenUsage := normalizeTotal 0 0 0 0

def TokenUsage.modelDump (usage : TokenUsage) : JsonObject :=
  [("requests", .int usage.requests), ("input_tokens", .int usage.inputTokens),
   ("output_tokens", .int usage.outputTokens), ("total_tokens", .int usage.totalTokens)]

structure ToolCallRecord where
  name : String
  status : AgentStatus
  durationMs : String
  output : Option JsonObject
  errorCode : Option String

structure AgentResult where
  requestId : String
  runId : Option String
  traceId : Option String
  sessionId : String
  agent : String
  content : String
  status : AgentStatus
  usage : TokenUsage
  toolCalls : List ToolCallRecord
  warnings : List String
  metadata : JsonObject

/-- An optional field dumps to its value or to null. -/
def Json.ofOption (encode : α → Json) : Option α → Json
  | some value => encode value
  | none => .null

def ToolCallRecord.modelDump (call : ToolCallRecord) : JsonObject :=
  [("name", .str call.name), ("status", .str call.status.value),
   ("duration_ms", .float call.durationMs), ("output", .ofOption .obj call.output),
   ("error_code", .ofOption .str call.errorCode)]

/-- `model_dump(mode="json")`. -/
def AgentResult.modelDump (result : AgentResult) : JsonObject :=
  [("request_id", .str result.requestId), ("run_id", .ofOption .str result.runId),
   ("trace_id", .ofOption .str result.traceId), ("session_id", .str result.sessionId),
   ("agent", .str result.agent), ("content", .str result.content),
   ("status", .str result.status.value), ("usage", .obj result.usage.modelDump),
   ("tool_calls", .arr (result.toolCalls.map fun call => .obj call.modelDump)),
   ("warnings", .arr (result.warnings.map .str)), ("metadata", .obj result.metadata)]

/-! `model_validate` on the types that a JSON dump carries. -/

def AgentStatus.ofValue : String → Option AgentStatus
  | "success" => some .success
  | "failed" => some .failed
  | "blocked" => some .blocked
  | "partial" => some .partialSuccess
  | _ => none

@[simp] theorem AgentStatus.ofValue_value (status : AgentStatus) :
    ofValue status.value = some status := by cases status <;> rfl

def Json.string? : Json → Option String
  | .str value => some value
  | _ => none

namespace JsonObject

def text (object : JsonObject) (key : String) : Option String :=
  (object.lookup key).bind Json.string?

/-- A field of type `str | None` with the default `None`. -/
def optionalText (object : JsonObject) (key : String) : Option (Option String) :=
  match object.lookup key with
  | some (.str value) => some (some value)
  | some .null | none => some none
  | _ => none

/-- A counter with `ge=0` and the default zero. -/
def counter (object : JsonObject) (key : String) : Option Nat :=
  match object.lookup key with
  | some (.int value) => if 0 ≤ value then some value.toNat else none
  | none => some 0
  | _ => none

end JsonObject

def TokenUsage.modelValidate (object : JsonObject) : Option TokenUsage := do
  return normalizeTotal (← JsonObject.counter object "requests")
    (← JsonObject.counter object "input_tokens") (← JsonObject.counter object "output_tokens")
    (← JsonObject.counter object "total_tokens")

theorem TokenUsage.modelValidate_modelDump (usage : TokenUsage) :
    modelValidate usage.modelDump = some usage := by
  obtain ⟨requests, inputTokens, outputTokens, totalTokens, normalized⟩ := usage
  simp [modelValidate, modelDump, JsonObject.counter, List.lookup_cons, normalizeTotal]
  intro zero
  obtain ⟨rfl, rfl⟩ := normalized zero
  exact zero.symm

def ToolCallRecord.modelValidate : Json → Option ToolCallRecord
  | .obj object => do
    let durationMs ← match object.lookup "duration_ms" with
      | some (.float printed) => some printed
      | _ => none
    let output ← match object.lookup "output" with
      | some (.obj output) => some (some output)
      | some .null | none => some none
      | _ => none
    return {
      name := ← JsonObject.text object "name"
      status := ← (← JsonObject.text object "status") |> AgentStatus.ofValue
      durationMs, output
      errorCode := ← JsonObject.optionalText object "error_code" }
  | _ => none

private theorem ToolCallRecord.modelValidate_modelDump (call : ToolCallRecord) :
    modelValidate (.obj call.modelDump) = some call := by
  obtain ⟨name, status, durationMs, output, errorCode⟩ := call
  cases output <;> cases errorCode <;>
    simp [modelValidate, modelDump, JsonObject.text, JsonObject.optionalText, List.lookup_cons,
      Json.string?, Json.ofOption]

private theorem mapM_inverse {encode : α → β} {decode : β → Option α}
    (inverse : ∀ value, decode (encode value) = some value) (values : List α) :
    (values.map encode).mapM decode = some values := by
  induction values with
  | nil => rfl
  | cons value rest ih => simp [inverse, ih]

def AgentResult.modelValidate (object : JsonObject) : Option AgentResult := do
  let usage ← match object.lookup "usage" with
    | some (.obj usage) => TokenUsage.modelValidate usage
    | none => some .empty
    | _ => none
  let toolCalls ← match object.lookup "tool_calls" with
    | some (.arr calls) => calls.mapM ToolCallRecord.modelValidate
    | none => some []
    | _ => none
  let warnings ← match object.lookup "warnings" with
    | some (.arr warnings) => warnings.mapM Json.string?
    | none => some []
    | _ => none
  let metadata ← match object.lookup "metadata" with
    | some (.obj metadata) => some metadata
    | none => some []
    | _ => none
  return {
    requestId := ← JsonObject.text object "request_id"
    runId := ← JsonObject.optionalText object "run_id"
    traceId := ← JsonObject.optionalText object "trace_id"
    sessionId := ← JsonObject.text object "session_id"
    agent := ← JsonObject.text object "agent"
    content := ← JsonObject.text object "content"
    status := ← (← JsonObject.text object "status") |> AgentStatus.ofValue
    usage, toolCalls, warnings, metadata }

/-- What a stored result validates to is the result that was dumped. -/
theorem AgentResult.modelValidate_modelDump (result : AgentResult) :
    modelValidate result.modelDump = some result := by
  obtain ⟨requestId, runId, traceId, sessionId, agent, content, status, usage, toolCalls,
    warnings, metadata⟩ := result
  have calls := mapM_inverse ToolCallRecord.modelValidate_modelDump toolCalls
  have texts := mapM_inverse (fun _ => rfl : ∀ value, (Json.str value).string? = some value)
    warnings
  cases runId <;> cases traceId <;>
    simp [modelValidate, modelDump, JsonObject.text, JsonObject.optionalText, List.lookup_cons,
      Json.string?, Json.ofOption, calls, texts, TokenUsage.modelValidate_modelDump,
      -List.mapM_map]

end DayuAgent
