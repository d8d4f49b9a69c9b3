import DayuAgent.Agents.Contracts
import DayuAgent.Library.Command
import DayuAgent.Library.Dict

namespace DayuAgent

open Library

inductive ToolPermission where
  | read
  | analyze
  | create
  | modify
  | execute
  | dangerous
  deriving Repr, DecidableEq

inductive ToolRiskLevel where
  | low
  | medium
  | high
  | dangerous
  deriving Repr, DecidableEq

def ToolPermission.value : ToolPermission → String
  | read => "READ"
  | analyze => "ANALYZE"
  | create => "CREATE"
  | modify => "MODIFY"
  | execute => "EXECUTE"
  | dangerous => "DANGEROUS"

def defaultAllowedPermissions : List ToolPermission := [.read, .analyze]

def confirmationRequiredPermissions : List ToolPermission := [.modify, .execute]

/-- A field annotated with a string enumeration. Only a check in the code makes sure that it
holds a member and not some other text. -/
inductive Declared (Member : Type) where
  | member (value : Member)
  | unknown (text : String)
  deriving DecidableEq

def Declared.isMember : Declared Member → Bool
  | .member _ => true
  | .unknown _ => false

/-- The string that a permission field compares and prints as. -/
def permissionText : Declared ToolPermission → String
  | .member permission => permission.value
  | .unknown text => text

/-- `tool.permission in permissions`, which compares strings. -/
def permitted (permission : Declared ToolPermission) (permissions : List ToolPermission) : Bool :=
  permissions.any fun granted => granted.value = permissionText permission

/-- One entry of `ValidationError.errors()` without its input. -/
structure ValidationItem where
  loc : List Json
  type : String
  msg : String

/-- What `model_validate` raises: a `ValidationError` or an exception of a custom validator. -/
inductive ValidationFailure where
  | invalid (errors : List ValidationItem)
  | other (error : PyException)

/-- A class that is given as a schema, over the Python values it validates. -/
structure ModelClass (Value : Type) where
  isBaseModel : Bool
  modelValidate : Value → Except ValidationFailure Value
  modelDump : Value → Except PyException JsonObject

/-- A tool's schemas and policy; its handler is a callable that the environment runs. -/
structure ToolDefinition (Value Handler : Type) where
  name : String
  inputModel : ModelClass Value
  outputModel : ModelClass Value
  permission : Declared ToolPermission
  riskLevel : Declared ToolRiskLevel
  timeoutSeconds : ℚ
  handler : Handler

def isLowercase (char : Char) : Bool := 'a' ≤ char ∧ char ≤ 'z'

/-- `[a-z][a-z0-9_]*` -/
def isNameSegment : List Char → Bool
  | [] => false
  | head :: tail => isLowercase head ∧
      tail.all fun char => isLowercase char ∨ ('0' ≤ char ∧ char ≤ '9') ∨ char = '_'

/-- A full match of `[a-z][a-z0-9_]*(?:\.[a-z][a-z0-9_]*)+`: no segment holds a dot. -/
def matchesToolName (name : String) : Bool :=
  let segments := name.toList.splitOn '.'
  2 ≤ segments.length ∧ segments.all isNameSegment

/-- A tool error with its own text and the name of the tool. -/
def toolRejected (cls : ErrorClass) (message name : String) : PyException :=
  .domain (.new cls (some message) (some [("tool_name", .str name)]))

namespace ToolDefinition

variable {Value Handler : Type} (tool : ToolDefinition Value Handler)

/-- The checks of `register` on the definition alone, in their order. -/
def objection : Option PyException :=
  if ¬ tool.permission.isMember then
    some (toolRejected .toolPermissionError "Unknown tool permission is denied." tool.name)
  else if ¬ tool.riskLevel.isMember then
    some (toolRejected .toolPermissionError "Unknown tool risk level is denied." tool.name)
  else if ¬ matchesToolName tool.name then
    some (toolRejected .toolValidationError
      "Tool names must use a dotted lowercase namespace." tool.name)
  else if tool.timeoutSeconds ≤ 0 then
    some (toolRejected .toolValidationError "Tool timeout must be greater than zero." tool.name)
  else if ¬ tool.inputModel.isBaseModel ∨ ¬ tool.outputModel.isBaseModel then
    some (toolRejected .toolValidationError
      "Tool input and output schemas must be Pydantic models." tool.name)
  else if tool.permission = .member .dangerous ∨ tool.riskLevel = .member .dangerous then
    some (toolRejected .toolPermissionError
      "Dangerous tools are prohibited in AGENT-PHASE-00." tool.name)
  else none

/-- What every registered definition satisfies. -/
structure Sound : Prop where
  permission : ∃ permission, permission ≠ .dangerous ∧ tool.permission = .member permission
  risk : ∃ risk, risk ≠ .dangerous ∧ tool.riskLevel = .member risk
  named : matchesToolName tool.name = true
  bounded : 0 < tool.timeoutSeconds
  schemas : tool.inputModel.isBaseModel = true ∧ tool.outputModel.isBaseModel = true

end ToolDefinition

private theorem Declared.exists_member {field : Declared Member} (known : field.isMember = true) :
    ∃ value, field = .member value := by
  cases field with
  | member value => exact ⟨value, rfl⟩
  | unknown text => simp [isMember] at known

private theorem clear_step {broken : Prop} [Decidable broken] {error : PyException}
    {rest : Option PyException} (clear : (if broken then some error else rest) = none) :
    ¬ broken ∧ rest = none := by
  by_cases met : broken
  · simp [met] at clear
  · exact ⟨met, by simpa [met] using clear⟩

theorem ToolDefinition.sound_of_clear {tool : ToolDefinition Value Handler}
    (clear : tool.objection = none) : tool.Sound := by
  obtain ⟨knownPermission, clear⟩ := clear_step clear
  obtain ⟨knownRisk, clear⟩ := clear_step clear
  obtain ⟨named, clear⟩ := clear_step clear
  obtain ⟨bounded, clear⟩ := clear_step clear
  obtain ⟨schemas, clear⟩ := clear_step clear
  obtain ⟨safe, _⟩ := clear_step clear
  obtain ⟨permission, hasPermission⟩ := Declared.exists_member (not_not.mp knownPermission)
  obtain ⟨risk, hasRisk⟩ := Declared.exists_member (not_not.mp knownRisk)
  rw [hasPermission, hasRisk] at safe
  constructor
  · exact ⟨permission, fun danger => safe (.inl (congrArg _ danger)), hasPermission⟩
  · exact ⟨risk, fun danger => safe (.inr (congrArg _ danger)), hasRisk⟩
  · exact not_not.mp named
  · exact not_le.mp bounded
  · simpa using schemas

/-- The tools by name: every entry passed the checks of `register` under its own name. -/
structure ToolRegistry (Value Handler : Type) where
  tools : Dict String (ToolDefinition Value Handler)
  defaultPermissions : List ToolPermission
  screened : ∀ name tool, tools.get? name = some tool → tool.name = name ∧ tool.objection = none

/-- A call that passed the checks of `execute` before its handler. -/
structure Invocation (Value Handler : Type) where
  name : String
  tool : ToolDefinition Value Handler
  input : Value

def toolNotFound (name : String) : PyException :=
  .of .toolNotFoundError [("tool_name", .str name)]

/-- `_safe_validation_errors` -/
def safeValidationErrors (errors : List ValidationItem) : Json :=
  .arr (errors.map fun item =>
    .obj [("location", .arr item.loc), ("type", .str item.type), ("message", .str item.msg)])

/-- What a failed `model_validate` leads to at a tool boundary. -/
def ValidationFailure.exception (name : String) (message : Option String) :
    ValidationFailure → PyException
  | .invalid errors => .domain (.new .toolValidationError message
      (some [("tool_name", .str name), ("errors", safeValidationErrors errors)]))
  | .other error => error

namespace ToolRegistry

variable {Value Handler : Type}

def new (defaultPermissions : List ToolPermission) : ToolRegistry Value Handler :=
  { tools := .empty, defaultPermissions, screened := by simp }

/-- `self._tools[tool.name] = tool` for a definition that passed every check. -/
def bind (registry : ToolRegistry Value Handler) (tool : ToolDefinition Value Handler)
    (clear : tool.objection = none) : ToolRegistry Value Handler :=
  { registry with
    tools := registry.tools.set tool.name tool
    screened := by
      intro name other found
      rw [Dict.get?_set] at found
      split at found
      · next same =>
        cases found
        exact ⟨same.symm, clear⟩
      · exact registry.screened name other found }

/-- `self._tools.pop(name)` -/
def drop (registry : ToolRegistry Value Handler) (name : String) : ToolRegistry Value Handler :=
  { registry with
    tools := registry.tools.erase name
    screened := by
      intro other tool found
      rw [Dict.get?_erase] at found
      split at found
      · contradiction
      · exact registry.screened other tool found }

def register (tool : ToolDefinition Value Handler) :
    Command (ToolRegistry Value Handler) PyException Unit := fun registry =>
  match clear : tool.objection with
  | some error => (.error error, registry)
  | none =>
    if (registry.tools.get? tool.name).isSome then
      (.error (.of .toolConflictError [("tool_name", .str tool.name)]), registry)
    else (.ok (), registry.bind tool clear)

def unregister (name : String) :
    Command (ToolRegistry Value Handler) PyException (ToolDefinition Value Handler) :=
  fun registry =>
    match registry.tools.get? name with
    | some tool => (.ok tool, registry.drop name)
    | none => (.error (toolNotFound name), registry)

def get (registry : ToolRegistry Value Handler) (name : String) :
    Except PyException (ToolDefinition Value Handler) :=
  match registry.tools.get? name with
  | some tool => .ok tool
  | none => .error (toolNotFound name)

def permissionDetails (name : String) (tool : ToolDefinition Value Handler) : JsonObject :=
  [("tool_name", .str name), ("permission", .str (permissionText tool.permission))]

/-- `execute` up to the call of the handler. -/
def beginExecution (registry : ToolRegistry Value Handler) (name : String) (payload : Value)
    (granted : Option (List ToolPermission)) (confirmed : Bool) :
    Except PyException (Invocation Value Handler) :=
  match registry.get name with
  | .error error => .error error
  | .ok tool =>
    if ¬ permitted tool.permission (granted.getD registry.defaultPermissions) then
      .error (.of .toolPermissionError (permissionDetails name tool))
    else if permitted tool.permission confirmationRequiredPermissions ∧ ¬ confirmed then
      .error (.domain (.new .toolPermissionError
        (some "This tool requires explicit human confirmation.")
        (some (permissionDetails name tool))))
    else
      match tool.inputModel.modelValidate payload with
      | .error failure => .error (failure.exception name none)
      | .ok input => .ok { name, tool, input }

end ToolRegistry

/-- The `except` clauses around the handler: a timeout, a tool error and any other
`Exception`. A cancellation passes through. -/
def Invocation.handlerError (invocation : Invocation Value Handler) (error : PyException) :
    PyException :=
  match error with
  | .cancelled => error
  | .domain domain =>
    if domain.cls.isToolError then error
    else .of .toolError [("tool_name", .str invocation.name)]
  | .other "TimeoutError" => .of .toolTimeoutError [("tool_name", .str invocation.name)]
  | .keyError _ | .other _ => .of .toolError [("tool_name", .str invocation.name)]

/-- `execute` from the end of its handler, which took the given time. -/
def Invocation.finishExecution (invocation : Invocation Value Handler)
    (outcome : Except PyException Value) (durationMs : String) :
    Except PyException ToolExecutionResult :=
  match outcome with
  | .error error => .error (invocation.handlerError error)
  | .ok raw =>
    match invocation.tool.outputModel.modelValidate raw with
    | .error failure => .error
        (failure.exception invocation.name (some "The tool output failed schema validation."))
    | .ok output =>
      match invocation.tool.outputModel.modelDump output with
      | .error error => .error error
      | .ok fields => .ok { name := invocation.name, output := fields, durationMs }

namespace ToolRegistry

variable {Value Handler : Type} {registry : ToolRegistry Value Handler}

theorem get_ok (found : registry.get name = .ok tool) : registry.tools.get? name = some tool := by
  unfold get at found
  split at found
  · next other held =>
    cases found
    exact held
  · contradiction

theorem get_of_held (held : registry.tools.get? name = some tool) :
    registry.get name = .ok tool := by
  simp [get, held]

theorem get_sound (found : registry.get name = .ok tool) : tool.Sound :=
  ToolDefinition.sound_of_clear (registry.screened name tool (get_ok found)).2

/-- A registration that is accepted concerns a new name and binds that name only. -/
theorem register_ok {tool : ToolDefinition Value Handler}
    (accepted : register tool registry = (.ok (), after)) :
    registry.tools.get? tool.name = none ∧
      ∃ clear : tool.objection = none, after = registry.bind tool clear := by
  unfold register at accepted
  split at accepted
  · simp at accepted
  · next clear =>
    by_cases taken : (registry.tools.get? tool.name).isSome
    · simp [taken] at accepted
    · rw [if_neg taken] at accepted
      cases accepted
      exact ⟨by simpa using taken, clear, rfl⟩

theorem register_error {tool : ToolDefinition Value Handler}
    (rejected : register tool registry = (.error error, after)) : after = registry := by
  unfold register at rejected
  split at rejected
  · cases rejected
    rfl
  · by_cases taken : (registry.tools.get? tool.name).isSome
    · rw [if_pos taken] at rejected
      cases rejected
      rfl
    · simp [taken] at rejected

/-- No registration replaces a tool. -/
theorem register_keeps {tool : ToolDefinition Value Handler}
    (held : registry.tools.get? name = some old) :
    (register tool registry).2.tools.get? name = some old := by
  cases outcome : register tool registry with
  | mk reply after =>
    cases reply with
    | error error =>
      rw [register_error outcome]
      exact held
    | ok bound =>
      obtain ⟨free, clear, rfl⟩ := register_ok outcome
      have different : name ≠ tool.name := by
        rintro rfl
        simp [free] at held
      simpa only [bind, Dict.get?_set_ne _ _ different] using held

theorem register_permissions (tool : ToolDefinition Value Handler)
    (registry : ToolRegistry Value Handler) :
    (register tool registry).2.defaultPermissions = registry.defaultPermissions := by
  cases outcome : register tool registry with
  | mk reply after =>
    cases reply with
    | error error => rw [register_error outcome]
    | ok bound =>
      obtain ⟨_, clear, rfl⟩ := register_ok outcome
      rfl

theorem unregister_permissions (name : String) (registry : ToolRegistry Value Handler) :
    (unregister name registry).2.defaultPermissions = registry.defaultPermissions := by
  unfold unregister
  split <;> rfl

/-- What `execute` has checked when it calls the handler. -/
theorem beginExecution_ok {granted : Option (List ToolPermission)}
    (begun : registry.beginExecution name payload granted confirmed = .ok invocation) :
    invocation.name = name ∧ registry.get name = .ok invocation.tool ∧
      permitted invocation.tool.permission (granted.getD registry.defaultPermissions) ∧
      (permitted invocation.tool.permission confirmationRequiredPermissions →
        confirmed = true) ∧
      invocation.tool.inputModel.modelValidate payload = .ok invocation.input := by
  unfold beginExecution at begun
  split at begun
  · contradiction
  · next tool found =>
    by_cases allowed : permitted tool.permission (granted.getD registry.defaultPermissions)
    · by_cases unconfirmed :
        permitted tool.permission confirmationRequiredPermissions ∧ ¬ confirmed
      · rw [if_neg (not_not.mpr allowed), if_pos unconfirmed] at begun
        contradiction
      · rw [if_neg (not_not.mpr allowed), if_neg unconfirmed] at begun
        split at begun
        · contradiction
        · next input accepted =>
          cases begun
          refine ⟨rfl, found, allowed, ?_, accepted⟩
          intro required
          exact not_not.mp fun missing => unconfirmed ⟨required, missing⟩
    · rw [if_pos allowed] at begun
      contradiction

/-- A declared member is permitted exactly when it is granted. -/
theorem permitted_member (permission : ToolPermission) (permissions : List ToolPermission) :
    permitted (.member permission) permissions ↔ permission ∈ permissions := by
  have same : ∀ granted : ToolPermission,
      granted.value = permission.value ↔ granted = permission := by
    intro granted
    cases granted <;> cases permission <;> decide
  simp [permitted, permissionText, same]

end ToolRegistry

end DayuAgent
