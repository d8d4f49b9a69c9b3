import DayuAgent.Agents.Task
import DayuAgent.Library.Transition
import DayuAgent.Tools.Registry

namespace DayuAgent

open Library

/-- A guardrail of the repository or one that an application supplies. -/
inductive ToolGuardrail where
  | phaseZero
  | custom

/-- `PhaseZeroToolGuardrail.evaluate` -/
def phaseZeroDecision (tool : ToolDefinition Value Handler) : GuardrailDecision :=
  if tool.permission = .member .dangerous then
    { allowed := false, reason := some "Dangerous permission is prohibited." }
  else if tool.riskLevel = .member .dangerous then
    { allowed := false, reason := some "Dangerous risk is prohibited." }
  else { allowed := true, reason := none }

/-- The verdict of a guardrail, where `answer` is what an application's one says. -/
def ToolGuardrail.evaluate (guardrail : ToolGuardrail) (tool : ToolDefinition Value Handler)
    (answer : Except Failure GuardrailDecision) : Except Failure GuardrailDecision :=
  match guardrail with
  | .phaseZero => .ok (phaseZeroDecision tool)
  | .custom => answer

/-- What surrounds the registry: `dict` is the Python value of a parsed object. -/
structure ToolHost (Value : Type) where
  codec : Codec
  dict : JsonObject → Value
  guardrails : List ToolGuardrail

inductive ToolRequest (Value : Type) where
  | message (text : String)
  | direct (name : String) (payload : Value) (granted : Option (List ToolPermission))
      (confirmed : Bool)

/-- The await at which a tool call is suspended, or how it ended. A message that is no
command goes to the provider. -/
inductive ToolPhase (Value Handler : Type) where
  | guarding (tool : ToolDefinition Value Handler) (name : String) (payload : JsonObject)
      (guardrail : ToolGuardrail) (later : List ToolGuardrail)
  | handling (invocation : Invocation Value Handler)
  | returned (invocation : Invocation Value Handler) (result : ToolExecutionResult)
  | raised (error : PyException)
  | provider

namespace ToolPhase

variable {Value Handler : Type}

/-- `execute` up to its await of the handler. -/
def execute (registry : ToolRegistry Value Handler) (name : String) (payload : Value)
    (granted : Option (List ToolPermission)) (confirmed : Bool) : ToolPhase Value Handler :=
  match registry.beginExecution name payload granted confirmed with
  | .error error => .raised error
  | .ok invocation => .handling invocation

/-- The guardrail loop of `_run_tool`, up to its next evaluation or into `execute`. -/
def guarded (host : ToolHost Value) (registry : ToolRegistry Value Handler)
    (tool : ToolDefinition Value Handler) (name : String) (payload : JsonObject) :
    List ToolGuardrail → ToolPhase Value Handler
  | [] => execute registry name (host.dict payload) none false
  | guardrail :: later => .guarding tool name payload guardrail later

/-- A call up to its first await. -/
def start (host : ToolHost Value) (registry : ToolRegistry Value Handler) :
    ToolRequest Value → ToolPhase Value Handler
  | .direct name payload granted confirmed => execute registry name payload granted confirmed
  | .message text =>
    match parseToolCommand host.codec text with
    | .error error => .raised error
    | .ok none => .provider
    | .ok (some (name, payload)) =>
      match registry.get name with
      | .error error => .raised error
      | .ok tool => guarded host registry tool name payload host.guardrails

/-- The guardrail under evaluation answers. -/
def evaluated (host : ToolHost Value) (registry : ToolRegistry Value Handler)
    (answer : Except Failure GuardrailDecision) :
    ToolPhase Value Handler → Option (ToolPhase Value Handler)
  | .guarding tool name payload guardrail later =>
    match guardrail.evaluate tool answer with
    | .error failure => some (.raised failure.exception)
    | .ok decision =>
      if decision.allowed then some (guarded host registry tool name payload later)
      else some (.raised (.domain (.new .guardrailError decision.reason none)))
  | _ => none

/-- The handler ends. -/
def handled (outcome : Except PyException Value) (durationMs : String) :
    ToolPhase Value Handler → Option (ToolPhase Value Handler)
  | .handling invocation =>
    match invocation.finishExecution outcome durationMs with
    | .error error => some (.raised error)
    | .ok result => some (.returned invocation result)
  | _ => none

/-- The handler call that entering the phase makes. -/
def invoked : ToolPhase Value Handler → Option (Invocation Value Handler)
  | .handling invocation => some invocation
  | _ => none

/-- What a successful call returned. -/
def result : ToolPhase Value Handler → Option ToolExecutionResult
  | .returned _ result => some result
  | _ => none

end ToolPhase

structure ToolCall (Value Handler : Type) where
  request : ToolRequest Value
  phase : ToolPhase Value Handler

/-- A registry, the calls made on it in any order with its changes, and the handler calls
that they led to. -/
structure ToolRuntime (Value Handler : Type) where
  registry : ToolRegistry Value Handler
  calls : List (ToolCall Value Handler)
  invocations : List (ToolRequest Value × Invocation Value Handler)

inductive ToolAction (Value Handler : Type) where
  | register (tool : ToolDefinition Value Handler)
  | unregister (name : String)
  | call (request : ToolRequest Value)
  | evaluated (index : Nat) (answer : Except Failure GuardrailDecision)
  | handled (index : Nat) (outcome : Except PyException Value) (durationMs : String)

namespace ToolRuntime

variable {Value Handler : Type}

/-- The default `ToolRegistry()`, before any call. -/
def new : ToolRuntime Value Handler :=
  { registry := .new defaultAllowedPermissions, calls := [], invocations := [] }

/-- Note the handler call that a request makes by entering a phase. -/
def enter (runtime : ToolRuntime Value Handler) (calls : List (ToolCall Value Handler))
    (call : ToolCall Value Handler) : ToolRuntime Value Handler :=
  { runtime with
    calls
    invocations := runtime.invocations ++
      (call.phase.invoked.map fun invocation => (call.request, invocation)).toList }

def next (host : ToolHost Value) (runtime : ToolRuntime Value Handler) :
    ToolAction Value Handler → Option (ToolRuntime Value Handler)
  | .register tool =>
    some { runtime with registry := (ToolRegistry.register tool runtime.registry).2 }
  | .unregister name =>
    some { runtime with registry := (ToolRegistry.unregister name runtime.registry).2 }
  | .call request =>
    let call := { request, phase := .start host runtime.registry request }
    some (runtime.enter (runtime.calls ++ [call]) call)
  | .evaluated index answer => do
    let call ← runtime.calls[index]?
    let phase ← call.phase.evaluated host runtime.registry answer
    let resumed := { call with phase }
    some (runtime.enter (runtime.calls.set index resumed) resumed)
  | .handled index outcome durationMs => do
    let call ← runtime.calls[index]?
    let phase ← call.phase.handled outcome durationMs
    some { runtime with calls := runtime.calls.set index { call with phase } }

def Step (host : ToolHost Value) (before : ToolRuntime Value Handler)
    (action : ToolAction Value Handler) (after : ToolRuntime Value Handler) : Prop :=
  next host before action = some after

end ToolRuntime

/-- What has to hold of a handler call at the moment a request makes it. -/
def ToolHost.Authorizes (host : ToolHost Value) (registry : ToolRegistry Value Handler)
    (request : ToolRequest Value) (invocation : Invocation Value Handler) : Prop :=
  registry.get invocation.name = .ok invocation.tool ∧
    invocation.tool.permission ≠ .member .dangerous ∧
    invocation.tool.riskLevel ≠ .member .dangerous ∧
    match request with
    | .message text => ∃ payload,
        parseToolCommand host.codec text = .ok (some (invocation.name, payload)) ∧
        (invocation.tool.permission = .member .read ∨
          invocation.tool.permission = .member .analyze) ∧
        invocation.tool.inputModel.modelValidate (host.dict payload) = .ok invocation.input
    | .direct name payload granted confirmed =>
        invocation.name = name ∧
        (∃ permission ∈ granted.getD defaultAllowedPermissions,
          invocation.tool.permission = .member permission) ∧
        (invocation.tool.permission = .member .modify ∨
          invocation.tool.permission = .member .execute → confirmed = true) ∧
        invocation.tool.inputModel.modelValidate payload = .ok invocation.input

/-- The values that a result was made from: the output model accepted what it prints. -/
def Invocation.Produces (invocation : Invocation Value Handler) (result : ToolExecutionResult) :
    Prop :=
  ∃ raw output, invocation.tool.outputModel.modelValidate raw = .ok output ∧
    invocation.tool.outputModel.modelDump output = .ok result.output

theorem Invocation.finishExecution_ok {invocation : Invocation Value Handler}
    (finished : invocation.finishExecution outcome durationMs = .ok result) :
    invocation.Produces result := by
  unfold finishExecution at finished
  split at finished
  · contradiction
  · next raw =>
    split at finished
    · contradiction
    · next output accepted =>
      split at finished
      · contradiction
      · next fields dumped =>
        cases finished
        exact ⟨raw, output, accepted, dumped⟩

/-- A call that waits for a guardrail came from a command with this name and payload; one
that returned has a result that its tool's output model accepted. -/
def ToolCall.Sound (host : ToolHost Value) (call : ToolCall Value Handler) : Prop :=
  match call.phase with
  | .guarding _ name payload _ _ => ∃ text, call.request = .message text ∧
      parseToolCommand host.codec text = .ok (some (name, payload))
  | .returned invocation result => invocation.Produces result
  | _ => True

theorem ToolPhase.result_some {phase : ToolPhase Value Handler}
    (given : phase.result = some outcome) : ∃ invocation, phase = .returned invocation outcome := by
  cases phase <;> simp_all [result]

structure ToolRuntime.Sound (host : ToolHost Value) (runtime : ToolRuntime Value Handler) :
    Prop where
  permissions : runtime.registry.defaultPermissions = defaultAllowedPermissions
  calls : ∀ call ∈ runtime.calls, call.Sound host

section Authorization

variable {Value Handler : Type} {host : ToolHost Value} {registry : ToolRegistry Value Handler}

theorem ToolPhase.execute_sound (request : ToolRequest Value) (name : String) (payload : Value)
    (granted : Option (List ToolPermission)) (confirmed : Bool) :
    ToolCall.Sound host ⟨request, execute registry name payload granted confirmed⟩ := by
  unfold ToolCall.Sound execute
  cases registry.beginExecution name payload granted confirmed <;> trivial

/-- `execute` runs a handler only with the permission that it was granted. -/
theorem ToolPhase.execute_invoked {granted : Option (List ToolPermission)}
    (permissions : registry.defaultPermissions = defaultAllowedPermissions)
    (begun : (execute registry name payload granted confirmed).invoked = some invocation) :
    host.Authorizes registry (.direct name payload granted confirmed) invocation := by
  unfold execute at begun
  split at begun
  · simp [invoked] at begun
  · next made passed =>
    cases begun
    obtain ⟨named, found, allowed, checked, accepted⟩ := ToolRegistry.beginExecution_ok passed
    rw [← named] at found
    have sound := ToolRegistry.get_sound found
    obtain ⟨permission, harmless, declared⟩ := sound.permission
    obtain ⟨risk, low, rated⟩ := sound.risk
    rw [permissions, declared, ToolRegistry.permitted_member] at allowed
    rw [declared, ToolRegistry.permitted_member] at checked
    refine ⟨found, ?_, ?_, named, ⟨permission, allowed, declared⟩, ?_, accepted⟩
    · rw [declared]
      exact fun danger => harmless (Declared.member.inj danger)
    · rw [rated]
      exact fun danger => low (Declared.member.inj danger)
    · intro required
      apply checked
      rcases required with modifies | executes
      · cases declared.symm.trans modifies
        simp [confirmationRequiredPermissions]
      · cases declared.symm.trans executes
        simp [confirmationRequiredPermissions]

/-- The `/tool` path grants nothing and confirms nothing. -/
theorem ToolPhase.command_invoked {text : String} {payload : JsonObject}
    (permissions : registry.defaultPermissions = defaultAllowedPermissions)
    (parsed : parseToolCommand host.codec text = .ok (some (name, payload)))
    (begun : (execute registry name (host.dict payload) none false).invoked = some invocation) :
    host.Authorizes registry (.message text) invocation := by
  have direct : host.Authorizes registry (.direct name (host.dict payload) none false) invocation :=
    execute_invoked permissions begun
  obtain ⟨found, harmless, low, named, ⟨permission, granted, declared⟩, _, accepted⟩ := direct
  refine ⟨found, harmless, low, payload, ?_, ?_, accepted⟩
  · rw [named]
    exact parsed
  · have default : permission = .read ∨ permission = .analyze := by
      simpa [defaultAllowedPermissions] using granted
    rcases default with rfl | rfl
    · exact .inl declared
    · exact .inr declared

/-- Entering the guardrail loop keeps the origin of the command, and running through it
calls the handler only as the message allows. -/
theorem ToolPhase.guarded_sound {text : String} {payload : JsonObject}
    (permissions : registry.defaultPermissions = defaultAllowedPermissions)
    (parsed : parseToolCommand host.codec text = .ok (some (name, payload)))
    (tool : ToolDefinition Value Handler) (guardrails : List ToolGuardrail) :
    ToolCall.Sound host ⟨.message text, guarded host registry tool name payload guardrails⟩ ∧
      ∀ invocation, (guarded host registry tool name payload guardrails).invoked = some invocation →
        host.Authorizes registry (.message text) invocation := by
  cases guardrails with
  | nil =>
    constructor
    · exact execute_sound (.message text) name (host.dict payload) none false
    · intro invocation begun
      exact command_invoked permissions parsed begun
  | cons guardrail later =>
    constructor
    · exact ⟨text, rfl, parsed⟩
    · intro invocation begun
      simp [guarded, invoked] at begun

theorem ToolPhase.start_sound
    (permissions : registry.defaultPermissions = defaultAllowedPermissions)
    (request : ToolRequest Value) :
    ToolCall.Sound host ⟨request, start host registry request⟩ ∧
      ∀ invocation, (start host registry request).invoked = some invocation →
        host.Authorizes registry request invocation := by
  cases request with
  | direct name payload granted confirmed =>
    constructor
    · exact execute_sound (.direct name payload granted confirmed) name payload granted confirmed
    · intro invocation begun
      exact execute_invoked permissions begun
  | message text =>
    simp only [start]
    split
    · exact ⟨trivial, by simp [invoked]⟩
    · exact ⟨trivial, by simp [invoked]⟩
    · next name payload parsed =>
      split
      · exact ⟨trivial, by simp [invoked]⟩
      · next tool found => exact guarded_sound permissions parsed tool host.guardrails

private theorem ToolPhase.evaluated_sound {call : ToolCall Value Handler}
    (permissions : registry.defaultPermissions = defaultAllowedPermissions)
    (sound : call.Sound host)
    (resumed : call.phase.evaluated host registry answer = some phase) :
    ToolCall.Sound host { call with phase } ∧
      ∀ invocation, phase.invoked = some invocation →
        host.Authorizes registry call.request invocation := by
  unfold evaluated at resumed
  split at resumed
  · next tool name payload guardrail later waiting =>
    rw [ToolCall.Sound, waiting] at sound
    obtain ⟨text, asked, parsed⟩ := sound
    split at resumed
    · cases resumed
      exact ⟨trivial, by simp [invoked]⟩
    · split at resumed
      · cases resumed
        rw [asked]
        exact guarded_sound permissions parsed tool later
      · cases resumed
        exact ⟨trivial, by simp [invoked]⟩
  · contradiction

private theorem ToolPhase.handled_sound {call : ToolCall Value Handler}
    (resumed : call.phase.handled outcome durationMs = some phase) :
    ToolCall.Sound host { call with phase } := by
  unfold handled at resumed
  split at resumed
  · split at resumed
    · cases resumed
      trivial
    · next finished =>
      cases resumed
      exact Invocation.finishExecution_ok finished
  · contradiction

private theorem sound_set {calls : List (ToolCall Value Handler)}
    (sound : ∀ call ∈ calls, call.Sound host) (changed : ToolCall.Sound host new) (index : Nat) :
    ∀ call ∈ calls.set index new, call.Sound host := by
  intro call member
  rcases List.mem_or_eq_of_mem_set member with old | rfl
  · exact sound call old
  · exact changed

/-- A step that resumes a call changes that call alone. -/
theorem resumed_some {calls : List (ToolCall Value Handler)} {index : Nat}
    (resume : ToolPhase Value Handler → Option (ToolPhase Value Handler))
    (next : ToolCall Value Handler → ToolRuntime Value Handler)
    (taken : (calls[index]?.bind fun call => (resume call.phase).bind fun phase =>
      some (next { call with phase })) = some after) :
    ∃ call ∈ calls, ∃ phase, resume call.phase = some phase ∧ after = next { call with phase } := by
  obtain ⟨call, found, rest⟩ := Option.bind_eq_some_iff.mp taken
  obtain ⟨phase, resumed, same⟩ := Option.bind_eq_some_iff.mp rest
  exact ⟨call, List.mem_of_getElem? found, phase, resumed, (Option.some.inj same).symm⟩

/-- One step adds no handler call or one that its request authorizes. -/
theorem ToolRuntime.step_sound {before after : ToolRuntime Value Handler}
    (sound : before.Sound host) (taken : Step host before action after) :
    after.Sound host ∧
      (after.invocations = before.invocations ∨ ∃ request invocation,
        after.invocations = before.invocations ++ [(request, invocation)] ∧
          host.Authorizes before.registry request invocation) := by
  have entered : ∀ (calls : List (ToolCall Value Handler)) (call : ToolCall Value Handler),
      (∀ invocation, call.phase.invoked = some invocation →
        host.Authorizes before.registry call.request invocation) →
      (before.enter calls call).invocations = before.invocations ∨ ∃ request invocation,
        (before.enter calls call).invocations = before.invocations ++ [(request, invocation)] ∧
          host.Authorizes before.registry request invocation := by
    intro calls call authorized
    cases begun : call.phase.invoked with
    | none => exact .inl (by simp [enter, begun])
    | some invocation =>
      exact .inr ⟨call.request, invocation, by simp [enter, begun], authorized invocation begun⟩
  cases action with
  | register tool =>
    cases taken
    refine ⟨⟨?_, sound.calls⟩, .inl rfl⟩
    exact (ToolRegistry.register_permissions tool before.registry).trans sound.permissions
  | unregister name =>
    cases taken
    refine ⟨⟨?_, sound.calls⟩, .inl rfl⟩
    exact (ToolRegistry.unregister_permissions name before.registry).trans sound.permissions
  | call request =>
    cases taken
    obtain ⟨started, authorized⟩ := ToolPhase.start_sound sound.permissions request
    refine ⟨⟨sound.permissions, ?_⟩, entered _ _ authorized⟩
    intro call member
    rcases List.mem_append.mp member with old | new
    · exact sound.calls call old
    · rw [List.mem_singleton.mp new]
      exact started
  | evaluated index answer =>
    obtain ⟨call, member, phase, resumed, rfl⟩ := resumed_some
      (fun phase => phase.evaluated host before.registry answer)
      (fun call => before.enter (before.calls.set index call) call) taken
    obtain ⟨goes, authorized⟩ :=
      ToolPhase.evaluated_sound sound.permissions (sound.calls call member) resumed
    exact ⟨⟨sound.permissions, sound_set sound.calls goes index⟩, entered _ _ authorized⟩
  | handled index outcome durationMs =>
    obtain ⟨call, member, phase, resumed, rfl⟩ := resumed_some
      (fun phase => phase.handled outcome durationMs)
      (fun call => { before with calls := before.calls.set index call }) taken
    have ended : ToolCall.Sound host { call with phase } := ToolPhase.handled_sound resumed
    exact ⟨⟨sound.permissions, sound_set sound.calls ended index⟩, .inl rfl⟩

private theorem ToolRuntime.run_sound {runtime : ToolRuntime Value Handler}
    (history : Run (Step host) .new actions runtime) : runtime.Sound host :=
  history.invariant ⟨rfl, by simp [new]⟩ fun sound taken => (step_sound sound taken).1

/-- Over every history of registrations, removals and calls: a step calls no handler or one
that its request authorizes against the registry of that moment, a successful result was
accepted by the output model, a rejected registration changes nothing and none replaces a
tool. -/
theorem ToolRuntime.handlers_authorized {runtime : ToolRuntime Value Handler}
    (history : Run (Step host) .new actions runtime) :
    (∀ action after, Step host runtime action after →
      after.invocations = runtime.invocations ∨ ∃ request invocation,
        after.invocations = runtime.invocations ++ [(request, invocation)] ∧
          host.Authorizes runtime.registry request invocation) ∧
      (∀ call ∈ runtime.calls, ∀ invocation result,
        call.phase = .returned invocation result → invocation.Produces result) ∧
      ∀ tool : ToolDefinition Value Handler,
        (∀ error after, ToolRegistry.register tool runtime.registry = (.error error, after) →
          after = runtime.registry) ∧
        ∀ name old, runtime.registry.get name = .ok old →
          (ToolRegistry.register tool runtime.registry).2.get name = .ok old := by
  have sound := run_sound history
  refine ⟨fun action after taken => (step_sound sound taken).2, ?_, fun tool => ⟨?_, ?_⟩⟩
  · intro call member invocation result returned
    have accepted := sound.calls call member
    rw [ToolCall.Sound, returned] at accepted
    exact accepted
  · intro error after rejected
    exact ToolRegistry.register_error rejected
  · intro name old found
    exact ToolRegistry.get_of_held (ToolRegistry.register_keeps (ToolRegistry.get_ok found))

end Authorization

section Example

/-- The number that a model reads from one field, if it is the only field. -/
def numberField (field : String) : Json → Except ValidationFailure Json
  | .obj [(name, .int number)] =>
    if name = field then .ok (.obj [(name, .int number)]) else .error (.invalid [])
  | _ => .error (.invalid [])

def numberModel (field : String) : ModelClass Json :=
  { isBaseModel := true, modelValidate := numberField field
    modelDump := fun value =>
      match value with
      | .obj fields => .ok fields
      | _ => .ok [] }

def doubleTool : ToolDefinition Json String :=
  { name := "test.double", inputModel := numberModel "value", outputModel := numberModel "doubled"
    permission := .member .read, riskLevel := .member .low, timeoutSeconds := 1
    handler := "double_handler" }

def doublePayload : String := "\x7b\"value\":3\x7d"

def doubleHost : ToolHost Json :=
  { codec :=
      { loads := fun text =>
          if text = doublePayload then some (.obj [("value", .int 3)]) else none
        dumps := fun _ => "", requestHash := fun message _ _ _ => message
        rounded := fun _ => "0.0" }
    dict := .obj, guardrails := [.phaseZero] }

/-- Registration, the command, its guardrail and the end of the handler. -/
def doubleHistory : List (ToolAction Json String) :=
  [.register doubleTool, .call (.message ("/tool test.double " ++ doublePayload)),
   .evaluated 0 (.error .timeout), .handled 0 (.ok (.obj [("doubled", .int 6)])) "0.1"]

theorem ToolRuntime.handlers_authorized_double :
    ∃ runtime, Run (Step doubleHost) .new doubleHistory runtime ∧
      ∃ call ∈ runtime.calls, ∃ invocation result, call.phase = .returned invocation result ∧
        result.name = "test.double" ∧ invocation.Produces result := by
  obtain ⟨runtime, history, call, member, reached⟩ :
      ∃ runtime, Run (Step doubleHost) .new doubleHistory runtime ∧
        ∃ call ∈ runtime.calls, call.phase.result.map (·.name) = some "test.double" :=
    follow_reaches (by decide +kernel)
  obtain ⟨result, given, named⟩ := Option.map_eq_some_iff.mp reached
  obtain ⟨invocation, returned⟩ := ToolPhase.result_some given
  exact ⟨runtime, history, call, member, invocation, result, returned, named,
    (handlers_authorized history).2.1 call member invocation result returned⟩

end Example

/-! The task of a supervisor, whose configuration lists the names of the tools, goes through
the same awaits. -/

section Refinement

variable {Value Handler : Type} {host : ToolHost Value} {registry : ToolRegistry Value Handler}
  {config : Config}

/-- A task waits where its tool call does. A task learns only from its handler's outcome that
`execute` refused the call. -/
def ToolPhase.Follows (phase : ToolPhase Value Handler) (config : Config) (task : Task) : Prop :=
  match phase with
  | .guarding _ name payload _ later => task.phase = .guardingTool name payload (later.length + 1)
  | .handling invocation => ∃ payload, task.phase = .executingTool invocation.name payload
  | .provider => task.phase = .loading
  | .raised error => (∃ name payload, task.phase = .executingTool name payload) ∨
      ∃ earlier : Task, task.phase = (earlier.except config error).phase
  | .returned _ _ => False

theorem ToolPhase.guarded_follows (task : Task) (tool : ToolDefinition Value Handler)
    (guardrails : List ToolGuardrail) :
    (guarded host registry tool name payload guardrails).Follows config
      (task.guarded guardrails.length (.guardingTool name payload)
        (.executingTool name payload)) := by
  cases guardrails with
  | nil =>
    cases begun : registry.beginExecution name (host.dict payload) none false with
    | error error =>
      simp only [guarded, execute, begun]
      exact .inl ⟨name, payload, rfl⟩
    | ok invocation =>
      simp only [guarded, execute, begun]
      obtain ⟨named, _⟩ := ToolRegistry.beginExecution_ok begun
      rw [← named]
      exact ⟨payload, rfl⟩
  | cons guardrail later => rfl

theorem ToolPhase.start_follows (task : Task) (sameCodec : config.codec = host.codec)
    (listed : ∀ name, name ∈ config.tools ↔ (registry.tools.get? name).isSome)
    (counted : config.toolGuardrails = host.guardrails.length) :
    (start host registry (.message task.userContent)).Follows config (task.dispatch config) := by
  unfold Task.dispatch
  rw [sameCodec]
  simp only [start]
  cases parseToolCommand host.codec task.userContent with
  | error error => exact .inr ⟨task, rfl⟩
  | ok command =>
    cases command with
    | none => rfl
    | some asked =>
      obtain ⟨name, payload⟩ := asked
      simp only [Task.runTool]
      cases held : registry.tools.get? name with
      | none =>
        have absent : name ∉ config.tools := by simp [listed, held]
        simp only [ToolRegistry.get, held, if_neg absent]
        exact .inr ⟨task, rfl⟩
      | some tool =>
        have present : name ∈ config.tools := by simp [listed, held]
        simp only [ToolRegistry.get, held, if_pos present, counted]
        exact guarded_follows task tool host.guardrails

/-- A verdict moves the task as it moves the call. -/
theorem ToolPhase.evaluated_follows (task : Task) {after : ToolPhase Value Handler}
    {answer : Except Failure GuardrailDecision}
    (moved : evaluated host registry answer (.guarding tool name payload guardrail later) =
      some after) :
    after.Follows config (task.decided config (guardrail.evaluate tool answer)
      (later.length + 1) (.guardingTool name payload) (.executingTool name payload)) := by
  simp only [evaluated] at moved
  cases verdict : guardrail.evaluate tool answer with
  | error failure =>
    rw [verdict] at moved
    cases moved
    exact .inr ⟨task, rfl⟩
  | ok decision =>
    rw [verdict] at moved
    by_cases allowed : decision.allowed
    · simp only [allowed, if_true, Option.some.injEq] at moved
      subst moved
      simp only [Task.decided, allowed, if_true, Nat.add_sub_cancel]
      exact guarded_follows task tool later
    · simp only [if_neg allowed, Option.some.injEq] at moved
      subst moved
      simp only [Task.decided, if_neg allowed]
      exact .inr ⟨task, rfl⟩

end Refinement

end DayuAgent
