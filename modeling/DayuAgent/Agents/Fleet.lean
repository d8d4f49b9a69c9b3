import DayuAgent.Agents.Supervisor
import DayuAgent.Memory.Ownership

/-! Any number of supervisors over one store. The durable effect of a store call and the
resumption of its caller are separate steps, and so are all awaits. -/

namespace DayuAgent

open Library InMemorySessionStore

/-- The operations that clients may apply directly; the others belong to supervisors. -/
def Operation.Outside : Operation → Prop
  | .reserveRun _ | .markRunRunning .. | .incrementRunAttempt _ | .appendStreamEvent ..
  | .commitRunSuccess .. | .failRun .. => False
  | _ => True

instance (operation : Operation) : Decidable operation.Outside := by
  unfold Operation.Outside
  split <;> infer_instance

/-- The effect of a store call. A sweep skips the rows that open transactions have locked. -/
def Operation.performSkipping (operation : Operation) (skipped : List String)
    (ambient : Ambient) : StoreM Reply :=
  match operation with
  | .interruptWorkerRuns workerInstanceId => do
    return .count (← interruptMatching
      (fun run => run.workerInstanceId = workerInstanceId ∧ run.id ∉ skipped) ambient)
  | .reconcileOrphanedRuns workerInstanceId => do
    return .count (← interruptMatching
      (fun run => run.workerInstanceId ≠ workerInstanceId ∧ run.id ∉ skipped) ambient)
  | _ => operation.perform ambient

/-- One step of one supervisor; its tasks and calls are named by number. -/
inductive Act where
  | invoke (method : Method) (ambient : Ambient)
  | callEffect (index : Nat) (ambient : Ambient) (skipped : List String)
  | resumeCall (index : Nat) (input : Input) (clock : Clock)
  | taskEffect (index : Nat) (ambient : Ambient)
  | resumeTask (index : Nat) (input : Input) (clock : Clock)
  | taskDone (index : Nat)

namespace Supervisor

def answerCall (supervisor : Supervisor) (index : Nat) (phase : CallPhase)
    (reply : Except PyException Reply) : Supervisor :=
  { supervisor with calls := supervisor.calls.set index { phase, answer := some reply } }

def answerTask (supervisor : Supervisor) (index : Nat) (task : Task)
    (reply : Except PyException Reply) : Supervisor :=
  { supervisor with tasks := supervisor.tasks.set index { task with answer := some reply } }

/-- The store call of one method takes effect. -/
def callEffect (supervisor : Supervisor) (store : InMemorySessionStore) (index : Nat)
    (ambient : Ambient) (skipped : List String) : Option (InMemorySessionStore × Supervisor) :=
  match supervisor.calls[index]? with
  | some { phase, answer := none } =>
    match phase.operation supervisor.config with
    | some operation =>
      if ambient.Fresh store then
        let (reply, after) := operation.performSkipping skipped ambient store
        some (after, supervisor.answerCall index phase reply)
      else none
    | none => none
  | _ => none

def taskEffect (supervisor : Supervisor) (store : InMemorySessionStore) (index : Nat)
    (ambient : Ambient) : Option (InMemorySessionStore × Supervisor) :=
  match supervisor.tasks[index]? with
  | some task =>
    match task.answer, task.operation supervisor.config with
    | none, some operation =>
      if ambient.Fresh store then
        let (reply, after) := operation.perform ambient store
        some (after, supervisor.answerTask index task reply)
      else none
    | _, _ => none
  | none => none

def act (supervisor : Supervisor) (store : InMemorySessionStore) :
    Act → Option (InMemorySessionStore × Supervisor)
  | .invoke method ambient => some (store, supervisor.invoke method ambient)
  | .callEffect index ambient skipped => supervisor.callEffect store index ambient skipped
  | .resumeCall index input clock =>
    (supervisor.resumeCall index input clock).map fun changed => (store, changed)
  | .taskEffect index ambient => supervisor.taskEffect store index ambient
  | .resumeTask index input clock =>
    (supervisor.resumeTask index input clock).map fun changed => (store, changed)
  | .taskDone index => (supervisor.taskDone index).map fun changed => (store, changed)

end Supervisor

/-- A store and its workers, each named by its `worker_instance_id`. -/
structure Fleet where
  store : InMemorySessionStore
  workers : String → Supervisor

/-- One step of the fleet: a client calls the store, or a worker acts. -/
inductive Action where
  | outside (ambient : Ambient) (operation : Operation)
  | worker (name : String) (act : Act)

namespace Fleet

def start (configs : String → Config) : Fleet where
  store := .empty
  workers name := .new { configs name with workerInstanceId := name }

def next (fleet : Fleet) (action : Action) : Option Fleet :=
  match action with
  | .outside ambient operation =>
    if operation.Outside ∧ ambient.Fresh fleet.store then
      some { fleet with store := (operation.perform ambient fleet.store).2 }
    else none
  | .worker name act => ((fleet.workers name).act fleet.store act).map fun (store, changed) =>
    { store, workers := Function.update fleet.workers name changed }

def Steps (before : Fleet) (action : Action) (after : Fleet) : Prop :=
  before.next action = some after

def Surrounds (ambient : Ambient) (operation : Operation) (store after : InMemorySessionStore) :
    Prop :=
  operation.Outside ∧ ambient.Fresh store ∧ after = (operation.perform ambient store).2

theorem outside_some (taken : Steps before (.outside ambient operation) after) :
    Surrounds ambient operation before.store after.store ∧ after.workers = before.workers := by
  simp only [Steps, next] at taken
  split at taken
  · next allowed =>
    cases taken
    exact ⟨⟨allowed.1, allowed.2, rfl⟩, rfl⟩
  · contradiction

theorem worker_some (taken : Steps before (.worker name act) after) :
    ∃ changed, (before.workers name).act before.store act = some (after.store, changed) ∧
      after.workers = Function.update before.workers name changed := by
  obtain ⟨⟨store, changed⟩, acted, same⟩ := Option.map_eq_some_iff.mp taken
  cases same
  exact ⟨changed, acted, rfl⟩

/-- A step of the fleet is a step of interleaved supervisors. -/
theorem Steps.interleaves (taken : Steps before action after) :
    Interleaves (fun store later => ∃ ambient operation,
        action = .outside ambient operation ∧ Surrounds ambient operation store later)
      (fun name store supervisor later changed => ∃ act,
        action = .worker name act ∧ supervisor.act store act = some (later, changed))
      before.store before.workers after.store after.workers := by
  cases action with
  | outside ambient operation =>
    obtain ⟨surrounds, same⟩ := outside_some taken
    rw [same]
    exact .outside ⟨ambient, operation, rfl, surrounds⟩
  | worker name act =>
    obtain ⟨changed, acted, same⟩ := worker_some taken
    rw [same]
    exact .acts name ⟨act, rfl, acted⟩

/-- One guardrail of each kind, no tools and a codec that stands in on plain messages. -/
def sampleConfig (_ : String) : Config :=
  { workerInstanceId := "", provider := "fake", modelName := "model", retryBudget := .standard
    streamEventRetentionSeconds := 86400, inputGuardrails := 1, outputGuardrails := 1
    toolGuardrails := 1, tools := []
    codec := { loads := fun _ => none, dumps := fun _ => "{}"
               requestHash := fun message _ _ _ => message, rounded := fun _ => "0.0" } }

def approval : Input := .decision (.ok { allowed := true, reason := none })

def sampleClock : Clock := ⟨0, 0, 0⟩

/-- `run` up to the await of its reservation. -/
def sampleAdmission : List Act :=
  [.invoke (.run "level?" none none none none none) (.sample "request" "trace"),
   .resumeCall 0 approval sampleClock]

def sampleStart : List Act :=
  [.callEffect 0 (.sample "lake" "run") [], .resumeCall 0 .wake sampleClock]

/-- The task up to its provider call. -/
def sampleAttempt : List Act :=
  [.resumeTask 0 .wake sampleClock, .taskEffect 0 (.sample "a" "a"),
   .resumeTask 0 .wake sampleClock, .taskEffect 0 (.sample "a" "a"),
   .resumeTask 0 .wake sampleClock, .taskEffect 0 (.sample "a" "a"),
   .resumeTask 0 .wake sampleClock]

def sampleResponse : List Act :=
  [.resumeTask 0 (.response (.ok { content := "high", usage := .empty })) sampleClock,
   .resumeTask 0 approval sampleClock]

/-- A turn of the task with this number, up to the effect of its commit. -/
def openTurn (index : Nat) (message : String) (sessionId : Option String)
    (drawn ref : String) (answer : ProviderResponse) : List Act :=
  [.invoke (.run message sessionId none none none none) (.sample "request" "trace"),
   .resumeCall index approval sampleClock, .callEffect index (.sample drawn ref) [],
   .resumeCall index .wake sampleClock,
   .resumeTask index .wake sampleClock, .taskEffect index (.sample "a" "a"),
   .resumeTask index .wake sampleClock, .taskEffect index (.sample "a" "a"),
   .resumeTask index .wake sampleClock, .taskEffect index (.sample "a" "a"),
   .resumeTask index .wake sampleClock, .resumeTask index (.response (.ok answer)) sampleClock,
   .resumeTask index approval sampleClock]

/-- The turn with its commit. -/
def closedTurn (index : Nat) (message : String) (sessionId : Option String)
    (drawn ref : String) (answer : ProviderResponse) : List Act :=
  openTurn index message sessionId drawn ref answer ++
    [.taskEffect index (.sample "b" "c"), .resumeTask index .wake sampleClock]

def schedule (acts : List Act) : List Action := acts.map (.worker "worker")

end Fleet

end DayuAgent
