import DayuAgent.Agents.Outcomes
import DayuAgent.Agents.RunMetrics

namespace DayuAgent

open Library InMemorySessionStore

/-- A loop over as many checks has come down to those that remain. -/
def CountedDown (total remaining : Nat) (Allowed : Nat → Prop) : Prop :=
  remaining ≤ total ∧ ∀ left, remaining < left → left ≤ total → Allowed left

theorem CountedDown.start (total : Nat) (Allowed : Nat → Prop) : CountedDown total total Allowed :=
  ⟨le_rfl, fun _ more less => (Nat.not_lt.mpr less more).elim⟩

theorem CountedDown.next (counted : CountedDown total remaining Allowed)
    (allowed : Allowed remaining) : CountedDown total (remaining - 1) Allowed := by
  refine ⟨(Nat.sub_le _ _).trans counted.1, ?_⟩
  intro left more less
  by_cases same : left = remaining
  · exact same ▸ allowed
  · exact counted.2 left (by omega) less

theorem CountedDown.mono (counted : CountedDown total remaining Allowed)
    (weaker : ∀ left, Allowed left → Later left) : CountedDown total remaining Later :=
  ⟨counted.1, fun left more less => weaker left (counted.2 left more less)⟩

/-- The input that a call screens, and how many guardrails it still has to pass. -/
def CallPhase.screening : CallPhase → Option (StartRequest × Nat)
  | .checkingInput start remaining => some (start, remaining)
  | .reserving start => some (start, 0)
  | _ => none

/-- The result that a task checks, and how many guardrails it still has to pass. -/
def Phase.checking : Phase → Option (AgentResult × Nat)
  | .checkingOutput result remaining => some (result, remaining)
  | .committing result => some (result, 0)
  | _ => none

/-- Before the body has called a tool or the provider. -/
def Phase.Early : Phase → Prop
  | .created | .marking | .guardingTool _ _ _ => True
  | _ => False

/-- The message of a method that starts a run. -/
def Method.message : Method → Option String
  | .run message _ _ _ _ _ | .startStream message _ _ _ _ _ => some message
  | _ => none

namespace Task

variable {config : Config} {task : Task} {input : Input} {clock : Clock} {resumed : Resumed}

/-- How a resumption may arrive at a phase, as far as guardrails are concerned. -/
inductive Arrives (config : Config) (task : Task) (input : Input) (phase : Phase) : Prop where
  | plain (unchecked : phase.checking = none) (late : ¬ phase.Early)
  | early (unchecked : phase.checking = none) (early : task.phase.Early)
  | opens (result : AgentResult) (opened : phase.checking = some (result, config.outputGuardrails))
  | passes (result : AgentResult) (left : Nat) (decision : GuardrailDecision)
      (unflagged : task.cancelRequested = false)
      (checking : task.phase = .checkingOutput result left)
      (judged : input = .decision (.ok decision)) (allowed : decision.allowed = true)
      (counted : phase.checking = some (result, left - 1))

private theorem Arrives.handled {phase : Phase} (handler : phase.Handler) :
    task.Arrives config input phase := by
  cases phase with
  | cancelling | failing => exact .plain rfl id
  | _ => exact handler.elim

end Task

namespace Supervisor

variable {supervisor changed : Supervisor} {store after : InMemorySessionStore} {act : Act}
variable {call later : MethodCall} {start : StartRequest}

theorem checkInput_screening (start : StartRequest) (remaining : Nat) :
    (checkInput start remaining).screening = some (start, remaining) := by
  unfold checkInput
  split
  · next none => rw [none, CallPhase.screening]
  · rfl

private theorem waitForResult_screening (supervisor : Supervisor) (runId : String) :
    (supervisor.waitForResult runId).screening = none := by
  unfold waitForResult
  split <;> rfl

private theorem polled_screening (runId : String) (run : AgentRun) :
    (polled runId run).screening = none := by
  unfold polled
  split <;> rfl

private theorem Leads.screening {phase : CallPhase} (leads : supervisor.Leads call phase)
    (screening : phase.screening = some (start, remaining)) :
    ∃ left, call.phase = .checkingInput start left := by
  cases leads with
  | @guarded own left counted checking =>
    rw [checkInput_screening] at screening
    cases screening
    exact ⟨left, checking⟩
  | @replayed own reservation =>
    split at screening
    · contradiction
    · rw [waitForResult_screening] at screening
      contradiction
  | polled =>
    rw [polled_screening] at screening
    contradiction
  | _ => contradiction

/-- A created task takes over what its call has screened. -/
theorem Resumes.created {task : Task} (resumes : supervisor.Resumes position call changed)
    (present : changed.tasks[supervisor.tasks.length]? = some task) :
    ∃ start, call.phase = .reserving start ∧ task.userContent = start.content ∧
      call.owned = some task.run := by
  have beyond : ¬ supervisor.tasks.length < supervisor.tasks.length := lt_irrefl _
  cases resumes with
  | settles | readmits =>
    exact (beyond (List.getElem?_eq_some_iff.mp present).1).elim
  | @creates start reservation reserving answered owns =>
    rw [settle, createTask, List.getElem?_concat_length] at present
    cases present
    exact ⟨start, reserving, rfl, by simp [MethodCall.owned, reserving, answered, owns, Task.new]⟩
  | signals =>
    have short := (List.getElem?_eq_some_iff.mp present).1
    rw [settle, cancelTask, List.length_modify] at short
    exact (beyond short).elim
  | drains =>
    have short := (List.getElem?_eq_some_iff.mp present).1
    rw [settle, length_foldl_cancelTask] at short
    exact (beyond short).elim

end Supervisor

namespace Fleet

variable {before after fleet : Fleet} {configs : String → Config} {actions : List Action}
variable {action : Action} {worker : String}

/-- Where a task of a worker comes from, as far as guardrails are concerned. -/
inductive TaskComes (before : Fleet) (action : Action) (worker : String) (index : Nat)
    (task : Task) : Prop where
  | same (former : Task) (found : (before.workers worker).tasks[index]? = some former)
      (origin : former.SameOrigin task) (phase : task.phase = former.phase)
  | resumed (former : Task) (input : Input) (clock : Clock) (resumed : Resumed)
      (taken : action = .worker worker (.resumeTask index input clock))
      (found : (before.workers worker).tasks[index]? = some former)
      (went : former.resume (before.workers worker).config input clock = some resumed)
      (arrived : task = resumed.task)
  | created (position : Nat) (call : MethodCall) (start : StartRequest)
      (next : index = (before.workers worker).tasks.length)
      (found : (before.workers worker).calls[position]? = some call)
      (reserving : call.phase = .reserving start) (owned : call.owned = some task.run)
      (content : task.userContent = start.content) (fresh : task.phase = .created)

theorem Steps.taskComes (taken : before.Steps action after) {index : Nat} {task : Task}
    (present : (after.workers worker).tasks[index]? = some task) :
    TaskComes before action worker index task := by
  rcases taken.interleaves.focus worker with ⟨act, rfl, acted⟩ | ⟨same, _⟩
  · generalize after.store = store, after.workers worker = changed at acted present
    have acts := Supervisor.act_some acted
    cases acts.tasks present with
    | kept found => exact .same task found ⟨rfl, rfl, rfl⟩ rfl
    | @created position input clock call _ _ _ moved found owned _ _ next =>
      subst moved
      cases acts with
      | callResumed read resumes =>
        cases found.symm.trans read
        obtain ⟨start, reserving, content, own⟩ := resumes.created (next ▸ present)
        exact .created position call start next found reserving own content rfl
    | @answered former _ _ _ found => exact .same former found ⟨rfl, rfl, rfl⟩ rfl
    | @resumed input clock former _ moved found goes =>
      subst moved
      obtain ⟨other, resumed, read, went, same⟩ := Supervisor.resumeTask_some acted
      cases found.symm.trans read
      have arrived : task = resumed.task := by
        rw [same] at present
        simpa [List.getElem?_set_self (List.getElem?_eq_some_iff.mp found).1] using present.symm
      exact .resumed former input clock resumed rfl found went arrived
    | @signalled former _ _ _ found | @drained _ _ _ former _ _ found =>
      exact .same former found (Task.cancel_same former) (Task.cancel_phase former)
  · rw [same] at present
    exact .same task present ⟨rfl, rfl, rfl⟩ rfl

theorem run_config (run : Run Steps (start configs) actions fleet) (worker : String) :
    (fleet.workers worker).config = { configs worker with workerInstanceId := worker } := by
  induction run with
  | nil => rfl
  | snoc earlier taken ih =>
    rcases Steps.views taken (run_sound earlier) worker with ⟨_, _, acts⟩ | ⟨same, _⟩
    · rw [acts.config, ih]
    · rw [same, ih]

/-- The run of the fleet has come through this state. -/
def Visits (configs : String → Config) (actions : List Action) (state : Fleet) : Prop :=
  ∃ earlier later, actions = earlier ++ later ∧ Run Steps (start configs) earlier state

/-- The run of the fleet has taken this step in this state. -/
def Takes (configs : String → Config) (actions : List Action) (state : Fleet) (action : Action) :
    Prop :=
  ∃ earlier later, actions = earlier ++ action :: later ∧ Run Steps (start configs) earlier state

theorem Visits.snoc (visits : Visits configs actions state) (action : Action) :
    Visits configs (actions ++ [action]) state := by
  obtain ⟨earlier, later, rfl, run⟩ := visits
  exact ⟨earlier, later ++ [action], by simp, run⟩

theorem Takes.snoc (takes : Takes configs actions state taken) (action : Action) :
    Takes configs (actions ++ [action]) state taken := by
  obtain ⟨earlier, later, rfl, run⟩ := takes
  exact ⟨earlier, later ++ [action], by simp, run⟩

/-- An input guardrail has decided, at a call that awaited it in this phase. -/
def CallJudged (configs : String → Config) (actions : List Action) (worker : String)
    (position : Nat) (phase : CallPhase) (decision : GuardrailDecision) : Prop :=
  ∃ state clock call,
    Takes configs actions state
      (.worker worker (.resumeCall position (.decision (.ok decision)) clock)) ∧
    (state.workers worker).calls[position]? = some call ∧ call.phase = phase

/-- A tool or output guardrail has decided, at a task that awaited it in this phase. -/
def TaskJudged (configs : String → Config) (actions : List Action) (worker : String)
    (index : Nat) (phase : Phase) (decision : GuardrailDecision) : Prop :=
  ∃ state clock task,
    Takes configs actions state
      (.worker worker (.resumeTask index (.decision (.ok decision)) clock)) ∧
    (state.workers worker).tasks[index]? = some task ∧ task.cancelRequested = false ∧
    task.phase = phase

private theorem CallJudged.snoc (judged : CallJudged configs actions worker position phase decision)
    (action : Action) :
    CallJudged configs (actions ++ [action]) worker position phase decision := by
  obtain ⟨state, clock, call, takes, rest⟩ := judged
  exact ⟨state, clock, call, takes.snoc action, rest⟩

theorem TaskJudged.snoc (judged : TaskJudged configs actions worker index phase decision)
    (action : Action) : TaskJudged configs (actions ++ [action]) worker index phase decision := by
  obtain ⟨state, clock, task, takes, rest⟩ := judged
  exact ⟨state, clock, task, takes.snoc action, rest⟩

/-- The call was made with a message that is stripped to this content, and all but the
remaining input guardrails have allowed it. -/
structure Screened (configs : String → Config) (actions : List Action) (worker : String)
    (position : Nat) (start : StartRequest) (remaining : Nat) : Prop where
  asked : ∃ state method ambient message,
    Takes configs actions state (.worker worker (.invoke method ambient)) ∧
    position = (state.workers worker).calls.length ∧ method.message = some message ∧
    start.content = strip message
  allowed : CountedDown (configs worker).inputGuardrails remaining fun left => ∃ decision,
    CallJudged configs actions worker position (.checkingInput start left) decision ∧
      decision.allowed = true

theorem Screened.snoc (screened : Screened configs actions worker position request remaining)
    (action : Action) :
    Screened configs (actions ++ [action]) worker position request remaining := by
  obtain ⟨⟨state, method, ambient, message, takes, rest⟩, allowed⟩ := screened
  refine ⟨⟨state, method, ambient, message, takes.snoc action, rest⟩, allowed.mono ?_⟩
  rintro left ⟨decision, judged, allows⟩
  exact ⟨decision, judged.snoc action, allows⟩

/-- A task runs for a call of which every input guardrail has allowed the content, and all
but the remaining output guardrails have allowed the result that it checks or commits. -/
structure Cleared (configs : String → Config) (actions : List Action) (worker : String)
    (index : Nat) (task : Task) : Prop where
  input : ∃ position start state call,
    Visits configs actions state ∧ (state.workers worker).calls[position]? = some call ∧
    call.phase = .reserving start ∧ call.owned = some task.run ∧
    start.content = task.userContent ∧ Screened configs actions worker position start 0
  output : task.phase.checking = some (result, remaining) →
    CountedDown (configs worker).outputGuardrails remaining fun left => ∃ decision,
      TaskJudged configs actions worker index (.checkingOutput result left) decision ∧
        decision.allowed = true

private theorem Cleared.snoc {task later : Task}
    (cleared : Cleared configs actions worker index task)
    (action : Action) (origin : task.SameOrigin later)
    (output : ∀ result remaining, later.phase.checking = some (result, remaining) →
      CountedDown (configs worker).outputGuardrails remaining fun left => ∃ decision,
        TaskJudged configs (actions ++ [action]) worker index (.checkingOutput result left)
          decision ∧ decision.allowed = true) :
    Cleared configs (actions ++ [action]) worker index later := by
  obtain ⟨position, start, state, call, visits, found, reserving, owned, content, screened⟩ :=
    cleared.input
  refine ⟨⟨position, start, state, call, visits.snoc action, found, reserving, ?_, ?_,
    screened.snoc action⟩, output _ _⟩
  · rw [owned, origin.1]
  · rw [content, origin.2.2]

private theorem Cleared.kept {task : Task} (cleared : Cleared configs actions worker index task)
    (action : Action) (checking : task.phase.checking = some (result, remaining)) :
    CountedDown (configs worker).outputGuardrails remaining fun left => ∃ decision,
      TaskJudged configs (actions ++ [action]) worker index (.checkingOutput result left)
        decision ∧ decision.allowed = true := by
  refine (cleared.output checking).mono ?_
  rintro left ⟨decision, judged, allowed⟩
  exact ⟨decision, judged.snoc action, allowed⟩

/-- The two contents of a turn are the input that a call of the worker reserved the run with
and the result that a task of the worker committed for it, and every guardrail has allowed
them. -/
structure Approved (configs : String → Config) (actions : List Action) (ref : String)
    (request : CommitRunRequest) (worker : String) (position index : Nat) (start : StartRequest)
    (result : AgentResult) : Prop where
  reserved : ∃ state call run, Visits configs actions state ∧
    (state.workers worker).calls[position]? = some call ∧ call.phase = .reserving start ∧
    call.owned = some run ∧ run.id = ref
  executed : ∃ state task, Visits configs actions state ∧
    (state.workers worker).tasks[index]? = some task ∧ task.run.id = ref ∧
    task.phase = .committing result
  user : start.content = request.userContent
  assistant : result.content = request.assistantContent
  input : Screened configs actions worker position start 0
  output : ∀ left, 0 < left → left ≤ (configs worker).outputGuardrails → ∃ decision,
    TaskJudged configs actions worker index (.checkingOutput result left) decision ∧
      decision.allowed = true

private theorem Approved.snoc
    (approved : Approved configs actions ref commit worker position index request result)
    (action : Action) :
    Approved configs (actions ++ [action]) ref commit worker position index request result := by
  obtain ⟨⟨state, call, run, visits, reserved⟩, ⟨later, task, reaches, executed⟩, user, assistant,
    input, output⟩ := approved
  refine ⟨⟨state, call, run, visits.snoc action, reserved⟩,
    ⟨later, task, reaches.snoc action, executed⟩, user, assistant, input.snoc action, ?_⟩
  intro left positive bound
  obtain ⟨decision, judged, allowed⟩ := output left positive bound
  exact ⟨decision, judged.snoc action, allowed⟩

/-- A commit takes effect for a task that awaits it, with the contents of this task. -/
theorem Steps.committing (taken : before.Steps action after)
    (effected : before.effected action = some (.commitRunSuccess ref request)) :
    ∃ (worker : String) (index : Nat) (task : Task) (result : AgentResult),
      (before.workers worker).tasks[index]? = some task ∧
      task.run.id = ref ∧ task.phase = .committing result ∧
      task.userContent = request.userContent ∧ result.content = request.assistantContent := by
  obtain ⟨name, index, _, rfl, task, found, asks⟩ := taken.commits effected
  unfold Task.operation at asks
  split at asks <;> cases asks
  next result committing =>
    exact ⟨name, index, task, result, found, rfl, committing, rfl, rfl⟩

end Fleet

end DayuAgent
