import DayuAgent.Agents.Custody

namespace DayuAgent

open Library InMemorySessionStore

def Metric.isFinished : Metric → Bool
  | .runFinished _ _ _ => true
  | _ => false

/-- The counters of provider calls, which say nothing about runs. -/
def Metric.Provider : Metric → Prop
  | .providerAttempt | .providerRetry => True
  | _ => False

namespace Task

/-- A cancellation is about to reach the task where no clause of the body catches it. -/
def Unheard (task : Task) : Prop :=
  task.cancelRequested = true ∧ (task.phase = .created ∨ task.phase.Handler)

/-- Whatever an `except` clause has asked the store has been answered without an error. -/
def Heeded (task : Task) : Prop :=
  task.phase.Handler → ∀ reply, task.answer = some reply → ∃ value, reply = .ok value

/-- The task goes on and counts provider calls at most. -/
structure Quiet (resumed : Resumed) : Prop where
  unfinished : ¬ resumed.task.Done
  metrics : ∀ metric ∈ resumed.metrics, metric.Provider

/-- The task ends and says so. -/
def Finishes (resumed : Resumed) : Prop :=
  resumed.task.Done ∧ ∃ duration failed cancelled,
    resumed.metrics = [.runFinished duration failed cancelled]

section Quiet

variable (config : Config) (task : Task)

theorem enter_quiet {phase : Phase} (open' : ∀ outcome, phase ≠ .finished outcome) :
    Quiet { task := task.enter phase } where
  unfinished finished := by
    obtain ⟨outcome, same⟩ := (done_iff _).mp finished
    exact open' outcome same
  metrics := by simp

theorem except_quiet (error : PyException) : Quiet { task := task.except config error } := by
  cases error <;> exact enter_quiet task (by simp)

theorem guarded_quiet (remaining : Nat) {waiting : Nat → Phase} {passed : Phase}
    (waits : ∀ remaining outcome, waiting remaining ≠ .finished outcome)
    (passes : ∀ outcome, passed ≠ .finished outcome) :
    Quiet { task := task.guarded remaining waiting passed } := by
  unfold guarded
  split
  · exact enter_quiet task passes
  · exact enter_quiet task (waits remaining)

theorem decided_quiet (verdict : Except Failure GuardrailDecision) (remaining : Nat)
    {waiting : Nat → Phase} {passed : Phase}
    (waits : ∀ remaining outcome, waiting remaining ≠ .finished outcome)
    (passes : ∀ outcome, passed ≠ .finished outcome) :
    Quiet { task := task.decided config verdict remaining waiting passed } := by
  unfold decided
  split
  · exact except_quiet config task _
  · split
    · exact guarded_quiet task _ waits passes
    · exact except_quiet config task _

theorem checkOutput_quiet (result : AgentResult) :
    Quiet { task := task.checkOutput config result } :=
  guarded_quiet task _ (by simp) (by simp)

private theorem dispatch_quiet : Quiet { task := task.dispatch config } := by
  unfold dispatch
  split
  · exact except_quiet config task _
  · unfold runTool
    split
    · exact guarded_quiet task _ (by simp) (by simp)
    · exact except_quiet config task _
  · exact enter_quiet task (by simp)

private theorem retry_quiet (attempt : Attempt) (error : DayuAgentError) (clock : Clock) :
    Quiet (task.retry config attempt error clock) := by
  unfold retry
  dsimp only
  split
  · exact ⟨(enter_quiet task (by simp)).unfinished, by simp [Metric.Provider]⟩
  · exact except_quiet config task _

theorem attemptFailed_quiet (attempt : Attempt) (error : PyException) (clock : Clock) :
    Quiet (task.attemptFailed config attempt error clock) := by
  unfold attemptFailed
  split
  · split
    · split
      · exact except_quiet config task _
      · exact retry_quiet config task _ _ _
    · exact except_quiet config task _
  · dsimp only
    split
    · exact except_quiet config task _
    · exact retry_quiet config task _ _ _
  · exact except_quiet config task _

private theorem startAttempt_quiet (started : ℚ) (durable : AgentRun) (clock : Clock) :
    Quiet (task.startAttempt config started durable clock) := by
  have next : ∀ {resumed : Resumed}, Quiet resumed →
      Quiet { resumed with metrics := .providerAttempt :: resumed.metrics } := by
    intro resumed quiet
    exact ⟨quiet.unfinished, List.forall_mem_cons.mpr ⟨trivial, quiet.metrics⟩⟩
  unfold startAttempt
  apply next
  split
  · exact attemptFailed_quiet config task _ _ _
  · exact enter_quiet task (by split <;> simp)

end Quiet

variable {config : Config} {task : Task} {clock : Clock} {resumed : Resumed}

private theorem answered_metrics {reply : Except PyException Reply}
    (taken : task.answered config reply clock = some resumed)
    (heeded : task.phase.Handler → ∃ value, reply = .ok value) :
    Quiet resumed ∨ Finishes resumed := by
  have broken : ∀ {error : PyException}, task.phase.Handler → reply = .error error → False := by
    rintro error handler rfl
    obtain ⟨value, same⟩ := heeded handler
    cases same
  unfold answered at taken
  split at taken <;> cases taken <;> rename_i suspended
  · exact .inl (dispatch_quiet config task)
  · exact .inl (enter_quiet _ (by simp))
  · exact .inl (startAttempt_quiet config task _ _ _)
  · exact .inl (enter_quiet task (by simp))
  · exact .inl (attemptFailed_quiet config task _ _ _)
  · exact .inr ⟨rfl, _, _, _, rfl⟩
  · exact .inr ⟨rfl, _, _, _, rfl⟩
  · exact .inr ⟨rfl, _, _, _, rfl⟩
  · exact .inr ⟨rfl, _, _, _, rfl⟩
  · exact (broken (suspended ▸ trivial) rfl).elim
  · exact (broken (suspended ▸ trivial) rfl).elim
  all_goals exact .inl (except_quiet config task _)

private theorem informed_metrics {input : Input}
    (taken : task.informed config input clock = some resumed) : Quiet resumed := by
  unfold informed at taken
  split at taken
  · cases taken
    exact enter_quiet _ (by simp)
  · cases taken
    exact decided_quiet config task _ _ (by simp) (by simp)
  · cases taken
    exact checkOutput_quiet config task _
  · cases taken
    exact except_quiet config task _
  · cases taken
    exact checkOutput_quiet config task _
  · cases taken
    exact attemptFailed_quiet config task _ _ _
  · cases taken
    exact attemptFailed_quiet config task _ _ _
  · cases taken
    exact attemptFailed_quiet config task _ _ _
  · cases taken
    exact attemptFailed_quiet config task _ _ _
  · cases taken
    exact attemptFailed_quiet config task _ _ _
  · split at taken
    · cases taken
      exact enter_quiet task (by simp)
    · cases taken
      exact enter_quiet task (by simp)
  · split at taken
    · cases taken
      exact checkOutput_quiet config task _
    · cases taken
      exact attemptFailed_quiet config task _ _ _
  · cases taken
    exact enter_quiet task (by simp)
  · cases taken
    exact decided_quiet config task _ _ (by simp) (by simp)
  · contradiction

/-- A resumption that ends the task says so, unless a cancellation is not heard. -/
theorem resume_metrics {input : Input} (taken : task.resume config input clock = some resumed)
    (heeded : task.Heeded) :
    ¬ task.Done ∧ (Quiet resumed ∧ ¬ task.Unheard ∨ Finishes resumed ∧ ¬ task.Unheard ∨
      task.Unheard ∧ resumed.task.Done ∧ resumed.metrics = []) := by
  refine ⟨(resume_goes taken).unfinished, ?_⟩
  unfold resume at taken
  split at taken
  · next flagged =>
    unfold interrupted at taken
    dsimp only at taken
    split at taken
    · contradiction
    · next suspended =>
      cases taken
      exact .inr (.inr ⟨⟨flagged, .inl suspended⟩, rfl, rfl⟩)
    · next suspended =>
      cases taken
      exact .inr (.inr ⟨⟨flagged, .inr (suspended ▸ trivial)⟩, rfl, rfl⟩)
    · next suspended =>
      cases taken
      exact .inr (.inr ⟨⟨flagged, .inr (suspended ▸ trivial)⟩, rfl, rfl⟩)
    · next unfinished fresh cancelling failing =>
      cases taken
      refine .inl ⟨enter_quiet _ (by simp), ?_⟩
      rintro ⟨_, created | handler⟩
      · exact fresh created
      · cases suspended : task.phase with
        | cancelling => exact cancelling suspended
        | failing error errorCode => exact failing error errorCode suspended
        | _ => simp [suspended, Phase.Handler] at handler
  · next unflagged =>
    have heard : ¬ task.Unheard := fun unheard => unflagged unheard.1
    split at taken
    · next reply answered =>
      rcases answered_metrics taken (fun handler => heeded handler _ answered) with quiet | ends
      · exact .inl ⟨quiet, heard⟩
      · exact .inr (.inl ⟨ends, heard⟩)
    · exact .inl ⟨informed_metrics taken, heard⟩

end Task

namespace Supervisor

/-- The tasks that have not ended. -/
def unfinished (supervisor : Supervisor) : Nat :=
  supervisor.tasks.countP fun task => ¬ task.Done

/-- The counters agree with the tasks, but for some ended tasks that have not said so. -/
structure Tally (silent : Nat) (supervisor : Supervisor) : Prop where
  total : supervisor.metrics.agentRunsTotal = supervisor.tasks.length
  active : supervisor.metrics.activeRuns = supervisor.unfinished + silent
  durations : supervisor.metrics.agentRunDurationCount + supervisor.metrics.activeRuns =
    supervisor.metrics.agentRunsTotal

/-- The step delivers a cancellation that no clause of the task hears. -/
def Drops (supervisor : Supervisor) : Act → Prop
  | .resumeTask index _ _ => ∃ task ∈ supervisor.tasks[index]?, task.Unheard
  | _ => False

/-- The calls of `run_finished` that a step makes for one task. -/
def reported (supervisor : Supervisor) (index : Nat) : Act → List Metric
  | .resumeTask position input clock =>
    if position = index then
      match supervisor.tasks[index]?.bind fun task => task.resume supervisor.config input clock with
      | some resumed => resumed.metrics.filter Metric.isFinished
      | none => []
    else []
  | _ => []

variable {supervisor changed : Supervisor} {store after : InMemorySessionStore} {act : Act}

theorem metrics_quiet {metrics : List Metric} (provider : ∀ metric ∈ metrics, metric.Provider)
    (counters : RuntimeMetrics) :
    (metrics.foldl RuntimeMetrics.observe counters).agentRunsTotal = counters.agentRunsTotal ∧
      (metrics.foldl RuntimeMetrics.observe counters).activeRuns = counters.activeRuns ∧
      (metrics.foldl RuntimeMetrics.observe counters).agentRunDurationCount =
        counters.agentRunDurationCount := by
  induction metrics generalizing counters with
  | nil => exact ⟨rfl, rfl, rfl⟩
  | cons metric rest ih =>
    obtain ⟨first, later⟩ := List.forall_mem_cons.mp provider
    cases metric with
    | runStarted | runFinished => exact first.elim
    | providerAttempt | providerRetry => exact ih later _

/-- Only the resumption of a task ends it. -/
theorem Acts.taskDone_iff (acts : supervisor.Acts store act after changed)
    (other : ∀ input clock, act ≠ .resumeTask index input clock) :
    changed.TaskDone index ↔ supervisor.TaskDone index := by
  have same : ∀ {task : Task}, changed.tasks[index]? = some task →
      (supervisor.tasks[index]? = none ∧ ¬ task.Done) ∨
        ∃ former, supervisor.tasks[index]? = some former ∧ (task.Done ↔ former.Done) := by
    intro task present
    cases acts.tasks present with
    | kept found => exact .inr ⟨_, found, Iff.rfl⟩
    | created _ _ _ _ _ next =>
      exact .inl ⟨List.getElem?_eq_none next.ge, by simp [Task.Done, Task.outcome, Task.new]⟩
    | answered _ found => exact .inr ⟨_, found, Iff.rfl⟩
    | resumed taken => exact (other _ _ taken).elim
    | signalled found | drained _ found => exact .inr ⟨_, found, Task.cancel_done _⟩
  constructor
  · rintro ⟨task, present, finished⟩
    rcases same present with ⟨_, open'⟩ | ⟨former, found, alike⟩
    · exact (open' finished).elim
    · exact ⟨former, found, alike.mp finished⟩
  · rintro ⟨former, found, finished⟩
    obtain ⟨later, present, _⟩ := acts.persists found
    rcases same present with ⟨absent, _⟩ | ⟨other, read, alike⟩
    · rw [found] at absent
      contradiction
    · cases found.symm.trans read
      exact ⟨later, present, alike.mpr finished⟩

/-- As many tasks of which the same have ended. -/
theorem unfinished_congr (length : changed.tasks.length = supervisor.tasks.length)
    (alike : ∀ index, changed.TaskDone index ↔ supervisor.TaskDone index) :
    changed.unfinished = supervisor.unfinished := by
  have same : changed.tasks.map (fun task => decide (¬ task.Done)) =
      supervisor.tasks.map fun task => decide (¬ task.Done) := by
    apply List.ext_getElem (by simpa using length)
    intro index here there
    simp only [List.length_map] at here there
    have one : changed.TaskDone index ↔ changed.tasks[index].Done := by
      simp [TaskDone, List.getElem?_eq_getElem here]
    have other : supervisor.TaskDone index ↔ supervisor.tasks[index].Done := by
      simp [TaskDone, List.getElem?_eq_getElem there]
    simp only [List.getElem_map, ← one, ← other, alike]
  have counts : ∀ tasks : List Task, tasks.countP (fun task => ¬ task.Done) =
      (tasks.map fun task => decide (¬ task.Done)).countP id := by
    intro tasks
    rw [List.countP_map]
    rfl
  rw [unfinished, unfinished, counts, counts, same]

theorem length_foldl_cancelTask (indices : List Nat) (supervisor : Supervisor) :
    (indices.foldl cancelTask supervisor).tasks.length = supervisor.tasks.length := by
  induction indices generalizing supervisor with
  | nil => rfl
  | cons index rest ih =>
    rw [List.foldl_cons, ih]
    exact List.length_modify _ _ _

/-- Only the resumption of a task ends runs, and only a reservation starts one. -/
theorem Acts.tallies (acts : supervisor.Acts store act after changed)
    (other : ∀ index input clock, act ≠ .resumeTask index input clock) :
    (changed.metrics = supervisor.metrics ∧ changed.tasks.length = supervisor.tasks.length) ∨
      ∃ task : Task, ¬ task.Done ∧ changed.metrics = supervisor.metrics.observe .runStarted ∧
        changed.tasks = supervisor.tasks ++ [task] := by
  cases acts with
  | invoked method => exact .inl (by cases method <;> exact ⟨rfl, rfl⟩)
  | callAnswered | taskRemoved => exact .inl ⟨rfl, rfl⟩
  | taskAnswered => exact .inl ⟨rfl, by simp [answerTask]⟩
  | taskResumed => exact (other _ _ _ rfl).elim
  | callResumed found resumes =>
    cases resumes with
    | settles | readmits => exact .inl ⟨rfl, rfl⟩
    | creates =>
      exact .inr ⟨_, by simp [Task.Done, Task.outcome, Task.new], rfl, rfl⟩
    | signals => exact .inl ⟨rfl, by simp [settle, cancelTask]⟩
    | drains =>
      refine .inl ⟨?_, length_foldl_cancelTask _ _⟩
      rw [foldl_cancelTask]
      rfl

theorem Tally.act_other (tally : Tally silent supervisor)
    (acts : supervisor.Acts store act after changed)
    (other : ∀ index input clock, act ≠ .resumeTask index input clock) :
    Tally silent changed := by
  rcases acts.tallies other with ⟨metrics, length⟩ | ⟨task, open', metrics, tasks⟩
  · have same := unfinished_congr length fun index => acts.taskDone_iff (other index)
    exact ⟨by rw [metrics, length, tally.total], by rw [metrics, same, tally.active],
      by rw [metrics, tally.durations]⟩
  · have total := tally.total
    have active := tally.active
    have durations := tally.durations
    have more : changed.unfinished = supervisor.unfinished + 1 := by
      simp [unfinished, tasks, open']
    constructor
    · simp [metrics, tasks, RuntimeMetrics.observe, total]
    · simp only [metrics, RuntimeMetrics.observe]
      omega
    · simp only [metrics, RuntimeMetrics.observe]
      omega

theorem resumeTask_some (taken : supervisor.act store (.resumeTask index input clock) =
    some (after, changed)) : ∃ task resumed, supervisor.tasks[index]? = some task ∧
      task.resume supervisor.config input clock = some resumed ∧
      changed = { supervisor with
        tasks := supervisor.tasks.set index resumed.task
        metrics := resumed.metrics.foldl RuntimeMetrics.observe supervisor.metrics } := by
  obtain ⟨_, moved, paired⟩ := Option.map_eq_some_iff.mp taken
  cases paired
  unfold resumeTask at moved
  split at moved
  · contradiction
  · next task found =>
    obtain ⟨resumed, went, rfl⟩ := Option.map_eq_some_iff.mp moved
    exact ⟨task, resumed, found, went, rfl⟩

/-- A task that ends without saying so leaves the gauge one too high. -/
theorem Tally.resume {task : Task} {resumed : Resumed} (tally : Tally silent supervisor)
    (found : supervisor.tasks[index]? = some task) (heeded : task.Heeded)
    (taken : task.resume supervisor.config input clock = some resumed) :
    ∃ more, Tally (silent + more)
        { supervisor with
          tasks := supervisor.tasks.set index resumed.task
          metrics := resumed.metrics.foldl RuntimeMetrics.observe supervisor.metrics } ∧
      (more = 0 ↔ ¬ task.Unheard) := by
  obtain ⟨bound, here⟩ := List.getElem?_eq_some_iff.mp found
  obtain ⟨running, outcome⟩ := Task.resume_metrics taken heeded
  have total := tally.total
  have active := tally.active
  have durations := tally.durations
  have positive : 0 < supervisor.unfinished := by
    apply List.countP_pos_iff.mpr
    exact ⟨task, List.mem_of_getElem? found, by simpa using running⟩
  have counted : ∀ (later : Task) (metrics : RuntimeMetrics),
      unfinished { supervisor with tasks := supervisor.tasks.set index later, metrics } =
        supervisor.unfinished - 1 + if later.Done then 0 else 1 := by
    intro later metrics
    rw [unfinished, List.countP_set bound, here]
    by_cases finished : later.Done <;> simp [unfinished, running, finished]
  rcases outcome with ⟨quiet, heard⟩ | ⟨⟨finished, duration, failed, cancelled, said⟩, heard⟩ |
    ⟨unheard, finished, none⟩
  · obtain ⟨sameTotal, sameActive, sameDurations⟩ :=
      metrics_quiet quiet.metrics supervisor.metrics
    have still := counted resumed.task (resumed.metrics.foldl RuntimeMetrics.observe
      supervisor.metrics)
    rw [if_neg quiet.unfinished] at still
    refine ⟨0, ⟨?_, ?_, ?_⟩, by simp [heard]⟩
    · simp only [sameTotal, List.length_set, total]
    · rw [still]
      simp only [sameActive]
      omega
    · simp only [sameActive, sameTotal, sameDurations]
      omega
  · have less := counted resumed.task
    rw [if_pos finished] at less
    refine ⟨0, ⟨?_, ?_, ?_⟩, by simp [heard]⟩
    · simp only [said, List.foldl_cons, List.foldl_nil, RuntimeMetrics.observe, List.length_set,
        total]
    · rw [less]
      simp only [said, List.foldl_cons, List.foldl_nil, RuntimeMetrics.observe]
      omega
    · simp only [said, List.foldl_cons, List.foldl_nil, RuntimeMetrics.observe]
      omega
  · have less := counted resumed.task
    rw [if_pos finished] at less
    refine ⟨1, ⟨?_, ?_, ?_⟩, by simp [unheard]⟩
    · simp only [none, List.foldl_nil, List.length_set, total]
    · rw [less]
      simp only [none, List.foldl_nil]
      omega
    · simp only [none, List.foldl_nil]
      omega

end Supervisor

theorem Task.Goes.unanswered {config : Config} {task later : Task}
    (goes : task.Goes config later) : later.answer = none := by
  cases goes with
  | @raises error => cases error <;> rfl
  | _ => rfl

theorem Task.cancel_heeded {task : Task} (heeded : task.Heeded) : task.cancel.Heeded := by
  unfold Task.cancel
  split <;> exact heeded

theorem Task.Effects.heeded {task : Task} {store after : InMemorySessionStore} {record : AgentRun}
    {reply : Except PyException Reply} (effects : task.Effects store record reply after)
    (handler : task.phase.Handler) : ∃ value, reply = .ok value := by
  cases effects with
  | early body => cases suspended : task.phase <;> simp_all [Phase.Body, Phase.Handler]
  | lost committing => simp [committing, Phase.Handler] at handler
  | committed | cancelled | failed => exact ⟨_, rfl⟩

namespace Fleet

/-- The step delivers a cancellation that a task of the worker does not hear. -/
def Drops (worker : String) (before : Fleet) : Action → Prop
  | .worker name act => name = worker ∧ (before.workers worker).Drops act
  | .outside _ _ => False

/-- Some step of the run does so. -/
def Dropped (origin : Fleet) (actions : List Action) (worker : String) : Prop :=
  ∃ earlier action later before, actions = earlier ++ action :: later ∧
    Run Steps origin earlier before ∧ before.Drops worker action

/-- The calls of `run_finished` that a step makes for one task of the worker. -/
def reported (worker : String) (index : Nat) (before : Fleet) : Action → List Metric
  | .worker name act => if name = worker then (before.workers worker).reported index act else []
  | .outside _ _ => []

/-- The calls of `run_finished` that a run makes for one task of the worker. -/
def reports (worker : String) (index : Nat) : Fleet → List Action → List Metric
  | _, [] => []
  | fleet, action :: rest => fleet.reported worker index action ++
    match fleet.next action with
    | some after => reports worker index after rest
    | none => []

variable {before after fleet origin : Fleet} {configs : String → Config} {actions : List Action}
variable {action : Action} {worker : String}

private theorem Steps.heeded (taken : before.Steps action after) (sound : before.Sound)
    (heeded : ∀ task ∈ (before.workers worker).tasks, task.Heeded) :
    ∀ task ∈ (after.workers worker).tasks, task.Heeded := by
  rcases taken.views sound worker with ⟨act, _, acts⟩ | ⟨same, _⟩
  · intro task member
    obtain ⟨index, present⟩ := List.mem_iff_getElem?.mp member
    cases acts.tasks present with
    | kept found => exact heeded _ (List.mem_of_getElem? found)
    | created => exact fun handler => handler.elim
    | answered _ found _ asks =>
      intro handler reply answered
      obtain ⟨_, _, _, effects⟩ :=
        Supervisor.asked_effects sound.coherent (sound.custody worker) found asks _
      cases answered
      exact effects.heeded handler
    | resumed _ found goes =>
      intro _ reply answered
      rw [goes.unanswered] at answered
      contradiction
    | signalled found => exact Task.cancel_heeded (heeded _ (List.mem_of_getElem? found))
    | drained _ found => exact Task.cancel_heeded (heeded _ (List.mem_of_getElem? found))
  · rw [same]
    exact heeded

theorem run_heeded (run : Run Steps (start configs) actions fleet) (worker : String) :
    ∀ task ∈ (fleet.workers worker).tasks, task.Heeded := by
  induction run with
  | nil => simp [start, Supervisor.new]
  | snoc earlier taken ih => exact Steps.heeded taken (run_sound earlier) ih

theorem dropped_snoc (run : Run Steps origin actions before) (action : Action) :
    Dropped origin (actions ++ [action]) worker ↔
      Dropped origin actions worker ∨ before.Drops worker action := by
  constructor
  · rintro ⟨earlier, other, later, between, same, reached, drops⟩
    rcases List.eq_nil_or_concat later with rfl | ⟨rest, last, rfl⟩
    · obtain ⟨rfl, single⟩ := List.append_inj' same rfl
      cases single
      have here : before = between := Run.deterministic run reached
      subst here
      exact .inr drops
    · rw [List.concat_eq_append, ← List.cons_append, ← List.append_assoc] at same
      obtain ⟨rfl, _⟩ := List.append_inj' same rfl
      exact .inl ⟨earlier, other, rest, between, rfl, reached, drops⟩
  · rintro (⟨earlier, other, later, between, rfl, reached, drops⟩ | drops)
    · exact ⟨earlier, other, later ++ [action], between, by simp, reached, drops⟩
    · exact ⟨actions, action, [], before, rfl, run, drops⟩

theorem reports_snoc (run : Run Steps origin actions before) (worker : String) (index : Nat)
    (action : Action) : reports worker index origin (actions ++ [action]) =
      reports worker index origin actions ++ before.reported worker index action := by
  induction actions generalizing origin with
  | nil =>
    obtain rfl := run.of_nil
    simp only [List.nil_append, reports]
    split <;> simp
  | cons first rest ih =>
    have whole : Run Steps origin ([] ++ first :: rest) before := run
    obtain ⟨start, middle, none, taken, further⟩ := whole.around
    obtain rfl := none.of_nil
    have next : origin.next first = some middle := taken
    simp only [List.cons_append, reports, next, List.append_assoc, ih further]

/-- A step resumes one task of the worker, or it ends none of them. -/
theorem resumes_or (worker : String) (action : Action) :
    (∃ index input clock, action = .worker worker (.resumeTask index input clock)) ∨
      ∀ index input clock, action ≠ .worker worker (.resumeTask index input clock) := by
  by_cases resumed : ∃ index input clock, action = .worker worker (.resumeTask index input clock)
  · exact .inl resumed
  · exact .inr fun index input clock same => resumed ⟨index, input, clock, same⟩

private theorem not_drops (other : ∀ index input clock,
    action ≠ .worker worker (.resumeTask index input clock)) : ¬ before.Drops worker action := by
  cases action with
  | outside => exact id
  | worker name act =>
    rintro ⟨rfl, drops⟩
    cases act with
    | resumeTask index input clock => exact other index input clock rfl
    | _ => exact drops

private theorem reported_nil (other : ∀ index input clock,
    action ≠ .worker worker (.resumeTask index input clock)) (index : Nat) :
    before.reported worker index action = [] := by
  cases action with
  | outside => rfl
  | worker name act =>
    by_cases own : name = worker
    · subst own
      rw [Fleet.reported, if_pos rfl]
      cases act with
      | resumeTask index input clock => exact (other index input clock rfl).elim
      | _ => rfl
    · rw [Fleet.reported, if_neg own]

/-- What a step says about the end of a task, as far as it hears every cancellation. -/
theorem Steps.reported (taken : before.Steps action after) (sound : before.Sound)
    (heeded : ∀ task ∈ (before.workers worker).tasks, task.Heeded)
    (hears : ¬ before.Drops worker action) (index : Nat) :
    (before.reported worker index action).length +
        (if (before.workers worker).TaskDone index then 1 else 0) =
      if (after.workers worker).TaskDone index then 1 else 0 := by
  rcases resumes_or worker action with ⟨position, input, clock, rfl⟩ | other
  · obtain ⟨changed, acted, same⟩ := worker_some taken
    obtain ⟨task, resumed, found, went, rfl⟩ := Supervisor.resumeTask_some acted
    rw [same, Function.update_self, Fleet.reported, if_pos rfl, Supervisor.reported]
    by_cases own : position = index
    · subst own
      obtain ⟨running, outcome⟩ :=
        Task.resume_metrics went (heeded task (List.mem_of_getElem? found))
      have bound := (List.getElem?_eq_some_iff.mp found).1
      have open' : ¬ (before.workers worker).TaskDone position := by
        rintro ⟨other, read, finished⟩
        cases found.symm.trans read
        exact running finished
      have later : Supervisor.TaskDone { before.workers worker with
          tasks := (before.workers worker).tasks.set position resumed.task
          metrics := resumed.metrics.foldl RuntimeMetrics.observe (before.workers worker).metrics }
          position ↔ resumed.task.Done := by
        simp [Supervisor.TaskDone, List.getElem?_set_self bound]
      simp only [↓reduceIte, found, Option.bind_some, went, open', later]
      rcases outcome with ⟨quiet, _⟩ | ⟨⟨finished, duration, failed, cancelled, said⟩, _⟩ |
        ⟨unheard, _⟩
      · have silent : resumed.metrics.filter Metric.isFinished = [] := by
          rw [List.filter_eq_nil_iff]
          intro metric member
          have provider := quiet.metrics metric member
          cases metric <;> simp_all [Metric.Provider, Metric.isFinished]
        simp [silent, quiet.unfinished]
      · rw [said, List.filter_cons_of_pos rfl]
        simp [finished]
      · exact (hears ⟨rfl, task, found, unheard⟩).elim
    · have alike : Supervisor.TaskDone { before.workers worker with
          tasks := (before.workers worker).tasks.set position resumed.task
          metrics := resumed.metrics.foldl RuntimeMetrics.observe (before.workers worker).metrics }
          index ↔ (before.workers worker).TaskDone index := by
        simp [Supervisor.TaskDone, List.getElem?_set_ne own]
      simp [own, alike]
  · rw [reported_nil other]
    have alike :
        (after.workers worker).TaskDone index ↔ (before.workers worker).TaskDone index := by
      rcases taken.views sound worker with ⟨act, rfl, acts⟩ | ⟨same, _⟩
      · apply acts.taskDone_iff
        rintro input clock rfl
        exact other index input clock rfl
      · rw [same]
    simp [alike]

private theorem Steps.tally (taken : before.Steps action after) (sound : before.Sound)
    (heeded : ∀ task ∈ (before.workers worker).tasks, task.Heeded)
    (tally : Supervisor.Tally silent (before.workers worker)) :
    ∃ more, Supervisor.Tally (silent + more) (after.workers worker) ∧
      (more = 0 ↔ ¬ before.Drops worker action) := by
  rcases resumes_or worker action with ⟨index, input, clock, rfl⟩ | other
  · obtain ⟨changed, acted, same⟩ := worker_some taken
    obtain ⟨task, resumed, found, went, rfl⟩ := Supervisor.resumeTask_some acted
    obtain ⟨more, tallied, none⟩ :=
      tally.resume found (heeded task (List.mem_of_getElem? found)) went
    refine ⟨more, ?_, ?_⟩
    · rw [same, Function.update_self]
      exact tallied
    · simp [none, Drops, Supervisor.Drops, found]
  · refine ⟨0, ?_, by simp [not_drops other]⟩
    rcases taken.views sound worker with ⟨act, rfl, acts⟩ | ⟨same, _⟩
    · apply tally.act_other acts
      rintro index input clock rfl
      exact other index input clock rfl
    · rw [same]
      exact tally

/-- The counters of a worker agree with its tasks, and every task that has ended said so
once. -/
structure Exact (origin : Fleet) (actions : List Action) (fleet : Fleet) (worker : String) :
    Prop where
  reports : ∀ index, (reports worker index origin actions).length =
    if (fleet.workers worker).TaskDone index then 1 else 0
  started : (fleet.workers worker).metrics.agentRunsTotal = (fleet.workers worker).tasks.length
  active : (fleet.workers worker).metrics.activeRuns = (fleet.workers worker).unfinished
  settled : (∀ task ∈ (fleet.workers worker).tasks, task.Done) →
    (fleet.workers worker).metrics.activeRuns = 0 ∧
      (fleet.workers worker).metrics.agentRunDurationCount =
        (fleet.workers worker).metrics.agentRunsTotal

private theorem run_tally (run : Run Steps (start configs) actions fleet) (worker : String) :
    ∃ silent, Supervisor.Tally silent (fleet.workers worker) ∧
      (silent = 0 ↔ ¬ Dropped (start configs) actions worker) := by
  induction run with
  | nil =>
    refine ⟨0, ⟨rfl, rfl, rfl⟩, ?_⟩
    simp [Dropped]
  | snoc earlier taken ih =>
    obtain ⟨silent, tally, none⟩ := ih
    obtain ⟨more, later, quiet⟩ := Steps.tally taken (run_sound earlier)
      (run_heeded earlier worker) tally
    refine ⟨silent + more, later, ?_⟩
    rw [dropped_snoc earlier, not_or, ← none, ← quiet]
    omega

private theorem run_reports (run : Run Steps (start configs) actions fleet)
    (heard : ¬ Dropped (start configs) actions worker) (index : Nat) :
    (reports worker index (start configs) actions).length =
      if (fleet.workers worker).TaskDone index then 1 else 0 := by
  induction run with
  | nil => simp [reports, start, Supervisor.new, Supervisor.TaskDone]
  | snoc earlier taken ih =>
    rw [dropped_snoc earlier, not_or] at heard
    have step := Steps.reported taken (run_sound earlier) (run_heeded earlier worker) heard.2 index
    rw [reports_snoc earlier, List.length_append, ih heard.1]
    omega

/-- The run metrics of a worker are exact if and only if every cancellation of a task reaches
it after its first step and outside its `except` clauses. -/
theorem run_metrics_exact_iff (run : Run Steps (start configs) actions fleet) (worker : String) :
    Exact (start configs) actions fleet worker ↔ ¬ Dropped (start configs) actions worker := by
  obtain ⟨silent, tally, none⟩ := run_tally run worker
  rw [← none]
  constructor
  · intro exact'
    have active := tally.active
    rw [exact'.active] at active
    omega
  · intro zero
    subst zero
    refine ⟨run_reports run (none.mp rfl), tally.total, tally.active, ?_⟩
    intro finished
    have none : (fleet.workers worker).unfinished = 0 := by
      simpa [Supervisor.unfinished, List.countP_eq_zero] using finished
    have active := tally.active
    have durations := tally.durations
    omega

/-- A stream whose run is cancelled before the created task takes its first step. -/
def earlyCancel : List Act :=
  [.invoke (.startStream "level?" none none none none none) (.sample "request" "trace"),
   .resumeCall 0 approval sampleClock] ++ sampleStart ++
    [.invoke (.cancel "run") (.sample "a" "a"), .callEffect 1 (.sample "a" "a") [],
     .resumeCall 1 .wake sampleClock, .resumeTask 0 .wake sampleClock]

theorem earlyCancel_reaches : ∃ fleet,
    Run Steps (start sampleConfig) (schedule earlyCancel) fleet ∧
      (fleet.workers "worker").metrics.activeRuns = 1 ∧
      ∀ task ∈ (fleet.workers "worker").tasks, task.Done :=
  follow_reaches (by decide +kernel)

/-- Once the only task has ended, the gauge still counts a run. -/
theorem gauge_leaks : ¬ ∀ (configs : String → Config) (worker : String)
    (actions : List Action) (fleet : Fleet), Run Steps (start configs) actions fleet →
    Exact (start configs) actions fleet worker := by
  intro exact'
  obtain ⟨fleet, run, active, finished⟩ := earlyCancel_reaches
  have settled := ((exact' _ "worker" _ fleet run).settled finished).1
  omega

theorem run_metrics_exact_iff_earlyCancel : ∃ fleet,
    Run Steps (start sampleConfig) (schedule earlyCancel) fleet ∧
      Dropped (start sampleConfig) (schedule earlyCancel) "worker" := by
  obtain ⟨fleet, run, active, finished⟩ := earlyCancel_reaches
  refine ⟨fleet, run, ?_⟩
  by_contra heard
  have settled := (((run_metrics_exact_iff run "worker").mpr heard).settled finished).1
  omega

end Fleet

end DayuAgent
