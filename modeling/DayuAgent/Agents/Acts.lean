import DayuAgent.Agents.Moves

namespace DayuAgent

open Library InMemorySessionStore

namespace Supervisor

/-- The steps of a supervisor, case by case. -/
inductive Acts (supervisor : Supervisor) (store : InMemorySessionStore) :
    Act → InMemorySessionStore → Supervisor → Prop where
  | invoked (method : Method) (ambient : Ambient) :
      Acts supervisor store (.invoke method ambient) store (supervisor.invoke method ambient)
  | callAnswered {index : Nat} {ambient : Ambient} {phase : CallPhase} {operation : Operation}
      (found : supervisor.calls[index]? = some { phase, answer := none })
      (asks : phase.operation supervisor.config = some operation)
      (fresh : ambient.Fresh store) (skipped : List String) :
      Acts supervisor store (.callEffect index ambient skipped)
        (operation.performSkipping skipped ambient store).2
        (supervisor.answerCall index phase (operation.performSkipping skipped ambient store).1)
  | callResumed {index : Nat} {call : MethodCall} {changed : Supervisor}
      (found : supervisor.calls[index]? = some call)
      (resumes : supervisor.Resumes index call changed) (input : Input) (clock : Clock) :
      Acts supervisor store (.resumeCall index input clock) store changed
  | taskAnswered {index : Nat} {ambient : Ambient} {task : Task} {operation : Operation}
      (found : supervisor.tasks[index]? = some task) (unanswered : task.answer = none)
      (asks : task.operation supervisor.config = some operation)
      (fresh : ambient.Fresh store) :
      Acts supervisor store (.taskEffect index ambient) (operation.perform ambient store).2
        (supervisor.answerTask index task (operation.perform ambient store).1)
  | taskResumed {index : Nat} {task later : Task} (found : supervisor.tasks[index]? = some task)
      (goes : task.Goes supervisor.config later) (metrics : RuntimeMetrics) (input : Input)
      (clock : Clock) :
      Acts supervisor store (.resumeTask index input clock) store
        { supervisor with tasks := supervisor.tasks.set index later, metrics }
  | taskRemoved {index : Nat} {task : Task} (found : supervisor.tasks[index]? = some task)
      (finished : task.Done) :
      Acts supervisor store (.taskDone index) store
        { supervisor with registry := supervisor.registry.erase task.run.id }

variable {supervisor changed : Supervisor} {store after : InMemorySessionStore}
variable {act : Act} {task : Task} {call : MethodCall}

theorem act_some (taken : supervisor.act store act = some (after, changed)) :
    supervisor.Acts store act after changed := by
  cases act with
  | invoke method ambient =>
    cases taken
    exact .invoked method ambient
  | callEffect index ambient skipped =>
    simp only [act, callEffect] at taken
    split at taken
    · next phase found =>
      split at taken
      · next operation asks =>
        split at taken
        · next fresh =>
          cases taken
          exact .callAnswered found asks fresh skipped
        · contradiction
      · contradiction
    · contradiction
  | resumeCall index input clock =>
    obtain ⟨_, resumed, same⟩ := Option.map_eq_some_iff.mp taken
    cases same
    obtain ⟨call, found, resumes⟩ := resumeCall_resumes resumed
    exact .callResumed found resumes input clock
  | taskEffect index ambient =>
    simp only [act, taskEffect] at taken
    split at taken
    · next task found =>
      split at taken
      · next operation unanswered asks =>
        split at taken
        · next fresh =>
          cases taken
          exact .taskAnswered found unanswered asks fresh
        · contradiction
      · contradiction
    · contradiction
  | resumeTask index input clock =>
    obtain ⟨_, resumed, same⟩ := Option.map_eq_some_iff.mp taken
    cases same
    unfold resumeTask at resumed
    split at resumed
    · contradiction
    · next task found =>
      obtain ⟨later, goes, same⟩ := Option.map_eq_some_iff.mp resumed
      cases same
      exact .taskResumed found (Task.resume_goes goes) _ input clock
  | taskDone index =>
    obtain ⟨_, removed, same⟩ := Option.map_eq_some_iff.mp taken
    cases same
    unfold taskDone at removed
    split at removed
    · contradiction
    · next task found =>
      split at removed
      · next finished =>
        cases removed
        exact .taskRemoved found finished
      · contradiction

/-- `task.cancel()` on each of some tasks. -/
theorem foldl_cancelTask (indices : List Nat) (supervisor : Supervisor) :
    indices.foldl cancelTask supervisor =
      { supervisor with tasks := (indices.foldl cancelTask supervisor).tasks } := by
  induction indices generalizing supervisor with
  | nil => rfl
  | cons index rest ih =>
    rw [List.foldl_cons, ih (supervisor.cancelTask index)]
    rfl

@[simp] theorem cancel_cancel (task : Task) : task.cancel.cancel = task.cancel := by
  by_cases finished : task.Done
  · simp [Task.cancel, finished]
  · have still : ¬ Task.Done { task with cancelRequested := true } := finished
    simp [Task.cancel, finished, still]

theorem tasks_foldl_cancelTask (indices : List Nat) (supervisor : Supervisor) (index : Nat) :
    (indices.foldl cancelTask supervisor).tasks[index]? =
      if index ∈ indices then supervisor.tasks[index]?.map Task.cancel
      else supervisor.tasks[index]? := by
  induction indices generalizing supervisor with
  | nil => simp
  | cons head rest ih =>
    rw [List.foldl_cons, ih]
    simp only [cancelTask, List.getElem?_modify, List.mem_cons]
    by_cases first : index = head
    · subst first
      by_cases again : index ∈ rest <;> cases supervisor.tasks[index]? <;> simp [again]
    · simp [first, Ne.symm first]

/-- Where a task of the changed supervisor comes from. -/
inductive TaskArises (supervisor : Supervisor) (store : InMemorySessionStore) (act : Act)
    (after : InMemorySessionStore) (changed : Supervisor) (index : Nat) : Task → Prop where
  | kept {task : Task} (found : supervisor.tasks[index]? = some task) :
      TaskArises supervisor store act after changed index task
  | created {position : Nat} {input : Input} {clock : Clock} {call : MethodCall} {run : AgentRun}
      {phase : CallPhase} {context : AgentContext}
      (taken : act = .resumeCall position input clock)
      (found : supervisor.calls[position]? = some call) (owned : call.owned = some run)
      (replaced : changed.calls = supervisor.calls.set position { phase, answer := none })
      (entered : changed.registry = supervisor.registry.set run.id index)
      (next : index = supervisor.tasks.length) (session : context.sessionId = run.sessionId)
      (content : String) (metadata : JsonObject) (streams : Bool) (same : after = store) :
      TaskArises supervisor store act after changed index
        (.new run context content metadata streams)
  | answered {task : Task} {operation : Operation} {ambient : Ambient}
      (taken : act = .taskEffect index ambient)
      (found : supervisor.tasks[index]? = some task) (unanswered : task.answer = none)
      (asks : task.operation supervisor.config = some operation) (fresh : ambient.Fresh store)
      (effect : after = (operation.perform ambient store).2) :
      TaskArises supervisor store act after changed index
        { task with answer := some (operation.perform ambient store).1 }
  | resumed {input : Input} {clock : Clock} {task later : Task}
      (taken : act = .resumeTask index input clock)
      (found : supervisor.tasks[index]? = some task)
      (goes : task.Goes supervisor.config later) (same : after = store) :
      TaskArises supervisor store act after changed index later
  | signalled {task : Task} {call : MethodCall} {runId : String} {outcome : CancelResult}
      (found : supervisor.tasks[index]? = some task) (member : call ∈ supervisor.calls)
      (cancelling : call.phase = .cancelling runId)
      (answered : call.answer = some (.ok (.cancel outcome)))
      (cancelled : outcome.run.status = .cancelled)
      (registered : supervisor.registry.get? runId = some index) (same : after = store) :
      TaskArises supervisor store act after changed index task.cancel
  | drained {position : Nat} {input : Input} {clock : Clock} {task : Task} {call : MethodCall}
      (taken : act = .resumeCall position input clock)
      (found : supervisor.tasks[index]? = some task)
      (drains : supervisor.calls[position]? = some call)
      (interrupting : call.phase = .interrupting) (same : after = store) :
      TaskArises supervisor store act after changed index task.cancel

theorem tasks_invoke (method : Method) (ambient : Ambient) :
    (supervisor.invoke method ambient).tasks = supervisor.tasks := by
  cases method <;> rfl

private theorem Resumes.tasks (resumes : supervisor.Resumes position call changed)
    (found : supervisor.calls[position]? = some call)
    (present : changed.tasks[index]? = some task) (input : Input) (clock : Clock) :
    TaskArises supervisor store (.resumeCall position input clock) store changed index task := by
  have member : call ∈ supervisor.calls := List.mem_of_getElem? found
  cases resumes with
  | settles => exact .kept present
  | readmits => exact .kept present
  | @creates start reservation reserving answered owns =>
    simp only [settle, createTask, List.getElem?_append] at present
    split at present
    · exact .kept present
    · next beyond =>
      obtain ⟨single, same⟩ := List.getElem?_eq_some_iff.mp present
      have next : index = supervisor.tasks.length := by
        simp only [List.length_singleton] at single
        omega
      subst next
      simp only [List.getElem_singleton] at same
      subst same
      exact .created rfl found (by simp [MethodCall.owned, reserving, answered, owns]) rfl rfl
        rfl rfl start.content start.metadata start.streaming rfl
  | @signals runId outcome other cancelling answered cancelled registered unfinished =>
    simp only [settle, cancelTask, List.getElem?_modify] at present
    obtain ⟨former, read, same⟩ := Option.map_eq_some_iff.mp present
    split at same
    · next hit =>
      subst hit same
      exact .signalled read member cancelling answered cancelled registered rfl
    · subst same
      exact .kept read
  | drains interrupting answered =>
    rw [show (settle _ _ _).tasks = (supervisor.registry.values.foldl cancelTask
      supervisor).tasks from rfl, tasks_foldl_cancelTask] at present
    split at present
    · obtain ⟨former, read, same⟩ := Option.map_eq_some_iff.mp present
      subst same
      exact .drained rfl read found interrupting rfl
    · exact .kept present

theorem Acts.tasks (acts : supervisor.Acts store act after changed)
    (present : changed.tasks[index]? = some task) :
    TaskArises supervisor store act after changed index task := by
  cases acts with
  | invoked method ambient =>
    rw [tasks_invoke] at present
    exact .kept present
  | callAnswered => exact .kept present
  | callResumed found resumes input clock => exact resumes.tasks found present input clock
  | @taskAnswered position ambient former operation found unanswered asks fresh =>
    simp only [answerTask, List.getElem?_set] at present
    split at present
    · next same =>
      subst same
      split at present
      · cases present
        exact .answered rfl found unanswered asks fresh rfl
      · contradiction
    · exact .kept present
  | @taskResumed position former later found goes =>
    simp only [List.getElem?_set] at present
    split at present
    · next same =>
      subst same
      split at present
      · cases present
        exact .resumed rfl found goes rfl
      · contradiction
    · exact .kept present
  | taskRemoved => exact .kept present

/-- The phases that a method call may begin with. -/
def Opens (method : Method) : CallPhase → Prop
  | .raised _ | .checkingInput _ _ | .reserving _ | .cancelling _ | .initializing => True
  | .interrupting => method = .shutdown
  | _ => False

/-- Where a method call of the changed supervisor comes from. -/
inductive CallArises (supervisor : Supervisor) (store : InMemorySessionStore) (act : Act)
    (after : InMemorySessionStore) (changed : Supervisor) (index : Nat) : MethodCall → Prop where
  | kept {call : MethodCall} (found : supervisor.calls[index]? = some call) :
      CallArises supervisor store act after changed index call
  | begun {method : Method} {ambient : Ambient} {phase : CallPhase}
      (invoked : act = .invoke method ambient) (next : index = supervisor.calls.length)
      (opens : Opens method phase) (same : after = store) :
      CallArises supervisor store act after changed index { phase, answer := none }
  | answered {phase : CallPhase} {operation : Operation} {ambient : Ambient}
      {skipped : List String} (taken : act = .callEffect index ambient skipped)
      (found : supervisor.calls[index]? = some { phase, answer := none })
      (asks : phase.operation supervisor.config = some operation) (fresh : ambient.Fresh store)
      (effect : after = (operation.performSkipping skipped ambient store).2) :
      CallArises supervisor store act after changed index
        { phase, answer := some (operation.performSkipping skipped ambient store).1 }
  | resumed {input : Input} {clock : Clock} {call later : MethodCall}
      (taken : act = .resumeCall index input clock)
      (found : supervisor.calls[index]? = some call)
      (resumes : supervisor.Resumes index call changed)
      (present : changed.calls[index]? = some later) (unanswered : later.answer = none)
      (same : after = store) : CallArises supervisor store act after changed index later

private theorem startPhase_opens (method : Method) (message : String)
    (sessionId userId : Option String)
    (metadata : Option JsonObject) (requestId idempotencyKey : Option String) (streaming : Bool)
    (ambient : Ambient) : Opens method (supervisor.startPhase message sessionId userId metadata
      requestId idempotencyKey streaming ambient) := by
  unfold startPhase
  split
  · trivial
  · unfold checkInput
    split <;> trivial

theorem invoke_calls (supervisor : Supervisor) (method : Method) (ambient : Ambient) :
    ∃ phase, Opens method phase ∧
      (supervisor.invoke method ambient).calls =
        supervisor.calls ++ [{ phase, answer := none }] := by
  cases method with
  | run | startStream => exact ⟨_, startPhase_opens .., rfl⟩
  | cancel runId => exact ⟨.cancelling runId, trivial, rfl⟩
  | shutdown => exact ⟨.interrupting, rfl, rfl⟩
  | _ => exact ⟨.initializing, trivial, rfl⟩

theorem settle_some (present : (supervisor.settle index phase).calls[index]? = some call) :
    call = { phase, answer := none } := by
  simp only [settle, List.getElem?_set, ↓reduceIte] at present
  split at present
  · cases present
    rfl
  · contradiction

theorem Resumes.calls (resumes : supervisor.Resumes index call changed) :
    ∃ phase, changed.calls = supervisor.calls.set index { phase, answer := none } := by
  cases resumes with
  | settles | readmits | creates | signals => exact ⟨_, rfl⟩
  | @drains interrupted =>
    refine ⟨.gathering supervisor.registry.values interrupted, ?_⟩
    rw [foldl_cancelTask]
    rfl

/-- No call comes to interrupt runs but by its invocation. -/
theorem Leads.not_interrupting (leads : supervisor.Leads call phase) : phase ≠ .interrupting := by
  cases leads with
  | guarded =>
    unfold checkInput
    split <;> simp
  | replayed =>
    unfold waitForResult
    split
    · simp
    · split <;> simp
  | polled =>
    unfold Supervisor.polled
    split <;> simp
  | _ => simp

theorem Resumes.not_interrupting {later : MethodCall}
    (resumes : supervisor.Resumes index call changed)
    (present : changed.calls[index]? = some later) : later.phase ≠ .interrupting := by
  cases resumes with
  | settles unowned leads =>
    obtain rfl := settle_some present
    exact leads.not_interrupting
  | readmits | signals | drains =>
    obtain rfl := settle_some present
    simp
  | creates =>
    obtain rfl := settle_some present
    split <;> simp

theorem Acts.calls (acts : supervisor.Acts store act after changed)
    (present : changed.calls[index]? = some call) :
    CallArises supervisor store act after changed index call := by
  cases acts with
  | invoked method ambient =>
    obtain ⟨phase, opens, same⟩ := supervisor.invoke_calls method ambient
    rw [same, List.getElem?_append] at present
    split at present
    · exact .kept present
    · next beyond =>
      obtain ⟨single, same⟩ := List.getElem?_eq_some_iff.mp present
      have next : index = supervisor.calls.length := by
        simp only [List.length_singleton] at single
        omega
      subst next
      simp only [List.getElem_singleton] at same
      subst same
      exact .begun rfl rfl opens rfl
  | @callAnswered position ambient phase operation found asks fresh skipped =>
    simp only [answerCall, List.getElem?_set] at present
    split at present
    · next same =>
      subst same
      split at present
      · cases present
        exact .answered rfl found asks fresh rfl
      · contradiction
    · exact .kept present
  | @callResumed position former _ found resumes =>
    obtain ⟨phase, same⟩ := resumes.calls
    by_cases own : position = index
    · subst own
      refine .resumed rfl found resumes present ?_ rfl
      rw [same, List.getElem?_set_self (List.getElem?_eq_some_iff.mp found).1] at present
      cases present
      rfl
    · rw [same, List.getElem?_set_ne own] at present
      exact .kept present
  | taskAnswered | taskResumed | taskRemoved => exact .kept present

end Supervisor

end DayuAgent
