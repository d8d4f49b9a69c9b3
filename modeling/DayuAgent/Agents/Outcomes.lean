import DayuAgent.Agents.Waiters
import DayuAgent.Memory.Fulfilment

namespace DayuAgent

open Library InMemorySessionStore

/-- What a task that ended with this outcome leaves of its run. Under `sole` nobody but the
task itself has made the run terminal. -/
def Concluded (sole : Prop) (store : InMemorySessionStore) (ref : String) (record : AgentRun) :
    Except PyException AgentResult → Prop
  | .ok result => Fulfilled store ref result
  | .error (.domain domain) => record.Terminal ∧ record.status ≠ .completed ∧
      (sole → record.status = .failed ∧ record.errorCode = some domain.errorCode)
  | .error .cancelled => record.Terminal ∧
      (record.status = .completed → ∃ result, Fulfilled store ref result)
  | .error _ => False

/-- What the store says of the run of a task, at each phase of the task. -/
structure Accounts (sole : Prop) (store : InMemorySessionStore) (record : AgentRun) (task : Task) :
    Prop where
  working : task.phase = .created ∨ task.phase.Body → ¬ task.Committed →
    record.status ≠ .completed ∧ (sole → record.Active)
  committed : task.phase = .committing result → task.answer = some (.ok reply) →
    Fulfilled store task.run.id result
  cancelling : task.phase = .cancelling →
    (record.status = .completed → ∃ result, Fulfilled store task.run.id result) ∧
    ∀ answer, task.answer = some answer → (∃ reply, answer = .ok reply) ∧ record.Terminal
  failing : task.phase = .failing error errorCode →
    (∃ domain, error = .domain domain ∧ domain.errorCode = errorCode) ∧
    record.status ≠ .completed ∧ (task.answer = none → sole → record.Active) ∧
    ∀ answer, task.answer = some answer → (∃ reply, answer = .ok reply) ∧ record.Terminal ∧
      (sole → record.status = .failed ∧ record.errorCode = some errorCode)
  finished : task.phase = .finished outcome → Concluded sole store task.run.id record outcome

variable {store after : InMemorySessionStore} {record next : AgentRun} {ambient : Ambient}

theorem Concluded.terminal {outcome : Except PyException AgentResult}
    (concluded : Concluded sole store ref record outcome)
    (found : store.runs.get? ref = some record) : record.Terminal := by
  unfold Concluded at concluded
  split at concluded
  · obtain ⟨own, present, completed, _⟩ := concluded.record
    rw [found] at present
    cases present
    simp [AgentRun.Terminal, completed, terminalRunStatuses]
  · exact concluded.1
  · exact concluded.1
  · exact concluded.elim

namespace Accounts

variable {task : Task}

theorem inBody (body : task.phase.Body)
    (working : ¬ task.Committed → record.status ≠ .completed ∧ (sole → record.Active))
    (committed : ∀ result reply, task.phase = .committing result →
      task.answer = some (.ok reply) → Fulfilled store task.run.id result) :
    Accounts sole store record task where
  working _ := working
  committed := committed _ _
  cancelling suspended := by
    rw [suspended] at body
    exact body.elim
  failing suspended := by
    rw [suspended] at body
    exact body.elim
  finished suspended := by
    rw [suspended] at body
    exact body.elim

theorem inCancelling (suspended : task.phase = .cancelling)
    (kept : record.status = .completed → ∃ result, Fulfilled store task.run.id result)
    (settled : ∀ answer, task.answer = some answer →
      (∃ reply, answer = .ok reply) ∧ record.Terminal) : Accounts sole store record task where
  working inside := by simp [suspended, Phase.Body] at inside
  committed other := by simp [suspended] at other
  cancelling _ := ⟨kept, settled⟩
  failing other := by simp [suspended] at other
  finished other := by simp [suspended] at other

theorem inFailing {domain : DayuAgentError}
    (suspended : task.phase = .failing (.domain domain) domain.errorCode)
    (open' : record.status ≠ .completed) (active : task.answer = none → sole → record.Active)
    (settled : ∀ answer, task.answer = some answer → (∃ reply, answer = .ok reply) ∧
      record.Terminal ∧
      (sole → record.status = .failed ∧ record.errorCode = some domain.errorCode)) :
    Accounts sole store record task where
  working inside := by simp [suspended, Phase.Body] at inside
  committed other := by simp [suspended] at other
  cancelling other := by simp [suspended] at other
  failing other := by
    rw [suspended] at other
    cases other
    exact ⟨⟨domain, rfl, rfl⟩, open', active, settled⟩
  finished other := by simp [suspended] at other

private theorem inFinished {outcome : Except PyException AgentResult}
    (suspended : task.phase = .finished outcome)
    (concluded : Concluded sole store task.run.id record outcome) :
    Accounts sole store record task where
  working inside := by simp [suspended, Phase.Body] at inside
  committed other := by simp [suspended] at other
  cancelling other := by simp [suspended] at other
  failing other := by simp [suspended] at other
  finished other := by
    rw [suspended] at other
    cases other
    exact concluded

/-- Others may end the run, but they neither complete it nor discard its result. -/
theorem kept (accounts : Accounts sole store record task)
    (found : store.runs.get? task.run.id = some record) (continues : Continues record next)
    (uncompleted : record.status ≠ .completed → next.status ≠ .completed)
    (active : sole → record.Active → next.Active)
    (fulfilled : ∀ result, Fulfilled store task.run.id result →
      Fulfilled after task.run.id result) : Accounts sole after next task where
  working inside uncommitted := by
    obtain ⟨open', still⟩ := accounts.working inside uncommitted
    exact ⟨uncompleted open', fun alone => active alone (still alone)⟩
  committed committing answered := fulfilled _ (accounts.committed committing answered)
  cancelling cancelling := by
    obtain ⟨kept, settled⟩ := accounts.cancelling cancelling
    refine ⟨fun completed => ?_, fun answer answered => ?_⟩
    · obtain ⟨result, former⟩ := kept (Classical.not_not.mp (mt uncompleted (· completed)))
      exact ⟨result, fulfilled result former⟩
    · obtain ⟨ok, terminal⟩ := settled answer answered
      exact ⟨ok, continues.terminal terminal⟩
  failing failing := by
    obtain ⟨origin, open', unanswered, settled⟩ := accounts.failing failing
    refine ⟨origin, uncompleted open', fun none alone => active alone (unanswered none alone),
      fun answer answered => ?_⟩
    obtain ⟨ok, terminal, coded⟩ := settled answer answered
    rw [continues.settled terminal]
    exact ⟨ok, terminal, coded⟩
  finished finished := by
    have concluded := accounts.finished finished
    obtain rfl := continues.settled (concluded.terminal found)
    unfold Concluded at concluded ⊢
    split at concluded
    · exact fulfilled _ concluded
    · exact concluded
    · refine ⟨concluded.1, fun completed => ?_⟩
      obtain ⟨result, former⟩ := concluded.2 completed
      exact ⟨result, fulfilled result former⟩
    · exact concluded

end Accounts

namespace Task

variable {config : Config} {task later : Task}

private theorem enter_accounts {phase : Phase} (body : phase.Body)
    (open' : record.status ≠ .completed ∧ (sole → record.Active)) :
    Accounts sole store record (task.enter phase) :=
  .inBody body (fun _ => open') fun _ _ _ answered => by contradiction

private theorem finished_accounts {outcome : Except PyException AgentResult}
    (concluded : Concluded sole store task.run.id record outcome) :
    Accounts sole store record (task.enter (.finished outcome)) := .inFinished rfl concluded

/-- Whatever the body raises, an `except` clause takes over. -/
theorem except_accounts (open' : record.status ≠ .completed ∧ (sole → record.Active))
    (error : PyException) : Accounts sole store record (task.except config error) := by
  have fails (domain : DayuAgentError) : Accounts sole store record
      (task.enter (.failing (.domain domain) domain.errorCode)) :=
    .inFailing rfl open'.1 (fun _ => open'.2) (by rintro _ ⟨⟩)
  cases error with
  | cancelled =>
    exact .inCancelling rfl (fun completed => (open'.1 completed).elim) (by rintro _ ⟨⟩)
  | domain domain => exact fails domain
  | keyError | other => exact fails (.new .providerError none (some config.origin))

theorem Goes.accounts (goes : task.Goes config later) (accounts : Accounts sole store record task)
    (inside : task.cancelRequested = true → task.phase.Body) :
    Accounts sole store record later := by
  have open' (working : task.Working) := accounts.working (.inr working.body) working.uncommitted
  cases goes with
  | begins unflagged created started =>
    refine enter_accounts trivial (accounts.working (.inl created) ?_)
    rintro ⟨_, _, committing, _⟩
    rw [created] at committing
    contradiction
  | continues working body => exact enter_accounts body (open' working)
  | loads working => exact enter_accounts trivial (open' working)
  | raises working => exact except_accounts (open' working) _
  | succeeds unflagged committing answered =>
    exact finished_accounts (accounts.committed committing answered)
  | reports unflagged failing answered =>
    obtain ⟨⟨domain, rfl, rfl⟩, uncompleted, _, settled⟩ := accounts.failing failing
    obtain ⟨_, terminal, coded⟩ := settled _ answered
    exact finished_accounts ⟨terminal, uncompleted, coded⟩
  | yields unflagged cancelling answered =>
    obtain ⟨kept, settled⟩ := accounts.cancelling cancelling
    exact finished_accounts ⟨(settled _ answered).2, kept⟩
  | @breaks error unflagged handler answered =>
    have ok : ∃ reply, (Except.error error : Except PyException Reply) = .ok reply := by
      cases suspended : task.phase with
      | cancelling => exact ((accounts.cancelling suspended).2 _ answered).1
      | failing => exact ((accounts.failing suspended).2.2.2 _ answered).1
      | _ => simp [suspended, Phase.Handler] at handler
    obtain ⟨_, same⟩ := ok
    contradiction
  | stops flagged outer =>
    have body := inside flagged
    rcases outer with created | handler
    · rw [created] at body
      exact body.elim
    · cases suspended : task.phase <;> simp_all [Phase.Body, Phase.Handler]
  | caught flagged body =>
    refine .inCancelling rfl (fun completed => ?_) (by rintro _ ⟨⟩)
    by_cases committed : task.Committed
    · obtain ⟨result, reply, committing, answered⟩ := committed
      exact ⟨result, accounts.committed committing answered⟩
    · exact ((accounts.working (.inr body) committed).1 completed).elim

theorem cancel_accounts (accounts : Accounts sole store record task) :
    Accounts sole store record task.cancel := by
  unfold cancel
  split
  · exact accounts
  · exact ⟨accounts.working, accounts.committed, accounts.cancelling, accounts.failing,
      accounts.finished⟩

end Task

theorem Task.operation_commits {task : Task} {config : Config} {operation : Operation}
    (asks : task.operation config = some operation)
    (commits : operation = .commitRunSuccess ref commit) :
    ref = task.run.id ∧ ∃ result, task.phase = .committing result := by
  subst commits
  unfold Task.operation at asks
  split at asks <;> cases asks
  exact ⟨rfl, _, ‹_›⟩

/-- No call of a task discards anything, and it publishes deltas only. -/
theorem Task.operation_keeps {task : Task} {config : Config} {operation : Operation}
    (asks : task.operation config = some operation) (sessionId : String) :
    ¬ operation.Discards sessionId ∧ operation.Publishes := by
  unfold Task.operation at asks
  split at asks <;> cases asks <;> first | exact ⟨id, trivial⟩ | exact ⟨id, rfl⟩

/-- The store has messages of completed runs only. -/
def Bound (store : InMemorySessionStore) : Prop :=
  ∀ {ref sessionId transcript message}, store.messages.get? sessionId = some transcript →
    message ∈ transcript → message.runId = some ref → store.CompletedIn ref sessionId

/-- A call other than the commit of the run does not complete it. -/
theorem InMemorySessionStore.Refines.uncompleted {operation : Operation}
    (refines : Refines store operation reply after)
    (found : store.runs.get? ref = some record) (present : after.runs.get? ref = some next)
    (other : ∀ request, operation ≠ .commitRunSuccess ref request)
    (open' : record.status ≠ .completed) : next.status ≠ .completed := by
  intro completed
  rcases refines.completes ⟨next, present, completed, rfl⟩ with ⟨own, read, former, _⟩ | commits
  · rw [found] at read
    cases read
    exact open' former
  · obtain ⟨request, same⟩ := commits
    exact other request same

/-- The store call of the task itself. -/
theorem Accounts.answered {task : Task} {config : Config} {operation : Operation}
    (accounts : Accounts sole store record task) (coherent : Coherent store) (bound : Bound store)
    (found : store.runs.get? task.run.id = some record)
    (tracked : Tracked store config.workerInstanceId task.run)
    (asks : task.operation config = some operation) (fresh : ambient.Fresh store)
    (unanswered : task.answer = none) :
    ∃ next, (operation.perform ambient store).2.runs.get? task.run.id = some next ∧
      Accounts sole (operation.perform ambient store).2 next
        { task with answer := some (operation.perform ambient store).1 } := by
  have refines := operation.performed_refines coherent fresh
  have commits {result : AgentResult} {reply : Reply} (committing : task.phase = .committing result)
      (answered : (operation.perform ambient store).1 = .ok reply) :
      Fulfilled (operation.perform ambient store).2 task.run.id result := by
    rw [Task.operation, committing] at asks
    cases asks
    exact commitRunSuccess_fulfils coherent _ (fun _ _ read _ => bound read) rfl answered
  have other (early : ∀ result, task.phase ≠ .committing result) (request : CommitRunRequest) :
      operation ≠ .commitRunSuccess task.run.id request := by
    intro same
    obtain ⟨_, result, committing⟩ := Task.operation_commits asks same
    exact early result committing
  have respects := (Task.operation_respects asks tracked).1
  have worker := (tracked.owner found).1
  obtain ⟨next, present, continues⟩ :=
    ((operation.performed_refines coherent fresh).keeps respects).found found
  refine ⟨next, present, ?_⟩
  have effects := task.effects coherent found worker asks ambient
  have fulfil (result : AgentResult) (former : Fulfilled store task.run.id result) :=
    refines.fulfilled coherent former found (Task.operation_keeps asks _).1
  have uncommitted : ¬ task.Committed := by
    rintro ⟨_, _, _, answered⟩
    rw [unanswered] at answered
    contradiction
  generalize (operation.perform ambient store).1 = reply at *
  generalize (operation.perform ambient store).2 = after at *
  cases effects with
  | early body open' read kept =>
    rw [present] at read
    cases read
    obtain ⟨uncompleted, active⟩ := accounts.working (.inr body) uncommitted
    refine .inBody body (fun _ => ⟨?_, fun alone => kept (active alone)⟩) ?_
    · exact refines.uncompleted found present (other open') uncompleted
    · exact fun result _ committing => (open' result committing).elim
  | @committed result reply _ _ _ _ committing =>
    refine .inBody (committing ▸ trivial)
      (fun open' => (open' ⟨result, reply, committing, rfl⟩).elim) ?_
    intro own _ suspended _
    rw [show task.phase = _ from suspended] at committing
    cases committing
    exact commits suspended rfl
  | lost committing idle =>
    rw [found] at present
    cases present
    have body : task.phase.Body := committing ▸ trivial
    refine .inBody body (fun _ => accounts.working (.inr body) uncommitted) ?_
    rintro _ _ _ ⟨⟩
  | @cancelled reply _ later cancelling read terminal =>
    rw [present] at read
    cases read
    refine .inCancelling cancelling (fun completed => ?_) ?_
    · have former : record.status = .completed := by
        by_contra unfinished
        exact refines.uncompleted found present (other (by simp [cancelling])) unfinished completed
      obtain ⟨result, fulfilled⟩ := (accounts.cancelling cancelling).1 former
      exact ⟨result, fulfil result fulfilled⟩
    · rintro _ ⟨⟩
      exact ⟨⟨reply, rfl⟩, terminal⟩
  | @failed error errorCode reply _ later failing read terminal coded =>
    rw [present] at read
    cases read
    obtain ⟨⟨domain, rfl, rfl⟩, uncompleted, active, _⟩ := accounts.failing failing
    refine .inFailing failing ?_ (by rintro ⟨⟩) ?_
    · exact refines.uncompleted found present (other (by simp [failing])) uncompleted
    · rintro _ ⟨⟩
      exact ⟨⟨reply, rfl⟩, terminal, fun alone => coded (active unanswered alone)⟩

namespace Fleet

variable {before after fleet : Fleet}

/-- The store call that takes effect in a step. -/
def effected (before : Fleet) : Action → Option Operation
  | .outside _ operation => some operation
  | .worker name (.callEffect index _ _) => ((before.workers name).calls[index]?).bind fun call =>
      call.phase.operation (before.workers name).config
  | .worker name (.taskEffect index _) => ((before.workers name).tasks[index]?).bind fun task =>
      task.operation (before.workers name).config
  | _ => none

/-- A cancellation of a task of the run is delivered inside its `try` body. -/
def DeliversInBody (before : Fleet) (ref : String) : Action → Prop
  | .worker name (.resumeTask index _ _) => ∀ task ∈ (before.workers name).tasks[index]?,
      task.run.id = ref → task.cancelRequested = true → task.phase.Body
  | _ => True

instance (before : Fleet) (ref : String) (action : Action) :
    Decidable (before.DeliversInBody ref action) := by
  unfold DeliversInBody
  split <;> infer_instance

/-- A step in the life of an execution that has begun: it is cancelled inside its `try` body
only, and nobody discards what a terminal run has left. -/
def Admissible (ref : String) (before : Fleet) (action : Action) : Prop :=
  before.DeliversInBody ref action ∧ ∀ record ∈ before.store.runs.get? ref, record.Terminal →
    ∀ operation ∈ before.effected action, ¬ operation.Discards record.sessionId

instance (ref : String) (before : Fleet) (action : Action) :
    Decidable (Admissible ref before action) := inferInstanceAs (Decidable (_ ∧ _))

/-- If the run ends in the step, its own task ends it. -/
def Unrivalled (ref : String) (before : Fleet) (action : Action) (after : Fleet) : Prop :=
  (∃ record ∈ before.store.runs.get? ref, record.Active) →
    (∃ record ∈ after.store.runs.get? ref, record.Terminal) → before.Executing ref action

instance (ref : String) (before : Fleet) (action : Action) (after : Fleet) :
    Decidable (Unrivalled ref before action after) := inferInstanceAs (Decidable (_ → _))

/-- An admissible step; under `sole` nobody but the task of the run ends it. -/
def AdmissibleSteps (sole : Prop) (ref : String) (before : Fleet) (action : Action)
    (after : Fleet) : Prop :=
  Steps before action after ∧ Admissible ref before action ∧
    (sole → Unrivalled ref before action after)

theorem Steps.effect (taken : before.Steps action after) (sound : before.Sound) :
    after.store = before.store ∨ ∃ operation reply, before.effected action = some operation ∧
      Refines before.store operation reply after.store := by
  cases action with
  | outside ambient operation =>
    obtain ⟨⟨outside, fresh, same⟩, _⟩ := outside_some taken
    rw [same]
    exact .inr ⟨operation, _, rfl, operation.perform_refines sound.coherent fresh rfl⟩
  | worker name act =>
    obtain ⟨changed, acted, _⟩ := worker_some taken
    generalize after.store = later at acted
    cases Supervisor.act_some acted with
    | invoked | callResumed | taskResumed | taskRemoved => exact .inl rfl
    | callAnswered found asks fresh skipped =>
      refine .inr ⟨_, _, ?_, Operation.performSkipping_refines _ sound.coherent fresh skipped⟩
      simp [effected, found, asks]
    | taskAnswered found unanswered asks fresh =>
      refine .inr ⟨_, _, ?_, Operation.perform_refines _ sound.coherent fresh rfl⟩
      simp [effected, found, asks]

/-- Only a task commits a run. -/
theorem Steps.commits (taken : before.Steps action after)
    (effected : before.effected action = some (.commitRunSuccess ref request)) :
    ∃ name index ambient, action = .worker name (.taskEffect index ambient) ∧
      ∃ task, (before.workers name).tasks[index]? = some task ∧
        task.operation (before.workers name).config = some (.commitRunSuccess ref request) := by
  unfold Fleet.effected at effected
  split at effected
  · obtain ⟨⟨outside, _⟩, _⟩ := outside_some taken
    cases effected
    exact outside.elim
  · obtain ⟨call, _, asks⟩ := Option.bind_eq_some_iff.mp effected
    unfold CallPhase.operation at asks
    split at asks <;> cases asks
  · next name index ambient =>
    obtain ⟨task, found, asks⟩ := Option.bind_eq_some_iff.mp effected
    exact ⟨name, index, ambient, rfl, task, found, asks⟩
  · contradiction

/-- No other step completes a run. -/
theorem Steps.uncompleted (taken : before.Steps action after) (sound : before.Sound)
    (other : ¬ before.Executing ref action) (found : before.store.runs.get? ref = some record)
    (present : after.store.runs.get? ref = some next) (open' : record.status ≠ .completed) :
    next.status ≠ .completed := by
  rcases taken.effect sound with same | ⟨operation, reply, effected, refines⟩
  · rw [same, found] at present
    cases present
    exact open'
  · refine refines.uncompleted found present ?_ open'
    rintro request rfl
    obtain ⟨_, _, _, rfl, task, found, asks⟩ := taken.commits effected
    exact other ⟨task, found, (Task.operation_commits asks rfl).1.symm⟩

private theorem AdmissibleSteps.fulfilled (taken : AdmissibleSteps sole ref before action after)
    (sound : before.Sound) (fulfilled : Fulfilled before.store ref result) :
    Fulfilled after.store ref result := by
  obtain ⟨record, found, completed, _⟩ := fulfilled.record
  rcases taken.1.effect sound with same | ⟨operation, reply, effected, refines⟩
  · rw [same]
    exact fulfilled
  · have terminal : record.Terminal := by simp [AgentRun.Terminal, completed, terminalRunStatuses]
    exact refines.fulfilled sound.coherent fulfilled found
      (taken.2.1.2 record found terminal operation effected)

/-- The task that executes the run and the call that is about to create it are accounted for. -/
structure Accounted (sole : Prop) (ref : String) (fleet : Fleet) : Prop where
  task {index : Nat} {task : Task} : (fleet.workers worker).tasks[index]? = some task →
    task.run.id = ref →
    ∃ record, fleet.store.runs.get? ref = some record ∧ Accounts sole fleet.store record task
  call {position : Nat} {call : MethodCall} : (fleet.workers worker).calls[position]? = some call →
    call.owned = some run → run.id = ref → ∃ record, fleet.store.runs.get? ref = some record ∧
      record.status ≠ .completed ∧ (sole → record.Active)

theorem start_accounted (configs : String → Config) (sole : Prop) (ref : String) :
    Accounted sole ref (start configs) where
  task found := by simp [start, Supervisor.new] at found
  call found := by simp [start, Supervisor.new] at found

section Admissible

variable (taken : AdmissibleSteps sole ref before action after) (sound : before.Sound)
variable (accounted : Accounted sole ref before)
include taken

theorem AdmissibleSteps.active (other : ¬ before.Executing ref action)
    (found : before.store.runs.get? ref = some record)
    (present : after.store.runs.get? ref = some next) (alone : sole) (active : record.Active) :
    next.Active := by
  refine (active_or_terminal next.status).resolve_right fun terminal => ?_
  exact other (taken.2.2 alone ⟨record, found, active⟩ ⟨next, present, terminal⟩)

include sound

private theorem AdmissibleSteps.kept (other : ¬ before.Executing ref action)
    (own : task.run.id = ref)
    (accounts : ∃ record, before.store.runs.get? ref = some record ∧
      Accounts sole before.store record task) :
    ∃ record, after.store.runs.get? ref = some record ∧ Accounts sole after.store record task := by
  obtain ⟨record, found, accounts⟩ := accounts
  obtain ⟨next, present, continues⟩ := (taken.1.keeps sound).found found
  subst own
  exact ⟨next, present, accounts.kept found continues
    (taken.1.uncompleted sound other found present) (taken.active other found present)
    fun _ fulfilled => taken.fulfilled sound fulfilled⟩

include accounted

/-- The task of the run itself calls the store. -/
theorem AdmissibleSteps.executing (bound : Bound before.store)
    (executing : before.Executing ref action) : Accounted sole ref after := by
  have later := taken.1.sound sound
  obtain ⟨name, index, ambient, rfl, former, found, rfl⟩ := executing.effect
  obtain ⟨record, recorded, accounts⟩ := accounted.task found rfl
  obtain ⟨changed, acted, same⟩ := worker_some taken.1
  have custody := sound.custody name
  have tracked := custody.executing found
  rw [← custody.identity] at tracked
  obtain ⟨next, present, settled, answered⟩ : ∃ next, after.store.runs.get? former.run.id =
      some next ∧ ∃ task, (after.workers name).tasks[index]? = some task ∧
        task.run = former.run ∧ Accounts sole after.store next task := by
    rw [same, Function.update_self]
    generalize after.store = store at acted
    cases Supervisor.act_some acted with
    | @taskAnswered _ _ task operation read unanswered asks fresh =>
      rw [found] at read
      cases read
      obtain ⟨next, present, answered⟩ :=
        accounts.answered sound.coherent bound recorded tracked asks fresh unanswered
      exact ⟨next, present, _,
        List.getElem?_set_self (List.getElem?_eq_some_iff.mp found).1, rfl, answered⟩
  obtain ⟨read, own, answered⟩ := answered
  refine ⟨?_, ?_⟩
  · intro worker otherIndex task found' same'
    obtain ⟨rfl, rfl⟩ := later.sameTask read found' (by rw [own, same'])
    rw [read] at found'
    cases found'
    exact ⟨next, present, answered⟩
  · intro worker run position call found' owned same'
    exact (later.apart read found' owned (by rw [own, same'])).elim

private theorem AdmissibleSteps.task (other : ¬ before.Executing ref action) {index : Nat}
    {task : Task}
    (found : (after.workers worker).tasks[index]? = some task) (own : task.run.id = ref) :
    ∃ record, after.store.runs.get? ref = some record ∧ Accounts sole after.store record task := by
  have keeps {former : Task} (read : (before.workers worker).tasks[index]? = some former)
      (same : former.run.id = ref) :=
    taken.kept sound other same (accounted.task read same)
  rcases taken.1.views sound worker with ⟨act, rfl, acts⟩ | ⟨same, _, _⟩
  · cases acts.tasks found with
    | kept read => exact keeps read own
    | created acted read owned replaced entered next session content metadata streams same =>
      obtain ⟨record, recorded, open'⟩ := accounted.call read owned own
      rw [same]
      exact ⟨record, recorded, fun _ _ => open', nofun, nofun, nofun, nofun⟩
    | answered acted read =>
      cases acted
      exact (other ⟨_, read, own⟩).elim
    | resumed acted read goes same =>
      subst acted
      rw [goes.same.1] at own
      obtain ⟨record, recorded, accounts⟩ := accounted.task read own
      rw [same]
      exact ⟨record, recorded, goes.accounts accounts (taken.2.1.1 _ read own)⟩
    | signalled read | drained acted read =>
      rw [Task.cancel_run] at own
      obtain ⟨record, recorded, accounts⟩ := keeps read own
      exact ⟨record, recorded, Task.cancel_accounts accounts⟩
  · rw [same] at found
    exact keeps found own

private theorem AdmissibleSteps.call (other : ¬ before.Executing ref action) {position : Nat}
    {call : MethodCall} (found : (after.workers worker).calls[position]? = some call)
    (owned : call.owned = some run) (own : run.id = ref) :
    ∃ record, after.store.runs.get? ref = some record ∧ record.status ≠ .completed ∧
      (sole → record.Active) := by
  have kept (read : (before.workers worker).calls[position]? = some call) :
      ∃ record, after.store.runs.get? ref = some record ∧ record.status ≠ .completed ∧
        (sole → record.Active) := by
    obtain ⟨record, recorded, open', active⟩ := accounted.call read owned own
    obtain ⟨next, present, _⟩ := (taken.1.keeps sound).found recorded
    exact ⟨next, present, taken.1.uncompleted sound other recorded present open',
      fun alone => taken.active other recorded present alone (active alone)⟩
  rcases taken.1.views sound worker with ⟨act, rfl, acts⟩ | ⟨same, _, _⟩
  · rcases (acts.calls found).owning sound.coherent owned with read | ⟨_, _, present, _, active⟩
    · exact kept read
    · exact ⟨run, own ▸ present, not_completed_of_active active, fun _ => active⟩
  · rw [same] at found
    exact kept found

private theorem AdmissibleSteps.keepsAccounted (bound : Bound before.store) :
    Accounted sole ref after := by
  by_cases executing : before.Executing ref action
  · exact taken.executing sound accounted bound executing
  · exact ⟨taken.task sound accounted executing, taken.call sound accounted executing⟩

end Admissible

theorem run_bound (run : Run Steps (start configs) actions fleet) : Bound fleet.store := by
  obtain ⟨effects, edits⟩ := run_edits run
  exact (edits_ledger edits).bound

theorem run_accounted (run : Run (AdmissibleSteps sole ref) (start configs) actions fleet) :
    Accounted sole ref fleet := by
  induction run with
  | nil => exact start_accounted configs sole ref
  | snoc earlier last ih =>
    have steps := earlier.mono fun taken => taken.1
    exact AdmissibleSteps.keepsAccounted last (run_sound steps) ih (run_bound steps)

/-- The store calls of the fleet publish deltas only. -/
theorem Steps.publishes (taken : before.Steps action after)
    (effected : before.effected action = some operation) : operation.Publishes := by
  unfold Fleet.effected at effected
  split at effected
  · obtain ⟨⟨outside, _⟩, _⟩ := outside_some taken
    cases effected
    cases operation with
    | appendStreamEvent => exact outside.elim
    | _ => trivial
  · obtain ⟨call, _, asks⟩ := Option.bind_eq_some_iff.mp effected
    unfold CallPhase.operation at asks
    split at asks <;> cases asks <;> trivial
  · obtain ⟨task, _, asks⟩ := Option.bind_eq_some_iff.mp effected
    exact (Task.operation_keeps asks "").2
  · contradiction

private theorem Steps.told (taken : before.Steps action after) (sound : before.Sound)
    (logged : Logged Told before.store) : Logged Told after.store := by
  rcases taken.effect sound with same | ⟨operation, reply, effected, effects, edits, makes⟩
  · rw [same]
    exact logged
  · have each := makes_publishes makes (taken.publishes effected)
    clear makes
    have coherent := sound.coherent
    generalize after.store = store at edits
    induction edits with
    | nil => exact logged
    | snoc earlier edit ih =>
      exact edit.told (edits_coherent earlier coherent)
        (each _ (List.mem_append_right _ (List.mem_singleton_self _)))
        (ih fun effect member => each effect (List.mem_append_left _ member))

theorem run_told (run : Run Steps (start configs) actions fleet) : Logged Told fleet.store := by
  induction run with
  | nil => exact empty_logged Told
  | snoc earlier taken ih => exact Steps.told taken (run_sound earlier) ih

end Fleet

/-- Some transcript has a message of the run. -/
def Spoken (store : InMemorySessionStore) (ref : String) : Prop :=
  ∃ sessionId transcript, store.messages.get? sessionId = some transcript ∧
    ∃ message ∈ transcript, message.runId = some ref

/-- The record, the closing event and the assistant message of a run all say the result. -/
structure Delivered (store : InMemorySessionStore) (ref : String) (record : AgentRun)
    (result : AgentResult) : Prop where
  completed : record.status = .completed
  stored : record.result = some result.modelDump
  closed : ∃ log, store.events.get? ref = some log ∧
    (∃ event ∈ log, event.type = .responseCompleted) ∧
    ∀ event ∈ log, event.type = .responseCompleted →
      event.payload = [("result", .obj result.modelDump)]
  spoken : ∃ transcript request, store.messages.get? record.sessionId = some transcript ∧
    Turn transcript ref request ∧ request.assistantContent = result.content

/-- The caller of an ended task and the store agree on the outcome of its run. -/
structure Agreement (store : InMemorySessionStore) (ref : String) (record : AgentRun)
    (outcome : Except PyException AgentResult) : Prop where
  terminal : record.Terminal
  returned : outcome = .ok result → Delivered store ref record result
  otherwise : (∀ result, outcome ≠ .ok result) →
    (Spoken store ref ↔ record.status = .completed)
  raised : outcome = .error error → error = .cancelled ∨ ∃ domain, error = .domain domain

private theorem Fulfilled.spoken (fulfilled : Fulfilled store ref result) : Spoken store ref := by
  obtain ⟨record, _, _, _, transcript, request, read, turn, _⟩ := fulfilled.record
  obtain ⟨earlier, user, assistant, later, rfl, ⟨own, _⟩, _⟩ := turn
  exact ⟨record.sessionId, _, read, user, by simp, own⟩

theorem Spoken.completed (spoken : Spoken store ref) (bound : Bound store)
    (found : store.runs.get? ref = some record) : record.status = .completed := by
  obtain ⟨sessionId, transcript, read, message, member, own⟩ := spoken
  obtain ⟨other, present, completed, _⟩ := bound read member own
  rw [found] at present
  cases present
  exact completed

private theorem Fulfilled.delivered (fulfilled : Fulfilled store ref result)
    (logged : Logged Told store)
    (found : store.runs.get? ref = some record) : Delivered store ref record result := by
  obtain ⟨⟨own, present, completed, stored, spoken⟩, log, read, event, member, type, _⟩ := fulfilled
  rw [found] at present
  cases present
  refine ⟨completed, stored, ⟨log, read, ⟨event, member, type⟩, ?_⟩, spoken⟩
  intro other listed closing
  obtain ⟨_, dump, same, payload⟩ := logged.agrees found read other listed closing
  rw [stored] at same
  cases same
  exact payload

private theorem Concluded.agreement {outcome : Except PyException AgentResult}
    (concluded : Concluded sole store ref record outcome) (bound : Bound store)
    (logged : Logged Told store) (found : store.runs.get? ref = some record) :
    Agreement store ref record outcome := by
  refine ⟨concluded.terminal found, ?_, ?_, ?_⟩
  · rintro result rfl
    exact Fulfilled.delivered concluded logged found
  · intro unreturned
    refine ⟨fun spoken => spoken.completed bound found, fun completed => ?_⟩
    unfold Concluded at concluded
    split at concluded
    · exact (unreturned _ rfl).elim
    · exact (concluded.2.1 completed).elim
    · obtain ⟨result, fulfilled⟩ := concluded.2 completed
      exact fulfilled.spoken
    · exact concluded.elim
  · rintro error rfl
    cases error with
    | cancelled => exact .inl rfl
    | domain domain => exact .inr ⟨domain, rfl⟩
    | keyError | other => exact concluded.elim

/-- Foreign exceptions of the body are raised on as provider errors. -/
theorem Task.except_foreign {error : PyException} (task : Task) (config : Config)
    (foreign : ∀ domain, error ≠ .domain domain) (other : error ≠ .cancelled) :
    ∃ domain, (task.except config error).phase = .failing (.domain domain) domain.errorCode ∧
      domain.errorCode = "PROVIDER_ERROR" := by
  cases error with
  | domain domain => exact (foreign domain rfl).elim
  | cancelled => exact (other rfl).elim
  | keyError | other => exact ⟨.new .providerError none (some config.origin), rfl, rfl⟩

namespace Fleet

/-- When an execution ends that has been cancelled in its `try` body only, its run is terminal
and the caller and the store agree on the outcome. If nobody else has ended the run, a domain
error that the caller sees is the recorded failure, and a foreign exception is one of the
provider. -/
theorem caller_and_store_agree {index : Nat} {task : Task}
    (run : Run (AdmissibleSteps False task.run.id) (start configs) actions fleet)
    (found : (fleet.workers worker).tasks[index]? = some task)
    (finished : task.phase = .finished outcome) :
    ∃ record, fleet.store.runs.get? task.run.id = some record ∧
      Agreement fleet.store task.run.id record outcome ∧
      (Run (AdmissibleSteps True task.run.id) (start configs) actions fleet →
        ∀ domain, outcome = .error (.domain domain) →
          record.status = .failed ∧ record.errorCode = some domain.errorCode) ∧
      ∀ error, (∀ domain, error ≠ .domain domain) → error ≠ .cancelled →
        ∃ domain, (task.except (fleet.workers worker).config error).phase =
          .failing (.domain domain) domain.errorCode ∧ domain.errorCode = "PROVIDER_ERROR" := by
  have steps := run.mono fun taken => taken.1
  obtain ⟨record, recorded, accounts⟩ := (run_accounted run).task found rfl
  refine ⟨record, recorded, ?_, ?_, fun error => task.except_foreign _⟩
  · exact (accounts.finished finished).agreement (run_bound steps) (run_told steps) recorded
  · rintro alone domain rfl
    obtain ⟨other, present, accounts⟩ := (run_accounted alone).task found rfl
    rw [recorded] at present
    cases present
    exact (accounts.finished finished).2.2 trivial

/-- The domain error that a finished task raises. -/
def raisedBy : Phase → Option DayuAgentError
  | .finished (.error (.domain domain)) => some domain
  | _ => none

private theorem raisedBy_some {phase : Phase} (raised : raisedBy phase = some domain) :
    phase = .finished (.error (.domain domain)) := by
  unfold raisedBy at raised
  split at raised
  · cases raised
    rfl
  · contradiction

/-- A run whose provider is unavailable and may not be asked again. -/
def sampleFailure : List Act :=
  sampleAdmission ++ sampleStart ++ sampleAttempt ++
    [.resumeTask 0 (.response (.error (.domain (.new .providerError none none)))) sampleClock,
     .taskEffect 0 (.sample "a" "a"), .resumeTask 0 .wake sampleClock]

theorem caller_and_store_agree_sampleFailure : ∃ fleet task domain record,
    Run Steps (start sampleConfig) (schedule sampleFailure) fleet ∧
    (fleet.workers "worker").tasks[0]? = some task ∧
    task.phase = .finished (.error (.domain domain)) ∧
    fleet.store.runs.get? "run" = some record ∧
    Agreement fleet.store "run" record (.error (.domain domain)) ∧
    record.status = .failed ∧ record.errorCode = some domain.errorCode := by
  obtain ⟨fleet, run, task, found, own, failed⟩ : ∃ fleet,
      Run (fun before action after => admitted next (fun before action after =>
        Admissible "run" before action ∧ Unrivalled "run" before action after)
        before action = some after) (start sampleConfig) (schedule sampleFailure) fleet ∧
      ∃ task ∈ (fleet.workers "worker").tasks[0]?, task.run.id = "run" ∧
        (raisedBy task.phase).isSome :=
    follow_reaches (by decide +kernel)
  obtain ⟨domain, raised⟩ := Option.isSome_iff_exists.mp failed
  have finished := raisedBy_some raised
  have alone (sole : Prop) : Run (AdmissibleSteps sole task.run.id) (start sampleConfig)
      (schedule sampleFailure) fleet := by
    rw [own]
    exact run.mono fun taken => ⟨(admitted_some taken).1, (admitted_some taken).2.1,
      fun _ => (admitted_some taken).2.2⟩
  obtain ⟨record, recorded, agreement, coded, _⟩ :=
    caller_and_store_agree (alone False) found finished
  rw [own] at recorded agreement
  exact ⟨fleet, task, domain, record, (alone True).mono fun taken => taken.1, found, finished,
    recorded, agreement, coded (alone True) domain rfl⟩

end Fleet

end DayuAgent
