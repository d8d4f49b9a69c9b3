import DayuAgent.Agents.Custody

namespace DayuAgent

open Library InMemorySessionStore

/-- States of a task that it reaches only once its run is terminal, unless the worker
shuts down. -/
def Task.Closed (task : Task) : Prop :=
  task.cancelRequested = true ∨ task.phase = .cancelling ∨ task.Done ∨ task.Committed ∨
    (∃ error errorCode, task.phase = .failing error errorCode ∧ task.answer.isSome) ∨
    task.answer = some (.error .cancelled)

namespace Task

variable {config : Config} {task later : Task}

private theorem not_closed_of_body {phase : Phase} (body : phase.Body)
    (unflagged : task.cancelRequested = false) : ¬ (task.enter phase).Closed := by
  rintro (flagged | cancelling | finished | ⟨_, _, _, answered⟩ | ⟨_, _, _, answered⟩ | answered)
  · rw [show (task.enter phase).cancelRequested = task.cancelRequested from rfl,
      unflagged] at flagged
    contradiction
  · rw [show phase = .cancelling from cancelling] at body
    exact body
  · exact not_done_of_body (show (task.enter phase).phase.Body from body) finished
  · contradiction
  · contradiction
  · contradiction

/-- A resumption closes no task that was not closed before. -/
theorem Goes.closed (goes : task.Goes config later) (closed : later.Closed) : task.Closed := by
  cases goes with
  | begins unflagged suspended started =>
    have open' : ¬ (Task.enter { task with started } .marking).Closed :=
      not_closed_of_body trivial unflagged
    exact (open' closed).elim
  | continues working body => exact (not_closed_of_body body working.unflagged closed).elim
  | @loads history working loading answered started =>
    have open' : ¬ (Task.enter { task with request := some (task.providerRequest history) }
        (.incrementing started)).Closed := not_closed_of_body trivial working.unflagged
    exact (open' closed).elim
  | @raises error working origin =>
    by_cases same : error = .cancelled
    · exact .inr (.inr (.inr (.inr (.inr (origin same)))))
    · exfalso
      cases error with
      | cancelled => exact same rfl
      | domain | keyError | other =>
        simp [Closed, except, done_iff, Committed, enter, working.unflagged] at closed
  | succeeds unflagged committing answered =>
    exact .inr (.inr (.inr (.inl ⟨_, _, committing, answered⟩)))
  | reports unflagged failing answered =>
    exact .inr (.inr (.inr (.inr (.inl ⟨_, _, failing, by simp [answered]⟩))))
  | yields unflagged cancelling => exact .inr (.inl cancelling)
  | breaks unflagged handler answered =>
    cases suspended : task.phase with
    | cancelling => exact .inr (.inl suspended)
    | failing error errorCode =>
      exact .inr (.inr (.inr (.inr (.inl ⟨_, _, suspended, by simp [answered]⟩))))
    | _ => simp [suspended, Phase.Handler] at handler
  | stops flagged | caught flagged => exact .inl flagged

/-- A store call that closes a task has made its run terminal. -/
theorem Effects.closed {reply : Except PyException Reply}
    (effects : task.Effects store record reply after)
    (closed : Task.Closed { task with answer := some reply }) :
    task.Closed ∨ ∃ later, after.runs.get? task.run.id = some later ∧ later.Terminal := by
  cases effects with
  | early body open' found active loads domain =>
    left
    rcases closed with flagged | cancelling | finished | ⟨result, _, committing, _⟩ |
      ⟨_, _, failing, _⟩ | answered
    · exact .inl flagged
    · exact .inr (.inl cancelling)
    · exact .inr (.inr (.inl finished))
    · exact (open' result committing).elim
    · rw [show task.phase = _ from failing] at body
      exact body.elim
    · obtain ⟨error, same⟩ := domain _ (Option.some.inj answered)
      contradiction
  | committed committing running asked read found =>
    exact .inr ⟨_, found, by simp [completedRun, AgentRun.Terminal, terminalRunStatuses]⟩
  | lost committing =>
    left
    rcases closed with flagged | cancelling | finished | ⟨_, _, _, answered⟩ |
      ⟨_, _, failing, _⟩ | answered
    · exact .inl flagged
    · exact .inr (.inl cancelling)
    · exact .inr (.inr (.inl finished))
    · cases answered
    · rw [show task.phase = _ from failing] at committing
      contradiction
    · cases answered
  | cancelled cancelling found terminal => exact .inr ⟨_, found, terminal⟩
  | failed failing found terminal => exact .inr ⟨_, found, terminal⟩

end Task

/-- A worker serves: it is not shutting down, closed tasks have terminal runs, and every
active run of it has an executor. -/
structure Serving (worker : String) (store : InMemorySessionStore) (supervisor : Supervisor) :
    Prop where
  serving {position : Nat} {call : MethodCall} : supervisor.calls[position]? = some call →
    call.phase ≠ .interrupting
  closed {index : Nat} {task : Task} : supervisor.tasks[index]? = some task → task.Closed →
    ∃ record, store.runs.get? task.run.id = some record ∧ record.Terminal
  executed : store.runs.get? ref = some record → record.Active →
    record.workerInstanceId = worker →
    (∃ (index : Nat) (task : Task), supervisor.tasks[index]? = some task ∧ task.run.id = ref) ∨
      ∃ (position : Nat) (call : MethodCall) (run : AgentRun),
        supervisor.calls[position]? = some call ∧ call.owned = some run ∧ run.id = ref

theorem Serving.new (config : Config) (worker : String) : Serving worker .empty (.new config) where
  serving found := by simp [Supervisor.new] at found
  closed found := by simp [Supervisor.new] at found
  executed found := by simp [InMemorySessionStore.empty] at found

theorem Serving.stable (serves : Serving worker store supervisor)
    (spares : Spares worker store after) : Serving worker after supervisor where
  serving := serves.serving
  closed found closed := spares.keeps.terminal (serves.closed found closed)
  executed {ref record} present active own := by
    obtain ⟨earlier, former, wasActive, same⟩ := spares.wasActive present active own
    exact serves.executed former wasActive same

namespace Supervisor

variable {supervisor changed : Supervisor} {store after : InMemorySessionStore} {act : Act}
variable {index position : Nat}

section Serving

variable (acts : supervisor.Acts store act after changed) (coherent : Coherent store)
variable (custody : Custody worker store supervisor) (serves : Serving worker store supervisor)
include acts serves

private theorem Acts.serving_serving (other : ∀ ambient, act ≠ .invoke .shutdown ambient)
    {call : MethodCall} (found : changed.calls[position]? = some call) :
    call.phase ≠ .interrupting := by
  cases acts.calls found with
  | kept read => exact serves.serving read
  | @begun method ambient phase invoked next opens =>
    rintro rfl
    cases opens
    exact other ambient invoked
  | answered taken read =>
    have other := serves.serving read
    exact other
  | resumed taken read resumes present => exact resumes.not_interrupting present

include coherent custody

private theorem Acts.serving_closed {task : Task} (found : changed.tasks[index]? = some task)
    (closed : task.Closed) :
    ∃ record, after.runs.get? task.run.id = some record ∧ record.Terminal := by
  have keeps := (acts.guarantees coherent custody).1
  cases acts.tasks found with
  | kept read => exact keeps.terminal (serves.closed read closed)
  | created => simp [Task.Closed, Task.new, Task.done_iff, Task.Committed] at closed
  | @answered former operation ambient taken read unanswered asks fresh effect =>
    obtain ⟨record, recorded, _, effects⟩ := asked_effects coherent custody read asks ambient
    rcases effects.closed closed with before | settled
    · have settled := serves.closed read before
      exact keeps.terminal settled
    · rw [effect]
      exact settled
  | resumed taken read goes same =>
    rw [same, goes.same.1]
    exact serves.closed read (goes.closed closed)
  | signalled read member cancelling answered cancelled registered same =>
    obtain ⟨position, reads⟩ := List.mem_iff_getElem?.mp member
    obtain ⟨task, present, own⟩ := custody.entries registered
    rw [read] at present
    cases present
    rw [same, Task.cancel_run, own]
    exact custody.settled reads cancelling answered
  | drained taken read drains interrupting => exact (serves.serving drains interrupting).elim

private theorem Acts.serving_executed (present : after.runs.get? ref = some record)
    (active : record.Active) (own : record.workerInstanceId = worker) :
    (∃ (index : Nat) (task : Task), changed.tasks[index]? = some task ∧ task.run.id = ref) ∨
      ∃ (position : Nat) (call : MethodCall) (run : AgentRun),
        changed.calls[position]? = some call ∧ call.owned = some run ∧ run.id = ref := by
  cases former : store.runs.get? ref with
  | none => exact .inr (acts.arrives coherent custody former present)
  | some earlier =>
    obtain ⟨later, same, continues⟩ := (acts.guarantees coherent custody).1.found former
    rw [present] at same
    cases same
    rcases serves.executed former (continues.wasActive active)
      (continues.sameWorker.symm.trans own) with
      ⟨index, task, read, rfl⟩ | ⟨position, call, run, read, owned, rfl⟩
    · obtain ⟨later, kept, same⟩ := acts.persists read
      exact .inl ⟨index, later, kept, by rw [same]⟩
    · rcases acts.hands read owned with kept | ⟨index, task, created, rfl⟩
      · exact .inr ⟨position, call, run, kept, owned, rfl⟩
      · exact .inl ⟨index, task, created, rfl⟩

private theorem Acts.keepsServing (other : ∀ ambient, act ≠ .invoke .shutdown ambient) :
    Serving worker after changed where
  serving := acts.serving_serving serves other
  closed := acts.serving_closed coherent custody serves
  executed := acts.serving_executed coherent custody serves

end Serving

/-- The task with this number executes the run and is entered in `_tasks` for it. -/
def Executes (supervisor : Supervisor) (ref : String) (index : Nat) : Prop :=
  ∃ task, supervisor.tasks[index]? = some task ∧ task.run.id = ref ∧ ¬ task.Done ∧
    supervisor.registry.get? ref = some index

/-- A `_start` call has been given the run and has not resumed from `reserve_run`. -/
def Reserves (supervisor : Supervisor) (ref : String) : Prop :=
  ∃ call ∈ supervisor.calls, ∃ run, call.owned = some run ∧ run.id = ref

end Supervisor

namespace Fleet

private theorem run_serving (run : Run Steps (start configs) actions fleet)
    (serving : ∀ ambient, .worker worker (.invoke .shutdown ambient) ∉ actions) :
    Serving worker fleet.store (fleet.workers worker) := by
  induction run with
  | nil => exact .new _ worker
  | @snoc actions middle action final earlier taken ih =>
    have serves := ih fun ambient member => serving ambient (List.mem_append_left _ member)
    have sound := run_sound earlier
    rcases Steps.views taken sound worker with ⟨act, rfl, acts⟩ | ⟨same, _, spares⟩
    · refine acts.keepsServing sound.coherent (sound.custody worker) serves ?_
      rintro ambient rfl
      exact serving ambient (by simp)
    · rw [same]
      exact serves.stable spares

/-- Until `shutdown` is called, every active run of a worker is executed by exactly one
unfinished task of its table or is still in the hands of the `_start` call that reserved it,
no run has a second task anywhere, and a finished task leaves its run terminal. -/
theorem active_runs_executed (run : Run Steps (start configs) actions fleet)
    (serving : ∀ ambient, .worker worker (.invoke .shutdown ambient) ∉ actions) :
    (∀ ref record, fleet.store.runs.get? ref = some record → record.Active →
      record.workerInstanceId = worker →
      (∃! index, (fleet.workers worker).Executes ref index) ∨
        (fleet.workers worker).Reserves ref) ∧
    (∀ sessionId active, activeRunLocked fleet.store sessionId = some active →
      active.workerInstanceId = worker →
      (∃! index, (fleet.workers worker).Executes active.id index) ∨
        (fleet.workers worker).Reserves active.id) ∧
    (∀ other (index otherIndex : Nat) (task second : Task),
      (fleet.workers worker).tasks[index]? = some task →
      (fleet.workers other).tasks[otherIndex]? = some second → task.run.id = second.run.id →
      other = worker ∧ otherIndex = index) ∧
    ∀ task ∈ (fleet.workers worker).tasks, task.Done →
      ∃ record, fleet.store.runs.get? task.run.id = some record ∧ record.Terminal := by
  have sound := run_sound run
  have custody := sound.custody worker
  have serves := run_serving run serving
  have executed (ref : String) (record : AgentRun)
      (found : fleet.store.runs.get? ref = some record) (active : record.Active)
      (own : record.workerInstanceId = worker) :
      (∃! index, (fleet.workers worker).Executes ref index) ∨
        (fleet.workers worker).Reserves ref := by
    rcases serves.executed found active own with
      ⟨index, task, present, rfl⟩ | ⟨position, call, run, present, owned, same⟩
    · left
      have unfinished : ¬ task.Done := by
        intro finished
        obtain ⟨settled, recorded, terminal⟩ := serves.closed present (.inr (.inr (.inl finished)))
        rw [found] at recorded
        cases recorded
        exact (not_active_iff_terminal _).mpr terminal active
      refine ⟨index, ⟨task, present, rfl, unfinished, custody.registered present unfinished⟩, ?_⟩
      rintro other ⟨second, read, same, _⟩
      exact custody.single read present same
    · exact .inr ⟨call, List.mem_of_getElem? present, run, owned, same⟩
  refine ⟨executed, ?_, ?_, ?_⟩
  · intro sessionId active chosen own
    obtain ⟨ref, found, _, isActive⟩ := activeRunLocked_some chosen
    rw [sound.coherent.runId found]
    exact executed ref active found isActive own
  · intro other index otherIndex task second found present same
    exact sound.sameTask present found same.symm
  · intro task member finished
    obtain ⟨index, present⟩ := List.mem_iff_getElem?.mp member
    exact serves.closed present (.inr (.inr (.inl finished)))

theorem active_runs_executed_sampleAttempt : ∃ fleet,
    Run Steps (start sampleConfig)
      (schedule (sampleAdmission ++ sampleStart ++ sampleAttempt)) fleet ∧
      ((∃! index, (fleet.workers "worker").Executes "run" index) ∨
        (fleet.workers "worker").Reserves "run") := by
  obtain ⟨fleet, run, record, found, active, own⟩ : ∃ fleet,
      Run Steps (start sampleConfig)
        (schedule (sampleAdmission ++ sampleStart ++ sampleAttempt)) fleet ∧
      ∃ record ∈ fleet.store.runs.get? "run",
        record.Active ∧ record.workerInstanceId = "worker" :=
    follow_reaches (by decide +kernel)
  have serving : ∀ ambient, .worker "worker" (.invoke .shutdown ambient) ∉
      schedule (sampleAdmission ++ sampleStart ++ sampleAttempt) := by
    intro ambient
    simp [schedule, sampleAdmission, sampleStart, sampleAttempt]
  exact ⟨fleet, run, (active_runs_executed run serving).1 "run" record found active own⟩

end Fleet

end DayuAgent
