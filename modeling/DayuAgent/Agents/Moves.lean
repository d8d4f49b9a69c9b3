import DayuAgent.Agents.Fleet

namespace DayuAgent

open Library InMemorySessionStore

/-- Inside the `try` body. -/
def Phase.Body : Phase → Prop
  | .created | .cancelling | .failing _ _ | .finished _ => False
  | _ => True

instance (phase : Phase) : Decidable phase.Body := by
  unfold Phase.Body
  split <;> infer_instance

/-- Inside an `except` clause. -/
def Phase.Handler : Phase → Prop
  | .cancelling | .failing _ _ => True
  | _ => False

/-- The success of the task is in the store, but the task has not been resumed. -/
def Task.Committed (task : Task) : Prop :=
  ∃ result reply, task.phase = .committing result ∧ task.answer = some (.ok reply)

/-- Inside the `try` body, without a cancellation and with nothing committed. -/
structure Task.Working (task : Task) : Prop where
  unflagged : task.cancelRequested = false
  body : task.phase.Body
  uncommitted : ¬ task.Committed

/-- The moves of a task from one await to the next. -/
inductive Task.Goes (config : Config) (task : Task) : Task → Prop where
  | begins (unflagged : task.cancelRequested = false) (fresh : task.phase = .created)
      (started : ℚ) : Goes config task ({ task with started }.enter .marking)
  | continues {phase : Phase} (working : task.Working) (later : phase.Body) :
      Goes config task (task.enter phase)
  | loads {history : List AgentMessage} (working : task.Working)
      (loading : task.phase = .loading) (answered : task.answer = some (.ok (.messages history)))
      (started : ℚ) :
      Goes config task ({ task with request := some (task.providerRequest history) }.enter
        (.incrementing started))
  | raises {error : PyException} (working : task.Working)
      (origin : error = .cancelled → task.answer = some (.error .cancelled)) :
      Goes config task (task.except config error)
  | succeeds {result : AgentResult} {reply : Reply} (unflagged : task.cancelRequested = false)
      (committing : task.phase = .committing result)
      (answered : task.answer = some (.ok reply)) :
      Goes config task (task.enter (.finished (.ok result)))
  | reports {error : PyException} {errorCode : String} {reply : Reply}
      (unflagged : task.cancelRequested = false) (failing : task.phase = .failing error errorCode)
      (answered : task.answer = some (.ok reply)) :
      Goes config task (task.enter (.finished (.error error)))
  | yields {reply : Except PyException Reply} (unflagged : task.cancelRequested = false)
      (cancelling : task.phase = .cancelling) (answered : task.answer = some reply) :
      Goes config task (task.enter (.finished (.error .cancelled)))
  | breaks {error : PyException} (unflagged : task.cancelRequested = false)
      (handler : task.phase.Handler) (answered : task.answer = some (.error error)) :
      Goes config task (task.enter (.finished (.error error)))
  | stops (flagged : task.cancelRequested = true)
      (outer : task.phase = .created ∨ task.phase.Handler) :
      Goes config task
        ({ task with cancelRequested := false }.enter (.finished (.error .cancelled)))
  | caught (flagged : task.cancelRequested = true) (body : task.phase.Body) :
      Goes config task ({ task with cancelRequested := false }.enter .cancelling)

namespace Task

variable {config : Config} {task : Task} {clock : Clock}

theorem guarded_goes (working : task.Working)
    (remaining : Nat) (waiting : Nat → Phase) (passed : Phase)
    (later : ∀ remaining, (waiting remaining).Body) (last : passed.Body) :
    Goes config task (task.guarded remaining waiting passed) := by
  unfold guarded
  split
  · exact .continues working last
  · exact .continues working (later _)

theorem exception_not_cancelled (failure : Failure) : failure.exception ≠ .cancelled := by
  cases failure <;> simp [Failure.exception, timeoutError]

theorem raises_goes (working : task.Working)
    (other : error ≠ .cancelled) : Goes config task (task.except config error) :=
  .raises working fun same => (other same).elim

theorem rejects_goes (working : task.Working) (error : DayuAgentError) :
    Goes config task (task.except config (.domain error)) :=
  raises_goes working nofun

theorem decided_goes (working : task.Working)
    (verdict : Except Failure GuardrailDecision) (remaining : Nat) (waiting : Nat → Phase)
    (passed : Phase) (later : ∀ remaining, (waiting remaining).Body) (last : passed.Body) :
    Goes config task (task.decided config verdict remaining waiting passed) := by
  unfold decided
  split
  · exact raises_goes working (exception_not_cancelled _)
  · split
    · exact guarded_goes working _ _ _ later last
    · exact rejects_goes working _

theorem checkOutput_goes (working : task.Working)
    (result : AgentResult) : Goes config task (task.checkOutput config result) :=
  guarded_goes working _ _ _ (fun _ => trivial) trivial

private theorem parseToolCommand_not_cancelled
    (failed : parseToolCommand codec message = .error error) : error ≠ .cancelled := by
  unfold parseToolCommand at failed
  split at failed
  · cases failed
    simp [missingToolName, toolValidation]
  · split at failed
    · contradiction
    · split at failed
      · cases failed
        simp [missingToolName, toolValidation]
      · cases failed
        simp [missingToolName, toolValidation]
      · split at failed
        · contradiction
        · cases failed
          simp [invalidPayload, toolValidation]

theorem dispatch_goes (working : task.Working) :
    Goes config task (task.dispatch config) := by
  unfold dispatch
  split
  · next error failed => exact raises_goes working (parseToolCommand_not_cancelled failed)
  · unfold runTool
    split
    · exact guarded_goes working _ _ _ (fun _ => trivial) trivial
    · exact rejects_goes working _
  · exact .continues working trivial

private theorem retry_goes (working : task.Working) (attempt : Attempt) (error : DayuAgentError)
    (clock : Clock) : Goes config task (task.retry config attempt error clock).task := by
  unfold retry
  dsimp only
  split
  · exact .continues working trivial
  · exact rejects_goes working _

theorem attemptFailed_goes (working : task.Working) (attempt : Attempt) (error : PyException)
    (clock : Clock) (origin : error = .cancelled → task.answer = some (.error .cancelled)) :
    Goes config task (task.attemptFailed config attempt error clock).task := by
  unfold attemptFailed
  dsimp only
  split
  · split
    · split
      · exact rejects_goes working _
      · exact retry_goes working _ _ _
    · exact rejects_goes working _
  · split
    · exact rejects_goes working _
    · exact retry_goes working _ _ _
  · exact .raises working origin

private theorem startAttempt_goes (working : task.Working) (started : ℚ) (durable : AgentRun)
    (clock : Clock) : Goes config task (task.startAttempt config started durable clock).task := by
  unfold startAttempt
  dsimp only
  split
  · exact attemptFailed_goes working _ _ _ nofun
  · refine .continues working ?_
    split <;> exact trivial

/-- Any await of the body but the commit. -/
theorem working_at {phase : Phase} (unflagged : task.cancelRequested = false)
    (suspended : task.phase = phase) (body : phase.Body)
    (early : ∀ result, phase ≠ .committing result) : task.Working := by
  subst suspended
  refine ⟨unflagged, body, ?_⟩
  rintro ⟨result, _, committing, _⟩
  exact early result committing

private theorem answered_goes {resumed : Resumed} {reply : Except PyException Reply}
    (unflagged : task.cancelRequested = false) (replied : task.answer = some reply)
    (taken : task.answered config reply clock = some resumed) :
    Goes config task resumed.task := by
  unfold answered at taken
  split at taken <;> cases taken <;> rename_i suspended
  · exact dispatch_goes (working_at unflagged suspended trivial nofun)
  · exact .loads (working_at unflagged suspended trivial nofun) suspended replied _
  · exact startAttempt_goes (working_at unflagged suspended trivial nofun) _ _ _
  · exact .continues (working_at unflagged suspended trivial nofun) trivial
  · exact attemptFailed_goes (working_at unflagged suspended trivial nofun) _ _ _
      fun same => same ▸ replied
  · exact .succeeds unflagged suspended replied
  · exact .yields unflagged suspended replied
  · exact .yields unflagged suspended replied
  · exact .reports unflagged suspended replied
  · exact .breaks unflagged (suspended ▸ trivial) replied
  · exact .breaks unflagged (suspended ▸ trivial) replied
  · exact .raises (working_at unflagged suspended trivial nofun) fun same => same ▸ replied
  · exact .raises (working_at unflagged suspended trivial nofun) fun same => same ▸ replied
  · exact .raises (working_at unflagged suspended trivial nofun) fun same => same ▸ replied
  · refine .raises ⟨unflagged, suspended ▸ trivial, ?_⟩ fun same => same ▸ replied
    rintro ⟨_, _, _, committed⟩
    rw [replied] at committed
    cases committed

private theorem informed_goes {resumed : Resumed} (unflagged : task.cancelRequested = false)
    (taken : task.informed config input clock = some resumed) : Goes config task resumed.task := by
  have failed (failure : Failure) :
      failure.exception = .cancelled → task.answer = some (.error .cancelled) :=
    fun same => (exception_not_cancelled failure same).elim
  unfold informed at taken
  split at taken <;> try contradiction
  all_goals rename_i suspended
  · cases taken
    exact .begins unflagged suspended _
  all_goals have working := working_at unflagged suspended trivial nofun
  · cases taken
    exact decided_goes working _ _ _ _ (fun _ => trivial) trivial
  · cases taken
    exact checkOutput_goes working _
  · cases taken
    exact .raises working (failed _)
  · cases taken
    exact checkOutput_goes working _
  · cases taken
    exact attemptFailed_goes working _ _ _ (failed _)
  · cases taken
    exact attemptFailed_goes working _ _ _ (failed _)
  · cases taken
    exact attemptFailed_goes working _ _ _ nofun
  · cases taken
    exact attemptFailed_goes working _ _ _ nofun
  · cases taken
    exact attemptFailed_goes working _ _ _ nofun
  · split at taken <;> cases taken
    · exact .continues working trivial
    · exact .continues working trivial
  · split at taken <;> cases taken
    · exact checkOutput_goes working _
    · exact attemptFailed_goes working _ _ _ nofun
  · cases taken
    exact .continues working trivial
  · cases taken
    exact decided_goes working _ _ _ _ (fun _ => trivial) trivial

private theorem interrupted_goes {resumed : Resumed} (flagged : task.cancelRequested = true)
    (taken : task.interrupted = some resumed) : Goes config task resumed.task := by
  unfold interrupted at taken
  dsimp only at taken
  split at taken
  · contradiction
  · next suspended =>
    cases taken
    exact .stops flagged (.inl suspended)
  · next suspended =>
    cases taken
    exact .stops flagged (.inr (suspended ▸ trivial))
  · next suspended =>
    cases taken
    exact .stops flagged (.inr (suspended ▸ trivial))
  · next unfinished fresh cancelling failing =>
    cases taken
    refine .caught flagged ?_
    cases suspended : task.phase with
    | created => exact fresh suspended
    | cancelling => exact cancelling suspended
    | failing error errorCode => exact failing error errorCode suspended
    | finished outcome => exact unfinished outcome suspended
    | _ => exact trivial

theorem resume_goes {resumed : Resumed} (taken : task.resume config input clock = some resumed) :
    Goes config task resumed.task := by
  unfold resume at taken
  split at taken
  · next flagged => exact interrupted_goes flagged taken
  · next unflagged =>
    rw [Bool.not_eq_true] at unflagged
    split at taken
    · next reply => exact answered_goes unflagged reply taken
    · exact informed_goes unflagged taken

end Task

/-- The reservation that a `_start` call has been answered with but not resumed from, when
it owns the execution. -/
def MethodCall.owned (call : MethodCall) : Option AgentRun :=
  match call.phase, call.answer with
  | .reserving _, some (.ok (.reservation reservation)) =>
    if reservation.ownsExecution then some reservation.run else none
  | _, _ => none

theorem MethodCall.owned_some {call : MethodCall} (owning : call.owned = some run) :
    ∃ start reservation, call.phase = .reserving start ∧
      call.answer = some (.ok (.reservation reservation)) ∧ reservation.ownsExecution = true ∧
      reservation.run = run := by
  unfold MethodCall.owned at owning
  split at owning
  · next start reservation reserving answered =>
    split at owning
    · next owns =>
      cases owning
      exact ⟨start, reservation, reserving, answered, owns, rfl⟩
    · contradiction
  · contradiction

/-- The moves of a method call that change nothing but the call itself. -/
inductive Supervisor.Leads (supervisor : Supervisor) (call : MethodCall) : CallPhase → Prop where
  | guarded {start : StartRequest} {remaining later : Nat}
      (checking : call.phase = .checkingInput start remaining) :
      Leads supervisor call (checkInput start later)
  | rejected (error : PyException) : Leads supervisor call (.raised error)
  | replayed {start : StartRequest} {reservation : RunReservation}
      (reserving : call.phase = .reserving start)
      (answered : call.answer = some (.ok (.reservation reservation)))
      (foreign : reservation.ownsExecution = false) :
      Leads supervisor call (if start.streaming then .accepted reservation.run
        else supervisor.waitForResult reservation.run.id)
  | polled {runId : String} {run : AgentRun} (polling : call.phase = .polling runId)
      (answered : call.answer = some (.ok (.run run))) :
      Leads supervisor call (Supervisor.polled runId run)
  | missed {runId : String} {error : PyException} (polling : call.phase = .polling runId)
      (answered : call.answer = some (.error error)) :
      Leads supervisor call (.delivered runId none (.error error))
  | joined {runId : String} {index : Nat} {task : Task}
      {outcome : Except PyException AgentResult} (joining : call.phase = .joining runId index)
      (found : supervisor.tasks[index]? = some task) (finished : task.outcome = some outcome) :
      Leads supervisor call (.delivered runId (some index) outcome)
  | woke {runId : String} (dozing : call.phase = .dozing runId) :
      Leads supervisor call (.polling runId)
  | unsignalled (outcome : CancelResult) : Leads supervisor call (.cancelled outcome)
  | emptied {interrupted : Nat} (interrupting : call.phase = .interrupting)
      (answered : call.answer = some (.ok (.count interrupted)))
      (idle : supervisor.registry.values = []) : Leads supervisor call (.stopped interrupted)
  | gathered {tasks : List Nat} {interrupted : Nat}
      (gathering : call.phase = .gathering tasks interrupted)
      (finished : ∀ task ∈ tasks, supervisor.TaskDone task) :
      Leads supervisor call (.stopped interrupted)
  | reconciles : Leads supervisor call .reconciling
  | prunes (before : Time) (interrupted : Nat) :
      Leads supervisor call (.pruning before interrupted)

/-- The moves of a method call from one await to the next. -/
inductive Supervisor.Resumes (supervisor : Supervisor) (index : Nat) (call : MethodCall) :
    Supervisor → Prop where
  | settles {phase : CallPhase} (unowned : call.owned = none)
      (leads : supervisor.Leads call phase) :
      Resumes supervisor index call (supervisor.settle index phase)
  | readmits (interrupted : Nat) (unowned : call.owned = none) :
      Resumes supervisor index call
        ({ supervisor with accepting := true }.settle index (.initialized interrupted))
  | creates {start : StartRequest} {reservation : RunReservation}
      (reserving : call.phase = .reserving start)
      (answered : call.answer = some (.ok (.reservation reservation)))
      (owns : reservation.ownsExecution = true) :
      Resumes supervisor index call
        ((supervisor.createTask start reservation.run).settle index
          (if start.streaming then .accepted reservation.run
            else .joining reservation.run.id supervisor.tasks.length))
  | signals {runId : String} {outcome : CancelResult} {task : Nat}
      (cancelling : call.phase = .cancelling runId)
      (answered : call.answer = some (.ok (.cancel outcome)))
      (cancelled : outcome.run.status = .cancelled)
      (registered : supervisor.registry.get? runId = some task)
      (unfinished : ¬ supervisor.TaskDone task) :
      Resumes supervisor index call
        ((supervisor.cancelTask task).settle index (.stopping outcome task))
  | drains {interrupted : Nat} (interrupting : call.phase = .interrupting)
      (answered : call.answer = some (.ok (.count interrupted))) :
      Resumes supervisor index call
        ((supervisor.registry.values.foldl cancelTask supervisor).settle index
          (.gathering supervisor.registry.values interrupted))

namespace Supervisor

variable {supervisor changed : Supervisor} {call : MethodCall}

theorem owned_none {phase : CallPhase} (suspended : call.phase = phase)
    (other : ∀ start, phase ≠ .reserving start) : call.owned = none := by
  subst suspended
  unfold MethodCall.owned
  split
  · next reserving _ => exact (other _ reserving).elim
  · rfl

theorem owned_error {error : PyException} (answered : call.answer = some (.error error)) :
    call.owned = none := by
  unfold MethodCall.owned
  split
  · next replied => simp [answered] at replied
  · rfl

private theorem waitForResult_created (start : StartRequest) (run : AgentRun) :
    (supervisor.createTask start run).waitForResult run.id =
      .joining run.id supervisor.tasks.length := by
  simp [waitForResult, createTask]

private theorem reserved_resumes {start : StartRequest} {reservation : RunReservation}
    (reserving : call.phase = .reserving start)
    (answered : call.answer = some (.ok (.reservation reservation))) :
    supervisor.Resumes index call (supervisor.reserved index start reservation) := by
  cases owns : reservation.ownsExecution with
  | true =>
    have created : supervisor.Resumes index call _ := .creates reserving answered owns
    simpa [reserved, owns, waitForResult_created] using created
  | false =>
    have unowned : call.owned = none := by simp [MethodCall.owned, reserving, answered, owns]
    simpa [reserved, owns] using
      Resumes.settles unowned (Leads.replayed reserving answered owns)

private theorem signal_resumes {outcome : CancelResult}
    (cancelling : call.phase = .cancelling runId)
    (answered : call.answer = some (.ok (.cancel outcome))) :
    supervisor.Resumes index call (supervisor.signal index runId outcome) := by
  have unowned : call.owned = none := owned_none cancelling nofun
  unfold signal
  split
  · next cancelled =>
    split
    · next task registered =>
      split
      · exact .settles unowned (.unsignalled outcome)
      · next unfinished => exact .signals cancelling answered cancelled registered unfinished
    · exact .settles unowned (.unsignalled outcome)
  · exact .settles unowned (.unsignalled outcome)

private theorem drain_resumes (interrupting : call.phase = .interrupting)
    (answered : call.answer = some (.ok (.count interrupted))) :
    supervisor.Resumes index call (supervisor.drain index interrupted) := by
  unfold drain
  dsimp only
  split
  · next idle =>
    exact .settles (owned_none interrupting nofun) (.emptied interrupting answered idle)
  · exact .drains interrupting answered

private theorem answered_resumes {reply : Except PyException Reply}
    (answered : call.answer = some reply)
    (taken : supervisor.answered index call.phase reply clock = some changed) :
    supervisor.Resumes index call changed := by
  unfold Supervisor.answered at taken
  split at taken
  · next reserving =>
    cases taken
    exact reserved_resumes reserving answered
  · next polling =>
    cases taken
    exact .settles (owned_none polling nofun) (.polled polling answered)
  · next polling =>
    cases taken
    exact .settles (owned_none polling nofun) (.missed polling answered)
  · next cancelling =>
    cases taken
    exact signal_resumes cancelling answered
  · next interrupting =>
    cases taken
    exact drain_resumes interrupting answered
  · next initializing =>
    cases taken
    exact .settles (owned_none initializing nofun) .reconciles
  · next reconciling =>
    cases taken
    exact .settles (owned_none reconciling nofun) (.prunes _ _)
  · next pruning =>
    cases taken
    exact .readmits _ (owned_none pruning nofun)
  · cases taken
    exact .settles (owned_error answered) (.rejected _)
  · contradiction

private theorem informed_resumes
    (taken : supervisor.informed index call.phase input = some changed) :
    supervisor.Resumes index call changed := by
  unfold Supervisor.informed at taken
  split at taken
  · next checking =>
    cases taken
    split
    · exact .settles (owned_none checking nofun) (.guarded checking)
    · exact .settles (owned_none checking nofun) (.rejected _)
  · next checking =>
    cases taken
    exact .settles (owned_none checking nofun) (.rejected _)
  · next joining =>
    split at taken
    · next outcome finished =>
      cases taken
      obtain ⟨task, found, ended⟩ := Option.bind_eq_some_iff.mp finished
      exact .settles (owned_none joining nofun) (.joined joining found ended)
    · contradiction
  · next dozing =>
    cases taken
    exact .settles (owned_none dozing nofun) (.woke dozing)
  · next stopping =>
    split at taken
    · cases taken
      exact .settles (owned_none stopping nofun) (.unsignalled _)
    · contradiction
  · next gathering =>
    split at taken
    · next finished =>
      cases taken
      exact .settles (owned_none gathering nofun) (.gathered gathering finished)
    · contradiction
  · contradiction

theorem resumeCall_resumes (taken : supervisor.resumeCall index input clock = some changed) :
    ∃ call, supervisor.calls[index]? = some call ∧ supervisor.Resumes index call changed := by
  unfold resumeCall at taken
  split at taken
  · contradiction
  · next call found =>
    refine ⟨call, found, ?_⟩
    split at taken
    · next reply answered => exact answered_resumes answered taken
    · exact informed_resumes taken

end Supervisor

end DayuAgent
