import DayuAgent.Agents.Custody

namespace DayuAgent

open Library InMemorySessionStore

/-- What a waiter has to be told about a run with this record. -/
def Reports (record : AgentRun) (outcome : Except PyException AgentResult) : Prop :=
  match record.status with
  | .completed => ∃ result, outcome = .ok result ∧ record.result = some result.modelDump
  | .cancelled => ∃ error, outcome = .error (.domain error) ∧ error.cls = .runCancelledError
  | .interrupted => ∃ error, outcome = .error (.domain error) ∧ error.cls = .runInterruptedError
  | .failed => ∃ error code, outcome = .error (.domain error) ∧ record.errorCode = some code ∧
      (error.errorCode = code ∨
        ∃ details, error.details = some details ∧ details.lookup "error_code" = some (.str code))
  | .pending | .running => False

theorem Reports.terminal (reports : Reports record outcome) : record.Terminal := by
  unfold Reports at reports
  unfold AgentRun.Terminal
  cases status : record.status <;> simp_all [terminalRunStatuses]

/-- A completed record carries a dumped result, and a failed one its error code. -/
structure Vouched (record : AgentRun) : Prop where
  completed : record.status = .completed →
    ∃ result : AgentResult, record.result = some result.modelDump
  failed : record.status = .failed → ∃ code, record.errorCode = some code

private theorem Vouched.of_active (active : record.Active) : Vouched record := by
  constructor <;> intro status <;>
    simp [AgentRun.Active, status, activeRunStatuses] at active

private theorem Move.vouched (move : Move run updated type payload) : Vouched updated := by
  cases move <;> constructor <;> simp

/-- An edit vouches for every record that it writes. -/
theorem Edit.vouched (edit : Edit store effect after)
    (vouched : ∀ ref record, store.runs.get? ref = some record → Vouched record) :
    ∀ ref record, after.runs.get? ref = some record → Vouched record := by
  have written {own : String} {updated : AgentRun}
      (same : after.runs = store.runs.set own updated) (new : Vouched updated) :
      ∀ ref record, after.runs.get? ref = some record → Vouched record := by
    intro ref record found
    rw [same, Dict.get?_set] at found
    split at found
    · cases found
      exact new
    · exact vouched ref record found
  cases edit with
  | ready | openSession | say | clear | emit | prune => exact vouched
  | reserve =>
    exact written rfl (.of_active (by simp [AgentRun.Active, pendingRun, activeRunStatuses]))
  | attempt found active => exact written rfl (.of_active active)
  | move found read change => exact written rfl change.vouched
  | commit => exact written rfl ⟨fun _ => ⟨_, rfl⟩, by simp [completedRun]⟩

theorem edits_vouched (edits : Run Edit .empty effects store)
    (found : store.runs.get? ref = some record) : Vouched record := by
  have holds : ∀ ref record, store.runs.get? ref = some record → Vouched record := by
    refine edits.invariant ?_ fun before edit => edit.vouched before
    intro ref record found
    simp [InMemorySessionStore.empty] at found
  exact holds ref record found

/-- The run that a call has delivered, the task that it joined and the outcome. -/
def CallPhase.delivery : CallPhase → Option (String × Option Nat × Except PyException AgentResult)
  | .delivered runId joined outcome => some (runId, joined, outcome)
  | _ => none

theorem CallPhase.delivery_some {phase : CallPhase}
    (delivered : phase.delivery = some (runId, joined, outcome)) :
    phase = .delivered runId joined outcome := by
  cases phase with
  | delivered =>
    cases delivered
    rfl
  | _ => contradiction

/-- A waiter of the run has received a bare `CancelledError`. -/
def CallPhase.Cancelled (ref : String) : CallPhase → Prop
  | .delivered runId _ (.error .cancelled) => runId = ref
  | _ => False

instance (ref : String) (phase : CallPhase) : Decidable (phase.Cancelled ref) := by
  unfold CallPhase.Cancelled
  split <;> infer_instance

theorem CallPhase.Cancelled.delivered {phase : CallPhase} (cancelled : phase.Cancelled ref) :
    ∃ joined, phase = .delivered ref joined (.error .cancelled) := by
  unfold Cancelled at cancelled
  split at cancelled
  · next joined =>
    rw [cancelled]
    exact ⟨joined, rfl⟩
  · exact cancelled.elim

/-- What backs the phase of a waiting call: the task that it joins, or the record that it
polls and reports. -/
def CallPhase.Backed (phase : CallPhase) (store : InMemorySessionStore) (tasks : List Task) :
    Prop :=
  match phase with
  | .joining runId index => ∃ task, tasks[index]? = some task ∧ task.run.id = runId
  | .polling runId | .dozing runId => ∃ record, store.runs.get? runId = some record
  | .delivered runId (some index) outcome =>
    ∃ task, tasks[index]? = some task ∧ task.run.id = runId ∧ task.outcome = some outcome
  | .delivered runId none outcome =>
    ∃ record, store.runs.get? runId = some record ∧ Reports record outcome
  | _ => True

/-- Tasks keep their places, their runs and their outcomes. -/
def Advances (tasks later : List Task) : Prop :=
  ∀ (index : Nat) (task : Task), tasks[index]? = some task →
    ∃ next, later[index]? = some next ∧ next.run = task.run ∧ (task.Done → next = task)

theorem CallPhase.Backed.mono {phase : CallPhase} (backed : phase.Backed store tasks)
    (keeps : Keeps store after) (advances : Advances tasks later) : phase.Backed after later := by
  have known {runId : String} (known : ∃ record, store.runs.get? runId = some record) :
      ∃ record, after.runs.get? runId = some record := by
    obtain ⟨record, found⟩ := known
    obtain ⟨next, present, _⟩ := keeps.found found
    exact ⟨next, present⟩
  unfold Backed at backed ⊢
  split at backed
  · obtain ⟨task, found, own⟩ := backed
    obtain ⟨next, present, same, _⟩ := advances _ task found
    exact ⟨next, present, by rw [same, own]⟩
  · exact known backed
  · exact known backed
  · obtain ⟨task, found, own, ended⟩ := backed
    obtain ⟨next, present, _, still⟩ := advances _ task found
    obtain rfl := still (Option.isSome_iff_exists.mpr ⟨_, ended⟩)
    exact ⟨next, present, own, ended⟩
  · obtain ⟨record, found, reports⟩ := backed
    obtain ⟨next, present, continues⟩ := keeps.found found
    obtain rfl := continues.settled reports.terminal
    exact ⟨next, present, reports⟩
  · trivial

/-- The classification of a polled run reports its record. -/
theorem polled_backed (found : store.runs.get? runId = some record) (vouched : Vouched record)
    (same : run.Terminal → record = run) (tasks : List Task) :
    (Supervisor.polled runId run).Backed store tasks := by
  have terminal (status : run.status ∈ terminalRunStatuses) : record = run := same status
  unfold Supervisor.polled
  split
  · next stored status result =>
    obtain rfl := terminal (by simp [status, terminalRunStatuses])
    obtain ⟨dumped, kept⟩ := vouched.completed status
    rw [kept] at result
    cases result
    rw [AgentResult.modelValidate_modelDump]
    exact ⟨record, found, by simp [Reports, status, kept]⟩
  · next status =>
    obtain rfl := terminal (by simp [status, terminalRunStatuses])
    exact ⟨record, found, by simp [Reports, status, PyException.of]⟩
  · next status =>
    obtain rfl := terminal (by simp [status, terminalRunStatuses])
    exact ⟨record, found, by simp [Reports, status, PyException.of]⟩
  · next status =>
    obtain rfl := terminal (by simp [status, terminalRunStatuses])
    obtain ⟨code, coded⟩ := vouched.failed status
    refine ⟨record, found, ?_⟩
    simp [Reports, status, coded, DayuAgentError.new, List.lookup_cons, Json.ofOption]
  · exact ⟨record, found⟩

/-- Every waiting call is backed, and the answers of `reserve_run` and `get_run` are about
runs of the store. -/
structure Awaiting (store : InMemorySessionStore) (supervisor : Supervisor) : Prop where
  backed {position : Nat} {call : MethodCall} : supervisor.calls[position]? = some call →
    call.phase.Backed store supervisor.tasks
  reserved {position : Nat} {call : MethodCall} {reservation : RunReservation} :
    supervisor.calls[position]? = some call → call.phase = .reserving start →
    call.answer = some (.ok (.reservation reservation)) →
    ∃ record, store.runs.get? reservation.run.id = some record
  polled {position : Nat} {call : MethodCall} {reply : Except PyException Reply} :
    supervisor.calls[position]? = some call → call.phase = .polling runId →
    call.answer = some reply → ∃ run record, reply = .ok (.run run) ∧
      store.runs.get? runId = some record ∧ (run.Terminal → record = run)

theorem Awaiting.new (config : Config) (store : InMemorySessionStore) :
    Awaiting store (.new config) where
  backed found := by simp [Supervisor.new] at found
  reserved found := by simp [Supervisor.new] at found
  polled found := by simp [Supervisor.new] at found

private theorem Advances.refl (tasks : List Task) : Advances tasks tasks :=
  fun _ task found => ⟨task, found, rfl, fun _ => rfl⟩

theorem Awaiting.stable (awaiting : Awaiting store supervisor) (keeps : Keeps store after) :
    Awaiting after supervisor where
  backed found := (awaiting.backed found).mono keeps (.refl _)
  reserved found reserving answered := by
    obtain ⟨record, present⟩ := awaiting.reserved found reserving answered
    obtain ⟨later, kept, _⟩ := keeps.found present
    exact ⟨later, kept⟩
  polled found polling answered := by
    obtain ⟨run, record, same, present, settled⟩ := awaiting.polled found polling answered
    obtain ⟨later, kept, continues⟩ := keeps.found present
    refine ⟨run, later, same, kept, fun terminal => ?_⟩
    obtain rfl := settled terminal
    exact continues.settled terminal

namespace Supervisor

variable {supervisor changed : Supervisor} {store after : InMemorySessionStore} {act : Act}
variable {index position : Nat}

private theorem Acts.advances (acts : supervisor.Acts store act after changed) :
    Advances supervisor.tasks changed.tasks := by
  intro index task found
  obtain ⟨next, present, same⟩ := acts.persists found
  refine ⟨next, present, same, fun finished => ?_⟩
  cases acts.tasks present with
  | kept read =>
    rw [found] at read
    exact (Option.some.inj read).symm
  | created _ _ _ _ _ last =>
    have bound := (List.getElem?_eq_some_iff.mp found).1
    omega
  | answered taken read unanswered asks =>
    rw [found] at read
    cases read
    obtain ⟨outcome, ended⟩ := task.done_iff.mp finished
    simp [Task.operation, ended] at asks
  | resumed taken read goes =>
    rw [found] at read
    cases read
    exact (goes.unfinished finished).elim
  | signalled read | drained taken read =>
    rw [found] at read
    cases read
    simp [Task.cancel, finished]

private theorem Leads.backed (leads : supervisor.Leads call phase)
    (awaiting : Awaiting store supervisor) (custody : Custody worker store supervisor)
    (vouched : ∀ ref record, store.runs.get? ref = some record → Vouched record)
    (found : supervisor.calls[position]? = some call) :
    phase.Backed store supervisor.tasks := by
  have former := awaiting.backed found
  cases leads with
  | guarded =>
    unfold checkInput
    split <;> trivial
  | replayed reserving answered =>
    split
    · trivial
    · unfold waitForResult
      split
      · next entry => exact custody.entries entry
      · exact awaiting.reserved found reserving answered
  | polled polling answered =>
    obtain ⟨run, record, same, present, settled⟩ := awaiting.polled found polling answered
    cases same
    exact polled_backed present (vouched _ record present) settled _
  | missed polling answered =>
    obtain ⟨run, record, same, _⟩ := awaiting.polled found polling answered
    contradiction
  | joined joining read ended =>
    rw [joining] at former
    obtain ⟨task, present, own⟩ := former
    rw [read] at present
    cases present
    exact ⟨_, read, own, ended⟩
  | woke dozing =>
    rw [dozing] at former
    exact former
  | _ => trivial

private theorem Resumes.backed {later : MethodCall}
    (resumes : supervisor.Resumes position call changed)
    (awaiting : Awaiting store supervisor) (custody : Custody worker store supervisor)
    (vouched : ∀ ref record, store.runs.get? ref = some record → Vouched record)
    (found : supervisor.calls[position]? = some call)
    (present : changed.calls[position]? = some later) :
    later.phase.Backed store changed.tasks := by
  cases resumes with
  | settles unowned leads =>
    obtain rfl := settle_some present
    exact leads.backed awaiting custody vouched found
  | creates =>
    obtain rfl := settle_some present
    dsimp only
    split
    · trivial
    · exact ⟨_, List.getElem?_concat_length, rfl⟩
  | readmits | signals | drains =>
    obtain rfl := settle_some present
    trivial

section Awaiting

variable (acts : supervisor.Acts store act after changed) (coherent : Coherent store)
variable (custody : Custody worker store supervisor) (awaiting : Awaiting store supervisor)
include acts coherent custody awaiting

private theorem Acts.awaiting_backed {call : MethodCall}
    (vouched : ∀ ref record, store.runs.get? ref = some record → Vouched record)
    (found : changed.calls[position]? = some call) : call.phase.Backed after changed.tasks := by
  have keeps := (acts.guarantees coherent custody).1
  cases acts.calls found with
  | kept read => exact (awaiting.backed read).mono keeps acts.advances
  | @begun method ambient phase invoked next opens =>
    cases phase <;> trivial
  | answered taken read =>
    have backed := (awaiting.backed read).mono keeps acts.advances
    exact backed
  | resumed taken read resumes present unanswered same =>
    rw [same]
    exact resumes.backed awaiting custody vouched read present

private theorem Acts.awaiting_reserved {call : MethodCall} {reservation : RunReservation}
    (found : changed.calls[position]? = some call) (reserving : call.phase = .reserving start)
    (answered : call.answer = some (.ok (.reservation reservation))) :
    ∃ record, after.runs.get? reservation.run.id = some record := by
  cases acts.calls found with
  | kept read =>
    obtain ⟨record, present⟩ := awaiting.reserved read reserving answered
    obtain ⟨later, kept, _⟩ := (acts.guarantees coherent custody).1.found present
    exact ⟨later, kept⟩
  | begun | resumed => simp_all
  | answered taken read asks fresh effect =>
    cases reserving
    cases asks
    rw [effect]
    cases reserveRun_reserved coherent _ fresh (Option.some.inj answered) with
    | owning owns absent present => exact ⟨_, present⟩
    | replaying owns same present =>
      refine ⟨reservation.run, ?_⟩
      rw [Operation.performSkipping_plain id, same]
      exact present

private theorem Acts.awaiting_polled {call : MethodCall} {reply : Except PyException Reply}
    (found : changed.calls[position]? = some call) (polling : call.phase = .polling runId)
    (answered : call.answer = some reply) : ∃ run record, reply = .ok (.run run) ∧
      after.runs.get? runId = some record ∧ (run.Terminal → record = run) := by
  cases acts.calls found with
  | kept read =>
    obtain ⟨run, record, same, present, settled⟩ := awaiting.polled read polling answered
    obtain ⟨later, kept, continues⟩ := (acts.guarantees coherent custody).1.found present
    refine ⟨run, later, same, kept, fun terminal => ?_⟩
    obtain rfl := settled terminal
    exact continues.settled terminal
  | begun | resumed => simp_all
  | @answered phase operation ambient skipped taken read asks fresh effect =>
    cases polling
    cases asks
    obtain ⟨known, present⟩ := awaiting.backed read
    rw [Operation.performSkipping_plain id, Operation.perform, wrap_apply] at answered effect
    rcases getRun_cases store runId with ⟨absent, _⟩ | ⟨run, again, answer⟩
    · rw [present] at absent
      contradiction
    · rw [answer] at answered effect
      cases answered
      rw [effect]
      exact ⟨run, run, rfl, again, fun _ => rfl⟩

private theorem Acts.keepsAwaiting
    (vouched : ∀ ref record, store.runs.get? ref = some record → Vouched record) :
    Awaiting after changed where
  backed := acts.awaiting_backed coherent custody awaiting vouched
  reserved := acts.awaiting_reserved coherent custody awaiting
  polled := acts.awaiting_polled coherent custody awaiting

end Awaiting

end Supervisor

namespace Fleet

theorem run_awaiting (run : Run Steps (start configs) actions fleet) (worker : String) :
    Awaiting fleet.store (fleet.workers worker) := by
  induction run with
  | nil => exact .new _ _
  | snoc earlier taken ih =>
    have sound := run_sound earlier
    obtain ⟨effects, edits⟩ := run_edits earlier
    rcases Steps.views taken sound worker with ⟨act, _, acts⟩ | ⟨same, _, spares⟩
    · exact acts.keepsAwaiting sound.coherent (sound.custody worker) ih
        fun ref record found => edits_vouched edits found
    · rw [same]
      exact ih.stable spares.keeps

end Fleet

/-- A task that nobody disturbs, at each of its phases: its run is active until the task
itself settles it, and what it ends with reports the record. -/
structure Faithful (task : Task) (record : AgentRun) : Prop where
  unflagged : task.cancelRequested = false
  uncancelled : task.phase ≠ .cancelling
  unraised : task.answer ≠ some (.error .cancelled)
  working : task.phase = .created ∨ task.phase.Body → ¬ task.Committed → record.Active
  committed : task.phase = .committing result → task.answer = some (.ok reply) →
    record.status = .completed ∧ record.result = some result.modelDump
  failing : task.phase = .failing error errorCode →
    (∃ domain, error = .domain domain ∧ domain.errorCode = errorCode) ∧
    (task.answer = none → record.Active) ∧
    ∀ answer, task.answer = some answer → (∃ reply, answer = .ok reply) ∧
      record.status = .failed ∧ record.errorCode = some errorCode
  finished : task.phase = .finished outcome → Reports record outcome

namespace Task

variable {config : Config} {task later : Task}

private theorem enter_faithful {phase : Phase} (unflagged : task.cancelRequested = false)
    (body : phase.Body) (active : record.Active) : Faithful (task.enter phase) record where
  unflagged := unflagged
  uncancelled cancelling := by
    rw [show phase = .cancelling from cancelling] at body
    exact body
  unraised := by simp [enter]
  working _ _ := active
  committed _ answered := by contradiction
  failing failing := by
    rw [show phase = _ from failing] at body
    exact body.elim
  finished finished := by
    rw [show phase = _ from finished] at body
    exact body.elim

private theorem except_faithful (unflagged : task.cancelRequested = false) (active : record.Active)
    (other : error ≠ .cancelled) : Faithful (task.except config error) record := by
  have fails (domain : DayuAgentError) :
      Faithful (task.enter (.failing (.domain domain) domain.errorCode)) record := by
    refine ⟨unflagged, nofun, nofun, ?_, nofun, ?_, nofun⟩
    · rintro (created | body)
      · contradiction
      · exact body.elim
    · rintro _ _ ⟨⟩
      exact ⟨⟨domain, rfl, rfl⟩, fun _ => active, by rintro _ ⟨⟩⟩
  cases error with
  | cancelled => exact (other rfl).elim
  | domain domain => exact fails domain
  | keyError | other => exact fails (.new .providerError none (some config.origin))

private theorem finish_faithful {outcome : Except PyException AgentResult}
    (unflagged : task.cancelRequested = false) (reports : Reports record outcome) :
    Faithful (task.enter (.finished outcome)) record := by
  refine ⟨unflagged, nofun, nofun, ?_, nofun, nofun, ?_⟩
  · rintro (created | body)
    · contradiction
    · exact body.elim
  · rintro _ ⟨⟩
    exact reports

theorem Goes.faithful (goes : task.Goes config later) (faithful : Faithful task record) :
    Faithful later record := by
  have active (working : task.Working) : record.Active :=
    faithful.working (.inr working.body) working.uncommitted
  cases goes with
  | begins unflagged created started =>
    refine enter_faithful unflagged trivial (faithful.working (.inl created) ?_)
    rintro ⟨_, _, committing, _⟩
    rw [created] at committing
    contradiction
  | continues working body => exact enter_faithful working.unflagged body (active working)
  | loads working => exact enter_faithful working.unflagged trivial (active working)
  | raises working origin =>
    refine except_faithful working.unflagged (active working) ?_
    exact fun same => faithful.unraised (origin same)
  | succeeds unflagged committing answered =>
    obtain ⟨completed, stored⟩ := faithful.committed committing answered
    refine finish_faithful unflagged ?_
    simp [Reports, completed, stored]
  | reports unflagged failing answered =>
    obtain ⟨⟨domain, rfl, same⟩, _, settled⟩ := faithful.failing failing
    obtain ⟨_, failed, coded⟩ := settled _ answered
    refine finish_faithful unflagged ?_
    simp [Reports, failed, coded, same]
  | yields unflagged cancelling => exact (faithful.uncancelled cancelling).elim
  | breaks unflagged handler answered =>
    cases suspended : task.phase with
    | cancelling => exact (faithful.uncancelled suspended).elim
    | failing error errorCode =>
      obtain ⟨⟨_, same⟩, _⟩ := (faithful.failing suspended).2.2 _ answered
      contradiction
    | _ => simp [suspended, Phase.Handler] at handler
  | stops flagged | caught flagged =>
    rw [faithful.unflagged] at flagged
    contradiction

/-- The store call of an undisturbed task leaves it faithful to the record after it. -/
theorem Effects.faithful {reply : Except PyException Reply}
    (effects : task.Effects store record reply after)
    (recorded : store.runs.get? task.run.id = some record) (faithful : Faithful task record)
    (unanswered : task.answer = none) :
    ∃ next, after.runs.get? task.run.id = some next ∧
      Faithful { task with answer := some reply } next := by
  have uncommitted : ¬ task.Committed := by
    rintro ⟨_, _, _, answered⟩
    rw [unanswered] at answered
    contradiction
  cases effects with
  | early body open' found kept loads domain =>
    refine ⟨_, found, faithful.unflagged, faithful.uncancelled, ?_, ?_, ?_, ?_, ?_⟩
    · rintro ⟨⟩
      obtain ⟨error, same⟩ := domain _ rfl
      contradiction
    · exact fun _ _ => kept (faithful.working (.inr body) uncommitted)
    · exact fun committing _ => (open' _ committing).elim
    · intro error errorCode failing
      rw [show task.phase = _ from failing] at body
      exact body.elim
    · intro outcome finished
      rw [show task.phase = _ from finished] at body
      exact body.elim
  | @committed result reply after request history ambient committing running asked read found =>
    refine ⟨_, found, faithful.unflagged, faithful.uncancelled, by simp, ?_, ?_, ?_, ?_⟩
    · exact fun _ unfinished => (unfinished ⟨result, reply, committing, rfl⟩).elim
    · intro other _ suspended _
      rw [show task.phase = _ from suspended] at committing
      cases committing
      exact ⟨rfl, by simp [completedRun, asked.2.2]⟩
    · intro error errorCode failing
      rw [show task.phase = _ from failing] at committing
      contradiction
    · intro outcome finished
      rw [show task.phase = _ from finished] at committing
      contradiction
  | lost committing idle =>
    have body : task.phase.Body := committing ▸ trivial
    refine ⟨_, recorded, faithful.unflagged, faithful.uncancelled, by simp, ?_, by simp, ?_, ?_⟩
    · exact fun _ _ => faithful.working (.inr body) uncommitted
    · intro error errorCode failing
      rw [show task.phase = _ from failing] at committing
      contradiction
    · intro outcome finished
      rw [show task.phase = _ from finished] at committing
      contradiction
  | cancelled cancelling => exact (faithful.uncancelled cancelling).elim
  | @failed error errorCode reply after later failing found terminal coded =>
    obtain ⟨origin, active, _⟩ := faithful.failing failing
    obtain ⟨failed, stored⟩ := coded (active unanswered)
    refine ⟨_, found, faithful.unflagged, faithful.uncancelled, by simp, ?_, ?_, ?_, ?_⟩
    · rintro (created | body)
      · rw [show task.phase = _ from created] at failing
        contradiction
      · rw [show task.phase.Body = _ from congrArg Phase.Body failing] at body
        exact body.elim
    · intro result _ committing
      rw [show task.phase = _ from committing] at failing
      contradiction
    · intro other otherCode suspended
      rw [show task.phase = _ from suspended] at failing
      cases failing
      refine ⟨origin, by simp, ?_⟩
      rintro _ ⟨⟩
      exact ⟨⟨_, rfl⟩, failed, stored⟩
    · intro outcome finished
      rw [show task.phase = _ from finished] at failing
      contradiction

end Task

/-- A record that stays active or stays as it is keeps a task faithful. -/
theorem Faithful.kept (faithful : Faithful task record) (continues : Continues record next)
    (active : record.Active → next.Active) : Faithful task next := by
  have settled {status : RunStatus} (ended : record.status = status)
      (terminal : status ∈ terminalRunStatuses) : next = record :=
    continues.settled (show record.status ∈ _ from ended ▸ terminal)
  refine ⟨faithful.unflagged, faithful.uncancelled, faithful.unraised, ?_, ?_, ?_, ?_⟩
  · exact fun inside uncommitted => active (faithful.working inside uncommitted)
  · intro result reply committing answered
    obtain ⟨completed, stored⟩ := faithful.committed committing answered
    rw [settled completed (by decide)]
    exact ⟨completed, stored⟩
  · intro error errorCode failing
    obtain ⟨origin, unanswered, answered⟩ := faithful.failing failing
    refine ⟨origin, fun none => active (unanswered none), fun answer replied => ?_⟩
    obtain ⟨ok, failed, coded⟩ := answered answer replied
    rw [settled failed (by decide)]
    exact ⟨ok, failed, coded⟩
  · intro outcome finished
    have reports := faithful.finished finished
    rw [continues.settled reports.terminal]
    exact reports

namespace Fleet

variable {before after fleet : Fleet}

/-- The effect of a store call of a task that executes the run. -/
def Executing (before : Fleet) (ref : String) : Action → Prop
  | .worker name (.taskEffect index _) =>
    ∃ task ∈ (before.workers name).tasks[index]?, task.run.id = ref
  | _ => False

instance (before : Fleet) (ref : String) (action : Action) :
    Decidable (before.Executing ref action) := by
  unfold Executing
  split <;> infer_instance

theorem Executing.effect (executing : before.Executing ref action) :
    ∃ name index ambient, action = .worker name (.taskEffect index ambient) ∧
      ∃ task, (before.workers name).tasks[index]? = some task ∧ task.run.id = ref := by
  unfold Executing at executing
  split at executing
  · exact ⟨_, _, _, rfl, executing⟩
  · exact executing.elim

/-- No cancellation is requested of a task of the run in the step. -/
def Unsignalled (after : Fleet) (ref : String) : Action → Prop
  | .worker name _ =>
    ∀ task ∈ (after.workers name).tasks, task.run.id = ref → task.cancelRequested = false
  | .outside .. => True

instance (after : Fleet) (ref : String) (action : Action) :
    Decidable (after.Unsignalled ref action) := by
  unfold Unsignalled
  split <;> infer_instance

/-- A step that leaves a run to its own task: nobody else makes it terminal, and neither
`cancel` nor `shutdown` cancels the task. -/
def Undisturbed (ref : String) (before : Fleet) (action : Action) (after : Fleet) : Prop :=
  ((∃ record ∈ before.store.runs.get? ref, record.Active) →
    (∃ record ∈ after.store.runs.get? ref, record.Terminal) → before.Executing ref action) ∧
  after.Unsignalled ref action

instance (ref : String) (before : Fleet) (action : Action) (after : Fleet) :
    Decidable (Undisturbed ref before action after) := inferInstanceAs (Decidable (_ ∧ _))

/-- A step of the fleet that does not disturb the run. -/
def UndisturbedSteps (ref : String) (before : Fleet) (action : Action) (after : Fleet) : Prop :=
  Steps before action after ∧ Undisturbed ref before action after

/-- Whoever executes the run or is about to does so undisturbed. -/
structure Faithfully (ref : String) (fleet : Fleet) : Prop where
  task {index : Nat} {task : Task} : (fleet.workers worker).tasks[index]? = some task →
    task.run.id = ref → ∃ record, fleet.store.runs.get? ref = some record ∧ Faithful task record
  call {position : Nat} {call : MethodCall} : (fleet.workers worker).calls[position]? = some call →
    call.owned = some run → run.id = ref →
    ∃ record, fleet.store.runs.get? ref = some record ∧ record.Active

theorem start_faithfully (configs : String → Config) (ref : String) :
    Faithfully ref (start configs) where
  task found := by simp [start, Supervisor.new] at found
  call found := by simp [start, Supervisor.new] at found

/-- Anything else leaves an active run active. -/
theorem UndisturbedSteps.active (taken : UndisturbedSteps ref before action after)
    (other : ¬ before.Executing ref action)
    (found : before.store.runs.get? ref = some record)
    (present : after.store.runs.get? ref = some later) (active : record.Active) :
    later.Active := by
  refine (active_or_terminal later.status).resolve_right fun terminal => ?_
  exact other (taken.2.1 ⟨record, found, active⟩ ⟨later, present, terminal⟩)

private theorem UndisturbedSteps.kept (taken : UndisturbedSteps ref before action after)
    (sound : before.Sound) (other : ¬ before.Executing ref action)
    (faithful : ∃ record, before.store.runs.get? ref = some record ∧ Faithful task record) :
    ∃ record, after.store.runs.get? ref = some record ∧ Faithful task record := by
  obtain ⟨record, found, faithful⟩ := faithful
  obtain ⟨next, present, continues⟩ := (taken.1.keeps sound).found found
  exact ⟨next, present, faithful.kept continues
    (taken.active other found present)⟩

section Undisturbed

variable (taken : UndisturbedSteps ref before action after) (sound : before.Sound)
variable (faithfully : Faithfully ref before)
include taken sound faithfully

/-- The task of the run itself calls the store. -/
theorem UndisturbedSteps.executing (executing : before.Executing ref action) :
    Faithfully ref after := by
  have later := taken.1.sound sound
  obtain ⟨name, index, ambient, rfl, former, found, rfl⟩ := executing.effect
  obtain ⟨act, same, acts⟩ | ⟨_, other, _⟩ := taken.1.views sound name
  swap
  · exact (other _ rfl).elim
  cases same
  obtain ⟨_, record, reply, read, unanswered, answered, recorded, _, effects⟩ :=
    acts.effects sound.coherent (sound.custody name)
  rw [found] at read
  cases read
  obtain ⟨_, again, faithful⟩ := faithfully.task found rfl
  rw [recorded] at again
  cases again
  refine ⟨?_, ?_⟩
  · intro worker otherIndex task present own
    obtain ⟨rfl, rfl⟩ := later.sameTask answered present own.symm
    rw [answered] at present
    cases present
    exact effects.faithful recorded faithful unanswered
  · intro worker run position call present owned own
    exact (later.apart answered present owned own.symm).elim

private theorem UndisturbedSteps.task (other : ¬ before.Executing ref action) {index : Nat}
    {task : Task}
    (found : (after.workers worker).tasks[index]? = some task) (own : task.run.id = ref) :
    ∃ record, after.store.runs.get? ref = some record ∧ Faithful task record := by
  rcases taken.1.views sound worker with ⟨act, rfl, acts⟩ | ⟨same, _, _⟩
  · have unflagged : task.cancelRequested = false :=
      taken.2.2 task (List.mem_of_getElem? found) own
    have uncancelled {former : Task} (same : task = former.cancel)
        (read : (before.workers worker).tasks[index]? = some former) :
        ∃ record, after.store.runs.get? ref = some record ∧ Faithful task record := by
      have still : former.cancel = former := by
        unfold Task.cancel at same ⊢
        split
        · rfl
        · next unfinished =>
          rw [if_neg unfinished] at same
          rw [same] at unflagged
          contradiction
      rw [still] at same
      subst same
      exact taken.kept sound other (faithfully.task read own)
    cases acts.tasks found with
    | kept read => exact taken.kept sound other (faithfully.task read own)
    | created acted read owned replaced entered next session content metadata streams same =>
      obtain ⟨record, recorded, active⟩ := faithfully.call read owned own
      rw [same]
      refine ⟨record, recorded, rfl, nofun, nofun, fun _ _ => active, nofun, nofun, nofun⟩
    | answered acted read =>
      cases acted
      exact (other ⟨_, read, own⟩).elim
    | resumed acted read goes same =>
      rw [goes.same.1] at own
      obtain ⟨record, recorded, faithful⟩ := faithfully.task read own
      rw [same]
      exact ⟨record, recorded, goes.faithful faithful⟩
    | signalled read => exact uncancelled rfl read
    | drained acted read => exact uncancelled rfl read
  · rw [same] at found
    exact taken.kept sound other (faithfully.task found own)

private theorem UndisturbedSteps.call (other : ¬ before.Executing ref action) {position : Nat}
    {call : MethodCall} (found : (after.workers worker).calls[position]? = some call)
    (owned : call.owned = some run) (own : run.id = ref) :
    ∃ record, after.store.runs.get? ref = some record ∧ record.Active := by
  have kept (read : (before.workers worker).calls[position]? = some call) :
      ∃ record, after.store.runs.get? ref = some record ∧ record.Active := by
    obtain ⟨record, recorded, active⟩ := faithfully.call read owned own
    obtain ⟨next, present, _⟩ := (taken.1.keeps sound).found recorded
    exact ⟨next, present, taken.active other recorded present active⟩
  rcases taken.1.views sound worker with ⟨act, rfl, acts⟩ | ⟨same, _, _⟩
  · rcases (acts.calls found).owning sound.coherent owned with read | ⟨_, _, present, _, active⟩
    · exact kept read
    · exact ⟨run, own ▸ present, active⟩
  · rw [same] at found
    exact kept found

private theorem UndisturbedSteps.keepsFaithfully : Faithfully ref after := by
  by_cases executing : before.Executing ref action
  · exact taken.executing sound faithfully executing
  · exact ⟨taken.task sound faithfully executing, taken.call sound faithfully executing⟩

end Undisturbed

private theorem run_faithfully (run : Run (UndisturbedSteps ref) (start configs) actions fleet) :
    Faithfully ref fleet := by
  induction run with
  | nil => exact start_faithfully configs ref
  | snoc earlier last ih =>
    exact UndisturbedSteps.keepsFaithfully last (run_sound (earlier.mono fun taken => taken.1)) ih

/-- A waiter that polls the store is told what the terminal record of its run says, and so is
a waiter that joins the local task in a run that nobody disturbs. -/
theorem waiters_told (run : Run Steps (start configs) actions fleet)
    (member : call ∈ (fleet.workers worker).calls)
    (delivered : call.phase = .delivered runId joined outcome)
    (undisturbed : joined = none ∨ Run (UndisturbedSteps runId) (start configs) actions fleet) :
    ∃ record, fleet.store.runs.get? runId = some record ∧ Reports record outcome := by
  obtain ⟨position, found⟩ := List.mem_iff_getElem?.mp member
  have backed := (run_awaiting run worker).backed found
  rw [delivered] at backed
  cases joined with
  | none => exact backed
  | some index =>
    obtain ⟨task, present, own, ended⟩ := backed
    have quiet := undisturbed.resolve_left nofun
    obtain ⟨record, recorded, faithful⟩ := (run_faithfully quiet).task present own
    refine ⟨record, recorded, faithful.finished ?_⟩
    obtain ⟨other, finished⟩ := task.done_iff.mp (Option.isSome_iff_exists.mpr ⟨_, ended⟩)
    rw [Task.outcome, finished] at ended
    cases ended
    exact finished

/-- A run whose waiter joins the task up to the response. -/
def sampleWait : List Act :=
  sampleAdmission ++ sampleStart ++ sampleAttempt ++ sampleResponse ++
    [.taskEffect 0 (.sample "a" "a"), .resumeTask 0 .wake sampleClock,
     .resumeCall 0 .wake sampleClock]

theorem waiters_told_sampleWait : ∃ fleet,
    Run Steps (start sampleConfig) (schedule sampleWait) fleet ∧
    ∃ outcome record, fleet.store.runs.get? "run" = some record ∧ Reports record outcome := by
  obtain ⟨fleet, run, call, member, ⟨runId, joined, outcome⟩, delivered, rfl⟩ : ∃ fleet,
      Run (fun before action after =>
        admitted next (Undisturbed "run") before action = some after)
        (start sampleConfig) (schedule sampleWait) fleet ∧
      ∃ call ∈ (fleet.workers "worker").calls,
        ∃ delivery ∈ call.phase.delivery, delivery.1 = "run" :=
    follow_reaches (by decide +kernel)
  have quiet : Run (UndisturbedSteps "run") (start sampleConfig) (schedule sampleWait) fleet :=
    run.mono admitted_some
  have steps : Run Steps (start sampleConfig) (schedule sampleWait) fleet :=
    quiet.mono fun taken => taken.1
  exact ⟨fleet, steps, outcome,
    waiters_told steps member (CallPhase.delivery_some delivered) (.inr quiet)⟩

/-- A run that is cancelled during its provider call while `run` joins its task. -/
def cancelledWait : List Act :=
  sampleAdmission ++ sampleStart ++ sampleAttempt ++
    [.invoke (.cancel "run") (.sample "a" "a"), .callEffect 1 (.sample "a" "a") [],
     .resumeCall 1 .wake sampleClock, .resumeTask 0 .wake sampleClock,
     .taskEffect 0 (.sample "a" "a"), .resumeTask 0 .wake sampleClock,
     .resumeCall 0 .wake sampleClock]

/-- The waiter of a cancelled run receives the cancellation of the task that it joins. -/
theorem cancelled_waiter_untold : ¬ ∀ (configs : String → Config) (worker : String)
    (actions : List Action) (fleet : Fleet), Run Steps (start configs) actions fleet →
    ∀ call ∈ (fleet.workers worker).calls, ∀ runId joined outcome,
      call.phase = .delivered runId joined outcome →
      ∃ record, fleet.store.runs.get? runId = some record ∧ Reports record outcome := by
  intro told
  obtain ⟨fleet, run, stored, call, member, cancelled⟩ :
      ∃ fleet, Run Steps (start sampleConfig) (schedule cancelledWait) fleet ∧
        (∃ record ∈ fleet.store.runs.get? "run", record.status = .cancelled) ∧
        ∃ call ∈ (fleet.workers "worker").calls, call.phase.Cancelled "run" :=
    follow_reaches (by decide +kernel)
  obtain ⟨joined, delivered⟩ := cancelled.delivered
  obtain ⟨record, found, settled⟩ := stored
  obtain ⟨_, present, reports⟩ := told _ "worker" _ fleet run call member _ _ _ delivered
  rw [found] at present
  cases present
  rw [Reports, settled] at reports
  obtain ⟨_, same, _⟩ := reports
  injection same with raw
  contradiction

end Fleet

end DayuAgent
