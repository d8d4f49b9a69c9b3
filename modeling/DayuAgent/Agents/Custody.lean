import DayuAgent.Agents.Effects

/-! Which worker executes which run: the tasks and unresumed reservations of a supervisor
against the records in the store. -/

namespace DayuAgent

open Library InMemorySessionStore

namespace Task

theorem done_iff (task : Task) : task.Done ↔ ∃ outcome, task.phase = .finished outcome := by
  unfold Done outcome
  cases phase : task.phase <;> simp

theorem not_done_of_body {task : Task} (body : task.phase.Body) : ¬ task.Done := by
  rw [done_iff]
  rintro ⟨outcome, finished⟩
  simp [finished, Phase.Body] at body

/-- What a task is created with and keeps. -/
def SameOrigin (task later : Task) : Prop :=
  later.run = task.run ∧ later.context = task.context ∧ later.userContent = task.userContent

theorem except_same (config : Config) (task : Task) (error : PyException) :
    task.SameOrigin (task.except config error) := by
  cases error <;> exact ⟨rfl, rfl, rfl⟩

theorem cancel_same (task : Task) : task.SameOrigin task.cancel := by
  unfold cancel
  split <;> exact ⟨rfl, rfl, rfl⟩

@[simp] theorem cancel_run (task : Task) : task.cancel.run = task.run := task.cancel_same.1

@[simp] theorem cancel_phase (task : Task) : task.cancel.phase = task.phase := by
  unfold cancel
  split <;> rfl

@[simp] theorem cancel_done (task : Task) : task.cancel.Done ↔ task.Done := by
  simp [done_iff]

namespace Goes

variable {config : Config} {task later : Task}

theorem same (goes : task.Goes config later) : task.SameOrigin later := by
  cases goes with
  | raises => exact except_same _ _ _
  | _ => exact ⟨rfl, rfl, rfl⟩

theorem unfinished (goes : task.Goes config later) : ¬ task.Done := by
  cases goes with
  | begins unflagged suspended | succeeds unflagged suspended | reports unflagged suspended
  | yields unflagged suspended => simp [done_iff, suspended]
  | continues working | loads working | raises working => exact not_done_of_body working.body
  | caught flagged body => exact not_done_of_body body
  | breaks unflagged handler =>
    rw [done_iff]
    rintro ⟨outcome, finished⟩
    simp [finished, Phase.Handler] at handler
  | stops flagged outer =>
    rw [done_iff]
    rintro ⟨outcome, finished⟩
    simp [finished, Phase.Handler] at outer

end Goes

end Task

/-- The store has a record of a run, and it belongs to the worker. -/
def Tracked (store : InMemorySessionStore) (worker : String) (run : AgentRun) : Prop :=
  run.workerInstanceId = worker ∧
    ∃ record, store.runs.get? run.id = some record ∧ Continues run record

theorem Tracked.stable (tracked : Tracked store worker run) (keeps : Keeps store after) :
    Tracked after worker run := by
  obtain ⟨own, record, found, continues⟩ := tracked
  obtain ⟨later, present, further⟩ := keeps.found found
  exact ⟨own, later, present, continues.trans further⟩

/-- The record of a tracked run belongs to the worker as well. -/
theorem Tracked.owner (tracked : Tracked store worker run)
    (found : store.runs.get? run.id = some record) :
    record.workerInstanceId = worker ∧ record.sessionId = run.sessionId := by
  obtain ⟨own, present, same, continues⟩ := tracked
  rw [found] at same
  cases same
  exact ⟨continues.sameWorker.trans own, continues.sameSession⟩

/-- A run has one worker. -/
theorem Tracked.sameWorker (tracked : Tracked store worker run)
    (other : Tracked store otherWorker otherRun) (same : run.id = otherRun.id) :
    worker = otherWorker := by
  have ⟨_, record, recorded, _⟩ := tracked
  exact (tracked.owner recorded).1.symm.trans (other.owner (same ▸ recorded)).1

/-- Every run that a supervisor executes, or is about to, is tracked and has one executor,
and `_tasks` lists the unfinished ones. -/
structure Custody (worker : String) (store : InMemorySessionStore) (supervisor : Supervisor) :
    Prop where
  identity : supervisor.config.workerInstanceId = worker
  session {index : Nat} {task : Task} : supervisor.tasks[index]? = some task →
    task.context.sessionId = task.run.sessionId
  executing {index : Nat} {task : Task} : supervisor.tasks[index]? = some task →
    Tracked store worker task.run
  reserving {position : Nat} {call : MethodCall} : supervisor.calls[position]? = some call →
    call.owned = some run → Tracked store worker run
  single {index otherIndex : Nat} {task other : Task} :
    supervisor.tasks[index]? = some task → supervisor.tasks[otherIndex]? = some other →
    task.run.id = other.run.id → index = otherIndex
  reserved {position otherPosition : Nat} {call other : MethodCall} :
    supervisor.calls[position]? = some call → call.owned = some run →
    supervisor.calls[otherPosition]? = some other → other.owned = some otherRun →
    run.id = otherRun.id → position = otherPosition
  apart {index position : Nat} {task : Task} {call : MethodCall} :
    supervisor.tasks[index]? = some task → supervisor.calls[position]? = some call →
    call.owned = some run → task.run.id ≠ run.id
  registered {index : Nat} {task : Task} : supervisor.tasks[index]? = some task →
    ¬ task.Done → supervisor.registry.get? task.run.id = some index
  entries {index : Nat} : supervisor.registry.get? ref = some index →
    ∃ task, supervisor.tasks[index]? = some task ∧ task.run.id = ref
  settled {position : Nat} {call : MethodCall} {outcome : CancelResult} :
    supervisor.calls[position]? = some call → call.phase = .cancelling runId →
    call.answer = some (.ok (.cancel outcome)) →
    ∃ record, store.runs.get? runId = some record ∧ record.Terminal

theorem Custody.new (config : Config) (store : InMemorySessionStore) :
    Custody config.workerInstanceId store (.new config) where
  identity := rfl
  session found := by simp [Supervisor.new] at found
  executing found := by simp [Supervisor.new] at found
  reserving found := by simp [Supervisor.new] at found
  single found := by simp [Supervisor.new] at found
  reserved found := by simp [Supervisor.new] at found
  apart found := by simp [Supervisor.new] at found
  registered found := by simp [Supervisor.new] at found
  entries found := by simp [Supervisor.new] at found
  settled found := by simp [Supervisor.new] at found

/-- A change of the store that the worker does not make. -/
structure Spares (worker : String) (store after : InMemorySessionStore) : Prop where
  keeps : Keeps store after
  arrivals : store.runs.get? ref = none → after.runs.get? ref = some run →
    run.workerInstanceId ≠ worker

/-- An active run of the worker was one before. -/
theorem Spares.wasActive (spares : Spares worker store after)
    (present : after.runs.get? ref = some record) (active : record.Active)
    (own : record.workerInstanceId = worker) :
    ∃ earlier, store.runs.get? ref = some earlier ∧ earlier.Active ∧
      earlier.workerInstanceId = worker := by
  cases former : store.runs.get? ref with
  | none => exact (spares.arrivals former present own).elim
  | some earlier =>
    obtain ⟨later, same, continues⟩ := spares.keeps.found former
    rw [present] at same
    cases same
    exact ⟨earlier, rfl, continues.wasActive active, continues.sameWorker.symm.trans own⟩

theorem Custody.stable (custody : Custody worker store supervisor) (keeps : Keeps store after) :
    Custody worker after supervisor :=
  { custody with
    executing := fun found => (custody.executing found).stable keeps
    reserving := fun found owned => (custody.reserving found owned).stable keeps
    settled := fun found cancelling answered =>
      keeps.terminal (custody.settled found cancelling answered) }

namespace Supervisor

variable {supervisor changed : Supervisor} {store after : InMemorySessionStore} {act : Act}

private theorem Resumes.config (resumes : supervisor.Resumes index call changed) :
    changed.config = supervisor.config := by
  cases resumes with
  | settles | readmits | creates | signals => rfl
  | drains =>
    rw [foldl_cancelTask]
    rfl

theorem Acts.config (acts : supervisor.Acts store act after changed) :
    changed.config = supervisor.config := by
  cases acts with
  | invoked method => cases method <;> rfl
  | callResumed found resumes => exact resumes.config
  | callAnswered | taskAnswered | taskResumed | taskRemoved => rfl

/-- The runs and sessions of tasks never change. -/
theorem TaskArises.origin (arises : TaskArises supervisor store act after changed index task) :
    (∃ former, supervisor.tasks[index]? = some former ∧ former.SameOrigin task ∧
        (former.Done → task.Done)) ∨
      (∃ position input clock call phase, act = .resumeCall position input clock ∧
        supervisor.calls[position]? = some call ∧ call.owned = some task.run ∧
        changed.calls = supervisor.calls.set position { phase, answer := none } ∧
        changed.registry = supervisor.registry.set task.run.id index ∧
        index = supervisor.tasks.length ∧ task.context.sessionId = task.run.sessionId ∧
        after = store) := by
  cases arises with
  | kept found => exact .inl ⟨_, found, ⟨rfl, rfl, rfl⟩, id⟩
  | created taken found owned replaced entered next session content metadata streams same =>
    exact .inr ⟨_, _, _, _, _, taken, found, owned, replaced, entered, next, session, same⟩
  | answered taken found => exact .inl ⟨_, found, ⟨rfl, rfl, rfl⟩, id⟩
  | resumed taken found goes =>
    exact .inl ⟨_, found, goes.same, fun finished => (goes.unfinished finished).elim⟩
  | signalled found => exact .inl ⟨_, found, Task.cancel_same _, by simp⟩
  | drained taken found => exact .inl ⟨_, found, Task.cancel_same _, by simp⟩

/-- An owning reservation is an old one, or it has just been made. -/
theorem CallArises.owning (arises : CallArises supervisor store act after changed position call)
    (coherent : Coherent store) (owned : call.owned = some run) :
    supervisor.calls[position]? = some call ∨
      (∃ ambient skipped, act = .callEffect position ambient skipped) ∧
        store.runs.get? run.id = none ∧ after.runs.get? run.id = some run ∧
        run.workerInstanceId = supervisor.config.workerInstanceId ∧ run.Active := by
  cases arises with
  | kept found => exact .inl found
  | begun | resumed =>
    obtain ⟨_, _, _, answered, _⟩ := MethodCall.owned_some owned
    simp_all
  | @answered phase operation ambient skipped taken found asks fresh effect =>
    obtain ⟨start, reservation, reserving, answered, owns, same⟩ := MethodCall.owned_some owned
    cases reserving
    cases asks
    right
    refine ⟨⟨ambient, skipped, taken⟩, ?_⟩
    have outcome := reserveRun_reserved coherent _ fresh (Option.some.inj answered)
    rw [effect]
    cases outcome with
    | owning _ absent found worker pending =>
      subst same
      exact ⟨absent, found, worker, by simp [AgentRun.Active, pending, activeRunStatuses]⟩
    | replaying other =>
      rw [owns] at other
      contradiction

end Supervisor

private theorem CallPhase.operation_respects {phase : CallPhase} {config : Config}
    {operation : Operation} (asks : phase.operation config = some operation)
    (store : InMemorySessionStore) : operation.Respects store ∧ ∀ request,
      operation = .reserveRun request → request.workerInstanceId = config.workerInstanceId := by
  unfold CallPhase.operation at asks
  split at asks <;> cases asks <;> refine ⟨trivial, ?_⟩ <;> rintro _ ⟨⟩
  rfl

theorem Task.operation_respects {task : Task} {config : Config} {operation : Operation}
    (asks : task.operation config = some operation)
    (tracked : Tracked store config.workerInstanceId task.run) :
    operation.Respects store ∧ ∀ request, operation ≠ .reserveRun request := by
  unfold Task.operation at asks
  split at asks <;> cases asks <;> refine ⟨?_, by simp⟩ <;> try exact trivial
  intro record found
  exact (tracked.owner found).1

namespace Supervisor

variable {supervisor changed : Supervisor} {store after : InMemorySessionStore} {act : Act}
variable {index otherIndex position : Nat}

/-- A supervisor keeps every record and brings its own runs only. -/
theorem Acts.guarantees (acts : supervisor.Acts store act after changed)
    (coherent : Coherent store) (custody : Custody worker store supervisor) :
    Keeps store after ∧ ∀ ref run, store.runs.get? ref = none →
      after.runs.get? ref = some run → run.workerInstanceId = worker := by
  have unchanged : Keeps store store ∧ ∀ ref run, store.runs.get? ref = none →
      store.runs.get? ref = some run → run.workerInstanceId = worker := by
    refine ⟨.refl store, ?_⟩
    intro ref run absent present
    rw [absent] at present
    contradiction
  cases acts with
  | invoked | callResumed | taskResumed | taskRemoved => exact unchanged
  | @callAnswered index ambient phase operation found asks fresh skipped =>
    obtain ⟨respects, reserves⟩ := CallPhase.operation_respects asks store
    have refines := operation.performSkipping_refines coherent fresh skipped
    refine ⟨refines.keeps respects, ?_⟩
    intro ref run absent present
    obtain ⟨request, same, own, _⟩ := refines.arrives absent present
    rw [own, reserves request same, custody.identity]
  | @taskAnswered index ambient task operation found unanswered asks fresh =>
    have tracked := custody.executing found
    rw [← custody.identity] at tracked
    obtain ⟨respects, other⟩ := Task.operation_respects asks tracked
    have refines := operation.performed_refines coherent fresh
    refine ⟨refines.keeps respects, ?_⟩
    intro ref run absent present
    obtain ⟨request, same, _⟩ := refines.arrives absent present
    exact (other request same).elim

private theorem Resumes.persists {task : Task} (resumes : supervisor.Resumes position call changed)
    (found : supervisor.tasks[index]? = some task) :
    ∃ later, changed.tasks[index]? = some later := by
  cases resumes with
  | settles | readmits => exact ⟨task, found⟩
  | creates =>
    refine ⟨task, ?_⟩
    have bound := (List.getElem?_eq_some_iff.mp found).1
    exact (List.getElem?_append_left bound).trans found
  | signals => simp [settle, cancelTask, List.getElem?_modify, found]
  | drains =>
    have cancelled := tasks_foldl_cancelTask supervisor.registry.values supervisor index
    rw [found] at cancelled
    split at cancelled
    · exact ⟨_, cancelled⟩
    · exact ⟨_, cancelled⟩

/-- Tasks stay in their places and keep their runs. -/
theorem Acts.persists {task : Task} (acts : supervisor.Acts store act after changed)
    (found : supervisor.tasks[index]? = some task) :
    ∃ later, changed.tasks[index]? = some later ∧ later.run = task.run := by
  have present : ∃ later, changed.tasks[index]? = some later := by
    cases acts with
    | invoked method ambient => exact ⟨task, (congrArg (·[index]?) (tasks_invoke ..)).trans found⟩
    | callAnswered | taskRemoved => exact ⟨task, found⟩
    | callResumed _ resumes => exact resumes.persists found
    | taskAnswered | taskResumed =>
      simp only [answerTask, List.getElem?_set, found]
      split
      · split <;> simp_all
      · exact ⟨task, rfl⟩
  obtain ⟨later, present⟩ := present
  refine ⟨later, present, ?_⟩
  rcases (acts.tasks present).origin with
    ⟨former, read, same, _⟩ | ⟨_, _, _, _, _, _, _, _, _, _, next, _⟩
  · rw [found] at read
    cases read
    exact same.1
  · have bound := (List.getElem?_eq_some_iff.mp found).1
    omega

/-- What happens to the table of tasks. -/
inductive Registers (supervisor changed : Supervisor) : Prop where
  | same (same : changed.registry = supervisor.registry)
  | created {position : Nat} {call : MethodCall} {run : AgentRun} {task : Task}
      (found : supervisor.calls[position]? = some call) (owned : call.owned = some run)
      (entered : changed.registry = supervisor.registry.set run.id supervisor.tasks.length)
      (added : changed.tasks = supervisor.tasks ++ [task]) (own : task.run = run)
  | removed {index : Nat} {task : Task} (found : supervisor.tasks[index]? = some task)
      (finished : task.Done) (erased : changed.registry = supervisor.registry.erase task.run.id)
      (same : changed.tasks = supervisor.tasks)

theorem Acts.registers (acts : supervisor.Acts store act after changed) :
    Registers supervisor changed := by
  cases acts with
  | invoked method => cases method <;> exact .same rfl
  | callAnswered | taskAnswered | taskResumed => exact .same rfl
  | taskRemoved found finished => exact .removed found finished rfl rfl
  | callResumed found resumes =>
    cases resumes with
    | settles | readmits | signals => exact .same rfl
    | creates reserving answered owns =>
      exact .created found (by simp [MethodCall.owned, reserving, answered, owns]) rfl rfl rfl
    | drains =>
      refine .same ?_
      rw [foldl_cancelTask]
      rfl

/-- The store call of a task in custody does to the record of its run what its phase says. -/
theorem asked_effects {task : Task} {operation : Operation} (coherent : Coherent store)
    (custody : Custody worker store supervisor) (found : supervisor.tasks[index]? = some task)
    (asks : task.operation supervisor.config = some operation) (ambient : Ambient) :
    ∃ record, store.runs.get? task.run.id = some record ∧ Continues task.run record ∧
      task.Effects store record (operation.perform ambient store).1
        (operation.perform ambient store).2 := by
  obtain ⟨own, record, recorded, continues⟩ := custody.executing found
  have worker := (continues.sameWorker.trans own).trans custody.identity.symm
  exact ⟨record, recorded, continues, task.effects coherent recorded worker asks ambient⟩

theorem Acts.effects (acts : supervisor.Acts store (.taskEffect index ambient) after changed)
    (coherent : Coherent store) (custody : Custody worker store supervisor) :
    ∃ task record reply, supervisor.tasks[index]? = some task ∧ task.answer = none ∧
      changed.tasks[index]? = some { task with answer := some reply } ∧
      store.runs.get? task.run.id = some record ∧ Continues task.run record ∧
      task.Effects store record reply after := by
  cases acts with
  | @taskAnswered index ambient task operation found unanswered asks fresh =>
    obtain ⟨record, recorded, continues, effects⟩ :=
      asked_effects coherent custody found asks ambient
    have bound := (List.getElem?_eq_some_iff.mp found).1
    exact ⟨task, record, _, found, unanswered, List.getElem?_set_self bound, recorded, continues,
      effects⟩

section Custody

variable (acts : supervisor.Acts store act after changed) (coherent : Coherent store)
variable (custody : Custody worker store supervisor)
include acts custody

theorem Acts.custody_session {task : Task} (found : changed.tasks[index]? = some task) :
    task.context.sessionId = task.run.sessionId := by
  rcases (acts.tasks found).origin with
    ⟨former, read, same, _⟩ | ⟨_, _, _, _, _, _, _, _, _, _, _, session, _⟩
  · rw [same.1, same.2.1]
    exact custody.session read
  · exact session

theorem Acts.custody_single {task other : Task} (found : changed.tasks[index]? = some task)
    (present : changed.tasks[otherIndex]? = some other) (same : task.run.id = other.run.id) :
    index = otherIndex := by
  rcases (acts.tasks found).origin with
    ⟨former, read, ⟨own, _⟩, _⟩ | ⟨_, _, _, _, _, _, reserves, owned, _, _, next, _⟩ <;>
  rcases (acts.tasks present).origin with
    ⟨second, otherRead, ⟨otherOwn, _⟩, _⟩ |
    ⟨_, _, _, _, _, _, otherReserves, otherOwned, _, _, last, _⟩
  · exact custody.single read otherRead (by rw [← own, ← otherOwn, same])
  · exact (custody.apart read otherReserves otherOwned (by rw [← own, same])).elim
  · exact (custody.apart otherRead reserves owned (by rw [← otherOwn, same])).elim
  · rw [next, last]

theorem Acts.custody_registered {task : Task} (found : changed.tasks[index]? = some task)
    (unfinished : ¬ task.Done) : changed.registry.get? task.run.id = some index := by
  rcases (acts.tasks found).origin with
    ⟨former, read, ⟨own, _⟩, ends⟩ | ⟨_, _, _, _, _, _, _, _, _, entered, _⟩
  · have entry := custody.registered read (mt ends unfinished)
    rw [← own] at entry
    cases acts.registers with
    | same same => rw [same, entry]
    | created reserves owned entered =>
      rw [entered, Dict.get?_set_ne, entry]
      rw [own]
      exact custody.apart read reserves owned
    | removed removes finished erased same =>
      rw [erased, Dict.get?_erase, if_neg, entry]
      intro hit
      obtain rfl := custody.single read removes (own.symm ▸ hit)
      rw [same, removes] at found
      cases found
      exact unfinished finished
  · rw [entered, Dict.get?_set_self]

theorem Acts.custody_entries (entry : changed.registry.get? ref = some index) :
    ∃ task, changed.tasks[index]? = some task ∧ task.run.id = ref := by
  have before (entry : supervisor.registry.get? ref = some index) :
      ∃ task, changed.tasks[index]? = some task ∧ task.run.id = ref := by
    obtain ⟨former, read, rfl⟩ := custody.entries entry
    obtain ⟨later, present, same⟩ := acts.persists read
    exact ⟨later, present, by rw [same]⟩
  cases acts.registers with
  | same same =>
    rw [same] at entry
    exact before entry
  | created reserves owned entered added own =>
    rw [entered, Dict.get?_set] at entry
    split at entry
    · next same =>
      cases entry
      refine ⟨_, ?_, by rw [own, same]⟩
      rw [added, List.getElem?_concat_length]
    · exact before entry
  | removed removes finished erased =>
    rw [erased, Dict.get?_erase] at entry
    split at entry
    · contradiction
    · exact before entry

include coherent

theorem Acts.custody_executing {task : Task} (found : changed.tasks[index]? = some task) :
    Tracked after worker task.run := by
  have keeps := (acts.guarantees coherent custody).1
  rcases (acts.tasks found).origin with
    ⟨former, read, ⟨own, _⟩, _⟩ | ⟨_, _, _, _, _, _, reserves, owned, _⟩
  · rw [own]
    exact (custody.executing read).stable keeps
  · exact (custody.reserving reserves owned).stable keeps

private theorem Acts.custody_reserving {call : MethodCall}
    (found : changed.calls[position]? = some call)
    (owned : call.owned = some run) : Tracked after worker run := by
  rcases (acts.calls found).owning coherent owned with read | ⟨_, _, present, own, _⟩
  · exact (custody.reserving read owned).stable (acts.guarantees coherent custody).1
  · exact ⟨own.trans custody.identity, run, present, .refl run⟩

private theorem Acts.custody_reserved {call other : MethodCall}
    (found : changed.calls[position]? = some call) (owned : call.owned = some run)
    (present : changed.calls[otherPosition]? = some other)
    (otherOwned : other.owned = some otherRun) (same : run.id = otherRun.id) :
    position = otherPosition := by
  rcases (acts.calls found).owning coherent owned with
    read | ⟨⟨_, _, taken⟩, absent, _⟩ <;>
  rcases (acts.calls present).owning coherent otherOwned with
    otherRead | ⟨⟨_, _, otherTaken⟩, otherAbsent, _⟩
  · exact custody.reserved read owned otherRead otherOwned same
  · obtain ⟨_, _, recorded, _⟩ := custody.reserving read owned
    rw [same, otherAbsent] at recorded
    contradiction
  · obtain ⟨_, _, recorded, _⟩ := custody.reserving otherRead otherOwned
    rw [← same, absent] at recorded
    contradiction
  · rw [taken] at otherTaken
    cases otherTaken
    rfl

private theorem Acts.custody_apart {task : Task} {call : MethodCall}
    (found : changed.tasks[index]? = some task) (present : changed.calls[position]? = some call)
    (owned : call.owned = some run) : task.run.id ≠ run.id := by
  intro same
  rcases (acts.tasks found).origin with
    ⟨former, read, ⟨own, _⟩, _⟩ | ⟨_, _, _, creator, _, taken, reserves, creates, replaced, _⟩ <;>
  rcases (acts.calls present).owning coherent owned with
    otherRead | ⟨⟨_, _, otherTaken⟩, absent, _⟩
  · exact custody.apart read otherRead owned (by rw [← own, same])
  · obtain ⟨_, _, recorded, _⟩ := custody.executing read
    rw [← own, same, absent] at recorded
    contradiction
  · obtain rfl := custody.reserved reserves creates otherRead owned same
    rw [replaced, List.getElem?_set_self (List.getElem?_eq_some_iff.mp reserves).1] at present
    cases present
    obtain ⟨_, _, _, answered, _⟩ := MethodCall.owned_some owned
    contradiction
  · rw [taken] at otherTaken
    contradiction

private theorem Acts.custody_settled {call : MethodCall} {outcome : CancelResult}
    (found : changed.calls[position]? = some call) (cancelling : call.phase = .cancelling runId)
    (answered : call.answer = some (.ok (.cancel outcome))) :
    ∃ record, after.runs.get? runId = some record ∧ record.Terminal := by
  have keeps := (acts.guarantees coherent custody).1
  cases acts.calls found with
  | kept read => exact keeps.terminal (custody.settled read cancelling answered)
  | begun | resumed => simp_all
  | answered taken read asks fresh effect =>
    cases cancelling
    cases asks
    have settled := cancelRun_settles coherent (Option.some.inj answered)
    rw [effect]
    exact ⟨outcome.run, settled⟩

/-- A step of the worker itself keeps its custody. -/
theorem Acts.keepsCustody : Custody worker after changed where
  identity := acts.config ▸ custody.identity
  session := acts.custody_session custody
  executing := acts.custody_executing coherent custody
  reserving := acts.custody_reserving coherent custody
  single := acts.custody_single custody
  reserved := acts.custody_reserved coherent custody
  apart := acts.custody_apart coherent custody
  registered := acts.custody_registered custody
  entries := acts.custody_entries custody
  settled := acts.custody_settled coherent custody

/-- A run that a worker brings has been reserved by one of its calls. -/
theorem Acts.arrives (absent : store.runs.get? ref = none)
    (present : after.runs.get? ref = some record) :
    ∃ (position : Nat) (call : MethodCall) (run : AgentRun),
      changed.calls[position]? = some call ∧ call.owned = some run ∧ run.id = ref := by
  cases acts with
  | invoked | callResumed | taskResumed | taskRemoved =>
    rw [absent] at present
    contradiction
  | @callAnswered index ambient phase operation found asks fresh skipped =>
    have refines := operation.performSkipping_refines coherent fresh skipped
    obtain ⟨request, rfl, _, own, answered⟩ := refines.arrives absent present
    obtain ⟨start, rfl⟩ : ∃ start, phase = .reserving start := by
      unfold CallPhase.operation at asks
      split at asks <;> cases asks
      exact ⟨_, rfl⟩
    refine ⟨index, _, record,
      List.getElem?_set_self (List.getElem?_eq_some_iff.mp found).1, ?_, own⟩
    rw [answered]
    simp [MethodCall.owned]
  | @taskAnswered index ambient task operation found unanswered asks fresh =>
    have tracked := custody.executing found
    rw [← custody.identity] at tracked
    have other := (Task.operation_respects asks tracked).2
    obtain ⟨request, same, _⟩ :=
      (operation.performed_refines coherent fresh).arrives absent present
    exact (other request same).elim

omit coherent custody in
/-- An owning reservation waits until its call resumes and creates the task. -/
theorem Acts.hands {call : MethodCall} (found : supervisor.calls[position]? = some call)
    (owned : call.owned = some run) :
    changed.calls[position]? = some call ∨
      ∃ (index : Nat) (task : Task), changed.tasks[index]? = some task ∧ task.run = run := by
  have bound := (List.getElem?_eq_some_iff.mp found).1
  cases acts with
  | invoked method ambient =>
    left
    obtain ⟨phase, _, same⟩ := supervisor.invoke_calls method ambient
    rw [same, List.getElem?_append_left bound, found]
  | @callAnswered index ambient phase operation waiting =>
    left
    refine (List.getElem?_set_ne ?_).trans found
    rintro rfl
    rw [waiting] at found
    cases found
    obtain ⟨_, _, _, answered, _⟩ := MethodCall.owned_some owned
    contradiction
  | @callResumed index other _ present resumes =>
    by_cases same : index = position
    · subst same
      rw [present] at found
      cases found
      cases resumes with
      | settles unowned | readmits interrupted unowned => simp [unowned] at owned
      | creates reserving answered owns =>
        right
        simp only [MethodCall.owned, reserving, answered, owns, ↓reduceIte,
          Option.some.injEq] at owned
        exact ⟨_, _, List.getElem?_concat_length, owned⟩
      | signals suspended | drains suspended =>
        obtain ⟨_, _, reserving, _⟩ := MethodCall.owned_some owned
        rw [reserving] at suspended
        contradiction
    · left
      obtain ⟨phase, replaced⟩ := resumes.calls
      rw [replaced, List.getElem?_set_ne same, found]
  | taskAnswered | taskResumed | taskRemoved => exact .inl found

end Custody

end Supervisor

namespace Fleet

variable {before after fleet : Fleet}

variable {store later : InMemorySessionStore}

/-- Clients bring no runs. -/
theorem Surrounds.spares (surrounds : Surrounds ambient operation store later)
    (coherent : Coherent store) (worker : String) : Spares worker store later := by
  obtain ⟨outside, fresh, rfl⟩ := surrounds
  have refines := operation.performed_refines coherent fresh
  have respects : operation.Respects store := by
    cases operation with
    | markRunRunning => exact outside.elim
    | _ => trivial
  refine ⟨refines.keeps respects, ?_⟩
  intro ref run absent present
  obtain ⟨request, rfl, _⟩ := refines.arrives absent present
  exact outside.elim

/-- The store is coherent and every worker has its runs in custody. -/
structure Sound (fleet : Fleet) : Prop where
  coherent : Coherent fleet.store
  custody : ∀ name, Custody name fleet.store (fleet.workers name)

theorem start_sound (configs : String → Config) : (start configs).Sound where
  coherent := empty_coherent
  custody name := Custody.new { configs name with workerInstanceId := name } .empty

/-- A step of the fleet makes edits of the store. -/
theorem Steps.edits (taken : before.Steps action after) (sound : before.Sound) :
    ∃ effects, Run Edit before.store effects after.store := by
  have performed {operation : Operation} {reply : Except PyException Reply}
      {later : InMemorySessionStore} (refines : Refines before.store operation reply later) :
      ∃ effects, Run Edit before.store effects later := by
    obtain ⟨effects, edits, _⟩ := refines
    exact ⟨effects, edits⟩
  cases action with
  | outside ambient operation =>
    obtain ⟨⟨outside, fresh, same⟩, _⟩ := outside_some taken
    rw [same]
    exact performed (operation.perform_refines sound.coherent fresh rfl)
  | worker name act =>
    obtain ⟨changed, acted, _⟩ := worker_some taken
    generalize after.store = later at acted
    cases Supervisor.act_some acted with
    | invoked | callResumed | taskResumed | taskRemoved => exact ⟨[], .nil⟩
    | callAnswered found asks fresh skipped =>
      exact performed (Operation.performSkipping_refines _ sound.coherent fresh skipped)
    | taskAnswered found unanswered asks fresh =>
      exact performed (Operation.perform_refines _ sound.coherent fresh rfl)

/-- What a worker sees of a step: its own, or one that spares its runs. -/
theorem Steps.views (taken : before.Steps action after) (sound : before.Sound) (name : String) :
    (∃ act, action = .worker name act ∧
        (before.workers name).Acts before.store act after.store (after.workers name)) ∨
      (after.workers name = before.workers name ∧ (∀ act, action ≠ .worker name act) ∧
        Spares name before.store after.store) := by
  rcases taken.interleaves.focus name with ⟨act, same, acted⟩ | ⟨same, others⟩
  · exact .inl ⟨act, same, Supervisor.act_some acted⟩
  · right
    refine ⟨same, ?_⟩
    rcases others with ⟨ambient, operation, rfl, surrounds⟩ | ⟨other, _, different, act, rfl, acted⟩
    · exact ⟨by simp, surrounds.spares sound.coherent name⟩
    · refine ⟨?_, ?_⟩
      · rintro _ ⟨⟩
        exact different rfl
      · obtain ⟨keeps, own⟩ :=
          (Supervisor.act_some acted).guarantees sound.coherent (sound.custody other)
        refine ⟨keeps, ?_⟩
        intro ref run absent present
        rw [own ref run absent present]
        exact different

theorem Steps.sound (taken : before.Steps action after) (sound : before.Sound) : after.Sound := by
  obtain ⟨effects, edits⟩ := taken.edits sound
  refine ⟨edits_coherent edits sound.coherent, ?_⟩
  intro name
  rcases taken.views sound name with ⟨act, _, acts⟩ | ⟨same, _, spares⟩
  · exact acts.keepsCustody sound.coherent (sound.custody name)
  · rw [same]
    exact (sound.custody name).stable spares.keeps

theorem run_sound (run : Run Steps (start configs) actions fleet) : fleet.Sound :=
  run.invariant (start_sound configs) fun sound taken => Steps.sound taken sound

/-- Runs stay in the store over every step. -/
theorem Steps.keeps (taken : before.Steps action after) (sound : before.Sound) :
    Keeps before.store after.store := by
  rcases taken.views sound "" with ⟨act, _, acts⟩ | ⟨_, _, spares⟩
  · exact (acts.guarantees sound.coherent (sound.custody "")).1
  · exact spares.keeps

/-- A run has one task in the whole fleet. -/
theorem Sound.sameTask (sound : fleet.Sound) {index otherIndex : Nat} {task other : Task}
    (found : (fleet.workers worker).tasks[index]? = some task)
    (present : (fleet.workers otherWorker).tasks[otherIndex]? = some other)
    (same : task.run.id = other.run.id) : worker = otherWorker ∧ index = otherIndex := by
  have owner := ((sound.custody worker).executing found).sameWorker
    ((sound.custody otherWorker).executing present) same
  subst owner
  exact ⟨rfl, (sound.custody worker).single found present same⟩

theorem Sound.apart (sound : fleet.Sound) {index position : Nat} {task : Task}
    {call : MethodCall} (found : (fleet.workers worker).tasks[index]? = some task)
    (present : (fleet.workers otherWorker).calls[position]? = some call)
    (owned : call.owned = some run) : task.run.id ≠ run.id := by
  intro same
  have owner := ((sound.custody worker).executing found).sameWorker
    ((sound.custody otherWorker).reserving present owned) same
  subst owner
  exact (sound.custody worker).apart found present owned same

theorem run_edits (run : Run Steps (start configs) actions fleet) :
    ∃ effects, Run Edit .empty effects fleet.store := by
  induction run with
  | nil => exact ⟨[], .nil⟩
  | snoc earlier taken ih =>
    obtain ⟨effects, edits⟩ := ih
    obtain ⟨more, further⟩ := Steps.edits taken (run_sound earlier)
    exact ⟨effects ++ more, edits.append further⟩

end Fleet

end DayuAgent
