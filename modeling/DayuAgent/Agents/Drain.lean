import DayuAgent.Agents.Custody

namespace DayuAgent

open Library InMemorySessionStore

/-- A provider or tool call is under way. -/
def Phase.Calls : Phase → Prop
  | .executingTool _ _ | .calling _ | .streaming _ | .persisting _ _ _ => True
  | _ => False

/-- `shutdown` awaits the store. -/
def CallPhase.Interrupting : CallPhase → Prop
  | .interrupting => True
  | _ => False

/-- `shutdown` has taken its snapshot of `_tasks`. -/
def CallPhase.Snapshot : CallPhase → Prop
  | .gathering _ _ | .stopped _ => True
  | _ => False

/-- `shutdown` has returned. -/
def CallPhase.Returned : CallPhase → Prop
  | .stopped _ => True
  | _ => False

instance (phase : CallPhase) : Decidable phase.Returned := by
  unfold CallPhase.Returned
  split <;> infer_instance

instance (phase : CallPhase) : Decidable phase.Interrupting := by
  unfold CallPhase.Interrupting
  split <;> infer_instance

instance (phase : CallPhase) : Decidable phase.Snapshot := by
  unfold CallPhase.Snapshot
  split <;> infer_instance

def Supervisor.Snapshotted (supervisor : Supervisor) : Prop :=
  ∃ call ∈ supervisor.calls, call.phase.Snapshot

instance (supervisor : Supervisor) : Decidable supervisor.Snapshotted :=
  inferInstanceAs (Decidable (∃ _ ∈ _, _))

namespace Fleet

/-- The step in which `shutdown` of the worker takes its snapshot. -/
def Snapshots (before : Fleet) (worker : String) : Action → Prop
  | .worker name (.resumeCall index _ _) =>
    name = worker ∧ ∃ call ∈ (before.workers worker).calls[index]?, call.phase.Interrupting
  | _ => False

instance (before : Fleet) (worker : String) (action : Action) :
    Decidable (before.Snapshots worker action) := by
  unfold Snapshots
  split <;> infer_instance

/-- A step on which `shutdown` can rely: when it takes its snapshot, every run of the worker
that is still active has its task inside the `try` body, and from then on the worker neither
reserves a run nor creates a task. -/
def Orderly (worker : String) (before : Fleet) (action : Action) (after : Fleet) : Prop :=
  (before.Snapshots worker action → ∀ run ∈ before.store.runs.values, run.Active →
    run.workerInstanceId = worker →
    ∃ task ∈ (before.workers worker).tasks, task.run.id = run.id ∧ task.phase.Body) ∧
  ((before.workers worker).Snapshotted →
    (∀ run ∈ after.store.runs.values, run.workerInstanceId = worker →
      (before.store.runs.get? run.id).isSome) ∧
    (after.workers worker).tasks.length = (before.workers worker).tasks.length)

instance (worker : String) (before : Fleet) (action : Action) (after : Fleet) :
    Decidable (Orderly worker before action after) := inferInstanceAs (Decidable (_ ∧ _))

/-- What `shutdown` promises once it has returned. -/
structure Drained (worker : String) (fleet : Fleet) : Prop where
  settled : fleet.store.runs.get? ref = some record → record.workerInstanceId = worker →
    record.Terminal
  finished : task ∈ (fleet.workers worker).tasks → task.Done
  quiet : task ∈ (fleet.workers worker).tasks → ¬ task.phase.Calls

end Fleet

/-- A cancelled task on its way to `cancel_run`. -/
def Task.Stopping (task : Task) : Prop :=
  (task.cancelRequested = true ∧ task.phase.Body) ∨
    (task.cancelRequested = false ∧ task.phase = .cancelling ∧ task.answer = none)

namespace Task

variable {config : Config} {task later : Task}

theorem Stopping.unfinished (stopping : task.Stopping) : ¬ task.Done := by
  rcases stopping with ⟨_, body⟩ | ⟨_, cancelling, _⟩
  · exact not_done_of_body body
  · simp [done_iff, cancelling]

theorem Goes.stopping (goes : task.Goes config later) (stopping : task.Stopping) :
    later.Stopping := by
  rcases stopping with ⟨flagged, body⟩ | ⟨unflagged, cancelling, unanswered⟩
  · cases goes with
    | caught => exact .inr ⟨rfl, rfl, rfl⟩
    | stops _ outer =>
      rcases outer with fresh | handler
      · rw [fresh] at body
        exact body.elim
      · cases suspended : task.phase <;> simp_all [Phase.Body, Phase.Handler]
    | begins unflagged | succeeds unflagged | reports unflagged | yields unflagged
    | breaks unflagged => simp [flagged] at unflagged
    | continues working | loads working | raises working =>
      rw [working.unflagged] at flagged
      contradiction
  · cases goes with
    | begins _ suspended | succeeds _ suspended | reports _ suspended =>
      rw [cancelling] at suspended
      contradiction
    | continues working | loads working | raises working =>
      have body := working.body
      rw [cancelling] at body
      exact body.elim
    | yields _ _ answered | breaks _ _ answered =>
      rw [unanswered] at answered
      contradiction
    | stops flagged | caught flagged =>
      rw [unflagged] at flagged
      contradiction

/-- The store call of a stopping task keeps it stopping or settles its run. -/
theorem Effects.stopping {reply : Except PyException Reply}
    (effects : task.Effects store record reply after) (stopping : task.Stopping) :
    Stopping { task with answer := some reply } ∨
      ∃ later, after.runs.get? task.run.id = some later ∧ later.Terminal := by
  rcases stopping with stopping | ⟨_, cancelling, _⟩
  · exact .inl (.inl stopping)
  · right
    cases effects with
    | early body =>
      rw [cancelling] at body
      exact body.elim
    | committed suspended | lost suspended | failed suspended =>
      rw [cancelling] at suspended
      contradiction
    | cancelled _ found terminal => exact ⟨_, found, terminal⟩

theorem cancel_stopping (body : task.phase.Body) : task.cancel.Stopping := by
  left
  refine ⟨?_, by simpa using body⟩
  unfold cancel
  rw [if_neg (not_done_of_body body)]

end Task

/-- From the snapshot on, every active run of the worker has a stopping task, and a shutdown
waits for every unfinished task. -/
structure Draining (worker : String) (store : InMemorySessionStore) (supervisor : Supervisor) :
    Prop where
  stopping : supervisor.Snapshotted → store.runs.get? ref = some record → record.Active →
    record.workerInstanceId = worker →
    ∃ (index : Nat) (task : Task), supervisor.tasks[index]? = some task ∧ task.run.id = ref ∧
      task.Stopping
  gathered {position index : Nat} {call : MethodCall} {task : Task} {tasks : List Nat} :
    supervisor.calls[position]? = some call → call.phase = .gathering tasks interrupted →
    supervisor.tasks[index]? = some task → ¬ task.Done → index ∈ tasks
  stopped {position index : Nat} {call : MethodCall} {task : Task} :
    supervisor.calls[position]? = some call → call.phase = .stopped interrupted →
    supervisor.tasks[index]? = some task → task.Done

theorem Draining.new (config : Config) (worker : String) :
    Draining worker .empty (.new config) where
  stopping _ found := by simp [InMemorySessionStore.empty] at found
  gathered found := by simp [Supervisor.new] at found
  stopped found := by simp [Supervisor.new] at found

theorem Draining.stable (draining : Draining worker store supervisor)
    (spares : Spares worker store after) : Draining worker after supervisor where
  gathered := draining.gathered
  stopped := draining.stopped
  stopping {ref record} snapshot present active own := by
    obtain ⟨earlier, former, wasActive, same⟩ := spares.wasActive present active own
    exact draining.stopping snapshot former wasActive same

namespace Supervisor

variable {supervisor changed : Supervisor} {store after : InMemorySessionStore} {act : Act}
variable {index position : Nat}

/-- The resumption of a `shutdown` call that has been answered by the store. -/
def Drains (supervisor : Supervisor) (act : Act) : Prop :=
  ∃ position input clock call, act = .resumeCall position input clock ∧
    supervisor.calls[position]? = some call ∧ call.phase = .interrupting

/-- The two ways in which `shutdown` returns. -/
theorem Leads.snapshot (leads : supervisor.Leads call phase) (snapshot : phase.Snapshot) :
    (∃ interrupted, phase = .stopped interrupted) ∧
      ((call.phase = .interrupting ∧ supervisor.registry.values = []) ∨
        ∃ tasks interrupted, call.phase = .gathering tasks interrupted ∧
          ∀ task ∈ tasks, supervisor.TaskDone task) := by
  cases leads with
  | emptied interrupting answered idle => exact ⟨⟨_, rfl⟩, .inl ⟨interrupting, idle⟩⟩
  | gathered gathering finished => exact ⟨⟨_, rfl⟩, .inr ⟨_, _, gathering, finished⟩⟩
  | guarded =>
    unfold checkInput at snapshot
    split at snapshot <;> exact snapshot.elim
  | replayed =>
    unfold waitForResult at snapshot
    split at snapshot
    · exact snapshot.elim
    · split at snapshot <;> exact snapshot.elim
  | polled =>
    unfold Supervisor.polled at snapshot
    split at snapshot <;> exact snapshot.elim
  | _ => exact snapshot.elim

/-- How a call comes to have its snapshot. -/
inductive TakesSnapshot (supervisor : Supervisor) (act : Act) (store after : InMemorySessionStore)
    (changed : Supervisor) (position : Nat) (phase : CallPhase) : Prop where
  | kept {call : MethodCall} (found : supervisor.calls[position]? = some call)
      (same : call.phase = phase)
  | gathered {call : MethodCall} {tasks : List Nat} {interrupted count : Nat}
      (found : supervisor.calls[position]? = some call)
      (gathering : call.phase = .gathering tasks interrupted)
      (finished : ∀ task ∈ tasks, supervisor.TaskDone task) (stopped : phase = .stopped count)
      (same : changed.tasks = supervisor.tasks)
  | taken {count : Nat} (drains : supervisor.Drains act) (still : after = store)
      (cancelled : changed.tasks = (supervisor.registry.values.foldl cancelTask supervisor).tasks)
      (next : phase = .gathering supervisor.registry.values count ∨
        phase = .stopped count ∧ supervisor.registry.values = [])

private theorem Resumes.snapshot {later : MethodCall}
    (resumes : supervisor.Resumes position call changed)
    (found : supervisor.calls[position]? = some call)
    (present : changed.calls[position]? = some later) (snapshot : later.phase.Snapshot)
    (input : Input) (clock : Clock) :
    TakesSnapshot supervisor (.resumeCall position input clock) store store changed position
      later.phase := by
  cases resumes with
  | settles unowned leads =>
    obtain rfl := settle_some present
    obtain ⟨⟨count, stopped⟩, ⟨interrupting, idle⟩ | ⟨tasks, n, gathering, finished⟩⟩ :=
      leads.snapshot snapshot
    · refine .taken ⟨_, _, _, _, rfl, found, interrupting⟩ rfl ?_ (.inr ⟨stopped, idle⟩)
      rw [idle]
      rfl
    · exact .gathered found gathering finished stopped rfl
  | drains interrupting =>
    obtain rfl := settle_some present
    exact .taken ⟨_, _, _, _, rfl, found, interrupting⟩ rfl rfl (.inl rfl)
  | readmits | signals =>
    obtain rfl := settle_some present
    exact snapshot.elim
  | creates =>
    obtain rfl := settle_some present
    dsimp only at snapshot
    split at snapshot <;> exact snapshot.elim

theorem Acts.snapshot (acts : supervisor.Acts store act after changed)
    (found : changed.calls[position]? = some call) (snapshot : call.phase.Snapshot) :
    TakesSnapshot supervisor act store after changed position call.phase := by
  cases acts.calls found with
  | kept read => exact .kept read rfl
  | answered taken read => exact .kept read rfl
  | @begun method ambient phase invoked next opens =>
    cases phase <;> first | exact snapshot.elim | exact opens.elim
  | resumed taken read resumes present unanswered same =>
    subst taken same
    exact resumes.snapshot read present snapshot _ _

section Draining

variable (acts : supervisor.Acts store act after changed) (coherent : Coherent store)
variable (custody : Custody worker store supervisor)

/-- The snapshot lists every unfinished task, and each of them is cancelled. -/
theorem snapshot_complete {task : Task} (custody : Custody worker store supervisor)
    (cancelled : changed.tasks = (supervisor.registry.values.foldl cancelTask supervisor).tasks)
    (found : changed.tasks[index]? = some task) (unfinished : ¬ task.Done) :
    index ∈ supervisor.registry.values := by
  by_contra unlisted
  rw [cancelled, tasks_foldl_cancelTask, if_neg unlisted] at found
  exact unlisted ((Dict.mem_values_iff _ _).mpr ⟨_, custody.registered found unfinished⟩)

include acts

theorem Acts.former {task : Task} (found : changed.tasks[index]? = some task)
    (length : changed.tasks.length = supervisor.tasks.length) :
    ∃ former, supervisor.tasks[index]? = some former ∧ (¬ task.Done → ¬ former.Done) := by
  rcases (acts.tasks found).origin with
    ⟨former, read, _, ends⟩ | ⟨_, _, _, _, _, _, _, _, _, _, next, _⟩
  · exact ⟨former, read, mt ends⟩
  · have bound := (List.getElem?_eq_some_iff.mp found).1
    omega

include custody

theorem Acts.draining_gathered {task : Task} {call : MethodCall} {tasks : List Nat}
    (draining : Draining worker store supervisor)
    (length : supervisor.Snapshotted → changed.tasks.length = supervisor.tasks.length)
    (found : changed.calls[position]? = some call)
    (gathering : call.phase = .gathering tasks interrupted)
    (present : changed.tasks[index]? = some task) (unfinished : ¬ task.Done) : index ∈ tasks := by
  cases acts.snapshot found (gathering ▸ trivial) with
  | kept read same =>
    rw [gathering] at same
    have snapshot : supervisor.Snapshotted := ⟨_, List.mem_of_getElem? read, same ▸ trivial⟩
    obtain ⟨former, before, was⟩ := acts.former present (length snapshot)
    exact draining.gathered read same before (was unfinished)
  | gathered read earlier finished stopped =>
    rw [gathering] at stopped
    contradiction
  | taken drains still cancelled next =>
    rw [gathering] at next
    rcases next with same | ⟨stopped, _⟩
    · cases same
      exact snapshot_complete custody cancelled present unfinished
    · contradiction

theorem Acts.draining_stopped {task : Task} {call : MethodCall}
    (draining : Draining worker store supervisor)
    (length : supervisor.Snapshotted → changed.tasks.length = supervisor.tasks.length)
    (found : changed.calls[position]? = some call) (stopped : call.phase = .stopped interrupted)
    (present : changed.tasks[index]? = some task) : task.Done := by
  by_contra unfinished
  cases acts.snapshot found (stopped ▸ trivial) with
  | kept read same =>
    rw [stopped] at same
    have snapshot : supervisor.Snapshotted := ⟨_, List.mem_of_getElem? read, same ▸ trivial⟩
    obtain ⟨former, before, was⟩ := acts.former present (length snapshot)
    exact was unfinished (draining.stopped read same before)
  | gathered read gathering finished _ same =>
    rw [same] at present
    obtain ⟨found, again, done⟩ :=
      finished index (draining.gathered read gathering present unfinished)
    rw [present] at again
    cases again
    exact unfinished done
  | taken drains still cancelled next =>
    rcases next with gathering | ⟨_, idle⟩
    · rw [stopped] at gathering
      contradiction
    · have listed := snapshot_complete custody cancelled present unfinished
      rw [idle] at listed
      contradiction

include coherent

/-- A stopping task stays one as long as its run is active. -/
theorem Acts.stopping {task : Task} (body : supervisor.Drains act → task.phase.Body)
    (found : supervisor.tasks[index]? = some task) (stopping : task.Stopping)
    (recorded : after.runs.get? task.run.id = some record) (active : record.Active) :
    ∃ later, changed.tasks[index]? = some later ∧ later.run = task.run ∧ later.Stopping := by
  obtain ⟨later, present, same⟩ := acts.persists found
  refine ⟨later, present, same, ?_⟩
  have unsettled : ¬ ∃ settled, after.runs.get? task.run.id = some settled ∧ settled.Terminal := by
    rintro ⟨settled, again, terminal⟩
    rw [recorded] at again
    cases again
    exact (not_active_iff_terminal _).mpr terminal active
  cases acts.tasks present with
  | kept read =>
    rw [found] at read
    cases read
    exact stopping
  | created _ _ _ _ _ next =>
    have bound := (List.getElem?_eq_some_iff.mp found).1
    omega
  | @answered former operation ambient taken read unanswered asks fresh effect =>
    rw [found] at read
    cases read
    obtain ⟨_, _, _, effects⟩ := asked_effects coherent custody found asks ambient
    rw [← effect] at effects
    exact (effects.stopping stopping).resolve_right unsettled
  | resumed taken read goes =>
    rw [found] at read
    cases read
    exact goes.stopping stopping
  | signalled read member cancelling answered cancelled registered still =>
    obtain ⟨position, reads⟩ := List.mem_iff_getElem?.mp member
    obtain ⟨other, again, own⟩ := custody.entries registered
    rw [found] at again
    cases again
    rw [own, still] at unsettled
    exact (unsettled (custody.settled reads cancelling answered)).elim
  | drained taken read drains interrupting =>
    rw [found] at read
    cases read
    exact Task.cancel_stopping (body ⟨_, _, _, _, taken, drains, interrupting⟩)

private theorem Acts.draining_stopping (draining : Draining worker store supervisor)
    (body : supervisor.Drains act → ∀ ref record, store.runs.get? ref = some record →
      record.Active → record.workerInstanceId = worker →
      ∃ (index : Nat) (task : Task), supervisor.tasks[index]? = some task ∧ task.run.id = ref ∧
        task.phase.Body)
    (arrivals : supervisor.Snapshotted → ∀ ref record, store.runs.get? ref = none →
      after.runs.get? ref = some record → record.workerInstanceId ≠ worker)
    (snapshot : changed.Snapshotted) (recorded : after.runs.get? ref = some record)
    (active : record.Active) (own : record.workerInstanceId = worker) :
    ∃ (index : Nat) (task : Task), changed.tasks[index]? = some task ∧ task.run.id = ref ∧
      task.Stopping := by
  have earlier (snapshot : supervisor.Snapshotted) :
      ∃ (index : Nat) (task : Task), changed.tasks[index]? = some task ∧ task.run.id = ref ∧
        task.Stopping := by
    cases former : store.runs.get? ref with
    | none => exact (arrivals snapshot ref record former recorded own).elim
    | some first =>
      obtain ⟨later, same, continues⟩ := (acts.guarantees coherent custody).1.found former
      rw [recorded] at same
      cases same
      have wasActive := continues.wasActive active
      have wasOwn := continues.sameWorker.symm.trans own
      obtain ⟨index, task, found, rfl, stopping⟩ :=
        draining.stopping snapshot former wasActive wasOwn
      have inside (drains : supervisor.Drains act) : task.phase.Body := by
        obtain ⟨other, second, read, same, inside⟩ := body drains _ first former wasActive wasOwn
        obtain rfl := custody.single found read same.symm
        rw [found] at read
        cases read
        exact inside
      obtain ⟨later, present, same, still⟩ :=
        acts.stopping coherent custody inside found stopping recorded active
      exact ⟨index, later, present, by rw [same], still⟩
  obtain ⟨call, member, taken⟩ := snapshot
  obtain ⟨position, found⟩ := List.mem_iff_getElem?.mp member
  cases acts.snapshot found taken with
  | kept read same => exact earlier ⟨_, List.mem_of_getElem? read, same ▸ taken⟩
  | gathered read gathering => exact earlier ⟨_, List.mem_of_getElem? read, gathering ▸ trivial⟩
  | taken drains still cancelled next =>
    subst still
    obtain ⟨index, task, present, rfl, inside⟩ := body drains ref record recorded active own
    have listed : index ∈ supervisor.registry.values := (Dict.mem_values_iff _ _).mpr
      ⟨_, custody.registered present (Task.not_done_of_body inside)⟩
    refine ⟨index, task.cancel, ?_, by rw [Task.cancel_run], Task.cancel_stopping inside⟩
    rw [cancelled, tasks_foldl_cancelTask, if_pos listed, present]
    rfl

end Draining

end Supervisor

namespace Fleet

variable {before after fleet : Fleet}

private theorem Orderly.body (orderly : Orderly worker before action after)
    (snapshots : before.Snapshots worker action)
    (found : before.store.runs.get? ref = some record) (coherent : Coherent before.store)
    (active : record.Active) (own : record.workerInstanceId = worker) :
    ∃ (index : Nat) (task : Task), (before.workers worker).tasks[index]? = some task ∧
      task.run.id = ref ∧ task.phase.Body := by
  have member : record ∈ before.store.runs.values := (Dict.mem_values_iff _ _).mpr ⟨ref, found⟩
  obtain ⟨task, listed, same, body⟩ := orderly.1 snapshots record member active own
  obtain ⟨index, present⟩ := List.mem_iff_getElem?.mp listed
  exact ⟨index, task, present, same.trans (coherent.runId found), body⟩

private theorem Orderly.arrivals (orderly : Orderly worker before action after)
    (snapshot : (before.workers worker).Snapshotted) (coherent : Coherent after.store)
    (absent : before.store.runs.get? ref = none)
    (found : after.store.runs.get? ref = some record) : record.workerInstanceId ≠ worker := by
  intro own
  have member : record ∈ after.store.runs.values := (Dict.mem_values_iff _ _).mpr ⟨ref, found⟩
  have earlier := (orderly.2 snapshot).1 record member own
  rw [coherent.runId found, absent] at earlier
  contradiction

/-- A step of the fleet on which `shutdown` can rely. -/
def OrderlySteps (worker : String) (before : Fleet) (action : Action) (after : Fleet) : Prop :=
  Steps before action after ∧ Orderly worker before action after

private theorem OrderlySteps.draining (taken : OrderlySteps worker before action after)
    (sound : before.Sound) (draining : Draining worker before.store (before.workers worker)) :
    Draining worker after.store (after.workers worker) := by
  obtain ⟨taken, orderly⟩ := taken
  have later := Steps.sound taken sound
  rcases taken.views sound worker with ⟨act, rfl, acts⟩ | ⟨same, _, spares⟩
  · have custody := sound.custody worker
    have length snapshot := (orderly.2 snapshot).2
    refine ⟨?_, ?_, ?_⟩
    · refine acts.draining_stopping sound.coherent custody draining ?_ ?_
      · rintro ⟨position, input, clock, call, rfl, found, interrupting⟩ ref record
        have snapshots : before.Snapshots worker
            (.worker worker (.resumeCall position input clock)) :=
          ⟨rfl, call, found, interrupting ▸ trivial⟩
        exact fun recorded active own =>
          orderly.body snapshots recorded sound.coherent active own
      · exact fun snapshot ref record absent found =>
          orderly.arrivals snapshot later.coherent absent found
    · exact acts.draining_gathered custody draining length
    · exact acts.draining_stopped custody draining length
  · rw [same]
    exact draining.stable spares

private theorem run_draining (run : Run (OrderlySteps worker) (start configs) actions fleet) :
    Draining worker fleet.store (fleet.workers worker) := by
  induction run with
  | nil => exact .new _ worker
  | snoc earlier last ih =>
    have sound := run_sound (earlier.mono fun taken => taken.1)
    exact last.draining sound ih

/-- In a run whose steps are all orderly, a shutdown that has returned leaves no active run
of the worker, no unfinished task and no provider or tool call. -/
theorem shutdown_drains (run : Run (OrderlySteps worker) (start configs) actions fleet)
    (member : call ∈ (fleet.workers worker).calls) (returned : call.phase.Returned) :
    Drained worker fleet := by
  have draining := run_draining run
  obtain ⟨position, found⟩ := List.mem_iff_getElem?.mp member
  obtain ⟨interrupted, stopped⟩ : ∃ interrupted, call.phase = .stopped interrupted := by
    cases phase : call.phase <;> simp_all [CallPhase.Returned]
  have finished {task : Task} (listed : task ∈ (fleet.workers worker).tasks) : task.Done := by
    obtain ⟨index, present⟩ := List.mem_iff_getElem?.mp listed
    exact draining.stopped found stopped present
  refine ⟨?_, finished, ?_⟩
  · intro ref record recorded own
    refine (active_or_terminal record.status).resolve_left fun active => ?_
    have snapshot : (fleet.workers worker).Snapshotted := ⟨call, member, stopped ▸ trivial⟩
    obtain ⟨index, task, present, _, stopping⟩ := draining.stopping snapshot recorded active own
    exact stopping.unfinished (draining.stopped found stopped present)
  · intro task listed calls
    obtain ⟨outcome, same⟩ := task.done_iff.mp (finished listed)
    rw [same] at calls
    exact calls

/-- A shutdown that interrupts and cancels a run during its provider call. -/
def sampleShutdown : List Act :=
  sampleAdmission ++ sampleStart ++ sampleAttempt ++
    [.invoke .shutdown (.sample "a" "a"), .callEffect 1 (.sample "a" "a") [],
     .resumeCall 1 .wake sampleClock, .resumeTask 0 .wake sampleClock,
     .taskEffect 0 (.sample "a" "a"), .resumeTask 0 .wake sampleClock,
     .resumeCall 1 .wake sampleClock]

theorem shutdown_drains_sampleShutdown : ∃ fleet,
    Run Steps (start sampleConfig) (schedule sampleShutdown) fleet ∧ Drained "worker" fleet := by
  obtain ⟨fleet, run, call, member, returned⟩ : ∃ fleet,
      Run (fun before action after =>
        admitted next (Orderly "worker") before action = some after)
        (start sampleConfig) (schedule sampleShutdown) fleet ∧
      ∃ call ∈ (fleet.workers "worker").calls, call.phase.Returned :=
    follow_reaches (by decide +kernel)
  have orderly : Run (OrderlySteps "worker") (start sampleConfig) (schedule sampleShutdown)
      fleet := run.mono admitted_some
  exact ⟨fleet, orderly.mono fun taken => taken.1, shutdown_drains orderly member returned⟩

/-- A shutdown that begins and returns while `run` awaits its input guardrail, and the
reservation that follows. -/
def lateReservation : List Act :=
  sampleAdmission ++
    [.invoke .shutdown (.sample "a" "a"), .callEffect 1 (.sample "a" "a") [],
     .resumeCall 1 .wake sampleClock, .callEffect 0 (.sample "lake" "run") []]

/-- A run that was admitted before the shutdown is reserved after it has returned. -/
theorem shutdown_leaves_run : ¬ ∀ (configs : String → Config) (worker : String)
    (actions : List Action) (fleet : Fleet), Run Steps (start configs) actions fleet →
    (∃ call ∈ (fleet.workers worker).calls, call.phase.Returned) → Drained worker fleet := by
  intro drains
  obtain ⟨fleet, run, returned, record, found, active, own⟩ : ∃ fleet,
      Run Steps (start sampleConfig) (schedule lateReservation) fleet ∧
      (∃ call ∈ (fleet.workers "worker").calls, call.phase.Returned) ∧
      ∃ record ∈ fleet.store.runs.get? "run",
        record.Active ∧ record.workerInstanceId = "worker" :=
    follow_reaches (by decide +kernel)
  have terminal := (drains _ "worker" _ fleet run returned).settled found own
  exact (not_active_iff_terminal _).mpr terminal active

end Fleet

end DayuAgent
