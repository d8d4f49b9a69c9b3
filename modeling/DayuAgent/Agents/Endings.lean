import DayuAgent.Agents.Custody

namespace DayuAgent

open Library InMemorySessionStore

variable {store : InMemorySessionStore} {ambient : Ambient}

theorem AgentRun.not_terminal {run : AgentRun} (active : run.Active) : ¬ run.Terminal :=
  fun terminal => (not_active_iff_terminal run.status).mpr terminal active

/-- A sweep ends the active runs that it selects and no others. -/
theorem interruptMatching_ends (coherent : Coherent store)
    (found : store.runs.get? ref = some run) (active : run.Active) (selected : AgentRun → Bool)
    (ambient : Ambient) :
    (∃ later, (interruptMatching selected ambient store).2.runs.get? ref = some later ∧
      later.Terminal) ↔ selected run := by
  obtain ⟨after, answer, summary⟩ := interruptMatching_ok coherent selected ambient
  have own := coherent.runId found
  subst own
  rw [answer]
  constructor
  · rintro ⟨later, present, terminal⟩
    by_contra spared
    rw [(summary.skipped ?_).1, found] at present
    · cases present
      exact run.not_terminal active terminal
    · intro other member same
      obtain ⟨read, _, chosen⟩ := (mem_matchingRuns coherent selected other).mp member
      rw [same, found] at read
      cases read
      exact spared chosen
  · intro chosen
    have member := (mem_matchingRuns coherent selected run).mpr ⟨found, active, chosen⟩
    obtain ⟨completed, _, _, _, present, _⟩ := summary.hit member
    refine ⟨_, present, ?_⟩
    simp [AgentRun.Terminal, interruptedRun, terminalRunStatuses]

/-- A commit, a failure or a cancellation of the run. -/
def Operation.Concludes (operation : Operation) (ref : String) : Prop :=
  match operation with
  | .commitRunSuccess target _ | .failRun target _ | .cancelRun target _ => target = ref
  | _ => False

/-- `initialize` has returned. -/
def CallPhase.Initialized : CallPhase → Prop
  | .initialized _ => True
  | _ => False

instance (phase : CallPhase) : Decidable phase.Initialized := by
  unfold CallPhase.Initialized
  split <;> infer_instance

/-- `initialize` awaits the reconciliation of orphaned runs. -/
def CallPhase.Reconciling : CallPhase → Prop
  | .reconciling => True
  | _ => False

theorem CallPhase.Reconciling.suspended {phase : CallPhase} (reconciling : phase.Reconciling) :
    phase = .reconciling := by
  cases phase <;> first | rfl | exact reconciling.elim

namespace Fleet

/-- The worker has initialised and has not called `shutdown`. -/
structure Live (actions : List Action) (fleet : Fleet) (worker : String) : Prop where
  initialized : ∃ call ∈ (fleet.workers worker).calls, call.phase.Initialized
  serving : ∀ ambient, .worker worker (.invoke .shutdown ambient) ∉ actions

/-- The step is a commit, a failure or a cancellation of the run by this worker. -/
def ConcludedBy (before : Fleet) (worker ref : String) : Action → Prop
  | .worker name (.callEffect index _ _) => name = worker ∧
    ∃ call ∈ (before.workers worker).calls[index]?,
      ∃ operation ∈ call.phase.operation (before.workers worker).config, operation.Concludes ref
  | .worker name (.taskEffect index _) => name = worker ∧
    ∃ task ∈ (before.workers worker).tasks[index]?,
      ∃ operation ∈ task.operation (before.workers worker).config, operation.Concludes ref
  | _ => False

/-- A pending or running run of the worker becomes terminal. -/
def Ends (before after : Fleet) (worker ref : String) : Prop :=
  (∃ run ∈ before.store.runs.get? ref, run.Active ∧ run.workerInstanceId = worker) ∧
    ∃ run ∈ after.store.runs.get? ref, run.Terminal

/-- In every step of a run, what ends a run of a live worker is that worker's own doing. -/
def OwnersConclude (origin : Fleet) (actions : List Action) : Prop :=
  ∀ earlier action later before after, actions = earlier ++ action :: later →
    Run Steps origin earlier before → before.Steps action after →
    ∀ worker ref, Live earlier before worker → before.Ends after worker ref →
      before.ConcludedBy worker ref action

/-- The startup of a worker sweeps up a pending or running run of another, live one. -/
def Usurps (earlier : List Action) (before : Fleet) : Action → Prop
  | .worker name (.callEffect index _ skipped) =>
    (∃ call ∈ (before.workers name).calls[index]?, call.phase.Reconciling) ∧
    ∃ run ∈ before.store.runs.values, run.Active ∧ run.id ∉ skipped ∧
      run.workerInstanceId ≠ name ∧ Live earlier before run.workerInstanceId
  | _ => False

/-- Some step of the run is such a startup. -/
def Usurped (origin : Fleet) (actions : List Action) : Prop :=
  ∃ earlier action later before after, actions = earlier ++ action :: later ∧
    Run Steps origin earlier before ∧ before.Steps action after ∧ Usurps earlier before action

end Fleet

private theorem Task.operation_concludes {task : Task} {config : Config} {operation : Operation}
    (asks : task.operation config = some operation) (settling : operation.Settling ref) :
    operation.Concludes ref ∧ task.run.id = ref := by
  unfold Task.operation at asks
  split at asks <;> cases asks
  · exact settling.elim
  · exact settling.elim
  · exact settling.elim
  · exact settling.elim
  · exact ⟨settling, settling⟩
  · exact ⟨settling, settling⟩
  · exact ⟨settling, settling⟩

/-- Nobody but the worker of an active run cancels it. -/
theorem cancelRun_owner (coherent : Coherent store)
    (found : store.runs.get? ref = some run) (active : run.Active)
    (present : ((Operation.cancelRun ref name).perform ambient store).2.runs.get? ref = some later)
    (terminal : later.Terminal) : run.workerInstanceId = name := by
  have own := coherent.runId found
  subst own
  have settled := cancelRun_settled coherent found name ambient (Prod.mk.eta).symm
  by_contra foreign
  have loses : ¬ (Operation.cancelRun run.id name).Wins run := by
    rintro ⟨target, aimed, _⟩
    simp [Operation.target, foreign] at aimed
  rw [(settled.loses loses).1.record, found] at present
  cases present
  exact run.not_terminal active terminal

namespace Fleet

variable {before after fleet : Fleet}

/-- Only `shutdown` interrupts the runs of its worker. -/
theorem run_interrupting (run : Run Steps (start configs) actions fleet) {position : Nat}
    {call : MethodCall} (found : (fleet.workers worker).calls[position]? = some call)
    (interrupting : call.phase = .interrupting) :
    ∃ ambient, .worker worker (.invoke .shutdown ambient) ∈ actions := by
  induction run generalizing position call with
  | nil => simp [start, Supervisor.new] at found
  | @snoc actions before action after earlier taken ih =>
    have old {call : MethodCall} (read : (before.workers worker).calls[position]? = some call)
        (interrupting : call.phase = .interrupting) :
        ∃ ambient, .worker worker (.invoke .shutdown ambient) ∈ actions ++ [action] := by
      obtain ⟨ambient, member⟩ := ih read interrupting
      exact ⟨ambient, List.mem_append_left _ member⟩
    rcases taken.interleaves.focus worker with ⟨act, rfl, acted⟩ | ⟨same, _⟩
    · cases (Supervisor.act_some acted).calls found with
      | kept read => exact old read interrupting
      | @begun method ambient phase invoked next opens =>
        cases interrupting
        cases opens
        rw [invoked]
        exact ⟨ambient, by simp⟩
      | answered taken read => exact old read interrupting
      | resumed taken read resumes present =>
        exact (resumes.not_interrupting present interrupting).elim
    · rw [same] at found
      exact old found interrupting

/-- The store call of a method that ends an active run: the cancellation of an own run, the
interruption of the own runs, or the reconciliation of the others'. -/
theorem call_concludes {supervisor : Supervisor} {phase : CallPhase} {operation : Operation}
    (coherent : Coherent store) (fresh : ambient.Fresh store)
    (identity : supervisor.config.workerInstanceId = name)
    (asks : phase.operation supervisor.config = some operation)
    (found : store.runs.get? ref = some run) (active : run.Active)
    (present : (operation.performSkipping skipped ambient store).2.runs.get? ref = some later)
    (terminal : later.Terminal) :
    (run.workerInstanceId = name ∧ operation.Concludes ref) ∨
    (run.workerInstanceId = name ∧ phase = .interrupting) ∨
    (run.workerInstanceId ≠ name ∧ run.id ∉ skipped ∧ phase.Reconciling) := by
  have settles {other : Operation}
      (present : (other.performSkipping skipped ambient store).2.runs.get? ref = some later) :
      other.Settling ref :=
    (other.performSkipping_refines coherent fresh skipped).settles found active present terminal
  have swept (selected : AgentRun → Bool)
      (present : (interruptMatching selected ambient store).2.runs.get? ref = some later) :
      selected run := (interruptMatching_ends coherent found active selected ambient).mp
    ⟨later, present, terminal⟩
  unfold CallPhase.operation at asks
  split at asks <;> cases asks
  · exact (settles present).elim
  · exact (settles present).elim
  · obtain rfl := settles present
    rw [identity] at present
    exact .inl ⟨cancelRun_owner coherent found active present terminal, rfl⟩
  · rw [Operation.performSkipping, wrap_apply] at present
    have chosen := swept _ present
    simp only [identity, decide_eq_true_eq] at chosen
    exact .inr (.inl ⟨chosen.1, rfl⟩)
  · exact (settles present).elim
  · rw [Operation.performSkipping, wrap_apply] at present
    have chosen := swept _ present
    simp only [identity, decide_eq_true_eq] at chosen
    exact .inr (.inr ⟨chosen.1, chosen.2, trivial⟩)
  · exact (settles present).elim

private theorem Steps.concluded (taken : before.Steps action after) (sound : before.Sound)
    (stopped : ∀ {worker : String} {position : Nat} {call : MethodCall},
      (before.workers worker).calls[position]? = some call → call.phase = .interrupting →
      ∃ ambient, .worker worker (.invoke .shutdown ambient) ∈ earlier)
    (served : ∀ ambient operation, action = .outside ambient operation →
      ∀ ref, ¬ operation.Settling ref) (calm : ¬ Usurps earlier before action)
    (live : Live earlier before worker) (ends : before.Ends after worker ref) :
    before.ConcludedBy worker ref action := by
  obtain ⟨⟨run, found, active, own⟩, later, present, terminal⟩ := ends
  have unchanged : after.store ≠ before.store := by
    intro same
    rw [same, Option.mem_def.mp found] at present
    cases present
    exact run.not_terminal active terminal
  cases action with
  | outside ambient operation =>
    obtain ⟨⟨_, fresh, same⟩, _⟩ := outside_some taken
    rw [same] at present
    have settling :=
      (operation.performed_refines sound.coherent fresh).settles found active present terminal
    exact (served ambient operation rfl ref settling).elim
  | worker name act =>
    obtain ⟨changed, acted, _⟩ := worker_some taken
    have identity := (sound.custody name).identity
    generalize after.store = store at acted present unchanged
    cases Supervisor.act_some acted with
    | invoked | callResumed | taskResumed | taskRemoved => exact (unchanged rfl).elim
    | @callAnswered index ambient phase operation read asks fresh skipped =>
      rcases call_concludes sound.coherent fresh identity asks found active present terminal with
        ⟨mine, concludes⟩ | ⟨mine, interrupting⟩ | ⟨foreign, free, reconciling⟩
      · obtain rfl := own.symm.trans mine
        exact ⟨rfl, _, read, operation, asks, concludes⟩
      · obtain rfl := own.symm.trans mine
        obtain ⟨ambient, member⟩ := stopped read interrupting
        exact (live.serving ambient member).elim
      · refine (calm ⟨⟨_, read, reconciling⟩, run, ?_, active, free, foreign, own ▸ live⟩).elim
        exact (Dict.mem_values_iff _ _).mpr ⟨ref, found⟩
    | @taskAnswered index ambient task operation read unanswered asks fresh =>
      have settling :=
        (operation.performed_refines sound.coherent fresh).settles found active present terminal
      obtain ⟨concludes, same⟩ := Task.operation_concludes asks settling
      subst same
      have owner := (((sound.custody name).executing read).owner found).1
      obtain rfl := own.symm.trans owner
      exact ⟨rfl, task, read, operation, asks, concludes⟩

/-- A startup that sweeps up a run of a live worker ends it. -/
theorem Usurps.ends (usurps : Usurps earlier before action) (taken : before.Steps action after)
    (sound : before.Sound) : ∃ worker ref, Live earlier before worker ∧
      before.Ends after worker ref ∧ ¬ before.ConcludedBy worker ref action := by
  unfold Usurps at usurps
  split at usurps
  · next name index ambient skipped =>
    obtain ⟨⟨call, read, reconciling⟩, run, member, active, free, foreign, live⟩ := usurps
    obtain ⟨ref, found⟩ := (Dict.mem_values_iff _ _).mp member
    obtain ⟨changed, acted, _⟩ := worker_some taken
    have identity := (sound.custody name).identity
    refine ⟨run.workerInstanceId, ref, live, ⟨⟨run, found, active, rfl⟩, ?_⟩, ?_⟩
    · generalize after.store = store at acted
      cases Supervisor.act_some acted with
      | @callAnswered _ _ phase operation present asks fresh =>
        rw [Option.mem_def, present] at read
        cases read
        obtain rfl := reconciling.suspended
        cases asks
        rw [Operation.performSkipping, wrap_apply, identity]
        exact (interruptMatching_ends sound.coherent found active _ ambient).mpr
          (by simp [foreign, free])
    · rintro ⟨same, _⟩
      exact foreign same.symm
  · exact usurps.elim

/-- In a run of the fleet in which clients leave settling to the workers, every pending or
running run of a live worker is ended by that worker itself, by a commit, a failure or a
cancellation, if and only if no startup of another worker sweeps one up. -/
theorem owners_conclude_iff (run : Run Steps (start configs) actions fleet)
    (served : ∀ ambient operation, .outside ambient operation ∈ actions →
      ∀ ref, ¬ operation.Settling ref) :
    OwnersConclude (start configs) actions ↔ ¬ Usurped (start configs) actions := by
  constructor
  · rintro concluded ⟨earlier, action, later, before, after, rfl, first, taken, usurps⟩
    obtain ⟨worker, ref, live, ends, foreign⟩ := usurps.ends taken (run_sound first)
    exact foreign (concluded _ _ _ _ _ rfl first taken _ _ live ends)
  · intro calm earlier action later before after same first taken worker ref live ends
    refine taken.concluded (run_sound first) (fun read => run_interrupting first read) ?_ ?_
      live ends
    · rintro ambient operation rfl
      exact served ambient operation (by simp [same])
    · intro usurps
      exact calm ⟨earlier, action, later, before, after, same, first, taken, usurps⟩

/-- `initialize` of a worker up to its return. -/
def sampleStartup (name : String) : List Action :=
  [.worker name (.invoke .initializeSupervisor (.sample "a" "a")),
   .worker name (.callEffect 0 (.sample "a" "a") []),
   .worker name (.resumeCall 0 .wake sampleClock),
   .worker name (.callEffect 0 (.sample "a" "a") []),
   .worker name (.resumeCall 0 .wake sampleClock),
   .worker name (.callEffect 0 (.sample "a" "a") []),
   .worker name (.resumeCall 0 .wake sampleClock)]

/-- An initialised worker starts a run, and a second worker begins to initialise. -/
def secondStartup : List Action :=
  sampleStartup "worker" ++
    [.worker "worker"
       (.invoke (.run "level?" none none none none none) (.sample "request" "trace")),
     .worker "worker" (.resumeCall 1 approval sampleClock),
     .worker "worker" (.callEffect 1 (.sample "lake" "run") []),
     .worker "worker" (.resumeCall 1 .wake sampleClock),
     .worker "worker" (.resumeTask 0 .wake sampleClock),
     .worker "worker" (.taskEffect 0 (.sample "a" "a"))] ++
    (sampleStartup "other").take 3

/-- The reconciliation of the second worker. -/
def reconciliation : Action := .worker "other" (.callEffect 0 (.sample "b" "b") [])

theorem secondStartup_run : ∃ before after, Run Steps (start sampleConfig) secondStartup before ∧
    before.Steps reconciliation after ∧ Live secondStartup before "worker" ∧
    before.Ends after "worker" "run" := by
  obtain ⟨before, run, initialized, active, after, taken, ended⟩ : ∃ before,
      Run Steps (start sampleConfig) secondStartup before ∧
      (∃ call ∈ (before.workers "worker").calls, call.phase.Initialized) ∧
      (∃ record ∈ before.store.runs.get? "run",
        record.Active ∧ record.workerInstanceId = "worker") ∧
      ∃ after ∈ before.next reconciliation,
        ∃ record ∈ after.store.runs.get? "run", record.Terminal :=
    follow_reaches (by decide +kernel)
  refine ⟨before, after, run, taken, ⟨initialized, ?_⟩, active, ended⟩
  simp [secondStartup, sampleStartup]

theorem served_schedule (ambient : Ambient) (operation : Operation) :
    .outside ambient operation ∈ secondStartup ++ [reconciliation] →
      ∀ ref, ¬ operation.Settling ref := by
  simp [secondStartup, sampleStartup, reconciliation]

/-- The startup of a second worker interrupts the run of a live one. -/
theorem owners_do_not_conclude : ¬ ∀ (configs : String → Config) (actions : List Action)
    (fleet : Fleet), Run Steps (start configs) actions fleet →
    (∀ ambient operation, .outside ambient operation ∈ actions →
      ∀ ref, ¬ operation.Settling ref) → OwnersConclude (start configs) actions := by
  intro concluded
  obtain ⟨before, after, run, taken, live, ends⟩ := secondStartup_run
  have foreign := concluded sampleConfig (secondStartup ++ [reconciliation]) after
    (run.snoc taken) served_schedule secondStartup reconciliation [] before after rfl run taken
    "worker" "run" live ends
  exact absurd foreign.1 (by decide)

theorem owners_conclude_iff_secondStartup :
    Usurped (start sampleConfig) (secondStartup ++ [reconciliation]) := by
  obtain ⟨before, after, run, taken, live, ends⟩ := secondStartup_run
  by_contra calm
  have concluded := (owners_conclude_iff (run.snoc taken) served_schedule).mpr calm
  have foreign := concluded secondStartup reconciliation [] before after rfl run taken
    "worker" "run" live ends
  exact absurd foreign.1 (by decide)

end Fleet

end DayuAgent
