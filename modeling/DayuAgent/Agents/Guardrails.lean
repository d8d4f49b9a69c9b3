import DayuAgent.Agents.Screening
import DayuAgent.Agents.Turns
import DayuAgent.Memory.Versions

namespace DayuAgent

open Library InMemorySessionStore

variable {store after : InMemorySessionStore}

/-! While a run is active, nothing but its own commit touches its session. -/

theorem Edit.spares_session (edit : Edit store effect after) (coherent : Coherent store)
    (found : store.runs.get? ref = some run) (active : run.Active)
    (present : after.runs.get? ref = some later) (open' : later.status ≠ .completed) :
    Undisturbed run.sessionId store after := by
  obtain ⟨session, opened⟩ := Option.isSome_iff_exists.mp (coherent.runSession found)
  have busy {record : SessionRecord} (idle : activeRunLocked store record.id = none) :
      run.sessionId ≠ record.id := fun own =>
    (activeRunLocked_none_iff _ _).mp idle ref run found own active
  by_cases silent : effect.Silent
  · exact edit.undisturbed silent opened
  cases edit with
  | ready | openSession | reserve | attempt | emit | move | prune => exact (silent trivial).elim
  | say _ _ idle | clear _ idle => exact undisturbed_withTranscript _ _ _ _ (busy idle)
  | @commit committed record history log read running session own transcript logged request
      ambient =>
    have other : run.sessionId ≠ record.id := by
      intro same
      have committing : committed.Active := by
        simp [AgentRun.Active, running, activeRunStatuses]
      obtain rfl := coherent.oneActive found read (same.trans own.symm) active committing
      have completed : later = completedRun committed request (ambient.utcNow 2) :=
        Option.some.inj (present.symm.trans (Dict.get?_set_self _ _ _))
      exact open' (completed ▸ rfl)
    exact ⟨Dict.get?_set_ne _ _ other, Dict.get?_set_ne _ _ other⟩

/-- A call that does not complete an active run leaves its session alone. -/
theorem InMemorySessionStore.Refines.spares_session {operation : Operation}
    (refines : Refines store operation reply after) (coherent : Coherent store)
    (found : store.runs.get? ref = some run) (active : run.Active)
    (present : after.runs.get? ref = some later) (open' : later.status ≠ .completed) :
    Undisturbed run.sessionId store after := by
  obtain ⟨effects, edits, makes⟩ := refines
  obtain ⟨session, opened⟩ := Option.isSome_iff_exists.mp (coherent.runSession found)
  by_cases writer : operation.Writer
  · cases makes with
    | raised =>
      obtain rfl := edits.of_nil
      exact .rfl
    | said | cleared | committed =>
      exact edits.of_single.spares_session coherent found active present open'
    | read reads => cases operation <;> first | exact writer.elim | exact reads.elim
    | _ => exact writer.elim
  · exact edits_undisturbed edits (makes_silent makes writer) opened

/-- A run that is active later was active before. -/
theorem InMemorySessionStore.Keeps.active (keeps : Keeps store after)
    (found : store.runs.get? ref = some run)
    (present : after.runs.get? ref = some later) (active : later.Active) : run.Active := by
  refine (active_or_terminal run.status).resolve_right fun terminal => ?_
  obtain ⟨other, read, continues⟩ := keeps.found found
  rw [present] at read
  cases read
  rw [continues.settled terminal] at active
  exact (not_active_iff_terminal _).mpr terminal active

namespace Fleet

variable {before after fleet state other : Fleet} {configs : String → Config}
variable {actions : List Action} {action : Action} {worker : String} {task : Task} {index : Nat}

theorem Steps.spares_session (taken : before.Steps action after) (sound : before.Sound)
    (found : before.store.runs.get? ref = some run) (active : run.Active)
    (present : after.store.runs.get? ref = some later) (open' : later.status ≠ .completed) :
    DayuAgent.Undisturbed run.sessionId before.store after.store := by
  rcases taken.effect sound with same | ⟨operation, reply, _, refines⟩
  · rw [same]
    exact .rfl
  · exact refines.spares_session sound.coherent found active present open'

theorem run_keeps (run : Run Steps before labels after) (sound : before.Sound) :
    after.Sound ∧ Keeps before.store after.store := by
  constructor
  · exact run.invariant sound fun holds taken => Steps.sound taken holds
  · refine run.compares (fun before after => Keeps before.store after.store) sound ?_ ?_ ?_ ?_
    · exact fun holds taken => Steps.sound taken holds
    · exact fun state => .refl state.store
    · exact fun first second => first.trans second
    · exact fun holds taken => Steps.keeps taken holds

theorem visits_last (run : Run Steps (start configs) actions fleet) :
    Visits configs actions fleet := ⟨actions, [], by simp, run⟩

theorem Visits.sound (visits : Visits configs actions state) : state.Sound := by
  obtain ⟨_, _, _, run⟩ := visits
  exact run_sound run

theorem Takes.visits (takes : Takes configs actions state action) :
    Visits configs actions state := by
  obtain ⟨earlier, later, same, run⟩ := takes
  exact ⟨earlier, action :: later, same, run⟩

/-- A state that the run has come through lies before a step of the run or after it. -/
theorem Takes.around (run : Run Steps (start configs) actions fleet)
    (takes : Takes configs actions before action) :
    ∃ earlier later after, actions = earlier ++ action :: later ∧
      Run Steps (start configs) earlier before ∧ Steps before action after ∧
      Run Steps after later fleet ∧ ∀ state, Visits configs actions state →
        (∃ labels, Run Steps state labels before) ∨ ∃ labels, Run Steps after labels state := by
  obtain ⟨earlier, later, rfl, reached⟩ := takes
  obtain ⟨middle, after, first, taken, rest⟩ := run.around
  obtain rfl : middle = before := Run.deterministic first reached
  refine ⟨earlier, later, after, rfl, first, taken, rest, ?_⟩
  rintro state ⟨prior, further, same, visited⟩
  rcases List.append_eq_append_iff.mp same with ⟨more, rfl, split⟩ | ⟨more, rfl, _⟩
  · cases more with
    | nil =>
      rw [List.append_nil] at visited
      obtain rfl : middle = state := Run.deterministic first visited
      exact .inl ⟨[], .nil⟩
    | cons label labels =>
      cases split
      obtain ⟨former, next, one, step, two⟩ := visited.around
      obtain rfl : middle = former := Run.deterministic first one
      obtain rfl : after = next := Option.some.inj (Eq.symm taken |>.trans step)
      exact .inr ⟨labels, two⟩
  · obtain ⟨reached, one, two⟩ := first.split
    obtain rfl : reached = state := Run.deterministic one visited
    exact .inl ⟨more, two⟩

theorem Steps.persists (taken : before.Steps action after) (sound : before.Sound)
    (found : (before.workers worker).tasks[index]? = some task) :
    ∃ later : Task, (after.workers worker).tasks[index]? = some later ∧ later.run = task.run := by
  rcases taken.views sound worker with ⟨_, _, acts⟩ | ⟨same, _⟩
  · exact acts.persists found
  · exact ⟨task, same ▸ found, rfl⟩

theorem Steps.config (taken : before.Steps action after) (sound : before.Sound) (worker : String) :
    (after.workers worker).config = (before.workers worker).config := by
  rcases taken.views sound worker with ⟨_, _, acts⟩ | ⟨same, _⟩
  · exact acts.config
  · rw [same]

/-- What no resumption takes from the phase of a task stays with it. -/
theorem run_phase (Holds : Phase → Prop) (run : Run Steps before labels after)
    (sound : before.Sound) (found : (before.workers worker).tasks[index]? = some task)
    (holds : Holds task.phase)
    (stable : ∀ {config : Config} {former : Task} {input : Input} {clock : Clock}
      {resumed : Resumed}, former.resume config input clock = some resumed →
        Holds former.phase → Holds resumed.task.phase) :
    ∃ later : Task, (after.workers worker).tasks[index]? = some later ∧ later.run = task.run ∧
      Holds later.phase := by
  induction run with
  | nil => exact ⟨task, found, rfl, holds⟩
  | @snoc labels middle label final earlier taken ih =>
    obtain ⟨former, read, own, held⟩ := ih
    obtain ⟨later, present, same⟩ := Steps.persists taken (run_keeps earlier sound).1 read
    refine ⟨later, present, same.trans own, ?_⟩
    cases Steps.taskComes taken present with
    | same other there _ phase =>
      cases read.symm.trans there
      rwa [phase]
    | resumed other input clock resumed moved there went arrived =>
      cases read.symm.trans there
      rw [arrived]
      exact stable went held
    | created position call start next =>
      have bound := (List.getElem?_eq_some_iff.mp read).1
      omega

end Fleet

/-- A tool or output guardrail is being awaited. -/
def Phase.Guarded : Phase → Prop
  | .guardingTool _ _ _ | .checkingOutput _ _ => True
  | _ => False

instance (phase : Phase) : Decidable phase.Guarded := by
  unfold Phase.Guarded
  split <;> infer_instance

namespace Task

variable {config : Config} {task : Task} {input : Input} {clock : Clock} {resumed : Resumed}

/-- Where no clause catches a cancellation, the task just ends. -/
theorem Goes.unheard {later : Task} (goes : task.Goes config later) (unheard : task.Unheard) :
    ∃ error, later.phase = .finished (.error error) := by
  obtain ⟨flagged, outer⟩ := unheard
  have heard (unflagged : task.cancelRequested = false) : False := by
    rw [flagged] at unflagged
    contradiction
  cases goes with
  | continues working | loads working | raises working => exact (heard working.unflagged).elim
  | begins unflagged | succeeds unflagged | reports unflagged | yields unflagged
  | breaks unflagged => exact (heard unflagged).elim
  | stops => exact ⟨_, rfl⟩
  | caught _ body =>
    cases suspended : task.phase <;> simp_all [Phase.Body, Phase.Handler]

end Task

private theorem Supervisor.Acts.calls_length {supervisor changed : Supervisor} {act : Act}
    (acts : supervisor.Acts store act after changed) :
    supervisor.calls.length ≤ changed.calls.length := by
  cases acts with
  | invoked method ambient =>
    obtain ⟨phase, _, same⟩ := supervisor.invoke_calls method ambient
    simp [same]
  | callAnswered => simp [answerCall]
  | callResumed _ resumes =>
    obtain ⟨phase, same⟩ := resumes.calls
    simp [same]
  | taskAnswered | taskResumed | taskRemoved => exact le_rfl

namespace Fleet

variable {before after fleet : Fleet} {configs : String → Config} {actions : List Action}
variable {action : Action} {worker : String} {position : Nat} {call : MethodCall}

private theorem Steps.calls_length (taken : before.Steps action after) (sound : before.Sound)
    (worker : String) :
    (before.workers worker).calls.length ≤ (after.workers worker).calls.length := by
  rcases taken.views sound worker with ⟨_, _, acts⟩ | ⟨same, _⟩
  · exact acts.calls_length
  · rw [same]

theorem run_calls_length (run : Run Steps before labels after) (sound : before.Sound)
    (worker : String) :
    (before.workers worker).calls.length ≤ (after.workers worker).calls.length :=
  run.compares
    (fun before after => (before.workers worker).calls.length ≤ (after.workers worker).calls.length)
    sound (fun holds taken => Steps.sound taken holds) (fun _ => le_rfl)
    (fun first second => first.trans second)
    fun holds taken => Steps.calls_length taken holds worker

/-- A call that has raised stays so. -/
theorem Steps.raised (taken : before.Steps action after)
    (found : (before.workers worker).calls[position]? =
      some { phase := .raised error, answer := none }) :
    (after.workers worker).calls[position]? =
      some { phase := .raised error, answer := none } := by
  rcases taken.interleaves.focus worker with ⟨act, rfl, acted⟩ | ⟨same, _⟩
  · generalize after.store = store, after.workers worker = changed at acted ⊢
    cases Supervisor.act_some acted with
    | invoked method ambient =>
      obtain ⟨phase, _, same⟩ := (before.workers worker).invoke_calls method ambient
      rw [same, List.getElem?_append_left (List.getElem?_eq_some_iff.mp found).1, found]
    | callAnswered waiting asks =>
      refine (List.getElem?_set_ne ?_).trans found
      rintro rfl
      cases found.symm.trans waiting
      cases asks
    | callResumed read resumes input clock =>
      obtain ⟨phase, same⟩ := resumes.calls
      rw [same]
      refine (List.getElem?_set_ne ?_).trans found
      rintro rfl
      obtain ⟨_, went, _⟩ := Option.map_eq_some_iff.mp acted
      simp [Supervisor.resumeCall, found, Supervisor.informed] at went
    | taskAnswered | taskResumed | taskRemoved => exact found
  · rw [same]
    exact found

/-- A tool guardrail or an output guardrail has denied at the task. -/
def TaskDenied (configs : String → Config) (actions : List Action) (worker : String)
    (index : Nat) : Prop :=
  ∃ phase decision, phase.Guarded ∧ TaskJudged configs actions worker index phase decision ∧
    decision.allowed = false

/-- The run of the task was terminal before the task could tell the store of its failure. -/
def Forestalled (configs : String → Config) (actions : List Action) (worker : String)
    (index : Nat) : Prop :=
  ∃ state task record, Visits configs actions state ∧
    (state.workers worker).tasks[index]? = some task ∧
    (∃ error errorCode, task.phase = .failing error errorCode) ∧ task.answer = none ∧
    state.store.runs.get? task.run.id = some record ∧ record.Terminal

/-- The run has failed for its guardrail, or it was terminal before. -/
def Settled (configs : String → Config) (actions : List Action) (worker : String) (index : Nat)
    (record : AgentRun) : Prop :=
  (record.status = .failed ∧ record.errorCode = some "GUARDRAIL_BLOCKED") ∨
    Forestalled configs actions worker index

/-- After a denial at a task, while its run is still pending or running, a cancellation
reaches the task in its `except` clause. -/
def Stranded (configs : String → Config) (actions : List Action) : Prop :=
  ∃ earlier later state worker index input clock task record,
    actions = earlier ++ .worker worker (.resumeTask index input clock) :: later ∧
    Run Steps (start configs) earlier state ∧ TaskDenied configs earlier worker index ∧
    (state.workers worker).tasks[index]? = some task ∧ task.Unheard ∧
    state.store.runs.get? task.run.id = some record ∧ record.Active

theorem TaskDenied.snoc (denied : TaskDenied configs actions worker index) (action : Action) :
    TaskDenied configs (actions ++ [action]) worker index := by
  obtain ⟨phase, decision, guarded, judged, rejected⟩ := denied
  exact ⟨phase, decision, guarded, judged.snoc action, rejected⟩

private theorem Forestalled.snoc (forestalled : Forestalled configs actions worker index)
    (action : Action) : Forestalled configs (actions ++ [action]) worker index := by
  obtain ⟨state, task, record, visits, rest⟩ := forestalled
  exact ⟨state, task, record, visits.snoc action, rest⟩

theorem Stranded.append (stranded : Stranded configs actions) (more : List Action) :
    Stranded configs (actions ++ more) := by
  obtain ⟨earlier, later, state, worker, index, input, clock, task, record, rfl, rest⟩ := stranded
  exact ⟨earlier, later ++ more, state, worker, index, input, clock, task, record, by simp, rest⟩

theorem Settled.snoc (settled : Settled configs actions worker index record)
    (continues : Continues record later) (action : Action) :
    Settled configs (actions ++ [action]) worker index later := by
  rcases settled with failed | forestalled
  · have terminal : record.Terminal := by
      simp [AgentRun.Terminal, failed.1, terminalRunStatuses]
    rw [continues.settled terminal]
    exact .inl failed
  · exact .inr (forestalled.snoc action)

/-- The task has to tell the store that a guardrail has denied, or it has ended with an
error. -/
def Barred (task : Task) : Prop :=
  (∃ error, task.phase = .failing error "GUARDRAIL_BLOCKED") ∨
    ∃ error, task.phase = .finished (.error error)

/-- Where a task is that a guardrail has denied, and what the store says of its run. -/
structure Reports (configs : String → Config) (actions : List Action) (worker : String)
    (index : Nat) (record : AgentRun) (task : Task) : Prop where
  barred : Barred task
  answered : task.answer = some reply →
    (∃ value, reply = .ok value) ∧ Settled configs actions worker index record
  ended : ¬ Stranded configs actions → task.Done → Settled configs actions worker index record

private theorem Reports.snoc {task : Task}
    (reports : Reports configs actions worker index record task)
    (continues : Continues record later) (action : Action) :
    Reports configs (actions ++ [action]) worker index later task := by
  refine ⟨reports.barred, ?_, ?_⟩
  · intro reply answered
    obtain ⟨ok, settled⟩ := reports.answered answered
    exact ⟨ok, settled.snoc continues action⟩
  · intro unstranded finished
    have settled := reports.ended (fun stranded => unstranded (stranded.append [action])) finished
    exact settled.snoc continues action

private theorem Reports.cancel {task : Task}
    (reports : Reports configs actions worker index record task) :
    Reports configs actions worker index record task.cancel := by
  unfold Task.cancel
  split
  · exact reports
  · exact ⟨reports.barred, reports.answered, reports.ended⟩

/-- The failure of the run takes effect, unless the run was terminal before. -/
theorem Reports.effect {task : Task} {operation : Operation} {config : Config}
    (reports : Reports configs actions worker index record task)
    (asks : task.operation config = some operation)
    (effects : task.Effects before.store record reply store) (unanswered : task.answer = none)
    (run : Run Steps (start configs) actions before)
    (found : (before.workers worker).tasks[index]? = some task)
    (recorded : before.store.runs.get? task.run.id = some record)
    (present : store.runs.get? task.run.id = some later) (action : Action) :
    Reports configs (actions ++ [action]) worker index later
      { task with answer := some reply } := by
  obtain ⟨error, failing⟩ : ∃ error, task.phase = .failing error "GUARDRAIL_BLOCKED" := by
    refine reports.barred.resolve_right ?_
    rintro ⟨error, finished⟩
    rw [Task.operation, finished] at asks
    cases asks
  refine ⟨.inl ⟨error, failing⟩, ?_, ?_⟩
  · rintro _ ⟨⟩
    cases effects with
    | early body =>
      rw [failing] at body
      exact body.elim
    | lost committing | committed committing | cancelled committing =>
      rw [failing] at committing
      contradiction
    | failed other read terminal coded =>
      rw [failing] at other
      cases other
      rw [present] at read
      cases read
      refine ⟨⟨_, rfl⟩, ?_⟩
      rcases active_or_terminal record.status with active | ended
      · exact .inl (coded active)
      · exact .inr ⟨before, task, record, (visits_last run).snoc action, found,
          ⟨error, _, failing⟩, unanswered, recorded, ended⟩
  · intro _ finished
    obtain ⟨outcome, same⟩ := (Task.done_iff _).mp finished
    rw [show task.phase = _ from same] at failing
    contradiction

/-- The task ends, with its failure told or with a cancellation. -/
theorem Reports.goes {task later : Task} {config : Config}
    (reports : Reports configs actions worker index record task) (goes : task.Goes config later)
    (run : Run Steps (start configs) actions before)
    (denied : TaskDenied configs actions worker index)
    (found : (before.workers worker).tasks[index]? = some task)
    (recorded : before.store.runs.get? task.run.id = some record) (input : Input) (clock : Clock) :
    Reports configs (actions ++ [.worker worker (.resumeTask index input clock)]) worker index
      record later := by
  obtain ⟨error, failing⟩ : ∃ error, task.phase = .failing error "GUARDRAIL_BLOCKED" := by
    refine reports.barred.resolve_right ?_
    rintro ⟨error, finished⟩
    exact goes.unfinished ((Task.done_iff _).mpr ⟨_, finished⟩)
  have handler : ¬ task.phase.Body := by simp [failing, Phase.Body]
  have ends {task : Task} {error : PyException}
      (settled : ¬ Stranded configs
        (actions ++ [.worker worker (.resumeTask index input clock)]) →
          Settled configs (actions ++ [.worker worker (.resumeTask index input clock)]) worker
            index record) :
      Reports configs (actions ++ [.worker worker (.resumeTask index input clock)]) worker index
        record (task.enter (.finished (.error error))) :=
    ⟨.inr ⟨_, rfl⟩, by rintro _ ⟨⟩, fun unstranded _ => settled unstranded⟩
  cases goes with
  | begins _ fresh =>
    rw [failing] at fresh
    contradiction
  | continues working | loads working | raises working => exact (handler working.body).elim
  | caught _ body => exact (handler body).elim
  | succeeds _ other | yields _ other =>
    rw [failing] at other
    contradiction
  | reports _ _ answered =>
    exact ends fun _ => (reports.answered answered).2.snoc (.refl record) _
  | breaks _ _ answered =>
    obtain ⟨⟨_, same⟩, _⟩ := reports.answered answered
    contradiction
  | stops flagged outer =>
    refine ends fun unstranded => ?_
    cases answered : task.answer with
    | some reply => exact (reports.answered answered).2.snoc (.refl record) _
    | none =>
      rcases active_or_terminal record.status with active | ended
      · refine (unstranded ?_).elim
        exact ⟨actions, [], before, worker, index, input, clock, task, record, rfl, run, denied,
          found, ⟨flagged, outer⟩, recorded, active⟩
      · exact .inr ⟨before, task, record, (visits_last run).snoc _, found,
          ⟨error, _, failing⟩, answered, recorded, ended⟩

/-- What a step makes of a task that a guardrail has denied. -/
theorem Steps.reports {task : Task} (taken : before.Steps action after)
    (run : Run Steps (start configs) actions before)
    (denied : TaskDenied configs actions worker index)
    (found : (before.workers worker).tasks[index]? = some task)
    (recorded : before.store.runs.get? task.run.id = some record)
    (reports : Reports configs actions worker index record task) :
    ∃ later next, (after.workers worker).tasks[index]? = some later ∧ later.run = task.run ∧
      after.store.runs.get? task.run.id = some next ∧
      Reports configs (actions ++ [action]) worker index next later := by
  have sound := run_sound run
  obtain ⟨later, present, own⟩ := Steps.persists taken sound found
  obtain ⟨next, read, continues⟩ := (taken.keeps sound).found recorded
  refine ⟨later, next, present, own, read, ?_⟩
  rcases taken.views sound worker with ⟨act, rfl, acts⟩ | ⟨same, _⟩
  · cases acts.tasks present with
    | kept there =>
      cases found.symm.trans there
      exact reports.snoc continues _
    | created _ _ _ _ _ beyond =>
      have bound := (List.getElem?_eq_some_iff.mp found).1
      omega
    | @answered former operation ambient moved there unanswered asks fresh effect =>
      cases found.symm.trans there
      obtain ⟨other, same, _, effects⟩ :=
        Supervisor.asked_effects sound.coherent (sound.custody worker) found asks ambient
      cases recorded.symm.trans same
      rw [effect] at read
      exact reports.effect asks effects unanswered run found recorded read _
    | @resumed input clock former _ moved there goes same =>
      cases found.symm.trans there
      rw [same] at read
      cases recorded.symm.trans read
      subst moved
      exact reports.goes goes run denied found recorded input clock
    | signalled there | drained _ there =>
      cases found.symm.trans there
      exact (reports.snoc continues _).cancel
  · rw [same, found] at present
    cases present
    exact reports.snoc continues _

theorem Visits.rest (visits : Visits configs actions state)
    (run : Run Steps (start configs) actions fleet) : ∃ labels, Run Steps state labels fleet := by
  obtain ⟨earlier, later, rfl, reached⟩ := visits
  obtain ⟨middle, first, second⟩ := run.split
  obtain rfl : middle = state := Run.deterministic first reached
  exact ⟨later, second⟩

theorem Steps.task_resumed {task : Task} {input : Input} {clock : Clock}
    (taken : before.Steps (.worker worker (.resumeTask index input clock)) after)
    (found : (before.workers worker).tasks[index]? = some task) :
    after.store = before.store ∧ ∃ resumed,
      task.resume (before.workers worker).config input clock = some resumed ∧
        (after.workers worker).tasks[index]? = some resumed.task := by
  obtain ⟨changed, acted, same⟩ := worker_some taken
  obtain ⟨other, resumed, read, went, rfl⟩ := Supervisor.resumeTask_some acted
  cases found.symm.trans read
  obtain ⟨_, _, paired⟩ := Option.map_eq_some_iff.mp acted
  refine ⟨(Prod.mk.inj paired).1.symm, resumed, went, ?_⟩
  rw [same, Function.update_self, List.getElem?_set_self (List.getElem?_eq_some_iff.mp found).1]

section Denied

variable (run : Run Steps (start configs) actions fleet)
variable (judged : TaskJudged configs actions worker index phase decision)
variable (guarded : phase.Guarded) (rejected : decision.allowed = false)
include run judged guarded rejected

end Denied

private theorem Forestalled.terminal {task : Task} (run : Run Steps (start configs) actions fleet)
    (forestalled : Forestalled configs actions worker index)
    (found : (fleet.workers worker).tasks[index]? = some task) :
    ∃ record, fleet.store.runs.get? task.run.id = some record ∧ record.Terminal := by
  obtain ⟨state, former, record, visits, read, _, _, recorded, terminal⟩ := forestalled
  obtain ⟨labels, rest⟩ := visits.rest run
  obtain ⟨later, present, own, _⟩ := run_phase (fun _ => True) rest visits.sound read trivial
    fun _ _ => trivial
  cases found.symm.trans present
  rw [own]
  exact (run_keeps rest visits.sound).2.terminal ⟨record, recorded, terminal⟩

end Fleet

end DayuAgent
