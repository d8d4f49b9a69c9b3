import DayuAgent.Agents.Dictation
import DayuAgent.Agents.Guardrails

namespace DayuAgent

open Library InMemorySessionStore

namespace Fleet

variable {before after fleet : Fleet} {action : Action} {ref : String}

/-- The step resumes a task of the run. -/
def Resuming (fleet : Fleet) (ref : String) (action : Action) : Prop :=
  ∃ worker index input clock task, action = .worker worker (.resumeTask index input clock) ∧
    (fleet.workers worker).tasks[index]? = some task ∧ task.run.id = ref

/-- A step that removes no event. -/
def Retains (before : Fleet) (action : Action) : Prop :=
  match before.effected action with
  | some (.pruneStreamEvents _) => False
  | _ => True

instance (before : Fleet) (action : Action) : Decidable (before.Retains action) := by
  unfold Retains
  split <;> infer_instance

/-- Nobody but its own task completes a run. -/
theorem Steps.completed_before (taken : before.Steps action after) (sound : before.Sound)
    (other : ¬ before.Executing ref action) (found : after.store.runs.get? ref = some record)
    (completed : record.status = .completed) :
    ∃ former, before.store.runs.get? ref = some former ∧ former.status = .completed := by
  rcases taken.effect sound with same | ⟨operation, reply, effected, refines⟩
  · exact ⟨record, same ▸ found, completed⟩
  · rcases refines.completes ⟨record, found, completed, rfl⟩ with
      ⟨former, read, finished, _⟩ | ⟨request, rfl⟩
    · exact ⟨former, read, finished⟩
    · obtain ⟨_, _, _, rfl, task, read, asks⟩ := taken.commits effected
      exact (other ⟨task, read, (Task.operation_commits asks rfl).1.symm⟩).elim

/-- Nobody but its own task writes text into the log of a run. -/
theorem Steps.published_kept (taken : before.Steps action after) (sound : before.Sound)
    (retains : before.Retains action) (other : ¬ before.Executing ref action) :
    after.store.published ref = before.store.published ref := by
  rcases taken.effect sound with same | ⟨operation, reply, effected, refines⟩
  · rw [same]
  · refine refines.published sound.coherent ?_ ?_
    · rintro payload rfl
      unfold Fleet.effected at effected
      split at effected
      · obtain ⟨⟨outside, _⟩, _⟩ := outside_some taken
        cases effected
        exact outside.elim
      · obtain ⟨call, _, asks⟩ := Option.bind_eq_some_iff.mp effected
        unfold CallPhase.operation at asks
        split at asks <;> cases asks
      · obtain ⟨task, found, asks⟩ := Option.bind_eq_some_iff.mp effected
        refine other ⟨task, found, ?_⟩
        unfold Task.operation at asks
        split at asks <;> cases asks
        rfl
      · contradiction
    · rintro cutoff rfl
      simp [Retains, effected] at retains

/-- A fleet, and what the task of each run has heard so far. -/
structure Listening where
  fleet : Fleet
  hearing : String → Hearing

namespace Listening

/-- What the task of a run has heard after a step. -/
def hear (state : Listening) (action : Action) (ref : String) : Hearing :=
  match action with
  | .worker name (.resumeTask index input _) =>
    match (state.fleet.workers name).tasks[index]? with
    | some task =>
      if task.run.id = ref then task.hear input (state.hearing ref) else state.hearing ref
    | none => state.hearing ref
  | _ => state.hearing ref

/-- What a step brings to a task comes from the provider and the tools of its worker. -/
def Served (peers : String → Collaborators) (state : Listening) (action : Action) : Prop :=
  ∀ name index input clock task, action = .worker name (.resumeTask index input clock) →
    (state.fleet.workers name).tasks[index]? = some task → task.cancelRequested = false →
    task.Served (peers name) input (state.hearing task.run.id)

theorem hear_other {state : Listening} (other : ¬ state.fleet.Resuming ref action) :
    state.hear action ref = state.hearing ref := by
  unfold hear
  split
  · next name index input clock =>
    split
    · next task found =>
      rw [if_neg]
      intro own
      exact other ⟨name, index, input, clock, task, rfl, found, own⟩
    · rfl
  · rfl

/-- The first state of a fleet. -/
def start (configs : String → Config) : Listening := ⟨Fleet.start configs, fun _ => []⟩

end Listening

/-- A step of a fleet whose workers have these collaborators. Where events are retained, it
prunes nothing. -/
structure ServedSteps (peers : String → Collaborators) (retained : Prop) (before : Listening)
    (action : Action) (after : Listening) : Prop where
  steps : Steps before.fleet action after.fleet
  served : before.Served peers action
  retains : retained → before.fleet.Retains action
  hears : after.hearing = before.hear action

theorem served_arbitrary (state : Listening) (action : Action) :
    state.Served (fun _ => .arbitrary) action := by
  intro name index input clock task _ _ _
  unfold Task.Served
  split <;> simp [Collaborators.arbitrary, ModelProvider.arbitrary]

/-- Every run of a fleet is one in which nothing is known of the collaborators. -/
theorem served_by_arbitrary (run : Run Steps (start configs) actions fleet) :
    ∃ hearing, Run (ServedSteps (fun _ => .arbitrary) False) (.start configs) actions
      ⟨fleet, hearing⟩ := by
  induction run with
  | nil => exact ⟨_, .nil⟩
  | snoc earlier taken ih =>
    obtain ⟨hearing, listening⟩ := ih
    exact ⟨_, listening.snoc ⟨taken, served_arbitrary _ _, False.elim, rfl⟩⟩

/-- The run agrees with what its task has heard, once it has a task. -/
structure Transcribed (peers : String → Collaborators) (retained : Prop) (ref : String)
    (state : Listening) : Prop where
  unowned : (∀ (worker : String) (index : Nat) (task : Task),
      (state.fleet.workers worker).tasks[index]? = some task → task.run.id ≠ ref) →
    state.hearing ref = [] ∧ (retained → state.fleet.store.published ref = []) ∧
    ∀ record, state.fleet.store.runs.get? ref = some record → record.status ≠ .completed
  owned {worker : String} {index : Nat} {task : Task} :
    (state.fleet.workers worker).tasks[index]? = some task → task.run.id = ref →
    ∃ record, state.fleet.store.runs.get? ref = some record ∧
      Dictated (peers worker) (state.fleet.workers worker).config retained state.fleet.store
        record task (state.hearing ref)

variable {peers : String → Collaborators} {retained : Prop}

theorem start_transcribed (configs : String → Config) (ref : String) :
    Transcribed peers retained ref (.start configs) where
  unowned _ := ⟨rfl, fun _ => rfl, fun record found => by
    simp [Listening.start, start, empty] at found⟩
  owned found := by simp [Listening.start, start, Supervisor.new] at found

section Listening

variable {before after : Listening} (taken : ServedSteps peers retained before action after)
variable (sound : before.fleet.Sound) (transcribed : Transcribed peers retained ref before)
include taken sound

/-- A step that is not about the task of the run. -/
theorem ServedSteps.kept {peer : Collaborators} {config : Config} {task : Task}
    (executing : ¬ before.fleet.Executing ref action)
    (resuming : ¬ before.fleet.Resuming ref action) (own : task.run.id = ref)
    (dictated : ∃ record, before.fleet.store.runs.get? ref = some record ∧
      Dictated peer config retained before.fleet.store record task
        (before.hearing ref)) :
    ∃ record, after.fleet.store.runs.get? ref = some record ∧
      Dictated peer config retained after.fleet.store record task
        (after.hearing ref) := by
  obtain ⟨record, found, dictated⟩ := dictated
  obtain ⟨next, present, continues⟩ := (taken.steps.keeps sound).found found
  subst own
  rw [taken.hears, Listening.hear_other resuming]
  exact ⟨next, present, dictated.kept continues
    (taken.steps.uncompleted sound executing found present)
    fun kept => taken.steps.published_kept sound (taken.retains kept) executing⟩

include transcribed

/-- Before the run has a task, nothing is heard for it. -/
theorem ServedSteps.unowned (unowned : ∀ (worker : String) (index : Nat) (task : Task),
    (before.fleet.workers worker).tasks[index]? = some task → task.run.id ≠ ref) :
    after.hearing ref = [] ∧ (retained → after.fleet.store.published ref = []) ∧
      ∀ record, after.fleet.store.runs.get? ref = some record → record.status ≠ .completed := by
  have executing : ¬ before.fleet.Executing ref action := by
    intro executing
    obtain ⟨name, index, _, _, task, found, own⟩ := executing.effect
    exact unowned name index task found own
  have resuming : ¬ before.fleet.Resuming ref action := by
    rintro ⟨name, index, _, _, task, _, found, own⟩
    exact unowned name index task found own
  obtain ⟨silent, bare, open'⟩ := transcribed.unowned unowned
  refine ⟨?_, ?_, ?_⟩
  · rw [taken.hears, Listening.hear_other resuming, silent]
  · intro kept
    rw [taken.steps.published_kept sound (taken.retains kept) executing, bare kept]
  · intro record found completed
    obtain ⟨former, read, finished⟩ := taken.steps.completed_before sound executing found completed
    exact open' former read finished

/-- The task of the run calls the store. -/
theorem ServedSteps.executing (executing : before.fleet.Executing ref action) :
    Transcribed peers retained ref after := by
  have later := taken.steps.sound sound
  obtain ⟨name, index, ambient, rfl, former, found, rfl⟩ := executing.effect
  obtain ⟨record, recorded, dictated⟩ := transcribed.owned found rfl
  obtain ⟨changed, acted, same⟩ := worker_some taken.steps
  have custody := sound.custody name
  have tracked := custody.executing found
  rw [← custody.identity] at tracked
  have deaf : after.hearing former.run.id = before.hearing former.run.id := by
    rw [taken.hears]
    refine Listening.hear_other ?_
    rintro ⟨_, _, _, _, _, other, _⟩
    cases other
  obtain ⟨next, present, task, answered, own, agrees⟩ : ∃ next,
      after.fleet.store.runs.get? former.run.id = some next ∧
      ∃ task, (after.fleet.workers name).tasks[index]? = some task ∧ task.run = former.run ∧
        Dictated (peers name) (after.fleet.workers name).config retained after.fleet.store
          next task (before.hearing former.run.id) := by
    rw [same, Function.update_self]
    generalize after.fleet.store = store at acted
    cases Supervisor.act_some acted with
    | @taskAnswered _ _ task operation read unanswered asks fresh =>
      rw [found] at read
      cases read
      obtain ⟨next, present, agrees⟩ :=
        Task.answered_dictated dictated sound.coherent tracked recorded asks fresh unanswered
      exact ⟨next, present, _,
        List.getElem?_set_self (List.getElem?_eq_some_iff.mp found).1, rfl, agrees⟩
  refine ⟨fun unowned => ?_, ?_⟩
  · exact (unowned name index task answered (by rw [own])).elim
  · intro worker otherIndex other found' same'
    obtain ⟨rfl, rfl⟩ := later.sameTask answered found' (by rw [own, same'])
    rw [answered] at found'
    cases found'
    rw [deaf]
    exact ⟨next, present, agrees⟩

/-- The task of the run goes on. -/
theorem ServedSteps.resuming (resuming : before.fleet.Resuming ref action) :
    Transcribed peers retained ref after := by
  have later := taken.steps.sound sound
  obtain ⟨name, index, input, clock, former, rfl, found, rfl⟩ := resuming
  obtain ⟨record, recorded, dictated⟩ := transcribed.owned found rfl
  obtain ⟨same, resumed, went, present⟩ := Steps.task_resumed taken.steps found
  have heard : after.hearing former.run.id =
      former.hear input (before.hearing former.run.id) := by
    rw [taken.hears]
    simp [Listening.hear, found]
  have served := taken.served name index input clock former rfl found
  have own : resumed.task.run = former.run := (Task.resume_goes went).same.1
  refine ⟨fun unowned => ?_, ?_⟩
  · exact (unowned name index resumed.task present (by rw [own])).elim
  · intro worker otherIndex other found' same'
    obtain ⟨rfl, rfl⟩ := later.sameTask present found' (by rw [own, same'])
    rw [present] at found'
    cases found'
    rw [same, heard, Steps.config taken.steps sound name]
    exact ⟨record, recorded, Task.resume_dictated dictated served went⟩

private theorem ServedSteps.owned (executing : ¬ before.fleet.Executing ref action)
    (resuming : ¬ before.fleet.Resuming ref action) {index : Nat} {task : Task}
    (found : (after.fleet.workers worker).tasks[index]? = some task) (own : task.run.id = ref) :
    ∃ record, after.fleet.store.runs.get? ref = some record ∧
      Dictated (peers worker) (after.fleet.workers worker).config retained after.fleet.store
        record task (after.hearing ref) := by
  have keeps {former : Task}
      (read : (before.fleet.workers worker).tasks[index]? = some former)
      (same : former.run.id = ref) : ∃ record, after.fleet.store.runs.get? ref = some record ∧
        Dictated (peers worker) (after.fleet.workers worker).config retained
          after.fleet.store record former (after.hearing ref) := by
    rw [Steps.config taken.steps sound worker]
    exact taken.kept sound executing resuming same (transcribed.owned read same)
  rcases taken.steps.views sound worker with ⟨act, rfl, acts⟩ | ⟨same, _, _⟩
  · cases acts.tasks found with
    | kept read => exact keeps read own
    | @created _ _ _ _ run _ _ _ read owned =>
      have unowned : ∀ (worker : String) (index : Nat) (task : Task),
          (before.fleet.workers worker).tasks[index]? = some task → task.run.id ≠ ref :=
        fun _ _ _ present same => sound.apart present read owned (same.trans own.symm)
      obtain ⟨silent, bare, open'⟩ := taken.unowned sound transcribed unowned
      obtain ⟨_, record, recorded, _⟩ := ((taken.steps.sound sound).custody worker).executing found
      rw [own] at recorded
      have fresh := open' record recorded
      rw [silent]
      refine ⟨record, recorded, rfl, fun _ _ => fresh, ?_, fun completed => (fresh completed).elim⟩
      refine fun kept => .whole ?_ ?_
      · rintro ⟨_, pending⟩
        cases pending
      · rw [own, bare kept]
        rfl
    | answered acted read =>
      cases acted
      exact (executing ⟨_, read, own⟩).elim
    | @resumed input clock former _ acted read goes =>
      cases acted
      rw [goes.same.1] at own
      exact (resuming ⟨_, _, input, clock, former, rfl, read, own⟩).elim
    | signalled read | drained acted read =>
      rw [Task.cancel_run] at own
      obtain ⟨record, recorded, dictated⟩ := keeps read own
      exact ⟨record, recorded, Task.cancel_dictated dictated⟩
  · rw [same] at found
    exact keeps found own

/-- A step of the fleet keeps the agreement. -/
theorem ServedSteps.keepsTranscribed : Transcribed peers retained ref after := by
  by_cases executing : before.fleet.Executing ref action
  · exact taken.executing sound transcribed executing
  · by_cases resuming : before.fleet.Resuming ref action
    · exact taken.resuming sound transcribed resuming
    · refine ⟨fun unowned => ?_, taken.owned sound transcribed executing resuming⟩
      refine taken.unowned sound transcribed ?_
      intro worker index task found
      obtain ⟨later, present, same⟩ := Steps.persists taken.steps sound found
      rw [← same]
      exact unowned worker index later present

end Listening

theorem run_transcribed
    (run : Run (ServedSteps peers retained) (.start configs) actions state) (ref : String) :
    state.fleet.Sound ∧ Transcribed peers retained ref state := by
  induction run with
  | nil => exact ⟨start_sound configs, start_transcribed configs ref⟩
  | snoc _ taken ih => exact ⟨taken.steps.sound ih.1, taken.keepsTranscribed ih.1 ih.2⟩

/-- While nothing is pruned, the log of a run holds the text that its provider has streamed, in
order and each delta once, but for at most the last delta. A completed run misses none, and it has
the result of its tool, or the final response and the deltas of one complete stream, whatever
other attempts there were. -/
theorem streamed_text_logged
    (run : Run (ServedSteps peers True) (.start configs) actions state)
    (found : state.fleet.store.runs.get? ref = some record) :
    (∃ logged, state.fleet.store.published ref = logged.map deltaPayload ∧
      logged <+: (state.hearing ref).text ∧ (state.hearing ref).text.length ≤ logged.length + 1) ∧
    (record.status = .completed → ∃ (worker : String) (index : Nat) (task : Task)
      (result : AgentResult), (state.fleet.workers worker).tasks[index]? = some task ∧
      task.run.id = ref ∧ record.result = some result.modelDump ∧
      Rendered (peers worker) (state.fleet.workers worker).config task result
        (state.fleet.store.published ref)) := by
  obtain ⟨sound, transcribed⟩ := run_transcribed run ref
  by_cases unowned : ∀ (worker : String) (index : Nat) (task : Task),
      (state.fleet.workers worker).tasks[index]? = some task → task.run.id ≠ ref
  · obtain ⟨silent, bare, open'⟩ := transcribed.unowned unowned
    refine ⟨⟨[], bare trivial, List.nil_prefix, ?_⟩, fun completed => ?_⟩
    · rw [silent]
      exact Nat.zero_le _
    · exact (open' record found completed).elim
  · push Not at unowned
    obtain ⟨worker, index, task, present, rfl⟩ := unowned
    obtain ⟨_, recorded, dictated⟩ := transcribed.owned present rfl
    rw [found] at recorded
    cases recorded
    refine ⟨?_, fun completed => ?_⟩
    · cases dictated.written trivial with
      | whole _ same => exact ⟨_, same, List.prefix_rfl, Nat.le_succ _⟩
      | behind _ _ earlier last said same =>
        refine ⟨earlier, same, ⟨[last], said.symm⟩, ?_⟩
        rw [said, List.length_append]
        exact Nat.le_refl _
    · obtain ⟨result, stored, obtains⟩ := dictated.completed completed
      refine ⟨worker, index, task, result, present, rfl, stored, obtains.rendered ?_⟩
      cases dictated.written trivial with
      | whole _ same => exact same
      | behind _ open' => exact (open' completed).elim

/-- The next state, with what the step brings to its task. -/
def Listening.next (state : Listening) (action : Action) : Option Listening :=
  (state.fleet.next action).map fun fleet => ⟨fleet, state.hear action⟩

theorem Listening.next_some {before after : Listening} (taken : before.next action = some after) :
    Steps before.fleet action after.fleet ∧ after.hearing = before.hear action := by
  obtain ⟨fleet, reached, rfl⟩ := Option.map_eq_some_iff.mp taken
  exact ⟨reached, rfl⟩

def sampleDelta (delta : String) : List Act :=
  [.resumeTask 0 (.event (.ok (some (deltaEvent delta)))) sampleClock,
   .taskEffect 0 (.sample delta delta), .resumeTask 0 .wake sampleClock]

/-- A stream that is unavailable at first and then brings two deltas. -/
def sampleStream : List Act :=
  [.invoke (.startStream "level?" none none none none none) (.sample "request" "trace"),
   .resumeCall 0 approval sampleClock] ++ sampleStart ++ sampleAttempt ++
  [.resumeTask 0 (.event (.error (.domain (.new .providerUnavailableError none none)))) sampleClock,
   .resumeTask 0 .wake sampleClock, .taskEffect 0 (.sample "a" "a"),
   .resumeTask 0 .wake sampleClock] ++
  sampleDelta "hi" ++ sampleDelta "gh" ++
  [.resumeTask 0 (.event (.ok (some
     (ProviderResponse.final { content := "high", usage := .empty })))) sampleClock,
   .resumeTask 0 (.event (.ok none)) sampleClock, .resumeTask 0 approval sampleClock,
   .taskEffect 0 (.sample "b" "c")]

theorem streamed_text_logged_sampleStream : ∃ state record,
    Run (ServedSteps (fun _ => .arbitrary) True) (.start sampleConfig) (schedule sampleStream)
      state ∧
    state.fleet.store.runs.get? "run" = some record ∧ record.status = .completed ∧
    (state.fleet.store.published "run").map (JsonObject.text · "delta") = [some "hi", some "gh"] ∧
    ∃ (worker : String) (index : Nat) (task : Task) (result : AgentResult),
      (state.fleet.workers worker).tasks[index]? = some task ∧ task.run.id = "run" ∧
      record.result = some result.modelDump ∧
      Rendered .arbitrary (state.fleet.workers worker).config task result
        (state.fleet.store.published "run") := by
  obtain ⟨state, run, record, found, completed, logged⟩ : ∃ state,
      Run (fun before action after => admitted Listening.next
        (fun before action _ => before.fleet.Retains action) before action = some after)
        (.start sampleConfig) (schedule sampleStream) state ∧
      ∃ record ∈ state.fleet.store.runs.get? "run", record.status = .completed ∧
        (state.fleet.store.published "run").map (JsonObject.text · "delta") =
          [some "hi", some "gh"] :=
    follow_reaches (by decide +kernel)
  have served : Run (ServedSteps (fun _ => .arbitrary) True) (.start sampleConfig)
      (schedule sampleStream) state := by
    refine run.mono fun taken => ?_
    obtain ⟨moved, retains⟩ := admitted_some taken
    obtain ⟨steps, hears⟩ := Listening.next_some moved
    exact ⟨steps, served_arbitrary _ _, fun _ => retains, hears⟩
  exact ⟨state, record, served, found, completed, logged,
    (streamed_text_logged served found).2 completed⟩

end Fleet

end DayuAgent
