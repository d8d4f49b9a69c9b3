import DayuAgent.Agents.Custody
import DayuAgent.Memory.Transcript

namespace DayuAgent

open Library InMemorySessionStore

variable {store after : InMemorySessionStore}

/-- A run stays in the store, in its session. -/
theorem Edit.present (edit : Edit store effect after)
    (found : store.runs.get? ref = some run) :
    ∃ later, after.runs.get? ref = some later ∧ later.sessionId = run.sessionId := by
  have changed {former updated : AgentRun} (read : store.runs.get? former.id = some former)
      (written : after.runs = store.runs.set former.id updated)
      (same : updated.sessionId = former.sessionId) :
      ∃ later, after.runs.get? ref = some later ∧ later.sessionId = run.sessionId := by
    rw [written, Dict.get?_set]
    split
    · next own =>
      rw [own, read] at found
      cases found
      exact ⟨updated, rfl, same⟩
    · exact ⟨run, found, rfl⟩
  cases edit with
  | ready | openSession | say | clear | emit | prune => exact ⟨run, found, rfl⟩
  | reserve request sessionId ambient opened absent =>
    have different : ref ≠ ambient.uuid4 1 := by
      rintro rfl
      rw [absent] at found
      contradiction
    exact ⟨run, (Dict.get?_set_ne _ _ different).trans found, rfl⟩
  | attempt read active => exact changed read rfl rfl
  | move read log change => exact changed read rfl change.same.2.1
  | commit read running => exact changed read rfl rfl

/-- An edit after which a run is active has left the transcript of its session alone. -/
theorem Edit.transcript_kept (edit : Edit store effect after) (coherent : Coherent store)
    (found : store.runs.get? ref = some run) (present : after.runs.get? ref = some later)
    (active : later.Active) :
    run.Active ∧ after.messages.get? run.sessionId = store.messages.get? run.sessionId := by
  have wasActive : run.Active := by
    refine (active_or_terminal run.status).resolve_right fun terminal => ?_
    rw [edit.terminal found terminal] at present
    cases present
    exact (not_active_iff_terminal _).mpr terminal active
  have busy {record : SessionRecord} (idle : activeRunLocked store record.id = none) :
      run.sessionId ≠ record.id := fun own =>
    (activeRunLocked_none_iff _ _).mp idle ref run found own wasActive
  refine ⟨wasActive, ?_⟩
  cases edit with
  | ready | attempt | emit | move | prune | reserve => rfl
  | openSession record absent =>
    refine Dict.get?_set_ne _ _ ?_
    rintro own
    have opened := coherent.runSession found
    rw [own, absent] at opened
    contradiction
  | say _ _ idle | clear _ idle => exact Dict.get?_set_ne _ _ (busy idle)
  | @commit committed record history log read running session own transcript logged request
      ambient =>
    rw [withTurn_messages]
    refine Dict.get?_set_ne _ _ ?_
    intro same
    have committing : committed.Active := by
      simp [AgentRun.Active, running, activeRunStatuses]
    obtain rfl := coherent.oneActive found read (same.trans own.symm) wasActive committing
    have completed : later = completedRun committed request (ambient.utcNow 2) :=
      Option.some.inj (present.symm.trans (Dict.get?_set_self _ _ _))
    rw [completed] at active
    simp [completedRun, AgentRun.Active, activeRunStatuses] at active

namespace InMemorySessionStore

private theorem edits_present (edits : Run Edit store effects after)
    (found : store.runs.get? ref = some run) :
    ∃ later, after.runs.get? ref = some later ∧ later.sessionId = run.sessionId := by
  induction edits with
  | nil => exact ⟨run, found, rfl⟩
  | snoc earlier last ih =>
    obtain ⟨record, read, own⟩ := ih
    obtain ⟨later, present, same⟩ := last.present read
    exact ⟨later, present, same.trans own⟩

theorem edits_transcript_kept (edits : Run Edit store effects after) (coherent : Coherent store)
    (found : store.runs.get? ref = some run) (present : after.runs.get? ref = some later)
    (active : later.Active) :
    run.Active ∧ later.sessionId = run.sessionId ∧
      after.messages.get? run.sessionId = store.messages.get? run.sessionId := by
  induction edits generalizing later with
  | nil =>
    rw [found] at present
    cases present
    exact ⟨active, rfl, rfl⟩
  | snoc earlier last ih =>
    obtain ⟨record, read, own⟩ := edits_present earlier found
    obtain ⟨further, same, there⟩ := last.present read
    rw [present] at same
    cases same
    obtain ⟨wasActive, kept⟩ :=
      last.transcript_kept (edits_coherent earlier coherent) read present active
    obtain ⟨firstActive, _, unchanged⟩ := ih read wasActive
    refine ⟨firstActive, there.trans own, ?_⟩
    rw [← unchanged, ← own, kept]

end InMemorySessionStore

/-- The result that is being committed. -/
def Phase.result : Phase → Option AgentResult
  | .committing result => some result
  | _ => none

theorem Phase.result_some {phase : Phase} {result : AgentResult}
    (committing : phase.result = some result) : phase = .committing result := by
  cases phase <;> simp_all [Phase.result]

namespace Task

variable {config : Config} {task later : Task}

/-- Only loading the history makes a provider request. -/
theorem Goes.request (goes : task.Goes config later) :
    later.answer = none ∧ (later.request = task.request ∨
      ∃ history, task.answer = some (.ok (.messages history)) ∧ task.phase = .loading ∧
        later.request = some (task.providerRequest history)) := by
  cases goes with
  | loads working loading answered => exact ⟨rfl, .inr ⟨_, answered, loading, rfl⟩⟩
  | @raises error => cases error <;> exact ⟨rfl, .inl rfl⟩
  | _ => exact ⟨rfl, .inl rfl⟩

theorem SameOrigin.providerRequest (same : task.SameOrigin later) (history : List AgentMessage) :
    later.providerRequest history = task.providerRequest history := by
  simp [Task.providerRequest, same.2.1, same.2.2]

/-- Every history that the task has been answered with, or has made its request from. -/
structure Recalls (task : Task) (Known : List AgentMessage → Prop) : Prop where
  answered {history : List AgentMessage} : task.phase = .loading →
    task.answer = some (.ok (.messages history)) → Known history
  requested {request : ProviderRequest} : task.request = some request →
    ∃ history, request = task.providerRequest history ∧ Known history

theorem Recalls.mono (recalls : task.Recalls Known) (weaker : ∀ history, Known history →
    Later history) : task.Recalls Later where
  answered loading answered := weaker _ (recalls.answered loading answered)
  requested requested := by
    obtain ⟨history, same, known⟩ := recalls.requested requested
    exact ⟨history, same, weaker history known⟩

theorem Goes.recalls (goes : task.Goes config later) (recalls : task.Recalls Known) :
    later.Recalls Known := by
  obtain ⟨unanswered, made⟩ := goes.request
  refine ⟨?_, ?_⟩
  · intro history _ answered
    rw [unanswered] at answered
    contradiction
  · intro request requested
    simp only [goes.same.providerRequest]
    rcases made with same | ⟨history, answered, loading, same⟩
    · exact recalls.requested (same ▸ requested)
    · rw [same] at requested
      cases requested
      exact ⟨history, rfl, recalls.answered loading answered⟩

theorem cancel_recalls (recalls : task.Recalls Known) : task.cancel.Recalls Known := by
  unfold cancel
  split
  · exact recalls
  · exact ⟨recalls.answered, recalls.requested⟩

end Task

/-- While the run is active, its session has this transcript. -/
def Remembers (store : InMemorySessionStore) (run : AgentRun) (history : List AgentMessage) :
    Prop :=
  ∀ record, store.runs.get? run.id = some record → record.Active →
    store.messages.get? run.sessionId = some history

theorem Remembers.edits (remembers : Remembers store run history)
    (edits : Run Edit store effects after) (coherent : Coherent store)
    (tracked : Tracked store worker run) : Remembers after run history := by
  intro later present active
  obtain ⟨_, record, found, continues⟩ := tracked
  obtain ⟨wasActive, _, kept⟩ := edits_transcript_kept edits coherent found present active
  rw [← continues.sameSession, kept, continues.sameSession]
  exact remembers record found wasActive

namespace Fleet

variable {before after fleet : Fleet}

/-- At an earlier step of the run `list_messages` answered the task with this history, and
every run-bound message in it was of a run already completed. -/
def Loaded (configs : String → Config) (actions : List Action) (worker : String) (index : Nat)
    (history : List AgentMessage) : Prop :=
  ∃ earlier ambient later loaded task,
    actions = earlier ++ .worker worker (.taskEffect index ambient) :: later ∧
    Run Steps (start configs) earlier loaded ∧
    (loaded.workers worker).tasks[index]? = some task ∧ task.phase = .loading ∧
    task.answer = none ∧ loaded.store.messages.get? task.run.sessionId = some history ∧
    ∀ message ∈ history, ∀ ref, message.runId = some ref →
      loaded.store.CompletedIn ref task.run.sessionId

private theorem Loaded.snoc (loaded : Loaded configs actions worker index history)
    (action : Action) :
    Loaded configs (actions ++ [action]) worker index history := by
  obtain ⟨earlier, ambient, later, state, task, rfl, rest⟩ := loaded
  exact ⟨earlier, ambient, later ++ [action], state, task, by simp, rest⟩

/-- What a task of a run knows about the transcript of its session. -/
def Knows (configs : String → Config) (actions : List Action) (fleet : Fleet) (worker : String)
    (index : Nat) (run : AgentRun) (history : List AgentMessage) : Prop :=
  Loaded configs actions worker index history ∧ Remembers fleet.store run history

/-- Loading the history makes it known. -/
theorem loaded_knows {former : Task} {reply : Except PyException Reply}
    (run : Run Steps (start configs) actions before)
    (read : (before.workers worker).tasks[index]? = some former) (unanswered : former.answer = none)
    (effects : former.Effects before.store record reply store) (effect : after.store = store)
    (loading : former.phase = .loading) (answered : reply = .ok (.messages history))
    (ambient : Ambient) :
    Knows configs (actions ++ [.worker worker (.taskEffect index ambient)]) after worker index
      former.run history := by
  cases effects with
  | early body open' found active loads domain =>
    obtain ⟨same, listed⟩ := loads loading
    have transcript := listed history answered
    rw [((run_sound run).custody worker).session read] at transcript
    obtain ⟨edited, edits⟩ := run_edits run
    refine ⟨⟨actions, ambient, [], before, former, rfl, run, read, loading, unanswered,
      transcript, ?_⟩, ?_⟩
    · intro message member ref bound
      exact (edits_ledger edits).bound transcript member bound
    · intro _ _ _
      rw [effect, same]
      exact transcript
  | committed other | cancelled other | failed other =>
    rw [loading] at other
    contradiction
  | lost => contradiction

theorem run_recalls (run : Run Steps (start configs) actions fleet) {task : Task}
    (found : (fleet.workers worker).tasks[index]? = some task) :
    task.Recalls (Knows configs actions fleet worker index task.run) := by
  induction run generalizing task with
  | nil => simp [start, Supervisor.new] at found
  | @snoc actions before action after earlier taken ih =>
    have sound := run_sound earlier
    obtain ⟨effects, edits⟩ := Steps.edits taken sound
    have later {former : Task} (read : (before.workers worker).tasks[index]? = some former) :
        former.Recalls (Knows configs (actions ++ [action]) after worker index former.run) := by
      refine (ih read).mono ?_
      rintro history ⟨loaded, remembers⟩
      exact ⟨loaded.snoc action,
        remembers.edits edits sound.coherent ((sound.custody worker).executing read)⟩
    rcases Steps.views taken sound worker with ⟨act, rfl, acts⟩ | ⟨same, _, spares⟩
    · cases acts.tasks found with
      | kept read => exact later read
      | created => exact ⟨by simp [Task.new], by simp [Task.new]⟩
      | @answered former operation ambient acted read unanswered asks fresh effect =>
        subst acted
        obtain ⟨record, _, _, effects⟩ :=
          Supervisor.asked_effects sound.coherent (sound.custody worker) read asks ambient
        have recalls := later read
        refine ⟨?_, recalls.requested⟩
        intro history loading answered
        have known := loaded_knows earlier read unanswered effects effect loading
          (Option.some.inj answered) ambient
        exact known
      | resumed acted read goes =>
        rw [goes.same.1]
        exact goes.recalls (later read)
      | signalled read | drained acted read =>
        rw [Task.cancel_run]
        exact Task.cancel_recalls (later read)
    · rw [same] at found
      exact later found

/-- Whenever a commit succeeds for a run that took the provider path, the transcript is
exactly the history loaded for the run, and the committed transcript is what the model was
shown, followed by the assistant message. -/
theorem turns_serialised (run : Run Steps (start configs) actions before)
    (taken : Steps before (.worker worker (.taskEffect index ambient)) after) {task later : Task}
    (found : (before.workers worker).tasks[index]? = some task)
    (committing : task.phase = .committing result) (requested : task.request = some request)
    (present : (after.workers worker).tasks[index]? = some later)
    (succeeded : later.answer = some (.ok reply)) :
    ∃ history, Loaded configs actions worker index history ∧
      before.store.messages.get? task.run.sessionId = some history ∧
      request.messages =
        history.map Task.shown ++ [{ role := .user, content := task.userContent }] ∧
      ∃ transcript, after.store.messages.get? task.run.sessionId = some transcript ∧
        transcript.map Task.shown =
          request.messages ++ [{ role := .assistant, content := result.content }] := by
  have sound := run_sound run
  have custody := sound.custody worker
  obtain ⟨history, rfl, loaded, remembers⟩ := (run_recalls run found).requested requested
  obtain ⟨act, acted, acts⟩ | ⟨_, other, _⟩ := Steps.views taken sound worker
  swap
  · exact (other _ rfl).elim
  cases acted
  obtain ⟨_, record, _, read, _, answered, recorded, continues, effects⟩ :=
    acts.effects sound.coherent custody
  rw [found] at read
  cases read
  rw [present] at answered
  cases answered
  cases succeeded
  cases effects with
  | early body open' => exact (open' result committing).elim
  | committed suspended running asked before settled written =>
    rw [committing] at suspended
    cases suspended
    have active : record.Active := by simp [AgentRun.Active, running, activeRunStatuses]
    have transcript := remembers record recorded active
    rw [continues.sameSession] at before written
    rw [transcript] at before
    cases before
    refine ⟨history, loaded, transcript, rfl, _, written, ?_⟩
    simp [turnMessages, Task.providerRequest, Task.shown, asked.1, asked.2.1]
  | cancelled suspended | failed suspended =>
    rw [committing] at suspended
    contradiction

/-- A turn of one worker, and the next one of its session up to the effect of the commit. -/
def secondTurn : List Act :=
  closedTurn 0 "level?" none "lake" "run" { content := "high", usage := .empty } ++
  openTurn 1 "why?" (some "lake") "pond" "later" { content := "deep", usage := .empty }

theorem turns_serialised_secondTurn : ∃ before after task request result history transcript,
    Run Steps (start sampleConfig) (schedule secondTurn) before ∧
      Steps before (.worker "worker" (.taskEffect 1 (.sample "a" "a"))) after ∧
      (before.workers "worker").tasks[1]? = some task ∧ task.request = some request ∧
      task.phase = .committing result ∧
      Loaded sampleConfig (schedule secondTurn) "worker" 1 history ∧
      history.map (·.content) = ["level?", "high"] ∧
      after.store.messages.get? task.run.sessionId = some transcript ∧
      transcript.map Task.shown =
        request.messages ++ [{ role := .assistant, content := result.content }] := by
  obtain ⟨before, run, after, taken, task, found, later, present, committing, requested, answered,
      remembered⟩ : ∃ before, Run Steps (start sampleConfig) (schedule secondTurn) before ∧
      ∃ after ∈ before.next (.worker "worker" (.taskEffect 1 (.sample "a" "a"))),
      ∃ task ∈ (before.workers "worker").tasks[1]?,
      ∃ later ∈ (after.workers "worker").tasks[1]?,
        task.phase.result.isSome ∧ task.request.isSome ∧
          (later.answer.bind Except.toOption).isSome ∧
          ((before.store.messages.get? task.run.sessionId).getD []).map (·.content) =
            ["level?", "high"] := follow_reaches (by decide +kernel)
  obtain ⟨result, committing⟩ := Option.isSome_iff_exists.mp committing
  obtain ⟨request, requested⟩ := Option.isSome_iff_exists.mp requested
  obtain ⟨reply, answered⟩ := Option.isSome_iff_exists.mp answered
  have suspended := Phase.result_some committing
  have succeeded : later.answer = some (.ok reply) := by
    cases replied : later.answer with
    | none => simp [replied] at answered
    | some outcome => cases outcome <;> simp_all [Except.toOption]
  obtain ⟨history, loaded, read, _, transcript, written, shown⟩ :=
    turns_serialised run taken found suspended requested present succeeded
  rw [read] at remembered
  exact ⟨before, after, task, request, result, history, transcript, run, taken, found, requested,
    suspended, loaded, remembered, written, shown⟩

end Fleet

end DayuAgent
