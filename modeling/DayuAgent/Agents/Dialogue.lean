import DayuAgent.Agents.StreamedText
import DayuAgent.Memory.Conversation
import DayuAgent.Providers.Fake

namespace DayuAgent

open Library InMemorySessionStore

/-- What a task may answer when these messages are in front of its question. -/
inductive Replies (peers : Collaborators) (config : Config) (task : Task)
    (front : List AgentMessage) : String → Prop where
  | tool (name : String) (payload : JsonObject) (execution : ToolExecutionResult)
      (commands : task.Commands config name payload)
      (executes : peers.executes name payload (.ok execution)) :
      Replies peers config task front (config.codec.dumps execution.output)
  | provider (stream : List ProviderStreamEvent) (response : ProviderResponse)
      (converses : task.Converses config)
      (completes : peers.provider.Completes (task.providerRequest front) stream)
      (final : streamResponse stream = some response) :
      Replies peers config task front response.content

variable {peer : Collaborators} {config : Config} {task : Task} {hearing : Hearing}

theorem Task.Obtains.replies {result : AgentResult}
    (obtains : task.Obtains peer config hearing result)
    (asked : ∀ request, task.request = some request → request = task.providerRequest front) :
    Replies peer config task front result.content := by
  cases obtains with
  | tool name payload execution commands executes unheard same =>
    rw [same]
    exact .tool name payload execution commands executes
  | provider response converses answers same =>
    obtain ⟨request, stream, _, requested, _, _, completes, final⟩ := answers
    rw [asked request requested] at completes
    rw [same]
    exact .provider stream response converses completes final

/-- What a task may answer depends only on what it keeps. -/
theorem Replies.later {later : Task} (replies : Replies peer config task front answer)
    (origin : task.SameOrigin later) : Replies peer config later front answer := by
  cases replies with
  | tool name payload execution commands executes =>
    refine .tool name payload execution ?_ executes
    rwa [Task.Commands, origin.2.2]
  | provider stream response converses completes final =>
    refine .provider stream response ?_ ?_ final
    · rwa [Task.Converses, origin.2.2]
    · rwa [origin.providerRequest]

namespace Fleet

variable {before after fleet : Fleet} {action : Action} {peers : String → Collaborators}
variable {retained : Prop} {worker : String} {index : Nat}

/-- A task of the run has this question and may answer so. -/
def Replied (peers : String → Collaborators) (fleet : Fleet) (ref : String)
    (front : List AgentMessage) (content answer : String) : Prop :=
  ∃ (worker : String) (index : Nat) (task : Task),
    (fleet.workers worker).tasks[index]? = some task ∧ task.run.id = ref ∧
    task.userContent = content ∧
    Replies (peers worker) (fleet.workers worker).config task front answer

/-- A step keeps every task with what it was created with. -/
theorem Steps.keepsOrigin (taken : before.Steps action after) (sound : before.Sound)
    {task : Task} (found : (before.workers worker).tasks[index]? = some task) :
    ∃ later : Task, (after.workers worker).tasks[index]? = some later ∧ task.SameOrigin later := by
  obtain ⟨later, present, _⟩ := Steps.persists taken sound found
  refine ⟨later, present, ?_⟩
  cases Steps.taskComes taken present with
  | same former read origin =>
    cases found.symm.trans read
    exact origin
  | resumed former input clock resumed moved read went arrived =>
    cases found.symm.trans read
    rw [arrived]
    exact (Task.resume_goes went).same
  | created position call start next =>
    have bound := (List.getElem?_eq_some_iff.mp found).1
    omega

private theorem Steps.replied (taken : before.Steps action after) (sound : before.Sound)
    (replied : Replied peers before ref front content answer) :
    Replied peers after ref front content answer := by
  obtain ⟨worker, index, task, found, own, asked, replies⟩ := replied
  obtain ⟨later, present, origin⟩ := Steps.keepsOrigin taken sound found
  refine ⟨worker, index, later, present, ?_, ?_, ?_⟩
  · rw [origin.1, own]
  · rw [origin.2.2, asked]
  · rw [Steps.config taken sound worker]
    exact replies.later origin

theorem served_run (run : Run (ServedSteps peers retained) first actions state) :
    Run Steps first.fleet actions state.fleet := by
  induction run with
  | nil => exact .nil
  | snoc _ taken ih => exact ih.snoc taken.steps

/-- The answer that a task commits rests on the transcript as it is at the commit. -/
theorem committing_replied
    (run : Run (ServedSteps peers retained) (.start configs) actions state)
    (taken : Steps state.fleet action after)
    (effected : state.fleet.effected action = some (.commitRunSuccess ref request))
    (recorded : state.fleet.store.runs.get? ref = some record)
    (running : record.status = .running)
    (read : state.fleet.store.messages.get? record.sessionId = some history) :
    Replied peers state.fleet ref history request.userContent request.assistantContent := by
  obtain ⟨name, index, _, _, task, found, asks⟩ := Steps.commits taken effected
  obtain ⟨rfl, result, committing⟩ := Task.operation_commits asks rfl
  obtain ⟨sound, transcribed⟩ := run_transcribed run task.run.id
  obtain ⟨_, _, dictated⟩ := transcribed.owned found rfl
  have obtains := dictated.listens
  rw [Task.Listens, committing] at obtains
  obtain ⟨_, tracked, present, continues⟩ := (sound.custody name).executing found
  rw [recorded] at present
  cases present
  have active : record.Active := by simp [AgentRun.Active, running, activeRunStatuses]
  have asked : ∀ request, task.request = some request →
      request = task.providerRequest history := by
    intro request requested
    obtain ⟨_, same, _, remembers⟩ := (run_recalls (served_run run) found).requested requested
    have transcript := remembers record recorded active
    rw [← continues.sameSession, read] at transcript
    cases transcript
    exact same
  simp only [Task.operation, committing, Option.some.injEq,
    Operation.commitRunSuccess.injEq, true_and] at asks
  subst asks
  exact ⟨name, index, task, found, rfl, rfl, obtains.replies asked⟩

theorem conversing_run
    (run : Run (ServedSteps peers retained) (.start configs) actions state) :
    ∀ sessionId transcript, state.fleet.store.messages.get? sessionId = some transcript →
      Conversation (Replied peers state.fleet) transcript := by
  induction run with
  | nil =>
    intro sessionId transcript read
    simp [Listening.start, start, empty] at read
  | @snoc _ middle action final earlier taken ih =>
    have sound := (run_transcribed earlier "").1
    have held : ∀ sessionId transcript,
        middle.fleet.store.messages.get? sessionId = some transcript →
        Conversation (Replied peers final.fleet) transcript :=
      fun sessionId transcript read => (ih sessionId transcript read).mono
        fun _ _ _ _ replied => taken.steps.replied sound replied
    rcases taken.steps.effect sound with same | ⟨operation, reply, effected, refines⟩
    · rw [same]
      exact held
    · refine refines.conversation sound.coherent held ?_
      rintro record request history rfl recorded running read
      exact taken.steps.replied sound
        (committing_replied earlier taken.steps effected recorded running read)

/-- Every message that a transcript holds for a run stands in a pair of a question and an answer
of that run, and the answer is the output of the commanded tool or the model's response to the
question and exactly the messages in front of it. -/
theorem transcripts_converse
    (run : Run (ServedSteps peers retained) (.start configs) actions state)
    (read : state.fleet.store.messages.get? sessionId = some transcript)
    (member : message ∈ transcript) (bound : message.runId = some ref) :
    ∃ front user assistant, front ++ [user, assistant] <+: transcript ∧
      message ∈ [user, assistant] ∧ (user.runId = some ref ∧ user.role = .user) ∧
      (assistant.runId = some ref ∧ assistant.role = .assistant) ∧
      ∃ (worker : String) (index : Nat) (task : Task),
        (state.fleet.workers worker).tasks[index]? = some task ∧ task.run.id = ref ∧
        task.run.sessionId = sessionId ∧ task.userContent = user.content ∧
        Replies (peers worker) (state.fleet.workers worker).config task front
          assistant.content := by
  obtain ⟨front, user, assistant, before, own, asked, answered, replied⟩ :=
    conversing_run run _ _ read message member ref bound
  obtain ⟨worker, index, task, found, rfl, content, replies⟩ := replied
  refine ⟨front, user, assistant, before, own, asked, answered, worker, index, task, found, rfl,
    ?_, content, replies⟩
  obtain ⟨edited, edits⟩ := run_edits (served_run run)
  obtain ⟨record, recorded, _, home⟩ := (edits_ledger edits).bound read member bound
  obtain ⟨_, tracked, present, continues⟩ :=
    ((run_sound (served_run run)).custody worker).executing found
  rw [recorded] at present
  cases present
  rw [← continues.sameSession, home]

/-- The answer of the fake provider by the transcript in front of the question. -/
def fakeReply (front : List AgentMessage) (question : String) : String :=
  FakeModelProvider.content ((front.filter fun message => message.role = .user).length + 1) question

private theorem fakeReply_shown (front : List AgentMessage) (question : String) :
    FakeModelProvider.content
      ((FakeModelProvider.userMessages (front.map Task.shown)).length + 1) question =
        fakeReply front question := by
  have users : (FakeModelProvider.userMessages (front.map Task.shown)).length =
      (front.filter fun message => message.role = .user).length := by
    rw [FakeModelProvider.userMessages, List.length_map, List.filter_map, List.length_map]
    congr 2
    funext message
    by_cases user : message.role = .user <;> simp [Task.shown, user]
  rw [fakeReply, users]

/-- With fake providers, however they are scripted, what is answered to a message that is no
command depends on the transcript alone. -/
theorem fake_transcripts (fakes : String → FakeModelProvider)
    (rehearsed : ∀ worker, (peers worker).provider = (fakes worker).modelProvider)
    (run : Run (ServedSteps peers retained) (.start configs) actions state) (sessionId : String)
    (transcript : List AgentMessage)
    (read : state.fleet.store.messages.get? sessionId = some transcript) :
    Conversation (fun _ front question answer =>
      (∀ worker, parseToolCommand (configs worker).codec question = .ok none) →
        answer = fakeReply front question) transcript := by
  refine (conversing_run run sessionId transcript read).mono ?_
  rintro ref front question answer ⟨worker, index, task, found, own, asked, replies⟩ plain
  have parsed : parseToolCommand (state.fleet.workers worker).config.codec task.userContent =
      .ok none := by
    rw [run_config (served_run run) worker, asked]
    exact plain worker
  cases replies with
  | tool name payload execution commands =>
    rw [Task.Commands, parsed] at commands
    cases commands
  | provider stream response converses completes final =>
    rw [rehearsed worker] at completes
    have answered := (FakeModelProvider.completes_final completes final).1
    rw [FakeModelProvider.response_content rfl answered, asked, fakeReply_shown]

deriving instance DecidableEq for TokenUsage, ProviderResponse

/-- The default fake provider, and tools of which nothing is known. -/
def sampleFake : Collaborators where
  provider := (FakeModelProvider.ofModel "model").modelProvider
  executes _ _ _ := True

/-- The step brings no other response than that of the default fake provider, and no stream. -/
def Rehearsed (state : Listening) : Action → Prop
  | .worker name (.resumeTask index (.response outcome) _) =>
    ∀ task ∈ (state.fleet.workers name).tasks[index]?, ∀ request ∈ task.request,
      ∃ answer ∈ outcome.toOption,
        ((FakeModelProvider.ofModel "model").run 1 request).toOption = some answer
  | .worker _ (.resumeTask _ (.event _) _) => False
  | _ => True

instance (state : Listening) (action : Action) : Decidable (Rehearsed state action) := by
  unfold Rehearsed
  split <;> infer_instance

private theorem ok_of_toOption {outcome : Except ε α} (some' : outcome.toOption = some value) :
    outcome = .ok value := by
  cases outcome with
  | error => cases some'
  | ok => rw [Option.some.inj some']

private theorem Rehearsed.served {state : Listening} (rehearsed : Rehearsed state action) :
    state.Served (fun _ => sampleFake) action := by
  rintro name index input clock task rfl found _
  unfold Task.Served
  split
  · exact rehearsed.elim
  · exact rehearsed.elim
  · exact rehearsed.elim
  · intro request requested
    obtain ⟨answer, given, ran⟩ := rehearsed task found request requested
    rw [ok_of_toOption given]
    exact ⟨1, Nat.one_pos, ok_of_toOption ran⟩
  · trivial
  · trivial

def rehearsal : List Act :=
  closedTurn 0 "level?" none "lake" "run"
    { content := "Fake response (turn 1): level?", usage := .normalizeTotal 1 1 5 0 } ++
  closedTurn 1 "why?" (some "lake") "pond" "later"
    { content := "Fake response (turn 2): why?", usage := .normalizeTotal 1 7 5 0 }

theorem rehearsal_reaches : ∃ state transcript,
    Run (ServedSteps (fun _ => sampleFake) False) (.start sampleConfig) (schedule rehearsal) state ∧
      state.fleet.store.messages.get? "lake" = some transcript ∧
      transcript.map (·.content) = ["level?", "Fake response (turn 1): level?",
        "why?", "Fake response (turn 2): why?"] ∧
      ∃ message ∈ transcript, message.runId = some "later" := by
  obtain ⟨state, run, transcript, read, written⟩ : ∃ state,
      Run (fun before action after => admitted Listening.next
        (fun before action _ => Rehearsed before action) before action = some after)
        (.start sampleConfig) (schedule rehearsal) state ∧
      ∃ transcript ∈ state.fleet.store.messages.get? "lake", transcript.map (·.content) =
        ["level?", "Fake response (turn 1): level?", "why?", "Fake response (turn 2): why?"] ∧
        ∃ message ∈ transcript, message.runId = some "later" :=
    follow_reaches (by decide +kernel)
  refine ⟨state, transcript, run.mono fun taken => ?_, read, written⟩
  obtain ⟨moved, rehearsed⟩ := admitted_some taken
  obtain ⟨steps, hears⟩ := Listening.next_some moved
  exact ⟨steps, rehearsed.served, False.elim, hears⟩

theorem transcripts_converse_rehearsal : ∃ state transcript message,
    Run (ServedSteps (fun _ => sampleFake) False) (.start sampleConfig) (schedule rehearsal) state ∧
      state.fleet.store.messages.get? "lake" = some transcript ∧ message ∈ transcript ∧
      ∃ front user assistant, front ++ [user, assistant] <+: transcript ∧
        message ∈ [user, assistant] ∧ ∃ (worker : String) (index : Nat) (task : Task),
          (state.fleet.workers worker).tasks[index]? = some task ∧ task.run.id = "later" ∧
          Replies sampleFake (state.fleet.workers worker).config task front
            assistant.content := by
  obtain ⟨state, transcript, run, read, _, message, member, bound⟩ := rehearsal_reaches
  obtain ⟨front, user, assistant, before, own, _, _, worker, index, task, found, same, _, _,
    replies⟩ := transcripts_converse run read member bound
  exact ⟨state, transcript, message, run, read, member, front, user, assistant, before, own,
    worker, index, task, found, same, replies⟩

theorem fake_transcripts_rehearsal : ∃ state transcript,
    Run (ServedSteps (fun _ => sampleFake) False) (.start sampleConfig) (schedule rehearsal) state ∧
      state.fleet.store.messages.get? "lake" = some transcript ∧
      transcript.map (·.content) = ["level?", "Fake response (turn 1): level?",
        "why?", "Fake response (turn 2): why?"] ∧
      Conversation (fun _ front question answer =>
        (∀ worker, parseToolCommand (sampleConfig worker).codec question = .ok none) →
          answer = fakeReply front question) transcript := by
  obtain ⟨state, transcript, run, read, contents, _⟩ := rehearsal_reaches
  exact ⟨state, transcript, run, read, contents,
    fake_transcripts (fun _ => .ofModel "model") (fun _ => rfl) run "lake" transcript read⟩

end Fleet

end DayuAgent
