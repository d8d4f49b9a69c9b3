import DayuAgent.Agents.Custody
import DayuAgent.Providers.Base

namespace DayuAgent

open Library

/-- The events of each attempt, the last attempt first. -/
abbrev Hearing := List (List ProviderStreamEvent)

namespace Hearing

/-- One more event of the attempt under way. -/
def hear (hearing : Hearing) (event : ProviderStreamEvent) : Hearing :=
  match hearing with
  | [] => [[event]]
  | stream :: earlier => (stream ++ [event]) :: earlier

/-- No attempt has brought any text. -/
def Silent (hearing : Hearing) : Prop := ∀ stream ∈ hearing, streamText stream = []

/-- All text in the order in which it has been heard. -/
def text (hearing : Hearing) : List String := hearing.reverse.flatMap streamText

private theorem Silent.text {hearing : Hearing} (silent : hearing.Silent) : hearing.text = [] := by
  simp only [Hearing.text, List.flatMap_eq_nil_iff, List.mem_reverse]
  exact silent

theorem silent_cons {stream : List ProviderStreamEvent} {earlier : Hearing} :
    Silent (stream :: earlier) ↔ streamText stream = [] ∧ earlier.Silent := by
  simp [Silent]

/-- Nothing but the last attempt speaks. -/
theorem text_cons {stream : List ProviderStreamEvent} {earlier : Hearing}
    (silent : earlier.Silent) : text (stream :: earlier) = streamText stream := by
  have none : text earlier = [] := silent.text
  simp only [text, List.reverse_cons, List.flatMap_append, List.flatMap_cons, List.flatMap_nil,
    List.append_nil] at none ⊢
  rw [none, List.nil_append]

theorem text_begin (hearing : Hearing) : text ([] :: hearing) = hearing.text := by
  simp [text, streamText]

theorem text_hear (hearing : Hearing) (event : ProviderStreamEvent) :
    (hearing.hear event).text = hearing.text ++ event.delta.toList := by
  cases hearing <;> simp [text, hear, streamText_single]

end Hearing

/-- The delta that the task hands to the store. -/
def Phase.pending : Phase → Option String
  | .persisting _ _ delta => some delta
  | _ => none

/-- What a supervisor calls outside the store: its provider and its tools. -/
structure Collaborators where
  provider : ModelProvider
  executes : String → JsonObject → Except Failure ToolExecutionResult → Prop

/-- Collaborators of which nothing is known. -/
def Collaborators.arbitrary : Collaborators where
  provider := .arbitrary
  executes _ _ _ := True

namespace Task

/-- What a resumption adds to what the task has heard. -/
def hear (task : Task) (input : Input) (hearing : Hearing) : Hearing :=
  if task.cancelRequested then hearing
  else
    match task.phase, task.answer, input with
    | .incrementing _, some (.ok _), .wake => [] :: hearing
    | .streaming _, _, .event (.ok (some event)) => hearing.hear event
    | .calling _, _, .response (.ok response) => hearing.hear response.final
    | _, _, _ => hearing

/-- The provider or the tool that the task awaits hands this to it. -/
def Served (peers : Collaborators) (task : Task) (input : Input) (hearing : Hearing) : Prop :=
  match task.phase, input with
  | .streaming _, .event (.ok (some event)) => ∀ request ∈ task.request, ∃ later ending,
      peers.provider.streams request (hearing.headD [] ++ event :: later) ending
  | .streaming _, .event (.ok none) => ∀ request ∈ task.request,
      peers.provider.streams request (hearing.headD []) (.ok ())
  | .streaming _, .event (.error failure) => ∀ request ∈ task.request,
      peers.provider.streams request (hearing.headD []) (.error failure)
  | .calling _, .response outcome => ∀ request ∈ task.request,
      peers.provider.runs request outcome
  | .executingTool name payload, .executed outcome => peers.executes name payload outcome
  | _, _ => True

variable (peers : Collaborators) (config : Config) (task : Task) (hearing : Hearing)

/-- The message is a tool command. -/
def Commands (name : String) (payload : JsonObject) : Prop :=
  parseToolCommand config.codec task.userContent = .ok (some (name, payload))

/-- The message is for the provider. -/
def Converses : Prop := parseToolCommand config.codec task.userContent = .ok none

/-- The provider has been given a request. -/
def Consults : Prop := task.Converses config ∧ ∃ request, task.request = some request

/-- The last attempt has answered the request, and the earlier ones have said nothing. -/
def Answers (response : ProviderResponse) : Prop :=
  ∃ (request : ProviderRequest) (stream : List ProviderStreamEvent) (earlier : Hearing),
    task.request = some request ∧ hearing = stream :: earlier ∧ earlier.Silent ∧
    peers.provider.Completes request stream ∧ streamResponse stream = some response

/-- Where the result of a task comes from. -/
inductive Obtains (result : AgentResult) : Prop where
  | tool (name : String) (payload : JsonObject) (execution : ToolExecutionResult)
      (commands : task.Commands config name payload)
      (executes : peers.executes name payload (.ok execution)) (unheard : hearing = [])
      (same : result = task.toolResult config name execution)
  | provider (response : ProviderResponse) (converses : task.Converses config)
      (answers : task.Answers peers hearing response)
      (same : result = task.resultFromProvider config response)

/-- What a task has heard, at each phase of the task. -/
def Listens : Prop :=
  match task.phase with
  | .created | .marking => hearing = []
  | .guardingTool name payload _ | .executingTool name payload =>
    task.Commands config name payload ∧ hearing = []
  | .loading => task.Converses config ∧ hearing = []
  | .incrementing _ | .sleeping _ => task.Consults config ∧ hearing.Silent
  | .calling attempt => task.Consults config ∧ attempt.emittedDelta = false ∧
      ∃ earlier : Hearing, hearing = [] :: earlier ∧ earlier.Silent
  | .streaming attempt => task.Consults config ∧
      ∃ (stream : List ProviderStreamEvent) (earlier : Hearing), hearing = stream :: earlier ∧
      earlier.Silent ∧ attempt.finalResponse = streamResponse stream ∧
      (attempt.emittedDelta = false → streamText stream = [])
  | .persisting attempt event delta => task.Consults config ∧ event.delta = some delta ∧
      attempt.emittedDelta = true ∧ ∃ (stream : List ProviderStreamEvent) (earlier : Hearing),
      hearing = (stream ++ [event]) :: earlier ∧ earlier.Silent ∧
      attempt.finalResponse = streamResponse stream
  | .checkingOutput result _ | .committing result => task.Obtains peers config hearing result
  | .cancelling | .failing .. | .finished _ => True

variable {peers : Collaborators} {config : Config} {task : Task} {hearing : Hearing}
variable {input : Input} {clock : Clock}
variable {resumed : Resumed}

private theorem listens_of_handler (handler : task.phase.Handler) :
    task.Listens peers config hearing := by
  unfold Listens
  cases suspended : task.phase with
  | cancelling | failing => trivial
  | _ =>
    rw [suspended] at handler
    exact handler.elim

theorem except_listens (task : Task) (error : PyException) (hearing : Hearing) :
    (task.except config error).Listens peers config hearing :=
  listens_of_handler (by cases error <;> trivial)

theorem guarded_listens {waiting : Nat → Phase} {passed : Phase} (remaining : Nat)
    (waits : ∀ left, (task.enter (waiting left)).Listens peers config hearing)
    (passes : (task.enter passed).Listens peers config hearing) :
    (task.guarded remaining waiting passed).Listens peers config hearing := by
  unfold guarded
  split
  · exact passes
  · exact waits remaining

theorem decided_listens {waiting : Nat → Phase} {passed : Phase}
    (verdict : Except Failure GuardrailDecision) (remaining : Nat)
    (waits : ∀ left, (task.enter (waiting left)).Listens peers config hearing)
    (passes : (task.enter passed).Listens peers config hearing) :
    (task.decided config verdict remaining waiting passed).Listens peers config hearing := by
  unfold decided
  split
  · exact except_listens task _ hearing
  · split
    · exact guarded_listens _ waits passes
    · exact except_listens task _ hearing

theorem Obtains.later {later : Task} {result : AgentResult}
    (obtains : task.Obtains peers config hearing result) (origin : task.SameOrigin later)
    (requested : ∀ request, task.request = some request → later.request = some request) :
    later.Obtains peers config hearing result := by
  obtain ⟨_, context, content⟩ := origin
  cases obtains with
  | tool name payload execution commands executes unheard same =>
    refine .tool name payload execution ?_ executes unheard ?_
    · rwa [Commands, content]
    · rw [same, toolResult, toolResult, successResult, successResult, context]
  | provider response converses answers same =>
    obtain ⟨request, stream, earlier, asked, answers⟩ := answers
    refine .provider response ?_ ⟨request, stream, earlier, requested request asked, answers⟩ ?_
    · rwa [Converses, content]
    · rw [same, resultFromProvider, resultFromProvider, successResult, successResult, context]

theorem checkOutput_listens {result : AgentResult}
    (obtains : task.Obtains peers config hearing result) :
    (task.checkOutput config result).Listens peers config hearing := by
  have again (phase : Phase) : (task.enter phase).Obtains peers config hearing result :=
    obtains.later ⟨rfl, rfl, rfl⟩ fun _ => id
  exact guarded_listens _ (fun _ => again _) (again _)

theorem dispatch_listens (task : Task) :
    (task.dispatch config).Listens peers config [] := by
  unfold dispatch
  split
  · exact except_listens task _ []
  · next name payload parsed =>
    unfold runTool
    split
    · exact guarded_listens _ (fun _ => ⟨parsed, rfl⟩) ⟨parsed, rfl⟩
    · exact except_listens task _ []
  · next parsed => exact ⟨parsed, rfl⟩

private theorem retry_listens (consults : task.Consults config) (silent : hearing.Silent)
    (attempt : Attempt) (error : DayuAgentError) (clock : Clock) :
    (task.retry config attempt error clock).task.Listens peers config hearing := by
  unfold retry
  dsimp only
  split
  · exact ⟨consults, silent⟩
  · dsimp only
    exact except_listens task _ hearing

/-- A failed attempt that has emitted a delta is the last one. -/
theorem attemptFailed_listens (consults : task.Consults config) {attempt : Attempt}
    (silent : attempt.emittedDelta = false → hearing.Silent) (error : PyException)
    (clock : Clock) :
    (task.attemptFailed config attempt error clock).task.Listens peers config hearing := by
  unfold attemptFailed
  dsimp only
  split
  · split
    · split
      · dsimp only
        exact except_listens task _ hearing
      · next quiet =>
        simp only [not_or, Bool.not_eq_true] at quiet
        exact retry_listens consults (silent quiet.1) _ _ _
    · dsimp only
      exact except_listens task _ hearing
  · split
    · dsimp only
      exact except_listens task _ hearing
    · next quiet =>
      rw [Bool.not_eq_true] at quiet
      exact retry_listens consults (silent quiet) _ _ _
  · dsimp only
    exact except_listens task _ hearing

private theorem startAttempt_listens (consults : task.Consults config) (silent : hearing.Silent)
    (started : ℚ) (durable : AgentRun) (clock : Clock) :
    (task.startAttempt config started durable clock).task.Listens peers config
      ([] :: hearing) := by
  have quiet : Hearing.Silent ([] :: hearing) := Hearing.silent_cons.mpr ⟨rfl, silent⟩
  unfold startAttempt
  dsimp only
  split
  · exact attemptFailed_listens consults (fun _ => quiet) _ _
  · dsimp only
    split
    · exact ⟨consults, [], hearing, rfl, silent, rfl, fun _ => rfl⟩
    · exact ⟨consults, rfl, hearing, rfl, silent⟩

theorem afterEvent_listens {attempt : Attempt} {event : ProviderStreamEvent}
    {stream : List ProviderStreamEvent} {earlier : Hearing} (consults : task.Consults config)
    (silent : earlier.Silent) (kept : attempt.finalResponse = streamResponse stream)
    (said : attempt.emittedDelta = false → streamText (stream ++ [event]) = []) :
    (task.afterEvent attempt event).Listens peers config ((stream ++ [event]) :: earlier) := by
  refine ⟨consults, stream ++ [event], earlier, rfl, silent, ?_, ?_⟩
  · rw [streamResponse_concat, ← kept]
    split <;> rfl
  · split
    · exact said
    · exact said

/-- What a task hears while it goes on after an answered store call. -/
theorem answered_listens {reply : Except PyException Reply}
    (listens : task.Listens peers config hearing)
    (unflagged : task.cancelRequested = false) (replied : task.answer = some reply)
    (taken : task.answered config reply clock = some resumed) :
    resumed.task.Listens peers config (task.hear .wake hearing) := by
  unfold Listens at listens
  unfold answered at taken
  split at taken <;> cases taken <;> rename_i suspended <;>
    simp only [suspended] at listens <;>
    simp only [hear, unflagged, suspended, replied, Bool.false_eq_true, ↓reduceIte]
  · rw [listens]
    exact dispatch_listens _
  · obtain ⟨converses, rfl⟩ := listens
    exact ⟨⟨converses, _, rfl⟩, by simp [Hearing.Silent]⟩
  · exact startAttempt_listens listens.1 listens.2 _ _ _
  · obtain ⟨consults, _, emitted, stream, earlier, rfl, silent, kept⟩ := listens
    exact afterEvent_listens consults silent kept (by simp [emitted])
  · exact attemptFailed_listens listens.1 (by simp [listens.2.2.1]) _ _
  · trivial
  · trivial
  · trivial
  · trivial
  · trivial
  · trivial
  all_goals exact except_listens _ _ _

/-- What a task hears while it goes on after an await outside the store. -/
theorem informed_listens (listens : task.Listens peers config hearing)
    (unflagged : task.cancelRequested = false) (served : task.Served peers input hearing)
    (taken : task.informed config input clock = some resumed) :
    resumed.task.Listens peers config (task.hear input hearing) := by
  unfold Listens at listens
  unfold informed at taken
  split at taken <;> try contradiction
  all_goals
    rename_i suspended
    simp only [suspended] at listens
    simp only [hear, unflagged, suspended, Bool.false_eq_true, ↓reduceIte]
  · cases taken
    exact listens
  · cases taken
    exact decided_listens _ _ (fun _ => listens) listens
  · cases taken
    simp only [Served, suspended] at served
    exact checkOutput_listens (.tool _ _ _ listens.1 served listens.2 rfl)
  · cases taken
    exact except_listens _ _ _
  · cases taken
    obtain ⟨⟨converses, request, requested⟩, _, earlier, rfl, silent⟩ := listens
    simp only [Served, suspended] at served
    have completes := served request requested
    exact checkOutput_listens (.provider _ converses
      ⟨request, _, earlier, requested, rfl, silent, .answered completes, rfl⟩ rfl)
  · cases taken
    obtain ⟨consults, _, earlier, rfl, silent⟩ := listens
    exact attemptFailed_listens consults (fun _ => Hearing.silent_cons.mpr ⟨rfl, silent⟩) _ _
  · cases taken
    obtain ⟨consults, stream, earlier, rfl, silent, _, said⟩ := listens
    exact attemptFailed_listens consults
      (fun quiet => Hearing.silent_cons.mpr ⟨said quiet, silent⟩) _ _
  · cases taken
    obtain ⟨consults, _, earlier, rfl, silent⟩ := listens
    exact attemptFailed_listens consults (fun _ => Hearing.silent_cons.mpr ⟨rfl, silent⟩) _ _
  · cases taken
    obtain ⟨consults, stream, earlier, rfl, silent, _, said⟩ := listens
    exact attemptFailed_listens consults
      (fun quiet => Hearing.silent_cons.mpr ⟨said quiet, silent⟩) _ _
  · cases taken
    exact attemptFailed_listens listens.1 (by simp [listens.2.2.1]) _ _
  · obtain ⟨consults, stream, earlier, rfl, silent, kept, said⟩ := listens
    split at taken <;> cases taken
    · next delta spoken =>
      exact ⟨consults, spoken, rfl, stream, earlier, rfl, silent, kept⟩
    · next none =>
      refine afterEvent_listens consults silent kept fun quiet => ?_
      rw [streamText_append, streamText_single, said quiet, none]
      rfl
  · obtain ⟨consults, stream, earlier, rfl, silent, kept, said⟩ := listens
    split at taken <;> cases taken
    · next response final =>
      obtain ⟨converses, request, requested⟩ := consults
      simp only [Served, suspended] at served
      have completes := served request requested
      exact checkOutput_listens (.provider response converses
        ⟨request, stream, earlier, requested, rfl, silent, .streamed completes, kept ▸ final⟩ rfl)
    · exact attemptFailed_listens consults
        (fun quiet => Hearing.silent_cons.mpr ⟨said quiet, silent⟩) _ _
  · cases taken
    exact listens
  · cases taken
    exact decided_listens _ _ (fun _ => Obtains.later listens ⟨rfl, rfl, rfl⟩ fun _ => id)
      (Obtains.later listens ⟨rfl, rfl, rfl⟩ fun _ => id)

/-- What a task has heard agrees with its phase, over every resumption. -/
theorem resume_listens (listens : task.Listens peers config hearing)
    (served : task.cancelRequested = false → task.Served peers input hearing)
    (taken : task.resume config input clock = some resumed) :
    resumed.task.Listens peers config (task.hear input hearing) := by
  unfold resume at taken
  split at taken
  · unfold interrupted at taken
    dsimp only at taken
    split at taken <;> cases taken <;> trivial
  · next unflagged =>
    rw [Bool.not_eq_true] at unflagged
    split at taken
    · next replied => exact answered_listens listens unflagged replied taken
    · exact informed_listens listens unflagged (served unflagged) taken

/-- What a task has heard is independent of its answer and of a requested cancellation. -/
theorem Listens.later {later : Task} (listens : task.Listens peers config hearing)
    (origin : task.SameOrigin later) (phase : later.phase = task.phase)
    (request : later.request = task.request) : later.Listens peers config hearing := by
  have commands {name : String} {payload : JsonObject}
      (commands : task.Commands config name payload) : later.Commands config name payload := by
    rwa [Commands, origin.2.2]
  have converses (converses : task.Converses config) : later.Converses config := by
    rwa [Converses, origin.2.2]
  have consults (consults : task.Consults config) : later.Consults config :=
    ⟨converses consults.1, request ▸ consults.2⟩
  unfold Listens at listens ⊢
  rw [phase]
  cases suspended : task.phase <;> simp only [suspended] at listens ⊢
  case created | marking => exact listens
  case guardingTool | executingTool => exact ⟨commands listens.1, listens.2⟩
  case loading => exact ⟨converses listens.1, listens.2⟩
  case incrementing | sleeping | calling | streaming | persisting =>
    exact ⟨consults listens.1, listens.2⟩
  case checkingOutput | committing =>
    refine Obtains.later listens origin fun _ asked => ?_
    rwa [request]

/-- The delta that a resumption takes from the provider stream. -/
def takes (task : Task) (input : Input) : Option String :=
  if task.cancelRequested then none
  else
    match task.phase, input with
    | .streaming _, .event (.ok (some event)) => event.delta
    | _, _ => none

theorem hear_text (task : Task) (input : Input) (hearing : Hearing) :
    (task.hear input hearing).text = hearing.text ++ (task.takes input).toList := by
  unfold hear takes
  split
  · simp
  · split
    · next suspended replied =>
      simp [Hearing.text_begin, suspended]
    · next suspended =>
      simp [Hearing.text_hear, suspended]
    · next suspended =>
      simp [Hearing.text_hear, suspended, ProviderResponse.final]
    · split
      · next suspended streaming _ _ => exact (streaming _ _ suspended rfl).elim
      · simp

theorem except_pending (task : Task) (error : PyException) :
    (task.except config error).phase.pending = none := by
  cases error <;> rfl

theorem guarded_pending (task : Task) (remaining : Nat) {waiting : Nat → Phase} {passed : Phase}
    (waits : ∀ left, (waiting left).pending = none) (passes : passed.pending = none) :
    (task.guarded remaining waiting passed).phase.pending = none := by
  unfold guarded enter
  dsimp only
  split
  · exact passes
  · exact waits remaining

theorem decided_pending (task : Task) (verdict : Except Failure GuardrailDecision)
    (remaining : Nat) {waiting : Nat → Phase} {passed : Phase}
    (waits : ∀ left, (waiting left).pending = none) (passes : passed.pending = none) :
    (task.decided config verdict remaining waiting passed).phase.pending = none := by
  unfold decided
  split
  · exact except_pending _ _
  · split
    · exact guarded_pending _ _ waits passes
    · exact except_pending _ _

theorem checkOutput_pending (task : Task) (result : AgentResult) :
    (task.checkOutput config result).phase.pending = none :=
  guarded_pending _ _ (fun _ => rfl) rfl

private theorem dispatch_pending (task : Task) : (task.dispatch config).phase.pending = none := by
  unfold dispatch
  split
  · exact except_pending _ _
  · unfold runTool
    split
    · exact guarded_pending _ _ (fun _ => rfl) rfl
    · exact except_pending _ _
  · rfl

private theorem retry_pending (task : Task) (attempt : Attempt) (error : DayuAgentError)
    (clock : Clock) : (task.retry config attempt error clock).task.phase.pending = none := by
  unfold retry
  dsimp only
  split
  · rfl
  · exact except_pending _ _

theorem attemptFailed_pending (task : Task) (attempt : Attempt) (error : PyException)
    (clock : Clock) :
    (task.attemptFailed config attempt error clock).task.phase.pending = none := by
  unfold attemptFailed
  dsimp only
  split
  · split
    · split
      · exact except_pending _ _
      · exact retry_pending _ _ _ _
    · exact except_pending _ _
  · split
    · exact except_pending _ _
    · exact retry_pending _ _ _ _
  · exact except_pending _ _

private theorem startAttempt_pending (task : Task) (started : ℚ) (durable : AgentRun)
    (clock : Clock) :
    (task.startAttempt config started durable clock).task.phase.pending = none := by
  unfold startAttempt
  dsimp only
  split
  · exact attemptFailed_pending _ _ _ _
  · dsimp only [enter]
    split <;> rfl

private theorem answered_pending {reply : Except PyException Reply}
    (taken : task.answered config reply clock = some resumed) :
    resumed.task.phase.pending = none := by
  unfold answered at taken
  split at taken <;> cases taken
  · exact dispatch_pending _
  · rfl
  · exact startAttempt_pending _ _ _ _
  · rfl
  · exact attemptFailed_pending _ _ _ _
  · rfl
  · rfl
  · rfl
  · rfl
  · rfl
  · rfl
  all_goals exact except_pending _ _

private theorem informed_pending (unflagged : task.cancelRequested = false)
    (taken : task.informed config input clock = some resumed) :
    resumed.task.phase.pending = task.takes input := by
  unfold informed at taken
  split at taken <;> try contradiction
  all_goals
    rename_i suspended
    simp only [takes, unflagged, suspended, Bool.false_eq_true, ↓reduceIte]
  · cases taken
    rfl
  · cases taken
    exact decided_pending _ _ _ (fun _ => rfl) rfl
  · cases taken
    exact checkOutput_pending _ _
  · cases taken
    exact except_pending _ _
  · cases taken
    exact checkOutput_pending _ _
  · cases taken
    exact attemptFailed_pending _ _ _ _
  · cases taken
    exact attemptFailed_pending _ _ _ _
  · cases taken
    exact attemptFailed_pending _ _ _ _
  · cases taken
    exact attemptFailed_pending _ _ _ _
  · cases taken
    exact attemptFailed_pending _ _ _ _
  · split at taken <;> cases taken
    · next delta spoken => exact spoken.symm
    · next none => exact none.symm
  · split at taken <;> cases taken
    · exact checkOutput_pending _ _
    · exact attemptFailed_pending _ _ _ _
  · cases taken
    rfl
  · cases taken
    exact decided_pending _ _ _ (fun _ => rfl) rfl

/-- What a resumption takes from the stream is what it hands to the store next. -/
theorem resume_pending (taken : task.resume config input clock = some resumed) :
    resumed.task.phase.pending = task.takes input := by
  unfold resume at taken
  split at taken
  · next flagged =>
    have nothing : task.takes input = none := by simp [takes, flagged]
    rw [nothing]
    unfold interrupted at taken
    dsimp only at taken
    split at taken <;> cases taken <;> rfl
  · next unflagged =>
    rw [Bool.not_eq_true] at unflagged
    split at taken
    · have nothing : task.takes .wake = none := by simp [takes, unflagged]
      rw [nothing]
      exact answered_pending taken
    · exact informed_pending unflagged taken

/-- A delta that has been taken from the stream is not yet in the log. -/
def Unwritten (task : Task) : Prop := task.answer = none ∧ task.phase.pending.isSome

/-- The task may have taken a delta that never reaches the log. -/
def Lags (task : Task) : Prop :=
  task.Unwritten ∨ task.phase.Handler ∨ ∃ error, task.phase = .finished (.error error)

/-- A task that gives up its append raises. -/
theorem resume_unwritten (listens : task.Listens peers config hearing)
    (unwritten : task.Unwritten) (taken : task.resume config input clock = some resumed) :
    resumed.task.phase.Handler := by
  obtain ⟨unanswered, pending⟩ := unwritten
  cases suspended : task.phase with
  | persisting attempt event delta =>
    have emitted : attempt.emittedDelta = true := by
      simp only [Listens, suspended] at listens
      exact listens.2.2.1
    unfold resume at taken
    split at taken
    · simp only [interrupted, suspended] at taken
      cases taken
      trivial
    · simp only [unanswered] at taken
      unfold informed at taken
      rw [suspended] at taken
      cases input with
      | timeout =>
        cases taken
        simp only [attemptFailed, timeoutError, emitted, ↓reduceIte]
        trivial
      | _ => contradiction
  | _ => simp [suspended, Phase.pending] at pending

private theorem Goes.lags {later : Task} (goes : task.Goes config later)
    (raised : task.phase.Handler ∨ ∃ error, task.phase = .finished (.error error)) :
    ∃ error, later.phase = .finished (.error error) := by
  rcases raised with handler | ⟨error, finished⟩
  · cases goes with
    | begins unflagged suspended =>
      rw [suspended] at handler
      exact handler.elim
    | continues working | loads working | raises working =>
      have body := working.body
      cases suspended : task.phase <;> simp_all [Phase.Body, Phase.Handler]
    | succeeds unflagged suspended =>
      rw [suspended] at handler
      exact handler.elim
    | reports | yields | breaks | stops => exact ⟨_, rfl⟩
    | caught flagged body =>
      cases suspended : task.phase <;> simp_all [Phase.Body, Phase.Handler]
  · exact (goes.unfinished ((done_iff task).mpr ⟨_, finished⟩)).elim

/-- A task that lags behind never catches up by going on. -/
theorem resume_lags (listens : task.Listens peers config hearing) (lags : task.Lags)
    (taken : task.resume config input clock = some resumed) : resumed.task.Lags := by
  rcases lags with unwritten | raised
  · exact .inr (.inl (resume_unwritten listens unwritten taken))
  · exact .inr (.inr ((resume_goes taken).lags raised))

end Task

end DayuAgent
