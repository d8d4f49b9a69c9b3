import DayuAgent.Agents.Hearing
import DayuAgent.Agents.Outcomes
import DayuAgent.Agents.Turns
import DayuAgent.Memory.RunLog

namespace DayuAgent

open Library InMemorySessionStore

def deltaPayload (delta : String) : JsonObject := [("delta", .str delta)]

/-- The payloads of the deltas in the log of a run. -/
def InMemorySessionStore.published (store : InMemorySessionStore) (ref : String) :
    List JsonObject :=
  ((store.eventLog ref).filter fun event => event.type = .responseDelta).map (·.payload)

variable {store after : InMemorySessionStore}

theorem published_of_log (read : store.events.get? ref = some log) : store.published ref =
    (log.filter fun event => event.type = .responseDelta).map (·.payload) := by
  rw [published, eventLog, read, Option.getD_some]

theorem published_same (same : after.events.get? ref = store.events.get? ref) :
    after.published ref = store.published ref := by
  rw [published, published, eventLog, eventLog, same]

/-- One more event in the log of one run. -/
theorem published_append (read : store.events.get? own = some log) (event : StreamEvent)
    (written : after.events = store.events.set own (log ++ [event])) :
    after.published ref = store.published ref ++
      if ref = own ∧ event.type = .responseDelta then [event.payload] else [] := by
  by_cases same : ref = own
  · subst same
    rw [published_of_log read,
      published_of_log (show after.events.get? ref = some (log ++ [event]) by
        rw [written, Dict.get?_set_self])]
    by_cases delta : event.type = .responseDelta <;> simp [delta]
  · have kept : after.events.get? ref = store.events.get? ref := by
      rw [written, Dict.get?_set_ne _ _ same]
    rw [published_same kept]
    simp [same]

private theorem Move.not_delta (move : Move run updated type payload) : type ≠ .responseDelta := by
  cases move <;> decide

/-- Only appending a delta and pruning change the text in a log. -/
theorem Edit.published (edit : Edit store effect after) (coherent : Coherent store)
    (quiet : ∀ event, effect = .emitted ref event → event.type ≠ .responseDelta)
    (retains : ∀ before, effect ≠ .pruned ref before) :
    after.published ref = store.published ref := by
  cases edit with
  | ready | openSession | say | clear | attempt => exact published_same rfl
  | reserve request sessionId ambient opened absent =>
    by_cases own : ref = ambient.uuid4 1
    · subst own
      have bare : store.events.get? (ambient.uuid4 1) = none := by
        have logs : (store.events.get? (ambient.uuid4 1)).isSome =
            (store.runs.get? (ambient.uuid4 1)).isSome := coherent.logs
        rw [absent, Option.isSome_none, Option.isSome_eq_false_iff] at logs
        exact Option.isNone_iff_eq_none.mp logs
      have opened : (withRun store (pendingRun request sessionId ambient)).events.get?
          (ambient.uuid4 1) = some [] := Dict.get?_set_self _ _ _
      rw [published_of_log opened, InMemorySessionStore.published, eventLog, bare]
      rfl
    · exact published_same (Dict.get?_set_ne _ _ own)
  | @emit run log found read type payload id now =>
    rw [published_append read _ rfl, if_neg, List.append_nil]
    rintro ⟨rfl, delta⟩
    exact quiet _ rfl delta
  | @move run log updated type payload found read change id now =>
    rw [published_append read (nextEvent log run.id type payload id now) rfl, if_neg,
      List.append_nil]
    rintro ⟨_, delta⟩
    exact change.not_delta delta
  | @commit run record history log found running session own transcript read request ambient =>
    rw [published_append read (nextEvent log run.id .responseCompleted
      [("result", .obj request.result.modelDump)] (ambient.uuid4 2) (ambient.utcNow 3)) rfl,
      if_neg, List.append_nil]
    rintro ⟨_, delta⟩
    cases delta
  | @prune run log found terminal read before =>
    refine published_same (Dict.get?_set_ne _ _ ?_)
    rintro rfl
    exact retains before rfl

namespace InMemorySessionStore

theorem Refines.published {operation : Operation} (refines : Refines store operation reply after)
    (coherent : Coherent store)
    (quiet : ∀ payload, operation ≠ .appendStreamEvent ref .responseDelta payload)
    (retains : ∀ cutoff, operation ≠ .pruneStreamEvents cutoff) :
    after.published ref = store.published ref := by
  obtain ⟨effects, edits, makes⟩ := refines
  have each : ∀ effect ∈ effects,
      (∀ event, effect = .emitted ref event → event.type ≠ .responseDelta) ∧
        ∀ before, effect ≠ .pruned ref before := by
    intro effect member
    constructor
    · rintro event rfl delta
      obtain ⟨payload, same⟩ := makes.origin member
      rw [delta] at same
      exact quiet payload same
    · rintro before rfl
      exact retains before (makes.origin member)
  clear makes
  induction edits with
  | nil => rfl
  | snoc earlier edit ih =>
    obtain ⟨silent, kept⟩ := each _ (List.mem_append_right _ (List.mem_singleton_self _))
    rw [edit.published (edits_coherent earlier coherent) silent kept]
    exact ih fun effect member => each effect (List.mem_append_left _ member)

end InMemorySessionStore

/-- How much of the text that a task has heard is in the log of its run. -/
inductive Written (task : Task) (record : AgentRun) (published : List JsonObject)
    (text : List String) : Prop where
  | whole (caught : ¬ task.Unwritten) (same : published = text.map deltaPayload)
  | behind (lags : task.Lags) (open' : record.status ≠ .completed) (earlier : List String)
      (last : String) (said : text = earlier ++ [last])
      (same : published = earlier.map deltaPayload)

/-- The log and the record of a run agree with what its task has heard. -/
structure Dictated (peers : Collaborators) (config : Config) (retained : Prop)
    (store : InMemorySessionStore) (record : AgentRun) (task : Task) (hearing : Hearing) :
    Prop where
  listens : task.Listens peers config hearing
  open' : task.phase = .created ∨ task.phase.Body → ¬ task.Committed → record.status ≠ .completed
  written : retained → Written task record (store.published task.run.id) hearing.text
  completed : record.status = .completed → ∃ result, record.result = some result.modelDump ∧
    task.Obtains peers config hearing result

/-- A run that is completed was so before, unless its task has completed it. -/
theorem Dictated.settled {peers : Collaborators} {config : Config} {retained : Prop} {task : Task}
    {hearing : Hearing} {record next : AgentRun}
    (dictated : Dictated peers config retained store record task hearing)
    (continues : Continues record next)
    (uncompleted : record.status ≠ .completed → next.status ≠ .completed)
    (completed : next.status = .completed) : ∃ result, next.result = some result.modelDump ∧
      task.Obtains peers config hearing result := by
  have former : record.status = .completed := by
    by_contra other
    exact uncompleted other completed
  have terminal : record.Terminal := by simp [AgentRun.Terminal, former, terminalRunStatuses]
  obtain rfl := continues.settled terminal
  exact dictated.completed former

namespace Written

variable {task later : Task} {record next : AgentRun} {published : List JsonObject}
variable {text : List String}

theorem kept (written : Written task record published text) (phase : later.phase = task.phase)
    (answer : later.answer = task.answer)
    (uncompleted : record.status ≠ .completed → next.status ≠ .completed) :
    Written later next published text := by
  cases written with
  | whole caught same =>
    refine .whole ?_ same
    rwa [Task.Unwritten, phase, answer]
  | behind lags open' earlier last said same =>
    refine .behind ?_ (uncompleted open') earlier last said same
    rwa [Task.Lags, Task.Unwritten, phase, answer]

/-- A task that can still complete its run has its text in the log. -/
theorem settled (written : Written task record published text) (swift : ¬ task.Lags) :
    published = text.map deltaPayload := by
  cases written with
  | whole _ same => exact same
  | behind lags => exact (swift lags).elim

end Written

namespace Task

variable {peers : Collaborators} {config : Config} {retained : Prop} {task : Task}
variable {hearing : Hearing} {input : Input} {clock : Clock} {resumed : Resumed}
variable {record : AgentRun}

private theorem takes_streaming (taken : task.takes input = some delta) :
    ∃ attempt, task.phase = .streaming attempt := by
  unfold takes at taken
  split at taken
  · contradiction
  · split at taken
    · next suspended => exact ⟨_, suspended⟩
    · contradiction

/-- In its body, only a task that waits for an append is behind. -/
theorem not_lags_of_body (body : task.phase.Body) (none : task.phase.pending = none) :
    ¬ task.Lags := by
  rintro (⟨_, pending⟩ | handler | ⟨error, finished⟩)
  · rw [none] at pending
    contradiction
  · cases suspended : task.phase <;> simp_all [Phase.Body, Phase.Handler]
  · rw [finished] at body
    exact body.elim

/-- What is pending when a task waits for the store is the last text that it has heard. -/
theorem pending_text (listens : task.Listens peers config hearing)
    (pending : task.phase.pending = some delta) :
    ∃ earlier, hearing.text = earlier ++ [delta] := by
  unfold Phase.pending at pending
  split at pending
  · next attempt event _ suspended =>
    cases pending
    simp only [Listens, suspended] at listens
    obtain ⟨_, said, _, stream, earlier, rfl, silent, _⟩ := listens
    refine ⟨streamText stream, ?_⟩
    rw [Hearing.text_cons silent, streamText_append, streamText_single, said]
    rfl
  · contradiction

/-- Going on, a task is behind by the delta that it takes, and catches up no more. -/
theorem resume_written {published : List JsonObject}
    (listens : task.Listens peers config hearing)
    (taken : task.resume config input clock = some resumed)
    (open' : task.phase = .created ∨ task.phase.Body → ¬ task.Committed →
      record.status ≠ .completed)
    (written : Written task record published hearing.text) :
    Written resumed.task record published (task.hear input hearing).text := by
  have pending := resume_pending taken
  rw [hear_text]
  cases takes : task.takes input with
  | none =>
    rw [takes] at pending
    have caught : ¬ resumed.task.Unwritten := by
      rintro ⟨_, waiting⟩
      rw [pending] at waiting
      contradiction
    rw [Option.toList_none, List.append_nil]
    cases written with
    | whole _ same => exact .whole caught same
    | behind lags open' earlier last said same =>
      exact .behind (resume_lags listens lags taken) open' earlier last said same
  | some delta =>
    rw [takes] at pending
    obtain ⟨attempt, streaming⟩ := takes_streaming takes
    refine .behind ?_ (open' (.inr (streaming ▸ trivial)) ?_) hearing.text delta rfl
      (written.settled (not_lags_of_body (streaming ▸ trivial) (by rw [streaming]; rfl)))
    · exact .inl ⟨(resume_goes taken).request.1, by rw [pending]; rfl⟩
    · rintro ⟨_, _, committing, _⟩
      rw [streaming] at committing
      cases committing

private theorem Goes.open' {Open : Prop} {later : Task} (goes : task.Goes config later)
    (open' : task.phase = .created ∨ task.phase.Body → ¬ task.Committed → Open)
    (inside : later.phase = .created ∨ later.phase.Body) : Open := by
  cases goes with
  | begins unflagged created =>
    refine open' (.inl created) ?_
    rintro ⟨_, _, committing, _⟩
    rw [created] at committing
    cases committing
  | continues working | loads working | raises working =>
    exact open' (.inr working.body) working.uncommitted
  | succeeds | reports | yields | breaks | stops | caught =>
    rcases inside with created | body
    · cases created
    · exact body.elim

/-- A task hears nothing any more once it has committed or left its body. -/
theorem hear_closed (closed : ¬ (task.phase = .created ∨ task.phase.Body) ∨ task.Committed) :
    task.hear input hearing = hearing := by
  have other {phase : Phase} (suspended : task.phase = phase) (body : phase.Body)
      (early : ∀ result, phase ≠ .committing result) : False := by
    rcases closed with outside | ⟨result, _, committing, _⟩
    · exact outside (.inr (suspended ▸ body))
    · exact early result (suspended.symm.trans committing)
  unfold hear
  split
  · rfl
  · split
    · next suspended _ => exact (other suspended trivial (by simp)).elim
    · next suspended => exact (other suspended trivial (by simp)).elim
    · next suspended => exact (other suspended trivial (by simp)).elim
    · rfl

/-- Going on keeps what a task has heard in agreement with the log and the record. -/
theorem resume_dictated (dictated : Dictated peers config retained store record task hearing)
    (served : task.cancelRequested = false → task.Served peers input hearing)
    (taken : task.resume config input clock = some resumed) :
    Dictated peers config retained store record resumed.task (task.hear input hearing) := by
  have goes := resume_goes taken
  have unanswered := goes.request.1
  refine ⟨resume_listens dictated.listens served taken, ?_, ?_, ?_⟩
  · intro inside _
    exact goes.open' dictated.open' inside
  · intro retained
    rw [goes.same.1]
    exact resume_written dictated.listens taken dictated.open' (dictated.written retained)
  · intro completed
    obtain ⟨result, stored, obtains⟩ := dictated.completed completed
    refine ⟨result, stored, ?_⟩
    have closed : ¬ (task.phase = .created ∨ task.phase.Body) ∨ task.Committed := by
      by_contra other
      rw [not_or, not_not] at other
      exact dictated.open' other.1 other.2 completed
    have awaiting : task.phase ≠ .loading := by
      intro loading
      rcases closed with outside | ⟨_, _, committing, _⟩
      · exact outside (.inr (by rw [loading]; trivial))
      · rw [loading] at committing
        cases committing
    rw [hear_closed closed]
    refine obtains.later goes.same fun request asked => ?_
    rcases goes.request.2 with same | ⟨_, _, loading, _⟩
    · rwa [same]
    · exact (awaiting loading).elim

private theorem cancel_waits (task : Task) :
    task.cancel.answer = task.answer ∧ task.cancel.request = task.request := by
  unfold cancel
  split <;> exact ⟨rfl, rfl⟩

theorem cancel_dictated (dictated : Dictated peers config retained store record task hearing) :
    Dictated peers config retained store record task.cancel hearing := by
  refine ⟨dictated.listens.later (cancel_same task) (cancel_phase task) (cancel_waits task).2,
    ?_, ?_, ?_⟩
  · rw [cancel_phase]
    intro inside uncommitted
    refine dictated.open' inside ?_
    rintro ⟨result, reply, committing, answered⟩
    exact uncommitted ⟨result, reply, by rw [cancel_phase, committing], by
      rw [(cancel_waits task).1, answered]⟩
  · intro retained
    rw [cancel_run]
    exact (dictated.written retained).kept (cancel_phase task) (cancel_waits task).1 id
  · intro completed
    obtain ⟨result, stored, obtains⟩ := dictated.completed completed
    exact ⟨result, stored, obtains.later (cancel_same task) fun _ asked => by
      rwa [(cancel_waits task).2]⟩

/-- The store call of a task writes the delta that is pending, and no other. -/
theorem performed_published {operation : Operation} {ambient : Ambient}
    (coherent : Coherent store) (found : store.runs.get? task.run.id = some record)
    (asks : task.operation config = some operation) (fresh : ambient.Fresh store) :
    (operation.perform ambient store).2.published task.run.id =
      store.published task.run.id ++ task.phase.pending.toList.map deltaPayload := by
  have silent (none : task.phase.pending = none)
      (quiet : ∀ payload, operation ≠ .appendStreamEvent task.run.id .responseDelta payload)
      (retains : ∀ cutoff, operation ≠ .pruneStreamEvents cutoff) :
      (operation.perform ambient store).2.published task.run.id =
        store.published task.run.id ++ task.phase.pending.toList.map deltaPayload := by
    rw [none, Option.toList_none, List.map_nil, List.append_nil]
    exact (operation.performed_refines coherent fresh).published coherent quiet
      retains
  unfold Task.operation at asks
  split at asks
  case h_4 attempt event delta suspended =>
    cases asks
    rw [Operation.perform, wrap_apply]
    rcases appendStreamEvent_cases coherent task.run.id .responseDelta [("delta", .str delta)]
      ambient with ⟨absent, _⟩ | ⟨run, log, _, read, answer⟩
    · rw [found] at absent
      contradiction
    · rw [answer, published_append read _ rfl, if_pos ⟨rfl, rfl⟩, suspended]
      rfl
  all_goals
    cases asks <;>
    next suspended => exact silent (by rw [suspended]; rfl) (by simp) (by simp)

/-- The answer to a store call catches up with what was pending. -/
theorem answered_written {next : AgentRun} {published : List JsonObject}
    (listens : task.Listens peers config hearing) (unanswered : task.answer = none)
    (written : Written task record published hearing.text)
    (uncompleted : task.Lags → record.status ≠ .completed → next.status ≠ .completed)
    (reply : Except PyException Reply) :
    Written { task with answer := some reply } next
      (published ++ task.phase.pending.toList.map deltaPayload) hearing.text := by
  have caught : ¬ Unwritten { task with answer := some reply } := by
    rintro ⟨waiting, _⟩
    cases waiting
  cases pending : task.phase.pending with
  | none =>
    rw [Option.toList_none, List.map_nil, List.append_nil]
    cases written with
    | whole _ same => exact .whole caught same
    | behind lags open' earlier last said same =>
      refine .behind (.inr (lags.resolve_left ?_)) (uncompleted lags open') earlier last said same
      rintro ⟨_, waiting⟩
      rw [pending] at waiting
      contradiction
  | some delta =>
    refine .whole caught ?_
    cases written with
    | whole ahead _ => exact (ahead ⟨unanswered, by rw [pending]; rfl⟩).elim
    | behind _ _ earlier last said same =>
      obtain ⟨former, spoken⟩ := pending_text listens pending
      rw [said] at spoken
      obtain ⟨rfl, final⟩ := List.append_inj' spoken rfl
      cases final
      simp [said, same]

/-- The store call of a task keeps the agreement. -/
theorem answered_dictated {operation : Operation} {ambient : Ambient}
    (dictated : Dictated peers config retained store record task hearing)
    (coherent : Coherent store)
    (tracked : Tracked store config.workerInstanceId task.run)
    (found : store.runs.get? task.run.id = some record)
    (asks : task.operation config = some operation) (fresh : ambient.Fresh store)
    (unanswered : task.answer = none) :
    ∃ next, (operation.perform ambient store).2.runs.get? task.run.id = some next ∧
      Dictated peers config retained (operation.perform ambient store).2 next
        { task with answer := some (operation.perform ambient store).1 } hearing := by
  have refines := operation.performed_refines coherent fresh
  have effects := task.effects coherent found (tracked.owner found).1 asks ambient
  obtain ⟨next, present, continues⟩ :=
    (refines.keeps (operation_respects asks tracked).1).found found
  have wrote := performed_published coherent found asks fresh
  have uncommitted : ¬ task.Committed := by
    rintro ⟨_, _, _, answered⟩
    rw [unanswered] at answered
    contradiction
  have listens (reply : Except PyException Reply) :
      Listens peers config { task with answer := some reply } hearing :=
    dictated.listens.later ⟨rfl, rfl, rfl⟩ rfl rfl
  generalize (operation.perform ambient store).1 = reply at *
  generalize (operation.perform ambient store).2 = after at *
  have written (uncompleted : task.Lags → record.status ≠ .completed → next.status ≠ .completed)
      (kept : retained) : Written { task with answer := some reply } next
        (after.published task.run.id) hearing.text := by
    rw [wrote]
    exact answered_written dictated.listens unanswered (dictated.written kept) uncompleted reply
  by_cases committing : ∃ result, task.phase = .committing result
  · obtain ⟨result, committing⟩ := committing
    have body : task.phase.Body := committing ▸ trivial
    have open' := dictated.open' (.inr body) uncommitted
    have swift : ¬ task.Lags := not_lags_of_body body (by rw [committing]; rfl)
    refine ⟨next, present, listens _, ?_, written fun lags => (swift lags).elim, ?_⟩
    · intro _ unfinished
      cases effects with
      | early _ other => exact (other result committing).elim
      | @committed _ reply => exact (unfinished ⟨result, reply, committing, rfl⟩).elim
      | lost =>
        rw [found] at present
        cases present
        exact open'
      | cancelled suspended | failed suspended =>
        rw [committing] at suspended
        cases suspended
    · intro completed
      cases effects with
      | early _ other => exact (other result committing).elim
      | committed suspended _ asked _ settled =>
        rw [committing] at suspended
        cases suspended
        rw [settled] at present
        cases present
        have obtains : task.Obtains peers config hearing result := by
          have listens := dictated.listens
          rwa [Listens, committing] at listens
        exact ⟨result, by rw [completedRun, asked.2.2], obtains.later ⟨rfl, rfl, rfl⟩ fun _ => id⟩
      | lost =>
        rw [found] at present
        cases present
        exact (open' completed).elim
      | cancelled suspended | failed suspended =>
        rw [committing] at suspended
        cases suspended
  · have uncompleted : record.status ≠ .completed → next.status ≠ .completed := by
      refine refines.uncompleted found present ?_
      rintro request rfl
      exact committing (operation_commits asks rfl).2
    refine ⟨next, present, listens _, ?_, written fun _ => uncompleted, ?_⟩
    · intro inside _
      exact uncompleted (dictated.open' inside uncommitted)
    · intro completed
      obtain ⟨result, stored, obtains⟩ := dictated.settled continues uncompleted completed
      exact ⟨result, stored, obtains.later ⟨rfl, rfl, rfl⟩ fun _ => id⟩

end Task

/-- What a completed run was answered with, and the text in its log. -/
inductive Rendered (peers : Collaborators) (config : Config) (task : Task) (result : AgentResult)
    (published : List JsonObject) : Prop where
  | tool (name : String) (payload : JsonObject) (execution : ToolExecutionResult)
      (commands : task.Commands config name payload)
      (executes : peers.executes name payload (.ok execution)) (bare : published = [])
      (same : result = task.toolResult config name execution)
  | provider (request : ProviderRequest) (stream : List ProviderStreamEvent)
      (response : ProviderResponse) (converses : task.Converses config)
      (requested : task.request = some request)
      (completes : peers.provider.Completes request stream)
      (final : streamResponse stream = some response)
      (spoken : published = (streamText stream).map deltaPayload)
      (same : result = task.resultFromProvider config response)

theorem Task.Obtains.rendered {peers : Collaborators} {config : Config} {task : Task}
    {hearing : Hearing} {result : AgentResult} {published : List JsonObject}
    (obtains : task.Obtains peers config hearing result)
    (whole : published = hearing.text.map deltaPayload) :
    Rendered peers config task result published := by
  cases obtains with
  | tool name payload execution commands executes unheard same =>
    refine .tool name payload execution commands executes ?_ same
    rw [whole, unheard]
    rfl
  | provider response converses answers same =>
    obtain ⟨request, stream, earlier, requested, rfl, silent, completes, final⟩ := answers
    refine .provider request stream response converses requested completes final ?_ same
    rw [whole, Hearing.text_cons silent]

/-- What others do to the run of a task keeps the agreement. -/
theorem Dictated.kept {record next : AgentRun}
    (dictated : Dictated peers config retained store record task hearing)
    (continues : Continues record next)
    (uncompleted : record.status ≠ .completed → next.status ≠ .completed)
    (same : retained → after.published task.run.id = store.published task.run.id) :
    Dictated peers config retained after next task hearing where
  listens := dictated.listens
  open' inside uncommitted := uncompleted (dictated.open' inside uncommitted)
  written kept := by
    rw [same kept]
    exact (dictated.written kept).kept rfl rfl uncompleted
  completed := dictated.settled continues uncompleted

end DayuAgent
