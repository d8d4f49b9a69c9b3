import DayuAgent.Memory.Sweep

namespace DayuAgent

open Library

/-- Operations that look something up. -/
def Operation.Reads : Operation → Prop
  | .ping | .getSession _ | .listMessages _ | .getRun _ | .listStreamEvents .. => True
  | _ => False

/-- The effects that an operation with a given reply has made. -/
inductive Makes : Operation → Except PyException Reply → List Effect → Prop where
  | raised (error : PyException) (expected : error.FromStore) : Makes operation (.error error) []
  | read (reads : operation.Reads) (reply : Reply) : Makes operation (.ok reply) []
  | initialized : Makes .initializeStore (.ok .unit) [.readied true]
  | closed : Makes .close (.ok .unit) [.readied false]
  | opened (record : SessionRecord) :
      Makes (.createSession metadata sessionId userId) (.ok (.session record)) [.opened record.id]
  | said (message : AgentMessage) (speaker : message.role = role)
      (text : message.content = content) :
      Makes (.appendMessage sessionId role content metadata) (.ok (.message message))
        [.said sessionId message]
  | cleared : Makes (.clearSession sessionId) (.ok .unit) [.cleared sessionId]
  | replayed (run : AgentRun) (key : run.idempotencyKey = request.idempotencyKey)
      (same : run.requestHash = request.requestHash) :
      Makes (.reserveRun request) (.ok (.reservation { run, ownsExecution := false })) []
  | reserved (run : AgentRun) (key : run.idempotencyKey = request.idempotencyKey)
      (worker : run.workerInstanceId = request.workerInstanceId)
      (opening : request.sessionId.isSome ∧ openings = [] ∨
        request.sessionId = none ∧ openings = [.opened run.sessionId])
      (same : run.requestHash = request.requestHash) (pending : run.status = .pending) :
      Makes (.reserveRun request) (.ok (.reservation { run, ownsExecution := true }))
        (openings ++ [.reserved run])
  | started (own : run.id = ref) (running : run.status = .running)
      (worker : run.workerInstanceId = workerInstanceId) (event : StreamEvent) :
      Makes (.markRunRunning ref workerInstanceId) (.ok (.run run)) [.moved ref run event]
  | attempted (own : run.id = ref) :
      Makes (.incrementRunAttempt ref) (.ok (.run run)) [.attempted ref]
  | emitted (event : StreamEvent) (same : event.type = type) (carries : event.payload = payload) :
      Makes (.appendStreamEvent ref type payload) (.ok (.event event)) [.emitted ref event]
  | committed (run : AgentRun) (own : run.id = ref) (status : run.status = .completed) :
      Makes (.commitRunSuccess ref request) (.ok (.run run)) [.committed ref request]
  | failed (own : run.id = ref) (status : run.status = .failed)
      (code : run.errorCode = some errorCode) (event : StreamEvent) :
      Makes (.failRun ref errorCode) (.ok (.run run)) [.moved ref run event]
  | settled (own : run.id = ref) (terminal : run.Terminal) :
      Makes (.failRun ref errorCode) (.ok (.run run)) []
  | cancelled (own : run.id = ref) (status : run.status = .cancelled) (event : StreamEvent) :
      Makes (.cancelRun ref workerInstanceId) (.ok (.cancel { run, disposition := .cancelled }))
        [.moved ref run event]
  | declined (own : run.id = ref) (terminal : run.Terminal)
      (late : disposition ≠ .cancelled) :
      Makes (.cancelRun ref workerInstanceId) (.ok (.cancel { run, disposition })) []
  | interrupted (runs : List AgentRun) (own : ∀ run ∈ runs, run.workerInstanceId = workerInstanceId)
      (each : List.Forall₂ Effect.Interrupts runs effects) :
      Makes (.interruptWorkerRuns workerInstanceId) (.ok (.count runs.length)) effects
  | reconciled (runs : List AgentRun)
      (foreign : ∀ run ∈ runs, run.workerInstanceId ≠ workerInstanceId)
      (each : List.Forall₂ Effect.Interrupts runs effects) :
      Makes (.reconcileOrphanedRuns workerInstanceId) (.ok (.count runs.length)) effects
  | pruned (count : Nat) (effects : List Effect)
      (each : ∀ effect ∈ effects, ∃ ref, effect = .pruned ref before) :
      Makes (.pruneStreamEvents before) (.ok (.count count)) effects

/-- Operations that may change the status of a run without completing it. -/
def Operation.Moves (ref : String) : Operation → Prop
  | .markRunRunning own _ | .failRun own _ | .cancelRun own _ => own = ref
  | .interruptWorkerRuns _ | .reconcileOrphanedRuns _ => True
  | _ => False

/-- The operations whose calls have such an effect. -/
def Effect.ComesFrom (operation : Operation) : Effect → Prop
  | .readied flag => operation = if flag then .initializeStore else .close
  | .opened _ =>
    (∃ metadata sessionId userId, operation = .createSession metadata sessionId userId) ∨
      ∃ request, operation = .reserveRun request
  | .said sessionId _ => ∃ role content metadata,
      operation = .appendMessage sessionId role content metadata
  | .cleared sessionId => operation = .clearSession sessionId
  | .reserved _ => ∃ request, operation = .reserveRun request
  | .attempted ref => operation = .incrementRunAttempt ref
  | .emitted ref event => ∃ payload, operation = .appendStreamEvent ref event.type payload
  | .moved ref _ _ => operation.Moves ref
  | .committed ref request => operation = .commitRunSuccess ref request
  | .pruned _ before => operation = .pruneStreamEvents before

theorem Makes.origin (makes : Makes operation reply effects) (member : effect ∈ effects) :
    effect.ComesFrom operation := by
  cases makes with
  | raised | read | replayed | settled | declined => cases member
  | opened record =>
    cases List.mem_singleton.mp member
    exact .inl ⟨_, _, _, rfl⟩
  | said message =>
    cases List.mem_singleton.mp member
    exact ⟨_, _, _, rfl⟩
  | initialized | closed | cleared | started | attempted | committed | failed | cancelled =>
    cases List.mem_singleton.mp member
    rfl
  | reserved run key worker opening =>
    rcases List.mem_append.mp member with opened | own
    · rcases opening with ⟨_, rfl⟩ | ⟨_, rfl⟩
      · cases opened
      · cases List.mem_singleton.mp opened
        exact .inr ⟨_, rfl⟩
    · cases List.mem_singleton.mp own
      exact ⟨_, rfl⟩
  | emitted event same =>
    subst same
    cases List.mem_singleton.mp member
    exact ⟨_, rfl⟩
  | interrupted runs _ each | reconciled runs _ each =>
    obtain ⟨run, _, _, _, rfl⟩ := interrupts_mem each member
    trivial
  | pruned count effects each =>
    obtain ⟨ref, rfl⟩ := each effect member
    rfl

/-- Only a reservation that owns its run admits it, and does so last. -/
theorem makes_reserved (makes : Makes operation reply effects) (member : .reserved run ∈ effects) :
    ∃ request openings, operation = .reserveRun request ∧
      run.idempotencyKey = request.idempotencyKey ∧
      run.workerInstanceId = request.workerInstanceId ∧
      reply = .ok (.reservation { run, ownsExecution := true }) ∧
      effects = openings ++ [.reserved run] ∧ ∀ other, .reserved other ∉ openings := by
  obtain ⟨request, rfl⟩ := makes.origin member
  cases makes with
  | raised | replayed => cases member
  | @reserved openings _ own carried worker opening =>
    have same : run = own := by
      rcases opening with ⟨_, rfl⟩ | ⟨_, rfl⟩ <;> simpa using member
    subst same
    refine ⟨request, openings, rfl, carried, worker, rfl, rfl, ?_⟩
    rcases opening with ⟨_, rfl⟩ | ⟨_, rfl⟩ <;> simp
  | read reads => exact reads.elim

namespace InMemorySessionStore

variable {store after : InMemorySessionStore}

/-- A call makes a run of edits of its operation's kind. -/
def Refines (store : InMemorySessionStore) (operation : Operation)
    (reply : Except PyException Reply) (after : InMemorySessionStore) : Prop :=
  ∃ effects, Run Edit store effects after ∧ Makes operation reply effects

theorem Refines.error (operation : Operation) {error : PyException} (expected : error.FromStore) :
    Refines store operation (.error error) store := ⟨[], .nil, .raised error expected⟩

theorem Refines.errorOf (operation : Operation) (details : JsonObject)
    (listed : cls ∈ storeErrorClasses) : Refines store operation (.error (.of cls details)) store :=
  .error operation (.of details listed)

theorem Refines.silent (makes : Makes operation reply []) :
    Refines store operation reply store := ⟨[], .nil, makes⟩

theorem Refines.one (edit : Edit store effect after) (makes : Makes operation reply [effect]) :
    Refines store operation reply after := ⟨[effect], .single edit, makes⟩

/-- Wrapping the value of a method into a reply changes nothing else. -/
theorem wrap_apply (method : StoreM Value) (wrap : Value → Reply) (store : InMemorySessionStore) :
    (do return wrap (← method) : StoreM Reply) store =
      ((method store).1.map wrap, (method store).2) := by
  rw [Command.bind_apply]
  split <;> simp_all [Except.map]

section Operations

variable (ambient : Ambient)

theorem createSession_refines (metadata : Option JsonObject) (sessionId userId : Option String)
    (answered : (Operation.createSession metadata sessionId userId).perform ambient store =
      (reply, after)) :
    Refines store (.createSession metadata sessionId userId) reply after := by
  rcases createSession_cases store metadata sessionId userId ambient with
    ⟨_, _, expected, _, answer⟩ | ⟨record, _, first, absent, answer⟩ <;>
  rw [Operation.perform, wrap_apply, answer] at answered <;>
  cases answered
  · exact .error _ expected
  · exact .one (.openSession record absent first) (.opened record)

theorem appendMessage_refines (coherent : Coherent store) (sessionId : String)
    (role : MessageRole) (content : String) (metadata : Option JsonObject)
    (answered : (Operation.appendMessage sessionId role content metadata).perform ambient store =
      (reply, after)) :
    Refines store (.appendMessage sessionId role content metadata) reply after := by
  rcases appendMessage_cases coherent sessionId role content metadata ambient with
    ⟨_, answer⟩ | ⟨active, _, answer⟩ | ⟨record, history, found, rfl, read, idle, answer⟩ <;>
  rw [Operation.perform, wrap_apply, answer] at answered <;>
  cases answered
  · exact .errorOf _ _ (by decide)
  · exact .errorOf _ _ (by decide)
  · exact .one (.say found read idle rfl rfl _) (.said _ rfl rfl)

theorem clearSession_refines (coherent : Coherent store) (sessionId : String)
    (answered : (Operation.clearSession sessionId).perform ambient store = (reply, after)) :
    Refines store (.clearSession sessionId) reply after := by
  rcases clearSession_cases coherent sessionId ambient with
    ⟨_, answer⟩ | ⟨active, _, answer⟩ | ⟨record, found, rfl, idle, answer⟩ <;>
  rw [Operation.perform, wrap_apply _ (fun _ => .unit), answer] at answered <;>
  cases answered
  · exact .errorOf _ _ (by decide)
  · exact .errorOf _ _ (by decide)
  · exact .one (.clear found idle _) .cleared

variable {ambient}

private theorem Admits.found (admits : Admits store request ambient sessionId base) :
    ∃ record, base.sessions.get? sessionId = some record := by
  cases admits with
  | named _ found => exact ⟨_, found⟩
  | implicit => exact ⟨_, Dict.get?_set_self _ _ _⟩

/-- Opening the implicit session touches neither runs nor keys. -/
theorem Admits.frame (admits : Admits store request ambient sessionId base) :
    base.runs = store.runs ∧ base.events = store.events ∧
      base.idempotency = store.idempotency := by
  cases admits <;> exact ⟨rfl, rfl, rfl⟩

private theorem Admits.opens (admits : Admits store request ambient sessionId base)
    (fresh : ambient.Fresh store) :
    ∃ openings, Run Edit store openings base ∧
      (request.sessionId.isSome ∧ openings = [] ∨
        request.sessionId = none ∧ openings = [.opened sessionId]) := by
  cases admits with
  | named requested => exact ⟨[], .nil, .inl ⟨by rw [requested]; rfl, rfl⟩⟩
  | implicit requested =>
    exact ⟨_, .single (.openSession _ fresh.1 rfl), .inr ⟨requested, rfl⟩⟩

private theorem activeRunLocked_congr (same : after.runs = store.runs) (sessionId : String) :
    activeRunLocked after sessionId = activeRunLocked store sessionId := by
  simp only [activeRunLocked, same]

private theorem Admits.reserve (admits : Admits store request ambient sessionId base)
    (fresh : ambient.Fresh store) (idle : activeRunLocked store sessionId = none)
    (unused : request.idempotencyKey.bind store.idempotency.get? = none) :
    Edit base (.reserved (pendingRun request sessionId ambient))
      (withRun base (pendingRun request sessionId ambient)) := by
  obtain ⟨record, found⟩ := admits.found
  obtain ⟨sameRuns, _, sameKeys⟩ := admits.frame
  exact .reserve request sessionId ambient found (by rw [sameRuns]; exact fresh.2)
    (by rw [activeRunLocked_congr sameRuns]; exact idle) (by rw [sameKeys]; exact unused)

theorem reserveRun_refines (coherent : Coherent store) (request : ReserveRunRequest)
    (fresh : ambient.Fresh store)
    (answered : (Operation.reserveRun request).perform ambient store = (reply, after)) :
    Refines store (.reserveRun request) reply after := by
  rcases reserveRun_outcomes coherent request ambient fresh with
    ⟨_, expected, answer⟩ | ⟨_, existing, _, ⟨key, same⟩, answer⟩ |
    ⟨sessionId, base, admits, idle, unused, answer⟩ <;>
  rw [Operation.perform, wrap_apply, answer] at answered <;>
  cases answered
  · exact .error _ expected
  · exact ⟨[], .nil, .replayed existing key same⟩
  · obtain ⟨openings, opened, kind⟩ := admits.opens fresh
    exact ⟨_, opened.snoc (admits.reserve fresh idle unused), .reserved _ rfl rfl kind rfl rfl⟩

variable (ambient)

theorem markRunRunning_refines (coherent : Coherent store) (ref workerInstanceId : String)
    (answered : (Operation.markRunRunning ref workerInstanceId).perform ambient store =
      (reply, after)) :
    Refines store (.markRunRunning ref workerInstanceId) reply after := by
  rcases markRunRunning_cases coherent ref workerInstanceId ambient with
    ⟨_, answer⟩ | ⟨run, _, _, answer⟩ | ⟨run, log, found, pending, read, answer⟩ <;>
  rw [Operation.perform, wrap_apply, answer] at answered <;>
  cases answered
  · exact .errorOf _ _ (by decide)
  · exact .errorOf _ _ (by decide)
  · have same := coherent.runId found
    subst same
    refine .one (.move found read (.start pending _ _) _ _) ?_
    apply Makes.started <;> rfl

theorem incrementRunAttempt_refines (coherent : Coherent store) (ref : String)
    (answered : (Operation.incrementRunAttempt ref).perform ambient store = (reply, after)) :
    Refines store (.incrementRunAttempt ref) reply after := by
  rcases incrementRunAttempt_cases store ref with
    ⟨_, answer⟩ | ⟨run, _, _, answer⟩ | ⟨run, found, active, answer⟩ <;>
  rw [Operation.perform, wrap_apply, answer] at answered <;>
  cases answered
  · exact .errorOf _ _ (by decide)
  · exact .errorOf _ _ (by decide)
  · have same := coherent.runId found
    subst same
    exact .one (.attempt found active) (.attempted rfl)

theorem appendStreamEvent_refines (coherent : Coherent store) (ref : String)
    (type : StreamEventType) (payload : JsonObject)
    (answered : (Operation.appendStreamEvent ref type payload).perform ambient store =
      (reply, after)) :
    Refines store (.appendStreamEvent ref type payload) reply after := by
  rcases appendStreamEvent_cases coherent ref type payload ambient with
    ⟨_, answer⟩ | ⟨run, log, found, read, answer⟩ <;>
  rw [Operation.perform, wrap_apply, answer] at answered <;>
  cases answered
  · exact .errorOf _ _ (by decide)
  · have same := coherent.runId found
    subst same
    exact .one (.emit found read _ _ _ _) (.emitted _ rfl rfl)

theorem commitRunSuccess_refines (coherent : Coherent store) (ref : String)
    (request : CommitRunRequest)
    (answered : (Operation.commitRunSuccess ref request).perform ambient store = (reply, after)) :
    Refines store (.commitRunSuccess ref request) reply after := by
  rcases commitRunSuccess_cases coherent ref request ambient with
    ⟨_, answer⟩ | ⟨run, _, _, answer⟩ |
    ⟨run, record, history, log, found, rfl, running, session, own, transcript, read, answer⟩ <;>
  rw [Operation.perform, wrap_apply, answer] at answered <;>
  cases answered
  · exact .errorOf _ _ (by decide)
  · exact .errorOf _ _ (by decide)
  · exact .one (.commit found running session own transcript read _ _) (.committed _ rfl rfl)

theorem failRun_refines (coherent : Coherent store) (ref errorCode : String)
    (answered : (Operation.failRun ref errorCode).perform ambient store = (reply, after)) :
    Refines store (.failRun ref errorCode) reply after := by
  rcases failRun_cases coherent ref errorCode ambient with
    ⟨_, answer⟩ | ⟨run, found, terminal, answer⟩ |
    ⟨run, updated, log, payload, found, _, read, move, code, answer⟩ <;>
  rw [Operation.perform, wrap_apply, answer] at answered <;>
  cases answered
  · exact .errorOf _ _ (by decide)
  · exact .silent (.settled (coherent.runId found) terminal)
  · have same := coherent.runId found
    subst same
    have status : updated.status = .failed := by cases move; rfl
    exact .one (.move found read move _ _) (.failed move.same.1 status code _)

theorem cancelRun_refines (coherent : Coherent store) (ref workerInstanceId : String)
    (answered : (Operation.cancelRun ref workerInstanceId).perform ambient store =
      (reply, after)) :
    Refines store (.cancelRun ref workerInstanceId) reply after := by
  rcases cancelRun_cases coherent ref workerInstanceId ambient with
    ⟨_, answer⟩ | ⟨run, found, terminal, answer⟩ | ⟨run, _, _, _, answer⟩ |
    ⟨run, updated, log, payload, found, _, _, read, move, answer⟩ <;>
  rw [Operation.perform, wrap_apply, answer] at answered <;>
  cases answered
  · exact .errorOf _ _ (by decide)
  · exact .silent (.declined (coherent.runId found) terminal (by split <;> simp))
  · exact .errorOf _ _ (by decide)
  · have same := coherent.runId found
    subst same
    have status : updated.status = .cancelled := by cases move; rfl
    exact .one (.move found read move _ _) (.cancelled move.same.1 status _)

/-- A sweep interrupts the runs that it has selected. -/
theorem interruptMatching_refines (coherent : Coherent store) (selected : AgentRun → Bool)
    (makes : ∀ runs effects, (∀ run ∈ runs, selected run = true) →
      List.Forall₂ Effect.Interrupts runs effects →
        Makes operation (.ok (.count runs.length)) effects)
    (answered : (do return .count (← interruptMatching selected ambient) : StoreM Reply) store =
      (reply, after)) : Refines store operation reply after := by
  obtain ⟨swept, answer, summary⟩ := interruptMatching_ok coherent selected ambient
  obtain ⟨effects, edits, each⟩ := summary.edits
  rw [wrap_apply, answer] at answered
  cases answered
  refine ⟨effects, edits, makes _ _ (fun run member => ?_) each⟩
  exact ((mem_matchingRuns coherent selected run).mp member).2.2

theorem interruptWorkerRuns_refines (coherent : Coherent store) (selected : AgentRun → Bool)
    (own : ∀ run, selected run = true → run.workerInstanceId = workerInstanceId)
    (answered : (do return .count (← interruptMatching selected ambient) : StoreM Reply) store =
      (reply, after)) : Refines store (.interruptWorkerRuns workerInstanceId) reply after :=
  interruptMatching_refines ambient coherent selected
    (fun runs _ chosen each =>
      .interrupted runs (fun run member => own run (chosen run member)) each)
    answered

theorem reconcileOrphanedRuns_refines (coherent : Coherent store) (selected : AgentRun → Bool)
    (foreign : ∀ run, selected run = true → run.workerInstanceId ≠ workerInstanceId)
    (answered : (do return .count (← interruptMatching selected ambient) : StoreM Reply) store =
      (reply, after)) : Refines store (.reconcileOrphanedRuns workerInstanceId) reply after :=
  interruptMatching_refines ambient coherent selected
    (fun runs _ chosen each =>
      .reconciled runs (fun run member => foreign run (chosen run member)) each) answered

private theorem pruneStreamEvents_refines (coherent : Coherent store) (before : Time)
    (answered : (Operation.pruneStreamEvents before).perform ambient store = (reply, after)) :
    Refines store (.pruneStreamEvents before) reply after := by
  obtain ⟨removed, swept, answer, summary⟩ := pruneStreamEvents_ok coherent before
  obtain ⟨effects, edits, each⟩ := summary.edits
  rw [Operation.perform, wrap_apply, answer] at answered
  cases answered
  exact ⟨effects, edits, .pruned _ _ each⟩

/-- The lookups change nothing, whatever they answer. -/
theorem lookup_refines {method : StoreM Value} (wrap : Value → Reply) (reads : operation.Reads)
    (looks : (∃ value, method store = (.ok value, store)) ∨
      ∃ error, PyException.FromStore error ∧ method store = (.error error, store))
    (answered : (do return wrap (← method) : StoreM Reply) store = (reply, after)) :
    Refines store operation reply after := by
  rcases looks with ⟨value, found⟩ | ⟨error, expected, missed⟩
  · rw [wrap_apply, found] at answered
    cases answered
    exact .silent (.read reads _)
  · rw [wrap_apply, missed] at answered
    cases answered
    exact .error _ expected

end Operations

end InMemorySessionStore

open InMemorySessionStore

theorem Operation.perform_refines (operation : Operation) (coherent : Coherent store)
    (fresh : ambient.Fresh store)
    (answered : operation.perform ambient store = (reply, after)) :
    Refines store operation reply after := by
  cases operation with
  | initializeStore =>
    cases answered
    exact .one (.ready true) .initialized
  | close =>
    cases answered
    exact .one (.ready false) .closed
  | ping =>
    cases answered
    exact .silent (@Makes.read .ping trivial _)
  | createSession metadata sessionId userId => exact createSession_refines ambient _ _ _ answered
  | getSession sessionId =>
    refine lookup_refines .session trivial ?_ answered
    rcases getSession_cases store sessionId with ⟨_, missed⟩ | ⟨_, _, found⟩
    · exact .inr ⟨_, .of _ (by decide), missed⟩
    · exact .inl ⟨_, found⟩
  | appendMessage sessionId role content metadata =>
    exact appendMessage_refines ambient coherent _ _ _ _ answered
  | listMessages sessionId =>
    refine lookup_refines .messages trivial ?_ answered
    rcases listMessages_cases coherent sessionId with ⟨_, missed⟩ | ⟨_, _, _, _, found⟩
    · exact .inr ⟨_, .of _ (by decide), missed⟩
    · exact .inl ⟨_, found⟩
  | clearSession sessionId => exact clearSession_refines ambient coherent _ answered
  | reserveRun request => exact reserveRun_refines coherent request fresh answered
  | getRun ref =>
    refine lookup_refines .run trivial ?_ answered
    rcases getRun_cases store ref with ⟨_, missed⟩ | ⟨_, _, found⟩
    · exact .inr ⟨_, .of _ (by decide), missed⟩
    · exact .inl ⟨_, found⟩
  | markRunRunning ref workerInstanceId =>
    exact markRunRunning_refines ambient coherent _ _ answered
  | incrementRunAttempt ref => exact incrementRunAttempt_refines ambient coherent _ answered
  | appendStreamEvent ref type payload =>
    exact appendStreamEvent_refines ambient coherent _ _ _ answered
  | listStreamEvents ref afterSequence =>
    refine lookup_refines .events trivial ?_ answered
    rcases listStreamEvents_cases coherent ref afterSequence with
      ⟨_, missed⟩ | ⟨_, _, _, _, found⟩
    · exact .inr ⟨_, .of _ (by decide), missed⟩
    · exact .inl ⟨_, found⟩
  | commitRunSuccess ref request => exact commitRunSuccess_refines ambient coherent _ _ answered
  | failRun ref errorCode => exact failRun_refines ambient coherent _ _ answered
  | cancelRun ref workerInstanceId => exact cancelRun_refines ambient coherent _ _ answered
  | interruptWorkerRuns workerInstanceId =>
    exact interruptWorkerRuns_refines ambient coherent _ (fun run => of_decide_eq_true) answered
  | reconcileOrphanedRuns workerInstanceId =>
    exact reconcileOrphanedRuns_refines ambient coherent _ (fun run => of_decide_eq_true) answered
  | pruneStreamEvents before => exact pruneStreamEvents_refines ambient coherent _ answered

theorem Operation.performed_refines (operation : Operation) (coherent : Coherent store)
    (fresh : ambient.Fresh store) :
    Refines store operation (operation.perform ambient store).1
      (operation.perform ambient store).2 := operation.perform_refines coherent fresh rfl

namespace InMemorySessionStore

variable {store after : InMemorySessionStore}

theorem Answers.refines (answers : Answers store call after) (coherent : Coherent store) :
    Refines store call.operation call.reply after :=
  call.operation.perform_refines coherent answers.1 answers.2

theorem edits_coherent (edits : Run Edit store effects after) (coherent : Coherent store) :
    Coherent after := edits.invariant coherent fun before edit => edit.coherent before

theorem Answers.coherent (answers : Answers store call after) (before : Coherent store) :
    Coherent after := by
  obtain ⟨effects, edits, _⟩ := answers.refines before
  exact edits_coherent edits before

theorem History.coherent (history : History store calls after) (before : Coherent store) :
    Coherent after :=
  history.invariant before fun earlier answers => Answers.coherent answers earlier

theorem Reachable.coherent (reachable : Reachable store) : Coherent store := by
  obtain ⟨calls, history⟩ := reachable
  exact History.coherent history empty_coherent

/-- The effects of a sequence of calls, in order. -/
inductive Traces : List Call → List Effect → Prop where
  | nil : Traces [] []
  | snoc (earlier : Traces calls effects) (makes : Makes call.operation call.reply latest) :
      Traces (calls ++ [call]) (effects ++ latest)

/-- A history of calls is a run of edits. -/
theorem History.traces (history : History store calls after) (coherent : Coherent store) :
    ∃ effects, Run Edit store effects after ∧ Traces calls effects := by
  induction history with
  | nil => exact ⟨[], .nil, .nil⟩
  | snoc earlier answers ih =>
    obtain ⟨effects, edits, traces⟩ := ih
    obtain ⟨latest, more, makes⟩ := Answers.refines answers (edits_coherent edits coherent)
    exact ⟨effects ++ latest, edits.append more, .snoc traces makes⟩

/-- A call that raises makes no edit. -/
theorem Refines.atomic {raised : PyException}
    (refines : Refines store operation (.error raised) after) :
    raised.FromStore ∧ after = store := by
  obtain ⟨effects, edits, makes⟩ := refines
  cases makes with
  | raised _ expected => exact ⟨expected, edits.of_nil.symm⟩

/-- On a reachable store every operation succeeds or raises an error of the store contract and
leaves the store as it was; no dictionary access of it misses. -/
theorem store_errors_atomic (reachable : Reachable store) (fresh : ambient.Fresh store)
    (operation : Operation) :
    (∀ error, (operation.perform ambient store).1 = .error error →
      error.FromStore ∧ (operation.perform ambient store).2 = store) ∧
    ∀ key, (operation.perform ambient store).1 ≠ .error (.keyError key) := by
  have refines := operation.performed_refines reachable.coherent fresh
  refine ⟨fun error failed => ?_, fun key missed => ?_⟩
  · rw [failed] at refines
    exact refines.atomic
  · rw [missed] at refines
    obtain ⟨⟨domain, same, _⟩, _⟩ := refines.atomic
    contradiction

/-- A second turn is turned away while the first one is pending. -/
theorem store_errors_atomic_busy : ∃ error,
    ((Operation.reserveRun (.sample (some "lake") none "hash")).perform (.sample "x" "other")
      (execute empty (sampleTurn.take 2)).2).1 = .error error ∧ error.FromStore := by
  have reachable : Reachable (execute empty (sampleTurn.take 2)).2 :=
    ⟨_, execute_history (sampleTurn.take 2) empty (by decide)⟩
  have fresh : (Ambient.sample "x" "other").Fresh (execute empty (sampleTurn.take 2)).2 := by decide
  exact ⟨_, rfl, ((store_errors_atomic reachable fresh
    (.reserveRun (.sample (some "lake") none "hash"))).1 _ rfl).1⟩

end InMemorySessionStore

end DayuAgent
