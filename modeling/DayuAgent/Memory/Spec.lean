import DayuAgent.Memory.Edit

namespace DayuAgent

open Library

theorem validateRunTransition_ok (allowed : target ∈ allowedRunTransitions current) :
    validateRunTransition current target = .ok () := by
  simp [validateRunTransition, allowed]

def invalidTransition (current target : RunStatus) : PyException :=
  .of .invalidRunTransitionError
    [("current_status", .str current.value), ("target_status", .str target.value)]

theorem validateRunTransition_error (denied : target ∉ allowedRunTransitions current) :
    validateRunTransition current target = .error (invalidTransition current target) := by
  simp [validateRunTransition, denied, invalidTransition]

def storeErrorClasses : List ErrorClass :=
  [.sessionError, .sessionNotFoundError, .sessionBusyError, .runNotFoundError,
   .invalidRunTransitionError, .idempotencyConflictError, .cancellationUnavailableError]

/-- A domain error of one of the classes that the store raises on purpose. -/
def PyException.FromStore (error : PyException) : Prop :=
  ∃ domain, error = .domain domain ∧ domain.cls ∈ storeErrorClasses

theorem PyException.FromStore.of (details : JsonObject) (listed : cls ∈ storeErrorClasses) :
    (PyException.of cls details).FromStore := ⟨_, rfl, listed⟩

namespace InMemorySessionStore

variable {store : InMemorySessionStore}

theorem item_ok (dict : InMemorySessionStore → Dict String Value)
    (found : (dict store).get? key = some value) : item dict key store = (.ok value, store) := by
  simp [item, Command.bind_apply, found]

def sessionNotFound (sessionId : String) : PyException :=
  .of .sessionNotFoundError [("session_id", .str sessionId)]

def runNotFound (runId : String) : PyException :=
  .of .runNotFoundError [("run_id", .str runId)]

theorem sessionLocked_ok (found : store.sessions.get? sessionId = some record) :
    sessionLocked sessionId store = (.ok record, store) := by
  simp [sessionLocked, Command.bind_apply, found]

theorem sessionLocked_missing (absent : store.sessions.get? sessionId = none) :
    sessionLocked sessionId store = (.error (sessionNotFound sessionId), store) := by
  simp [sessionLocked, Command.bind_apply, absent, sessionNotFound]

theorem runLocked_ok (found : store.runs.get? ref = some run) :
    runLocked ref store = (.ok run, store) := by
  simp [runLocked, Command.bind_apply, found]

theorem runLocked_missing (absent : store.runs.get? ref = none) :
    runLocked ref store = (.error (runNotFound ref), store) := by
  simp [runLocked, Command.bind_apply, absent, runNotFound]

theorem appendEventLocked_ok (read : store.events.get? ref = some log) :
    appendEventLocked ref type payload eventId now store =
      (.ok (nextEvent log ref type payload eventId now),
        withLog store ref (log ++ [nextEvent log ref type payload eventId now])) := by
  simp [appendEventLocked, Command.bind_apply, item_ok events read, nextEvent, withLog]

/-- Store a changed run and publish one event about it. -/
theorem putRun_publish (read : store.events.get? ref = some log) (updated : AgentRun)
    (type : StreamEventType) (payload : JsonObject) (eventId : String) (now : Time)
    (value : Value) :
    (do putRun ref updated
        let _ ← appendEventLocked ref type payload eventId now
        return value : StoreM Value) store =
      (.ok value, withLog (withUpdate store ref updated) ref
        (log ++ [nextEvent log ref type payload eventId now])) := by
  have read' : (withUpdate store ref updated).events.get? ref = some log := read
  simp only [putRun, Command.bind_apply, Command.write_apply, Command.pure_apply]
  rw [← withUpdate, appendEventLocked_ok read']

theorem createSession_cases (store : InMemorySessionStore) (metadata : Option JsonObject)
    (sessionId userId : Option String) (ambient : Ambient) :
    (∃ existing error, PyException.FromStore error ∧
      store.sessions.get? (chosenId sessionId (ambient.uuid4 0)) = some existing ∧
      createSession metadata sessionId userId ambient store = (.error error, store)) ∨
    (∃ record : SessionRecord, record.id = chosenId sessionId (ambient.uuid4 0) ∧
      record.version = 1 ∧ store.sessions.get? record.id = none ∧
      createSession metadata sessionId userId ambient store =
        (.ok record, withSession store record)) := by
  simp only [createSession, Command.bind_apply, Command.read_apply]
  cases found : store.sessions.get? (chosenId sessionId (ambient.uuid4 0)) with
  | some existing =>
    exact .inl ⟨existing, _, ⟨_, rfl, by simp [storeErrorClasses]⟩, rfl, rfl⟩
  | none => exact .inr ⟨_, rfl, rfl, found, rfl⟩

theorem getSession_cases (store : InMemorySessionStore) (sessionId : String) :
    (store.sessions.get? sessionId = none ∧
      getSession sessionId store = (.error (sessionNotFound sessionId), store)) ∨
    (∃ record, store.sessions.get? sessionId = some record ∧
      getSession sessionId store = (.ok record, store)) := by
  cases found : store.sessions.get? sessionId with
  | none => exact .inl ⟨rfl, sessionLocked_missing found⟩
  | some record => exact .inr ⟨record, rfl, sessionLocked_ok found⟩

theorem getRun_cases (store : InMemorySessionStore) (ref : String) :
    (store.runs.get? ref = none ∧ getRun ref store = (.error (runNotFound ref), store)) ∨
    (∃ run, store.runs.get? ref = some run ∧ getRun ref store = (.ok run, store)) := by
  cases found : store.runs.get? ref with
  | none => exact .inl ⟨rfl, runLocked_missing found⟩
  | some run => exact .inr ⟨run, rfl, runLocked_ok found⟩

/-- The message that a successful `append_message` stores. -/
def appendedMessage (sessionId : String) (role : MessageRole) (content : String)
    (metadata : Option JsonObject) (history : List AgentMessage) (ambient : Ambient) :
    AgentMessage :=
  { id := ambient.uuid4 0, sessionId := some sessionId, runId := none, role, content
    sequence := history.length + 1, committed := true, metadata := metadata.getD []
    createdAt := ambient.utcNow 0 }

theorem appendMessage_cases (coherent : Coherent store) (sessionId : String) (role : MessageRole)
    (content : String) (metadata : Option JsonObject) (ambient : Ambient) :
    (store.sessions.get? sessionId = none ∧
      appendMessage sessionId role content metadata ambient store =
        (.error (sessionNotFound sessionId), store)) ∨
    (∃ active, activeRunLocked store sessionId = some active ∧
      appendMessage sessionId role content metadata ambient store =
        (.error (sessionBusy sessionId active), store)) ∨
    (∃ record history, store.sessions.get? sessionId = some record ∧ record.id = sessionId ∧
      store.messages.get? sessionId = some history ∧ activeRunLocked store sessionId = none ∧
      appendMessage sessionId role content metadata ambient store =
        (.ok (appendedMessage sessionId role content metadata history ambient),
          withTranscript store record
            (history ++ [appendedMessage sessionId role content metadata history ambient])
            (ambient.utcNow 1))) := by
  simp only [appendMessage, Command.bind_apply, Command.read_apply]
  cases found : store.sessions.get? sessionId with
  | none => exact .inl ⟨rfl, by rw [sessionLocked_missing found]⟩
  | some record =>
    rw [sessionLocked_ok found]
    cases chosen : activeRunLocked store sessionId with
    | some active => exact .inr (.inl ⟨active, rfl, by simp [chosen]⟩)
    | none =>
      obtain ⟨history, read⟩ := coherent.transcriptOf found
      have same := coherent.sessionId found
      subst same
      refine .inr (.inr ⟨record, history, rfl, rfl, read, rfl, ?_⟩)
      simp only [chosen, Command.bind_apply, item_ok messages read, Command.write_apply,
        Command.pure_apply]
      rfl

theorem listMessages_ok (found : store.sessions.get? sessionId = some record)
    (read : store.messages.get? sessionId = some history) :
    listMessages sessionId store = (.ok history, store) := by
  rw [listMessages, Command.bind_apply, sessionLocked_ok found]
  exact item_ok messages read

theorem listMessages_cases (coherent : Coherent store) (sessionId : String) :
    (store.sessions.get? sessionId = none ∧
      listMessages sessionId store = (.error (sessionNotFound sessionId), store)) ∨
    (∃ record history, store.sessions.get? sessionId = some record ∧
      store.messages.get? sessionId = some history ∧
      listMessages sessionId store = (.ok history, store)) := by
  cases found : store.sessions.get? sessionId with
  | none =>
    refine .inl ⟨rfl, ?_⟩
    rw [listMessages, Command.bind_apply, sessionLocked_missing found]
  | some record =>
    obtain ⟨history, read⟩ := coherent.transcriptOf found
    exact .inr ⟨record, history, rfl, read, listMessages_ok found read⟩

theorem clearSession_cases (coherent : Coherent store) (sessionId : String) (ambient : Ambient) :
    (store.sessions.get? sessionId = none ∧
      clearSession sessionId ambient store = (.error (sessionNotFound sessionId), store)) ∨
    (∃ active, activeRunLocked store sessionId = some active ∧
      clearSession sessionId ambient store = (.error (sessionBusy sessionId active), store)) ∨
    (∃ record, store.sessions.get? sessionId = some record ∧ record.id = sessionId ∧
      activeRunLocked store sessionId = none ∧
      clearSession sessionId ambient store =
        (.ok (), withTranscript store record [] (ambient.utcNow 0))) := by
  simp only [clearSession, Command.bind_apply, Command.read_apply]
  cases found : store.sessions.get? sessionId with
  | none => exact .inl ⟨rfl, by rw [sessionLocked_missing found]⟩
  | some record =>
    rw [sessionLocked_ok found]
    cases chosen : activeRunLocked store sessionId with
    | some active => exact .inr (.inl ⟨active, rfl, by simp [chosen]⟩)
    | none =>
      obtain ⟨history, read⟩ := coherent.transcriptOf found
      have same := coherent.sessionId found
      subst same
      refine .inr (.inr ⟨record, rfl, rfl, rfl, ?_⟩)
      simp only [chosen, Command.bind_apply, item_ok messages read, Command.write_apply]
      rfl

def idempotencyConflict (request : ReserveRunRequest) (existing : AgentRun) : PyException :=
  .of .idempotencyConflictError
    [("idempotency_key", .ofOption .str request.idempotencyKey), ("run_id", .str existing.id)]

/-- A key that is already bound decides the reservation by the request hash alone. -/
theorem reserveRun_replay (coherent : Coherent store) (request : ReserveRunRequest)
    (ambient : Ambient) (keyed : request.idempotencyKey = some key)
    (bound : store.idempotency.get? key = some ref) :
    ∃ existing, store.runs.get? ref = some existing ∧ existing.idempotencyKey = some key ∧
      reserveRun request ambient store =
        (if existing.requestHash = request.requestHash
          then .ok { run := existing, ownsExecution := false }
          else .error (idempotencyConflict request existing), store) := by
  obtain ⟨existing, found, carried⟩ := coherent.bindings.mp bound
  refine ⟨existing, found, carried, ?_⟩
  have resolved : request.idempotencyKey.bind store.idempotency.get? = some ref := by
    simp [keyed, bound]
  simp only [reserveRun, replayed, Command.bind_apply, Command.read_apply, resolved,
    item_ok runs found]
  by_cases same : existing.requestHash = request.requestHash <;>
    simp [same, idempotencyConflict]

private theorem admitRun_busy (chosen : activeRunLocked store sessionId = some active) :
    admitRun request sessionId ambient store =
      (.error (sessionBusy sessionId active), store) := by
  simp [admitRun, Command.bind_apply, chosen]

private theorem admitRun_ok (store : InMemorySessionStore)
    (idle : activeRunLocked store sessionId = none) :
    admitRun request sessionId ambient store =
      (.ok { run := pendingRun request sessionId ambient, ownsExecution := true },
        withRun store (pendingRun request sessionId ambient)) := by
  simp only [admitRun, Command.bind_apply, Command.read_apply, idle, Command.write_apply]
  cases keyed : request.idempotencyKey <;>
    simp [withRun, bindKey, pendingRun, keyed, Command.bind_apply]

/-- The session a fresh key runs in, and the store once that session exists. -/
inductive Admits (store : InMemorySessionStore) (request : ReserveRunRequest)
    (ambient : Ambient) : String → InMemorySessionStore → Prop where
  | named (requested : request.sessionId = some sessionId)
      (found : store.sessions.get? sessionId = some record) :
      Admits store request ambient sessionId store
  | implicit (requested : request.sessionId = none) :
      Admits store request ambient (ambient.uuid4 0)
        (withSession store (implicitSession request ambient))

theorem reserveRun_cases (coherent : Coherent store) (request : ReserveRunRequest)
    (ambient : Ambient) (fresh : ambient.Fresh store)
    (unused : request.idempotencyKey.bind store.idempotency.get? = none) :
    (∃ sessionId, request.sessionId = some sessionId ∧
      store.sessions.get? sessionId = none ∧
      reserveRun request ambient store = (.error (sessionNotFound sessionId), store)) ∨
    (∃ sessionId active, request.sessionId = some sessionId ∧
      activeRunLocked store sessionId = some active ∧
      reserveRun request ambient store = (.error (sessionBusy sessionId active), store)) ∨
    (∃ sessionId base, Admits store request ambient sessionId base ∧
      activeRunLocked store sessionId = none ∧
      reserveRun request ambient store =
        (.ok { run := pendingRun request sessionId ambient, ownsExecution := true },
          withRun base (pendingRun request sessionId ambient))) := by
  simp only [reserveRun, Command.bind_apply, Command.read_apply, unused, reservedSession]
  cases requested : request.sessionId with
  | some sessionId =>
    cases found : store.sessions.get? sessionId with
    | none => exact .inl ⟨sessionId, rfl, found, by simp only [sessionLocked_missing found]⟩
    | some record =>
      have same := coherent.sessionId found
      subst same
      simp only [sessionLocked_ok found]
      cases chosen : activeRunLocked store record.id with
      | some active =>
        exact .inr (.inl ⟨record.id, active, rfl, chosen, admitRun_busy chosen⟩)
      | none =>
        exact .inr (.inr
          ⟨record.id, store, .named requested found, chosen, admitRun_ok store chosen⟩)
  | none =>
    -- No run can be in a session whose identifier was not in use.
    have quiet : activeRunLocked store (ambient.uuid4 0) = none := by
      rw [activeRunLocked_none_iff]
      intro ref run found same _
      have opened := coherent.runSession found
      rw [same, fresh.1] at opened
      exact absurd opened (by simp)
    exact .inr (.inr ⟨ambient.uuid4 0, _, .implicit requested, quiet,
      admitRun_ok (withSession store (implicitSession request ambient)) quiet⟩)

/-- A reservation fails, replays a stored run or admits its own. -/
theorem reserveRun_outcomes (coherent : Coherent store) (request : ReserveRunRequest)
    (ambient : Ambient) (fresh : ambient.Fresh store) :
    (∃ error, PyException.FromStore error ∧
      reserveRun request ambient store = (.error error, store)) ∨
    (∃ ref existing, store.runs.get? ref = some existing ∧
      (existing.idempotencyKey = request.idempotencyKey ∧
        existing.requestHash = request.requestHash) ∧
      reserveRun request ambient store =
        (.ok { run := existing, ownsExecution := false }, store)) ∨
    (∃ sessionId base, Admits store request ambient sessionId base ∧
      activeRunLocked store sessionId = none ∧
      request.idempotencyKey.bind store.idempotency.get? = none ∧
      reserveRun request ambient store =
        (.ok { run := pendingRun request sessionId ambient, ownsExecution := true },
          withRun base (pendingRun request sessionId ambient))) := by
  cases unused : request.idempotencyKey.bind store.idempotency.get? with
  | some ref =>
    obtain ⟨key, keyed, bound⟩ := Option.bind_eq_some_iff.mp unused
    obtain ⟨existing, found, carried, answer⟩ :=
      reserveRun_replay coherent request ambient keyed bound
    split at answer
    · next same =>
      exact .inr (.inl ⟨ref, existing, found, ⟨carried.trans keyed.symm, same⟩, answer⟩)
    · exact .inl ⟨_, .of _ (by decide), answer⟩
  | none =>
    rcases reserveRun_cases coherent request ambient fresh unused with
      ⟨_, _, _, answer⟩ | ⟨_, _, _, _, answer⟩ | ⟨sessionId, base, admits, idle, answer⟩
    · exact .inl ⟨_, .of _ (by decide), answer⟩
    · exact .inl ⟨_, .of _ (by decide), answer⟩
    · exact .inr (.inr ⟨sessionId, base, admits, idle, rfl, answer⟩)

theorem markRunRunning_cases (coherent : Coherent store) (ref workerInstanceId : String)
    (ambient : Ambient) :
    (store.runs.get? ref = none ∧
      markRunRunning ref workerInstanceId ambient store = (.error (runNotFound ref), store)) ∨
    (∃ run, store.runs.get? ref = some run ∧ run.status ≠ .pending ∧
      markRunRunning ref workerInstanceId ambient store =
        (.error (invalidTransition run.status .running), store)) ∨
    (∃ run log, store.runs.get? ref = some run ∧ run.status = .pending ∧
      store.events.get? ref = some log ∧
      markRunRunning ref workerInstanceId ambient store =
        (.ok { run with
            status := .running, startedAt := some (ambient.utcNow 0), workerInstanceId },
          withLog (withUpdate store ref { run with
              status := .running, startedAt := some (ambient.utcNow 0), workerInstanceId }) ref
            (log ++ [nextEvent log ref .runStarted (statusPayload .running)
              (ambient.uuid4 0) (ambient.utcNow 1)]))) := by
  simp only [markRunRunning, Command.bind_apply]
  cases found : store.runs.get? ref with
  | none => exact .inl ⟨rfl, by rw [runLocked_missing found]⟩
  | some run =>
    simp only [runLocked_ok found, Command.lift_apply]
    by_cases pending : run.status = .pending
    · obtain ⟨log, read⟩ := coherent.logOf found
      refine .inr (.inr ⟨run, log, rfl, pending, read, ?_⟩)
      rw [validateRunTransition_ok (by simp [pending, allowedRunTransitions])]
      exact putRun_publish read _ _ _ _ _ _
    · have denied : RunStatus.running ∉ allowedRunTransitions run.status := by
        cases status : run.status <;> simp_all [allowedRunTransitions]
      exact .inr (.inl ⟨run, rfl, pending, by rw [validateRunTransition_error denied]⟩)

theorem incrementRunAttempt_cases (store : InMemorySessionStore) (ref : String) :
    (store.runs.get? ref = none ∧
      incrementRunAttempt ref store = (.error (runNotFound ref), store)) ∨
    (∃ run, store.runs.get? ref = some run ∧ run.Terminal ∧
      incrementRunAttempt ref store = (.error (invalidTransition run.status .running), store)) ∨
    (∃ run, store.runs.get? ref = some run ∧ run.Active ∧
      incrementRunAttempt ref store =
        (.ok { run with attemptCount := run.attemptCount + 1 },
          withUpdate store ref { run with attemptCount := run.attemptCount + 1 })) := by
  simp only [incrementRunAttempt, Command.bind_apply]
  cases found : store.runs.get? ref with
  | none => exact .inl ⟨rfl, by rw [runLocked_missing found]⟩
  | some run =>
    simp only [runLocked_ok found]
    rcases active_or_terminal run.status with active | terminal
    · refine .inr (.inr ⟨run, rfl, active, ?_⟩)
      cases status : run.status <;>
        simp_all [activeRunStatuses, validateRunTransition, allowedRunTransitions, putRun,
          Command.bind_apply, withUpdate]
    · refine .inr (.inl ⟨run, rfl, terminal, ?_⟩)
      have notRunning : run.status ≠ .running := by
        intro running
        simp [running, terminalRunStatuses] at terminal
      rw [if_pos notRunning]
      exact Command.bind_error (by
        rw [Command.lift_apply, validateRunTransition_error (terminal_no_transition terminal _)])

theorem appendStreamEvent_cases (coherent : Coherent store) (ref : String)
    (type : StreamEventType) (payload : JsonObject) (ambient : Ambient) :
    (store.runs.get? ref = none ∧
      appendStreamEvent ref type payload ambient store = (.error (runNotFound ref), store)) ∨
    (∃ run log, store.runs.get? ref = some run ∧ store.events.get? ref = some log ∧
      appendStreamEvent ref type payload ambient store =
        (.ok (nextEvent log ref type payload (ambient.uuid4 0) (ambient.utcNow 0)),
          withLog store ref
            (log ++ [nextEvent log ref type payload (ambient.uuid4 0) (ambient.utcNow 0)]))) := by
  simp only [appendStreamEvent, Command.bind_apply]
  cases found : store.runs.get? ref with
  | none => exact .inl ⟨rfl, by rw [runLocked_missing found]⟩
  | some run =>
    obtain ⟨log, read⟩ := coherent.logOf found
    exact .inr ⟨run, log, rfl, read, by rw [runLocked_ok found]; exact appendEventLocked_ok read⟩

theorem listStreamEvents_ok (found : store.runs.get? ref = some run)
    (read : store.events.get? ref = some log) (afterSequence : Nat) :
    listStreamEvents ref afterSequence store =
      (.ok (log.filter fun event => afterSequence < event.sequence), store) := by
  simp only [listStreamEvents, Command.bind_apply, runLocked_ok found, item_ok events read,
    Command.pure_apply]

theorem listStreamEvents_cases (coherent : Coherent store) (ref : String) (afterSequence : Nat) :
    (store.runs.get? ref = none ∧
      listStreamEvents ref afterSequence store = (.error (runNotFound ref), store)) ∨
    (∃ run log, store.runs.get? ref = some run ∧ store.events.get? ref = some log ∧
      listStreamEvents ref afterSequence store =
        (.ok (log.filter fun event => afterSequence < event.sequence), store)) := by
  cases found : store.runs.get? ref with
  | none =>
    exact .inl ⟨rfl, by rw [listStreamEvents, Command.bind_apply, runLocked_missing found]⟩
  | some run =>
    obtain ⟨log, read⟩ := coherent.logOf found
    exact .inr ⟨run, log, rfl, read, listStreamEvents_ok found read afterSequence⟩

theorem commitRunSuccess_cases (coherent : Coherent store) (ref : String)
    (request : CommitRunRequest) (ambient : Ambient) :
    (store.runs.get? ref = none ∧
      commitRunSuccess ref request ambient store = (.error (runNotFound ref), store)) ∨
    (∃ run, store.runs.get? ref = some run ∧ run.status ≠ .running ∧
      commitRunSuccess ref request ambient store =
        (.error (invalidTransition run.status .completed), store)) ∨
    (∃ run record history log, store.runs.get? ref = some run ∧ run.id = ref ∧
      run.status = .running ∧ store.sessions.get? record.id = some record ∧
      run.sessionId = record.id ∧ store.messages.get? record.id = some history ∧
      store.events.get? ref = some log ∧
      commitRunSuccess ref request ambient store =
        (.ok (completedRun run request (ambient.utcNow 2)),
          withTurn store run record history log request ambient)) := by
  simp only [commitRunSuccess, Command.bind_apply]
  cases found : store.runs.get? ref with
  | none => exact .inl ⟨rfl, by rw [runLocked_missing found]⟩
  | some run =>
    simp only [runLocked_ok found, Command.lift_apply]
    by_cases running : run.status = .running
    · obtain ⟨record, opened⟩ := Option.isSome_iff_exists.mp (coherent.runSession found)
      have own := coherent.sessionId opened
      obtain ⟨history, transcript⟩ := coherent.transcriptOf opened
      obtain ⟨log, read⟩ := coherent.logOf found
      have same := coherent.runId found
      subst same
      refine .inr (.inr ⟨run, record, history, log, rfl, rfl, running, own ▸ opened, own.symm,
        own ▸ transcript, read, ?_⟩)
      rw [validateRunTransition_ok (by simp [running, allowedRunTransitions])]
      simp only [sessionLocked_ok opened, item_ok messages transcript,
        Command.write_apply, withTurn]
      have read' : (withTranscript store record
          (history ++ turnMessages run request (history.length + 1) ambient)
          (ambient.utcNow 2)).events.get? run.id = some log := read
      have published := putRun_publish read' (completedRun run request (ambient.utcNow 2))
        .responseCompleted [("result", .obj request.result.modelDump)] (ambient.uuid4 2)
        (ambient.utcNow 3) (completedRun run request (ambient.utcNow 2))
      simp only [withTranscript, own] at published ⊢
      exact published
    · have denied : RunStatus.completed ∉ allowedRunTransitions run.status := by
        cases status : run.status <;> simp_all [allowedRunTransitions]
      exact .inr (.inl ⟨run, rfl, running, by rw [validateRunTransition_error denied]⟩)

theorem failRun_active (found : store.runs.get? ref = some run)
    (read : store.events.get? ref = some log) (active : run.Active) (errorCode : String)
    (ambient : Ambient) :
    failRun ref errorCode ambient store =
      (.ok { run with
          status := .failed, completedAt := some (ambient.utcNow 0), errorCode := some errorCode },
        withLog (withUpdate store ref { run with
            status := .failed, completedAt := some (ambient.utcNow 0)
            errorCode := some errorCode }) ref
          (log ++ [nextEvent log ref .runFailed
            (statusPayload .failed ++ [("error_code", .str errorCode)])
            (ambient.uuid4 0) (ambient.utcNow 1)])) := by
  have open' : ¬ run.Terminal := fun terminal => (not_active_iff_terminal _).mpr terminal active
  simp only [failRun, Command.bind_apply, runLocked_ok found]
  rw [if_neg open']
  simp only [Command.bind_apply, Command.lift_apply]
  rw [validateRunTransition_ok (Move.fail active (ambient.utcNow 0) errorCode).allowed]
  exact putRun_publish read _ _ _ _ _ _

theorem failRun_cases (coherent : Coherent store) (ref errorCode : String) (ambient : Ambient) :
    (store.runs.get? ref = none ∧
      failRun ref errorCode ambient store = (.error (runNotFound ref), store)) ∨
    (∃ run, store.runs.get? ref = some run ∧ run.Terminal ∧
      failRun ref errorCode ambient store = (.ok run, store)) ∨
    (∃ run updated log payload, store.runs.get? ref = some run ∧ run.Active ∧
      store.events.get? ref = some log ∧ Move run updated .runFailed payload ∧
      updated.errorCode = some errorCode ∧
      failRun ref errorCode ambient store =
        (.ok updated, withLog (withUpdate store ref updated) ref
          (log ++
            [nextEvent log ref .runFailed payload (ambient.uuid4 0) (ambient.utcNow 1)]))) := by
  simp only [failRun, Command.bind_apply]
  cases found : store.runs.get? ref with
  | none => exact .inl ⟨rfl, by rw [runLocked_missing found]⟩
  | some run =>
    by_cases terminal : run.Terminal
    · exact .inr (.inl ⟨run, rfl, terminal, by simp [runLocked_ok found, terminal]⟩)
    · have active : run.Active := (active_or_terminal run.status).resolve_right terminal
      obtain ⟨log, read⟩ := coherent.logOf found
      exact .inr (.inr ⟨run, _, log, _, rfl, active, read,
        .fail active (ambient.utcNow 0) errorCode, rfl,
        failRun_active found read active errorCode ambient⟩)

theorem cancelRun_active (found : store.runs.get? ref = some run)
    (read : store.events.get? ref = some log) (active : run.Active)
    (own : run.workerInstanceId = workerInstanceId) (ambient : Ambient) :
    cancelRun ref workerInstanceId ambient store =
      (.ok { run := { run with status := .cancelled, completedAt := some (ambient.utcNow 0) }
             disposition := .cancelled },
        withLog (withUpdate store ref { run with
            status := .cancelled, completedAt := some (ambient.utcNow 0) }) ref
          (log ++ [nextEvent log ref .runCancelled (statusPayload .cancelled)
            (ambient.uuid4 0) (ambient.utcNow 1)])) := by
  have open' : ¬ run.Terminal := fun terminal => (not_active_iff_terminal _).mpr terminal active
  have notCancelled : run.status ≠ .cancelled := by
    intro cancelled
    simp [AgentRun.Terminal, cancelled, terminalRunStatuses] at open'
  simp only [cancelRun, Command.bind_apply, runLocked_ok found]
  rw [if_neg notCancelled, if_neg open', if_neg (by simpa using own)]
  simp only [Command.bind_apply, Command.lift_apply]
  rw [validateRunTransition_ok (Move.cancel active (ambient.utcNow 0)).allowed]
  exact putRun_publish read _ _ _ _ _ _

theorem cancelRun_cases (coherent : Coherent store) (ref workerInstanceId : String)
    (ambient : Ambient) :
    (store.runs.get? ref = none ∧
      cancelRun ref workerInstanceId ambient store = (.error (runNotFound ref), store)) ∨
    (∃ run, store.runs.get? ref = some run ∧ run.Terminal ∧
      cancelRun ref workerInstanceId ambient store =
        (.ok { run, disposition :=
            if run.status = .cancelled then .alreadyCancelled else .alreadyTerminal }, store)) ∨
    (∃ run, store.runs.get? ref = some run ∧ run.Active ∧
      run.workerInstanceId ≠ workerInstanceId ∧
      cancelRun ref workerInstanceId ambient store =
        (.error (.of .cancellationUnavailableError [("run_id", .str run.id),
          ("worker_instance_id", .str run.workerInstanceId)]), store)) ∨
    (∃ run updated log payload, store.runs.get? ref = some run ∧ run.Active ∧
      run.workerInstanceId = workerInstanceId ∧ store.events.get? ref = some log ∧
      Move run updated .runCancelled payload ∧
      cancelRun ref workerInstanceId ambient store =
        (.ok { run := updated, disposition := .cancelled },
          withLog (withUpdate store ref updated) ref (log ++ [nextEvent log ref .runCancelled
            payload (ambient.uuid4 0) (ambient.utcNow 1)]))) := by
  simp only [cancelRun, Command.bind_apply]
  cases found : store.runs.get? ref with
  | none => exact .inl ⟨rfl, by rw [runLocked_missing found]⟩
  | some run =>
    simp only [runLocked_ok found]
    by_cases terminal : run.Terminal
    · refine .inr (.inl ⟨run, rfl, terminal, ?_⟩)
      by_cases cancelled : run.status = .cancelled <;> simp [cancelled, terminal]
    · have active : run.Active := (active_or_terminal run.status).resolve_right terminal
      by_cases own : run.workerInstanceId = workerInstanceId
      · obtain ⟨log, read⟩ := coherent.logOf found
        have answer := cancelRun_active found read active own ambient
        simp only [cancelRun, Command.bind_apply, runLocked_ok found] at answer
        exact .inr (.inr (.inr ⟨run, _, log, _, rfl, active, own, read,
          .cancel active (ambient.utcNow 0), answer⟩))
      · have notCancelled : run.status ≠ .cancelled := by
          intro cancelled
          simp [AgentRun.Terminal, cancelled, terminalRunStatuses] at terminal
        rw [if_neg notCancelled, if_neg terminal]
        exact .inr (.inr (.inl ⟨run, rfl, active, own, by simp [own]⟩))

end InMemorySessionStore

end DayuAgent
