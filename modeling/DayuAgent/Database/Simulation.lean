import Mathlib.Logic.Equiv.Basic
import DayuAgent.Database.Mirror
import DayuAgent.Memory.Transcript

namespace DayuAgent

open Library InMemorySessionStore
open SQLAlchemyRuntimeStore (maxSequence followingEvent lockedRun_found
  lockedSession_found lockedSession_missing activeRun_run nextMessageSequence)

/-- The same answer up to the renaming: equal error codes, or equal replies. The database is
available, so its ping says so. -/
inductive Alike (names : Renaming) :
    Except PyException Reply → Except PyException Reply → Prop where
  | raised (same : first.errorCode = second.errorCode) :
      Alike names (.error (.domain first)) (.error (.domain second))
  | answered (reply : Reply) : Alike names (.ok reply) (.ok (reply.rename names))
  | pinged (ready : Bool) : Alike names (.ok (.flag ready)) (.ok (.flag true))

/-- Two calls that answer alike and leave mirrored stores. -/
structure Matches (names : Renaming) (first : Except PyException Reply × InMemorySessionStore)
    (second : Except PyException Reply × Database) : Prop where
  alike : Alike names first.1 second.1
  mirrors : Mirrors names first.2 second.2

theorem maxSequence_range (count : Nat) : maxSequence (List.range' 1 count) = count := by
  induction count with
  | zero => rfl
  | succ count ih =>
    rw [maxSequence] at ih
    rw [List.range'_concat, maxSequence, List.foldl_append, ih]
    simp only [List.foldl_cons, List.foldl_nil]
    omega

variable {names : Renaming} {store after : InMemorySessionStore} {database written : Database}
  {ambient : Ambient}

namespace Matches

theorem committed {call : LockingCall}
    (ran : call.ending (ambient.rename names) database =
      .committed (reply.rename names) written)
    (mirrors : Mirrors names after written) :
    Matches names (.ok reply, after) (call.perform (ambient.rename names) database) := by
  have performed : call.perform (ambient.rename names) database =
      (.ok (reply.rename names), written) := by simp only [LockingCall.perform, ran]
  rw [performed]
  exact ⟨.answered reply, mirrors⟩

theorem failed {call : LockingCall} {cls : ErrorClass} {first second : JsonObject}
    (ran : call.ending (ambient.rename names) database = .failed (.of cls second))
    (mirrors : Mirrors names store database) :
    Matches names (.error (.of cls first), store)
      (call.perform (ambient.rename names) database) := by
  have performed : call.perform (ambient.rename names) database =
      (.error (.of cls second), database) := by simp only [LockingCall.perform, ran]
  rw [performed]
  exact ⟨.raised rfl, mirrors⟩

theorem unchanged {cls : ErrorClass} {first second : JsonObject}
    (mirrors : Mirrors names store database) :
    Matches names (.error (.of cls first), store) (.error (.of cls second), database) :=
  ⟨.raised rfl, mirrors⟩

end Matches

private theorem numbered_sorted {transcript : List AgentMessage} (numbered : Numbered transcript) :
    transcript.Pairwise fun first second => first.sequence < second.sequence := by
  have sorted : (transcript.map (·.sequence)).Pairwise (· < ·) := by
    rw [numbered]
    exact List.pairwise_lt_range'
  exact List.pairwise_map.mp sorted

section Lookups

variable (mirrors : Mirrors names store database)

include mirrors

theorem getSession_matches (sessionId : String) :
    Matches names ((Operation.getSession sessionId).perform ambient store)
      (SQLAlchemyRuntimeStore.perform (ambient.rename names) database
        ((Operation.getSession sessionId).rename names)) := by
  have row := mirrors.sessionRow sessionId
  rcases getSession_cases store sessionId with ⟨absent, answer⟩ | ⟨record, found, answer⟩
  · rw [absent, Option.map_none] at row
    simp only [Operation.perform, Command.bind_apply, answer, Operation.rename,
      SQLAlchemyRuntimeStore.perform, SQLAlchemyRuntimeStore.getSession, row]
    exact .unchanged mirrors
  · rw [found, Option.map_some] at row
    simp only [Operation.perform, Command.bind_apply, answer, Operation.rename,
      SQLAlchemyRuntimeStore.perform, SQLAlchemyRuntimeStore.getSession, row]
    exact ⟨.answered (.session record), mirrors⟩

theorem getRun_matches (ref : String) :
    Matches names ((Operation.getRun ref).perform ambient store)
      (SQLAlchemyRuntimeStore.perform (ambient.rename names) database
        ((Operation.getRun ref).rename names)) := by
  have row := mirrors.runRow ref
  rcases getRun_cases store ref with ⟨absent, answer⟩ | ⟨run, found, answer⟩
  · rw [absent, Option.map_none] at row
    simp only [Operation.perform, Command.bind_apply, answer, Operation.rename,
      SQLAlchemyRuntimeStore.perform, SQLAlchemyRuntimeStore.getRun, row]
    exact .unchanged mirrors
  · rw [found, Option.map_some] at row
    simp only [Operation.perform, Command.bind_apply, answer, Operation.rename,
      SQLAlchemyRuntimeStore.perform, SQLAlchemyRuntimeStore.getRun, row]
    exact ⟨.answered (.run run), mirrors⟩

/-- The committed rows of a session in the order of their numbers are its transcript. -/
theorem listed_messages (read : store.messages.get? sessionId = some history)
    (numbered : Numbered history) :
    (database.messages.filter fun message =>
        message.sessionId = some (names sessionId) ∧ message.committed).mergeSort
          (fun first second => first.sequence ≤ second.sequence) =
      history.map (·.rename names) := by
  have kept := mirrors.transcripts sessionId
  rw [read, Option.getD_some] at kept
  have visible : (database.messages.filter fun message =>
      message.sessionId = some (names sessionId) ∧ message.committed) =
        database.transcript (names sessionId) := by
    apply List.filter_congr
    intro message member
    simp [mirrors.committed message member]
  rw [visible, kept]
  apply List.mergeSort_of_pairwise
  apply List.pairwise_map.mpr
  exact (numbered_sorted numbered).imp fun less => decide_eq_true (Nat.le_of_lt less)

theorem listMessages_matches (coherent : Coherent store) (sessionId : String)
    (numbered : ∀ history, store.messages.get? sessionId = some history → Numbered history) :
    Matches names ((Operation.listMessages sessionId).perform ambient store)
      (SQLAlchemyRuntimeStore.perform (ambient.rename names) database
        ((Operation.listMessages sessionId).rename names)) := by
  have row := mirrors.sessionRow sessionId
  rcases listMessages_cases coherent sessionId with
    ⟨absent, answer⟩ | ⟨record, history, found, read, answer⟩
  · rw [absent, Option.map_none] at row
    simp only [Operation.perform, Command.bind_apply, answer, Operation.rename,
      SQLAlchemyRuntimeStore.perform, SQLAlchemyRuntimeStore.listMessages, row]
    exact .unchanged mirrors
  · rw [found, Option.map_some] at row
    simp only [Operation.perform, Command.bind_apply, answer, Operation.rename,
      SQLAlchemyRuntimeStore.perform, SQLAlchemyRuntimeStore.listMessages, row,
      listed_messages mirrors read (numbered history read)]
    exact ⟨.answered (.messages history), mirrors⟩

/-- The rows of a run after a cursor in the order of their numbers. -/
theorem listed_events (read : store.events.get? ref = some log)
    (ascending : log.Pairwise fun first second => first.sequence < second.sequence)
    (afterSequence : Nat) :
    (database.events.filter fun event =>
        event.runId = names ref ∧ afterSequence < event.sequence).mergeSort
          (fun first second => first.sequence ≤ second.sequence) =
      (log.filter fun event => afterSequence < event.sequence).map (·.rename names) := by
  have kept := mirrors.logs ref
  rw [eventLog, read, Option.getD_some] at kept
  have visible : (database.events.filter fun event =>
      event.runId = names ref ∧ afterSequence < event.sequence) =
        (database.eventLog (names ref)).filter fun event => afterSequence < event.sequence := by
    rw [Database.eventLog, List.filter_filter]
    apply List.filter_congr
    intro event _
    simp [and_comm]
  rw [visible, kept, List.filter_map]
  apply List.mergeSort_of_pairwise
  apply List.pairwise_map.mpr
  exact (ascending.sublist List.filter_sublist).imp fun less => decide_eq_true (Nat.le_of_lt less)

theorem listStreamEvents_matches (coherent : Coherent store) (counted : Logged Counted store)
    (ref : String) (afterSequence : Nat) :
    Matches names ((Operation.listStreamEvents ref afterSequence).perform ambient store)
      (SQLAlchemyRuntimeStore.perform (ambient.rename names) database
        ((Operation.listStreamEvents ref afterSequence).rename names)) := by
  have row := mirrors.runRow ref
  rcases listStreamEvents_cases coherent ref afterSequence with
    ⟨absent, answer⟩ | ⟨run, log, found, read, answer⟩
  · rw [absent, Option.map_none] at row
    simp only [Operation.perform, Command.bind_apply, answer, Operation.rename,
      SQLAlchemyRuntimeStore.perform, SQLAlchemyRuntimeStore.listStreamEvents, row]
    exact .unchanged mirrors
  · rw [found, Option.map_some] at row
    simp only [Operation.perform, Command.bind_apply, answer, Operation.rename,
      SQLAlchemyRuntimeStore.perform, SQLAlchemyRuntimeStore.listStreamEvents, row,
      listed_events mirrors read (counted.agrees found read).ascending afterSequence]
    exact ⟨.answered (.events (log.filter fun event => afterSequence < event.sequence)), mirrors⟩

end Lookups

section Runs

/-- The event that the other store appends to a whole log. -/
theorem Mirrors.following (mirrors : Mirrors names store database)
    (read : store.events.get? ref = some log)
    (whole : log.map (·.sequence) = List.range' 1 log.length) (type : StreamEventType)
    (payload : JsonObject) (id : String) (now : Time) :
    followingEvent database (names ref) type payload (names id) now =
      (nextEvent log ref type payload id now).rename names := by
  have kept := mirrors.logs ref
  rw [eventLog, read, Option.getD_some] at kept
  have numbers : (log.map (·.rename names)).map (·.sequence) = log.map (·.sequence) := by
    rw [List.map_map]
    rfl
  rw [followingEvent, kept, numbers, whole, maxSequence_range]
  rfl

end Runs

/-- A run that publishes one event about its change, in either store. -/
theorem Mirrors.published (mirrors : Mirrors names store database)
    (counted : Logged Counted store) (found : store.runs.get? ref = some run)
    (read : store.events.get? ref = some log) (active : run.Active) (updated : AgentRun)
    (same : updated.id = ref) (type : StreamEventType) (payload : JsonObject) (id : String)
    (now : Time) (committed : Database) :
    ∃ written, (SQLAlchemyRuntimeStore.publishRun (updated.rename names) type payload (names id)
        now).run committed database = .committed (updated.rename names) written ∧
      Mirrors names (withLog (withUpdate store ref updated) ref
        (log ++ [nextEvent log ref type payload id now])) written := by
  have following := mirrors.following read ((counted.agrees found read).whole active) type payload
    id now
  refine ⟨_, SQLAlchemyRuntimeStore.publishRun_run _ _ _ _ _, ?_⟩
  rw [AgentRun.rename_id, same, following]
  have found' : (withUpdate store ref updated).runs.get? ref = some updated :=
    Dict.get?_set_self _ _ _
  exact (mirrors.update same).publish found' read rfl

section Lifecycle

variable (mirrors : Mirrors names store database) (coherent : Coherent store)
  (counted : Logged Counted store)

include mirrors coherent

theorem incrementRunAttempt_matches (ref : String) :
    Matches names ((Operation.incrementRunAttempt ref).perform ambient store)
      (SQLAlchemyRuntimeStore.perform (ambient.rename names) database
        ((Operation.incrementRunAttempt ref).rename names)) := by
  have row := mirrors.runRow ref
  rcases incrementRunAttempt_cases store ref with
    ⟨absent, answer⟩ | ⟨run, found, terminal, answer⟩ | ⟨run, found, active, answer⟩
  · rw [absent, Option.map_none] at row
    simp only [Operation.perform, Command.bind_apply, answer]
    exact .failed (LockingCall.ending_unknown _ rfl row) mirrors
  · rw [found, Option.map_some] at row
    simp only [Operation.perform, Command.bind_apply, answer]
    exact .failed (incrementRunAttempt_refused _ row terminal) mirrors
  · rw [found, Option.map_some] at row
    have ran := incrementRunAttempt_counted (ambient.rename names) row active
    simp only [Operation.perform, Command.bind_apply, answer]
    exact .committed ran (mirrors.update (coherent.runId found :))

include counted

theorem markRunRunning_matches (ref workerInstanceId : String) :
    Matches names ((Operation.markRunRunning ref workerInstanceId).perform ambient store)
      (SQLAlchemyRuntimeStore.perform (ambient.rename names) database
        ((Operation.markRunRunning ref workerInstanceId).rename names)) := by
  have row := mirrors.runRow ref
  rcases markRunRunning_cases coherent ref workerInstanceId ambient with
    ⟨absent, answer⟩ | ⟨run, found, moved, answer⟩ | ⟨run, log, found, pending, read, answer⟩
  · rw [absent, Option.map_none] at row
    simp only [Operation.perform, Command.bind_apply, answer]
    exact .failed (LockingCall.ending_unknown _ rfl row) mirrors
  · rw [found, Option.map_some] at row
    have denied : RunStatus.running ∉ allowedRunTransitions run.status := by
      cases status : run.status <;> simp_all [allowedRunTransitions]
    have ran : (LockingCall.markRunRunning (names ref) workerInstanceId).ending
        (ambient.rename names) database =
          .failed (invalidTransition run.status .running) := by
      simp only [LockingCall.ending, LockingCall.transaction,
        SQLAlchemyRuntimeStore.markRunRunning, Txn.run_bind,
        Ending.andThen_committed (lockedRun_found row), AgentRun.rename_status,
        validateRunTransition_error denied, Ending.andThen_failed (Txn.run_raise _ _ _)]
      rfl
    simp only [Operation.perform, Command.bind_apply, answer]
    exact .failed ran mirrors
  · rw [found, Option.map_some] at row
    have active : run.Active := by simp [AgentRun.Active, pending, activeRunStatuses]
    have allowed : RunStatus.running ∈ allowedRunTransitions run.status := by
      simp [pending, allowedRunTransitions]
    obtain ⟨written, wrote, next⟩ := mirrors.published counted found read active
      { run with status := .running, startedAt := some (ambient.utcNow 0), workerInstanceId }
      (coherent.runId found :) .runStarted (statusPayload .running) (ambient.uuid4 0)
      (ambient.utcNow 1) database
    have ran : (LockingCall.markRunRunning (names ref) workerInstanceId).ending
        (ambient.rename names) database = .committed (Reply.rename names (.run { run with
          status := .running, startedAt := some (ambient.utcNow 0)
          workerInstanceId })) written := by
      simp only [LockingCall.ending, LockingCall.transaction,
        SQLAlchemyRuntimeStore.markRunRunning, Txn.run_bind,
        Ending.andThen_committed (lockedRun_found row), AgentRun.rename_status,
        validateRunTransition_ok allowed, Ending.andThen_committed (Txn.run_lift _ _ _)]
      exact Ending.andThen_committed wrote _
    simp only [Operation.perform, Command.bind_apply, answer]
    exact .committed ran next

theorem appendStreamEvent_matches (ref : String) (type : StreamEventType) (payload : JsonObject)
    (prompt : Prompt store (.appendStreamEvent ref type payload)) :
    Matches names ((Operation.appendStreamEvent ref type payload).perform ambient store)
      (SQLAlchemyRuntimeStore.perform (ambient.rename names) database
        ((Operation.appendStreamEvent ref type payload).rename names)) := by
  have row := mirrors.runRow ref
  rcases appendStreamEvent_cases coherent ref type payload ambient with
    ⟨absent, answer⟩ | ⟨run, log, found, read, answer⟩
  · rw [absent, Option.map_none] at row
    simp only [Operation.perform, Command.bind_apply, answer]
    exact .failed (LockingCall.ending_unknown _ rfl row) mirrors
  · rw [found, Option.map_some] at row
    have active : run.Active :=
      (active_or_terminal run.status).resolve_right (prompt ref rfl run found)
    have following := mirrors.following read ((counted.agrees found read).whole active) type
      payload (ambient.uuid4 0) (ambient.utcNow 0)
    have own : (run.rename names).id = names ref := congrArg names (coherent.runId found)
    have ran : (LockingCall.appendStreamEvent (names ref) type payload).ending
        (ambient.rename names) database = .committed (Reply.rename names (.event
          (nextEvent log ref type payload (ambient.uuid4 0) (ambient.utcNow 0))))
          (database.apply (.event ((nextEvent log ref type payload (ambient.uuid4 0)
            (ambient.utcNow 0)).rename names))) := by
      simp only [LockingCall.ending, LockingCall.transaction,
        SQLAlchemyRuntimeStore.appendStreamEvent, Txn.run_bind,
        Ending.andThen_committed (lockedRun_found row),
        Ending.andThen_committed (SQLAlchemyRuntimeStore.appendEvent_run _ _ _ _ _), own]
      exact congrArg (fun event => Ending.committed (Reply.event event)
        (database.apply (.event event))) following
    simp only [Operation.perform, Command.bind_apply, answer]
    exact .committed ran (mirrors.publish found read rfl)

theorem failRun_matches (ref errorCode : String) :
    Matches names ((Operation.failRun ref errorCode).perform ambient store)
      (SQLAlchemyRuntimeStore.perform (ambient.rename names) database
        ((Operation.failRun ref errorCode).rename names)) := by
  have row := mirrors.runRow ref
  rcases failRun_cases coherent ref errorCode ambient with ⟨absent, answer⟩ |
    ⟨run, found, terminal, answer⟩ | ⟨run, _, log, _, found, active, read, _⟩
  · rw [absent, Option.map_none] at row
    simp only [Operation.perform, Command.bind_apply, answer]
    exact .failed (LockingCall.ending_unknown _ rfl row) mirrors
  · rw [found, Option.map_some] at row
    have ran : (LockingCall.failRun (names ref) errorCode).ending
        (ambient.rename names) database = .committed (Reply.rename names (.run run)) database := by
      simp only [LockingCall.ending, LockingCall.transaction,
        SQLAlchemyRuntimeStore.failRun, Txn.run_bind,
        Ending.andThen_committed (lockedRun_found row), AgentRun.rename_terminal, if_pos terminal]
      rfl
    simp only [Operation.perform, Command.bind_apply, answer]
    exact .committed ran mirrors
  · rw [found, Option.map_some] at row
    have open' : ¬ run.Terminal := fun terminal => (not_active_iff_terminal _).mpr terminal active
    obtain ⟨written, wrote, next⟩ := mirrors.published counted found read active
      { run with
        status := .failed, completedAt := some (ambient.utcNow 0), errorCode := some errorCode }
      (coherent.runId found :) .runFailed
      (statusPayload .failed ++ [("error_code", .str errorCode)]) (ambient.uuid4 0)
      (ambient.utcNow 1) database
    have ran : (LockingCall.failRun (names ref) errorCode).ending
        (ambient.rename names) database = .committed (Reply.rename names (.run { run with
          status := .failed, completedAt := some (ambient.utcNow 0)
          errorCode := some errorCode })) written := by
      simp only [LockingCall.ending, LockingCall.transaction,
        SQLAlchemyRuntimeStore.failRun, Txn.run_bind,
        Ending.andThen_committed (lockedRun_found row), AgentRun.rename_terminal, if_neg open',
        AgentRun.rename_status,
        validateRunTransition_ok (Move.fail active (ambient.utcNow 0) errorCode).allowed,
        Ending.andThen_committed (Txn.run_lift _ _ _)]
      exact Ending.andThen_committed wrote _
    simp only [Operation.perform, Command.bind_apply,
      failRun_active found read active errorCode ambient]
    exact .committed ran next

theorem cancelRun_matches (ref workerInstanceId : String) :
    Matches names ((Operation.cancelRun ref workerInstanceId).perform ambient store)
      (SQLAlchemyRuntimeStore.perform (ambient.rename names) database
        ((Operation.cancelRun ref workerInstanceId).rename names)) := by
  have row := mirrors.runRow ref
  rcases cancelRun_cases coherent ref workerInstanceId ambient with ⟨absent, answer⟩ |
    ⟨run, found, terminal, answer⟩ | ⟨run, found, active, foreign, answer⟩ |
    ⟨run, _, log, _, found, active, own, read, _⟩
  · rw [absent, Option.map_none] at row
    simp only [Operation.perform, Command.bind_apply, answer]
    exact .failed (LockingCall.ending_unknown _ rfl row) mirrors
  · rw [found, Option.map_some] at row
    have ran : (LockingCall.cancelRun (names ref) workerInstanceId).ending
        (ambient.rename names) database = .committed (Reply.rename names (.cancel
          { run := run
            disposition :=
              if run.status = .cancelled then .alreadyCancelled else .alreadyTerminal }))
          database := by
      simp only [LockingCall.ending, LockingCall.transaction,
        SQLAlchemyRuntimeStore.cancelRun, Txn.run_bind,
        Ending.andThen_committed (lockedRun_found row), AgentRun.rename_terminal,
        AgentRun.rename_status]
      by_cases cancelled : run.status = .cancelled
      · simp only [if_pos cancelled]
        rfl
      · simp only [if_neg cancelled, if_pos terminal]
        rfl
    simp only [Operation.perform, Command.bind_apply, answer]
    exact .committed ran mirrors
  all_goals
    rw [found, Option.map_some] at row
    have open' : ¬ run.Terminal := fun terminal => (not_active_iff_terminal _).mpr terminal active
    have uncancelled : run.status ≠ .cancelled := by
      intro cancelled
      simp [AgentRun.Terminal, cancelled, terminalRunStatuses] at open'
  · have ran : (LockingCall.cancelRun (names ref) workerInstanceId).ending
        (ambient.rename names) database = .failed (.of .cancellationUnavailableError
          [("run_id", .str (names run.id)),
            ("worker_instance_id", .str run.workerInstanceId)]) := by
      simp only [LockingCall.ending, LockingCall.transaction,
        SQLAlchemyRuntimeStore.cancelRun, Txn.run_bind,
        Ending.andThen_committed (lockedRun_found row), AgentRun.rename_terminal,
        AgentRun.rename_status, AgentRun.rename_workerInstanceId, if_neg uncancelled,
        if_neg open', ne_eq, foreign, not_false_eq_true, if_true]
      rfl
    simp only [Operation.perform, Command.bind_apply, answer]
    exact .failed ran mirrors
  · subst own
    obtain ⟨written, wrote, next⟩ := mirrors.published counted found read active
      { run with status := .cancelled, completedAt := some (ambient.utcNow 0) }
      (coherent.runId found :) .runCancelled (statusPayload .cancelled) (ambient.uuid4 0)
      (ambient.utcNow 1) database
    have ran : (LockingCall.cancelRun (names ref) run.workerInstanceId).ending
        (ambient.rename names) database = .committed (Reply.rename names (.cancel
          { run := { run with status := .cancelled, completedAt := some (ambient.utcNow 0) }
            disposition := .cancelled })) written := by
      simp only [LockingCall.ending, LockingCall.transaction,
        SQLAlchemyRuntimeStore.cancelRun, Txn.run_bind,
        Ending.andThen_committed (lockedRun_found row), AgentRun.rename_terminal,
        AgentRun.rename_status, AgentRun.rename_workerInstanceId, if_neg uncancelled,
        if_neg open', ne_eq, not_true_eq_false, if_false,
        validateRunTransition_ok (Move.cancel active (ambient.utcNow 0)).allowed,
        Ending.andThen_committed (Txn.run_lift _ _ _)]
      have answered := Ending.andThen_committed wrote fun updated =>
        Txn.run database (pure (⟨updated, .cancelled⟩ : CancelResult))
      exact Ending.andThen_committed answered _
    simp only [Operation.perform, Command.bind_apply,
      cancelRun_active found read active rfl ambient]
    exact .committed ran next

end Lifecycle

section Transcripts

variable (mirrors : Mirrors names store database) (coherent : Coherent store)

include mirrors

theorem nextSequence_run (read : store.messages.get? sessionId = some history)
    (numbered : Numbered history) (committed : Database) :
    (nextMessageSequence (names sessionId)).run committed database =
      .committed (history.length + 1) database := by
  have kept := mirrors.transcripts sessionId
  rw [read, Option.getD_some] at kept
  have numbers : (history.map (·.rename names)).map (·.sequence) = history.map (·.sequence) := by
    rw [List.map_map]
    rfl
  rw [SQLAlchemyRuntimeStore.nextMessageSequence_run, ← Database.transcript, kept, numbers,
    numbered, maxSequence_range]

include coherent

theorem createSession_matches (metadata : Option JsonObject) (sessionId userId : Option String)
    (named : ambient.uuid4 0 ≠ "") :
    Matches names ((Operation.createSession metadata sessionId userId).perform ambient store)
      (SQLAlchemyRuntimeStore.perform (ambient.rename names) database
        ((Operation.createSession metadata sessionId userId).rename names)) := by
  have chosen := chosenId_rename names sessionId (ambient.uuid4 0)
  have row := mirrors.sessionRow (chosenId sessionId (ambient.uuid4 0))
  have blank : chosenId sessionId (ambient.uuid4 0) ≠ "" := by
    cases sessionId with
    | none => exact named
    | some given =>
      by_cases empty : given = ""
      · simpa [chosenId, empty] using named
      · simp [chosenId, empty]
  cases found : store.sessions.get? (chosenId sessionId (ambient.uuid4 0)) with
  | some existing =>
    rw [found, Option.map_some] at row
    simp only [Operation.perform, createSession, Command.bind_apply, Command.read_apply, found,
      Command.raise_apply, Operation.rename, SQLAlchemyRuntimeStore.perform,
      SQLAlchemyRuntimeStore.createSession, Ambient.rename, chosen, row]
    exact ⟨.raised rfl, mirrors⟩
  | none =>
    rw [found, Option.map_none] at row
    simp only [Operation.perform, createSession, Command.bind_apply, Command.read_apply, found,
      Command.write_apply, Command.pure_apply, Operation.rename, SQLAlchemyRuntimeStore.perform,
      SQLAlchemyRuntimeStore.createSession, Ambient.rename, chosen, row]
    refine ⟨.answered (.session _), mirrors.openSession coherent
      { id := chosenId sessionId (ambient.uuid4 0), userId, status := "open"
        metadata := metadata.getD [], version := 1
        createdAt := ambient.utcNow 0, updatedAt := ambient.utcNow 1 } found blank⟩

theorem appendMessage_matches (sessionId : String) (role : MessageRole) (content : String)
    (metadata : Option JsonObject)
    (numbered : ∀ history, store.messages.get? sessionId = some history → Numbered history) :
    Matches names ((Operation.appendMessage sessionId role content metadata).perform ambient store)
      (SQLAlchemyRuntimeStore.perform (ambient.rename names) database
        ((Operation.appendMessage sessionId role content metadata).rename names)) := by
  have row := mirrors.sessionRow sessionId
  have busy := mirrors.activeRow sessionId
  rcases appendMessage_cases coherent sessionId role content metadata ambient with
    ⟨absent, answer⟩ | ⟨active, chosen, answer⟩ | ⟨record, history, found, same, read, idle, answer⟩
  · rw [absent, Option.map_none] at row
    simp only [Operation.perform, Command.bind_apply, answer]
    exact .failed (LockingCall.ending_unopened _ rfl row) mirrors
  · obtain ⟨ref, present, rfl, _⟩ := activeRunLocked_some chosen
    obtain ⟨record, found⟩ := Option.isSome_iff_exists.mp (coherent.runSession present)
    rw [found, Option.map_some] at row
    rw [chosen, Option.map_some] at busy
    simp only [Operation.perform, Command.bind_apply, answer]
    exact .failed (LockingCall.ending_busy _ rfl row busy) mirrors
  · subst same
    rw [found, Option.map_some] at row
    rw [idle, Option.map_none] at busy
    have own : ∀ message ∈ [appendedMessage record.id role content metadata history ambient],
        message.sessionId = some record.id ∧ message.committed = true := by
      intro message member
      rw [List.mem_singleton.mp member]
      exact ⟨rfl, rfl⟩
    simp only [Operation.perform, Command.bind_apply, answer]
    refine .committed ?_ (mirrors.tell found read _ own (ambient.utcNow 1))
    simp only [LockingCall.ending, LockingCall.transaction,
      SQLAlchemyRuntimeStore.appendMessage, Txn.run_bind,
      Ending.andThen_committed (lockedSession_found row),
      Ending.andThen_committed (activeRun_run _), busy,
      Ending.andThen_committed (nextSequence_run mirrors read (numbered history read) database)]
    rfl

theorem clearSession_matches (sessionId : String) :
    Matches names ((Operation.clearSession sessionId).perform ambient store)
      (SQLAlchemyRuntimeStore.perform (ambient.rename names) database
        ((Operation.clearSession sessionId).rename names)) := by
  have row := mirrors.sessionRow sessionId
  have busy := mirrors.activeRow sessionId
  rcases clearSession_cases coherent sessionId ambient with
    ⟨absent, answer⟩ | ⟨active, chosen, answer⟩ | ⟨record, found, same, idle, answer⟩
  · rw [absent, Option.map_none] at row
    simp only [Operation.perform, Command.bind_apply, answer]
    exact .failed (LockingCall.ending_unopened _ rfl row) mirrors
  · obtain ⟨ref, present, rfl, _⟩ := activeRunLocked_some chosen
    obtain ⟨record, found⟩ := Option.isSome_iff_exists.mp (coherent.runSession present)
    rw [found, Option.map_some] at row
    rw [chosen, Option.map_some] at busy
    simp only [Operation.perform, Command.bind_apply, answer]
    exact .failed (LockingCall.ending_busy _ rfl row busy) mirrors
  · subst same
    rw [found, Option.map_some] at row
    rw [idle, Option.map_none] at busy
    simp only [Operation.perform, Command.bind_apply, answer]
    refine .committed ?_ (mirrors.clear found (ambient.utcNow 0))
    simp only [LockingCall.ending, LockingCall.transaction,
      SQLAlchemyRuntimeStore.clearSession, Txn.run_bind,
      Ending.andThen_committed (lockedSession_found row),
      Ending.andThen_committed (activeRun_run _), busy]
    rfl

end Transcripts

section Reservations

variable (mirrors : Mirrors names store database) (coherent : Coherent store)

include mirrors coherent

/-- Both resolutions of a key find the same run, with or without a lock. -/
theorem idempotentRun_run (key : Option String) (lock : Bool) (committed : Database) :
    (SQLAlchemyRuntimeStore.idempotentRun key lock).run committed database = .committed
      (((key.bind store.idempotency.get?).bind store.runs.get?).map (·.rename names)) database := by
  cases key with
  | none => rfl
  | some key =>
    have found := mirrors.keyRow coherent key
    cases lock with
    | true =>
      simp only [SQLAlchemyRuntimeStore.idempotentRun, if_true, Txn.run, found, Option.bind_some]
      rfl
    | false =>
      simp only [SQLAlchemyRuntimeStore.idempotentRun, Bool.false_eq_true, if_false, Txn.run,
        found, Option.bind_some]
      rfl

/-- A key that is bound decides the reservation in both stores. -/
theorem reserveRun_replays (request : ReserveRunRequest)
    (keyed : request.idempotencyKey = some key) (bound : store.idempotency.get? key = some ref) :
    Matches names ((Operation.reserveRun request).perform ambient store)
      (SQLAlchemyRuntimeStore.perform (ambient.rename names) database
        ((Operation.reserveRun request).rename names)) := by
  obtain ⟨existing, found, carried, answer⟩ :=
    reserveRun_replay coherent request ambient keyed bound
  have resolved := idempotentRun_run mirrors coherent request.idempotencyKey true database
  rw [keyed, Option.bind_some, bound, Option.bind_some, found, Option.map_some, ← keyed] at resolved
  have resolves : (LockingCall.reserveRun (request.rename names)).ending (ambient.rename names)
      database = ((SQLAlchemyRuntimeStore.idempotentReservation (existing.rename names)
        request.requestHash).run database database).andThen fun reservation =>
          Txn.run database (pure (.reservation reservation)) := by
    simp only [LockingCall.ending, LockingCall.transaction, SQLAlchemyRuntimeStore.reserveRun,
      Txn.run_bind, ReserveRunRequest.rename, Ending.andThen_committed resolved]
  have hash : (existing.rename names).requestHash = existing.requestHash := rfl
  simp only [Operation.perform, Command.bind_apply, answer]
  by_cases same : existing.requestHash = request.requestHash
  · rw [if_pos same]
    refine .committed ?_ mirrors
    rw [resolves, SQLAlchemyRuntimeStore.idempotentReservation, hash, if_neg (not_not.mpr same)]
    rfl
  · rw [if_neg same]
    have ran : (LockingCall.reserveRun (request.rename names)).ending (ambient.rename names)
        database = .failed (.of .idempotencyConflictError
          [("idempotency_key", .ofOption .str existing.idempotencyKey),
            ("run_id", .str (names existing.id))]) := by
      rw [resolves, SQLAlchemyRuntimeStore.idempotentReservation, hash, if_pos same]
      rfl
    exact .failed ran mirrors

/-- No unique index rejects the new run. -/
theorem unconflicted {run : AgentRun} (absent : store.runs.get? run.id = none)
    (unused : run.idempotencyKey.bind store.idempotency.get? = none)
    (idle : activeRunLocked store run.sessionId = none) :
    (database.runs.values.any fun other => Conflicts (run.rename names) other) = false := by
  apply List.any_eq_false.mpr
  intro row member
  rw [mirrors.runValues] at member
  obtain ⟨other, listed, rfl⟩ := List.mem_map.mp member
  obtain ⟨ref, found⟩ := (Dict.mem_values_iff _ _).mp listed
  rw [decide_eq_true_eq]
  rintro (same | ⟨keyed, same⟩ | ⟨same, _, active⟩)
  · have own : run.id = ref := (names.injective same).trans (coherent.runId found)
    rw [own, found] at absent
    contradiction
  · obtain ⟨key, carries⟩ := Option.isSome_iff_exists.mp keyed
    have bound := coherent.bindings.mpr ⟨other, found, same.symm.trans carries⟩
    have carried : run.idempotencyKey = some key := carries
    rw [carried, Option.bind_some, bound] at unused
    contradiction
  · exact (activeRunLocked_none_iff store _).mp idle ref other found (names.injective same).symm
      active

end Reservations

section FreshKeys

variable {base : InMemorySessionStore} {view : Database} (request : ReserveRunRequest)
  (ambient : Ambient)

theorem resolvedSessionId_rename :
    SQLAlchemyRuntimeStore.resolvedSessionId (request.rename names) (ambient.rename names) =
      names (chosenId request.sessionId (ambient.uuid4 0)) :=
  chosenId_rename names request.sessionId (ambient.uuid4 0)

/-- The second lookup, the active-run check and the insert, once the session exists. -/
theorem reserveLocked_idle (mirrors : Mirrors names base view) (coherent : Coherent base)
    (resolved : chosenId request.sessionId (ambient.uuid4 0) = sessionId)
    (unused : request.idempotencyKey.bind base.idempotency.get? = none)
    (idle : activeRunLocked base sessionId = none) (committed : Database)
    (accepted : (committed.runs.values.any fun other =>
      Conflicts ((pendingRun request sessionId ambient).rename names) other) = false) :
    (SQLAlchemyRuntimeStore.reserveLocked (request.rename names) (ambient.rename names)).run
      committed view = .committed
        { run := (pendingRun request sessionId ambient).rename names, ownsExecution := true }
        (view.apply (.run ((pendingRun request sessionId ambient).rename names))) := by
  have lookup := idempotentRun_run mirrors coherent request.idempotencyKey true committed
  rw [unused, Option.bind_none, Option.map_none] at lookup
  have busy := mirrors.activeRow sessionId
  rw [idle, Option.map_none] at busy
  have model : SQLAlchemyRuntimeStore.runModel (request.rename names) (ambient.rename names) =
      (pendingRun request sessionId ambient).rename names := by
    rw [SQLAlchemyRuntimeStore.runModel, resolvedSessionId_rename, resolved]
    rfl
  rw [SQLAlchemyRuntimeStore.reserveLocked, Txn.run_bind, ReserveRunRequest.rename_idempotencyKey,
    Ending.andThen_committed lookup]
  simp only [SQLAlchemyRuntimeStore.reserveIdle, resolvedSessionId_rename, resolved, Txn.run_bind,
    Ending.andThen_committed (activeRun_run _), busy, SQLAlchemyRuntimeStore.insertReserved,
    model, Txn.run, accepted, Bool.false_eq_true, if_false]
  rfl

private theorem reserveLocked_busy (mirrors : Mirrors names base view) (coherent : Coherent base)
    (resolved : chosenId request.sessionId (ambient.uuid4 0) = sessionId)
    (unused : request.idempotencyKey.bind base.idempotency.get? = none)
    (chosen : activeRunLocked base sessionId = some active) (committed : Database) :
    (SQLAlchemyRuntimeStore.reserveLocked (request.rename names) (ambient.rename names)).run
      committed view = .failed (sessionBusy (names sessionId) (active.rename names)) := by
  have lookup := idempotentRun_run mirrors coherent request.idempotencyKey true committed
  rw [unused, Option.bind_none, Option.map_none] at lookup
  have busy := mirrors.activeRow sessionId
  rw [chosen, Option.map_some] at busy
  rw [SQLAlchemyRuntimeStore.reserveLocked, Txn.run_bind, ReserveRunRequest.rename_idempotencyKey,
    Ending.andThen_committed lookup]
  simp only [SQLAlchemyRuntimeStore.reserveIdle, resolvedSessionId_rename, resolved, Txn.run_bind,
    Ending.andThen_committed (activeRun_run _), busy]
  rfl

/-- An unused key runs the whole transaction: the session, then the row. -/
theorem reserveRun_ending (mirrors : Mirrors names store database) (coherent : Coherent store)
    (unused : request.idempotencyKey.bind store.idempotency.get? = none) :
    (LockingCall.reserveRun (request.rename names)).ending (ambient.rename names) database =
      ((SQLAlchemyRuntimeStore.reserveSession (request.rename names) (ambient.rename names)).run
        database database).andThen fun reservation =>
          Txn.run database (pure (.reservation reservation)) := by
  have lookup := idempotentRun_run mirrors coherent request.idempotencyKey true database
  rw [unused, Option.bind_none, Option.map_none] at lookup
  simp only [LockingCall.ending, LockingCall.transaction, SQLAlchemyRuntimeStore.reserveRun,
    Txn.run_bind, ReserveRunRequest.rename_idempotencyKey, Ending.andThen_committed lookup]

/-- A reservation that names its session locks the row of the session. -/
theorem reserveSession_locks (requested : request.sessionId = some sessionId) :
    (SQLAlchemyRuntimeStore.reserveSession (request.rename names) (ambient.rename names)).run
      database database = ((SQLAlchemyRuntimeStore.lockedSession
        (names (chosenId request.sessionId (ambient.uuid4 0)))).run database database).andThen
          fun _ => (SQLAlchemyRuntimeStore.reserveLocked (request.rename names)
            (ambient.rename names)).run database := by
  have given : (request.rename names).sessionId = some (names sessionId) := by
    rw [ReserveRunRequest.rename, requested, Option.map_some]
  simp only [SQLAlchemyRuntimeStore.reserveSession, given, resolvedSessionId_rename, Txn.run_bind]

theorem reserveRun_matches (mirrors : Mirrors names store database) (coherent : Coherent store)
    (fresh : ambient.Fresh store) (named : ambient.uuid4 0 ≠ "") :
    Matches names ((Operation.reserveRun request).perform ambient store)
      (SQLAlchemyRuntimeStore.perform (ambient.rename names) database
        ((Operation.reserveRun request).rename names)) := by
  cases bound : request.idempotencyKey.bind store.idempotency.get? with
  | some ref =>
    obtain ⟨key, keyed, resolved⟩ := Option.bind_eq_some_iff.mp bound
    exact reserveRun_replays mirrors coherent request keyed resolved
  | none =>
    have ending := reserveRun_ending request ambient mirrors coherent bound
    -- A session that exists has a name, so the transaction does not choose another one.
    have chooses : ∀ {sessionId record}, request.sessionId = some sessionId →
        store.sessions.get? sessionId = some record →
        chosenId request.sessionId (ambient.uuid4 0) = sessionId := by
      intro sessionId record requested found
      rw [requested, chosenId, if_neg]
      rintro rfl
      rw [mirrors.unnamed] at found
      contradiction
    rcases reserveRun_cases coherent request ambient fresh bound with
      ⟨sessionId, requested, absent, answer⟩ | ⟨sessionId, active, requested, chosen, answer⟩ |
      ⟨sessionId, base, admits, idle, answer⟩
    · have row := mirrors.sessionRow (chosenId request.sessionId (ambient.uuid4 0))
      have missing : store.sessions.get? (chosenId request.sessionId (ambient.uuid4 0)) = none := by
        rw [requested, chosenId]
        split
        · exact fresh.1
        · exact absent
      rw [missing, Option.map_none] at row
      have ran : (LockingCall.reserveRun (request.rename names)).ending (ambient.rename names)
          database = .failed (sessionNotFound
            (names (chosenId request.sessionId (ambient.uuid4 0)))) := by
        rw [ending, reserveSession_locks request ambient requested,
          Ending.andThen_failed (lockedSession_missing row)]
        rfl
      simp only [Operation.perform, Command.bind_apply, answer]
      exact .failed ran mirrors
    · obtain ⟨ref, present, rfl, _⟩ := activeRunLocked_some chosen
      obtain ⟨record, found⟩ := Option.isSome_iff_exists.mp (coherent.runSession present)
      have resolved := chooses requested found
      have row := mirrors.sessionRow active.sessionId
      rw [found, Option.map_some] at row
      have refused :=
        reserveLocked_busy request ambient mirrors coherent resolved bound chosen database
      have ran : (LockingCall.reserveRun (request.rename names)).ending (ambient.rename names)
          database = .failed (sessionBusy (names active.sessionId) (active.rename names)) := by
        rw [ending, reserveSession_locks request ambient requested, resolved,
          Ending.andThen_committed (lockedSession_found row), refused]
        rfl
      simp only [Operation.perform, Command.bind_apply, answer]
      exact .failed ran mirrors
    · have absent : store.runs.get? (pendingRun request sessionId ambient).id = none := fresh.2
      have accepted := unconflicted mirrors coherent absent bound idle
      simp only [Operation.perform, Command.bind_apply, answer]
      cases admits with
      | named requested found =>
        have resolved := chooses requested found
        have row := mirrors.sessionRow sessionId
        rw [found, Option.map_some] at row
        refine .committed ?_ (mirrors.reserve coherent absent)
        rw [ending, reserveSession_locks request ambient requested, resolved,
          Ending.andThen_committed (lockedSession_found row),
          reserveLocked_idle request ambient mirrors coherent resolved bound idle database accepted]
        rfl
      | implicit requested =>
        have opened := mirrors.openSession coherent (implicitSession request ambient) fresh.1 named
        have named : (implicitSession request ambient).id = _ := rfl
        have opens := coherent.putSession named []
        have resolved : chosenId request.sessionId (ambient.uuid4 0) = ambient.uuid4 0 := by
          rw [requested]
          rfl
        have given : (request.rename names).sessionId = none := by
          rw [ReserveRunRequest.rename, requested, Option.map_none]
        have inserted :=
          reserveLocked_idle request ambient opened opens resolved bound idle database accepted
        refine .committed ?_ (opened.reserve opens absent)
        rw [ending]
        simp only [SQLAlchemyRuntimeStore.reserveSession, given]
        exact Ending.andThen_committed inserted _

end FreshKeys

section Commit

variable (mirrors : Mirrors names store database) (coherent : Coherent store)
  (counted : Logged Counted store)

include mirrors coherent counted

theorem commitRunSuccess_matches (ref : String) (request : CommitRunRequest)
    (numbered : ∀ sessionId history, store.messages.get? sessionId = some history →
      Numbered history) :
    Matches names ((Operation.commitRunSuccess ref request).perform ambient store)
      (SQLAlchemyRuntimeStore.perform (ambient.rename names) database
        ((Operation.commitRunSuccess ref request).rename names)) := by
  have row := mirrors.runRow ref
  rcases commitRunSuccess_cases coherent ref request ambient with ⟨absent, answer⟩ |
    ⟨run, found, moved, answer⟩ |
    ⟨run, record, history, log, found, same, running, session, own, transcript, read, answer⟩
  · rw [absent, Option.map_none] at row
    simp only [Operation.perform, Command.bind_apply, answer]
    exact .failed (LockingCall.ending_unknown _ rfl row) mirrors
  · rw [found, Option.map_some] at row
    have denied : RunStatus.completed ∉ allowedRunTransitions run.status := by
      cases status : run.status <;> simp_all [allowedRunTransitions]
    have ran : (LockingCall.commitRunSuccess (names ref) request).ending
        (ambient.rename names) database = .failed (invalidTransition run.status .completed) := by
      simp only [LockingCall.ending, LockingCall.transaction,
        SQLAlchemyRuntimeStore.commitRunSuccess, Txn.run_bind,
        Ending.andThen_committed (lockedRun_found row), AgentRun.rename_status,
        validateRunTransition_error denied, Ending.andThen_failed (Txn.run_raise _ _ _)]
      rfl
    simp only [Operation.perform, Command.bind_apply, answer]
    exact .failed ran mirrors
  · subst same
    rw [found, Option.map_some] at row
    have allowed : RunStatus.completed ∈ allowedRunTransitions run.status := by
      simp [running, allowedRunTransitions]
    have active : run.Active := by simp [AgentRun.Active, running, activeRunStatuses]
    have opened := mirrors.sessionRow record.id
    rw [session, Option.map_some, ← own] at opened
    have next := nextSequence_run mirrors transcript (numbered _ _ transcript) database
    rw [← own] at next
    have attributed : ∀ message ∈ turnMessages run request (history.length + 1) ambient,
        message.sessionId = some record.id ∧ message.committed = true := by
      intro message member
      simp only [turnMessages, List.mem_cons, List.not_mem_nil, or_false] at member
      rcases member with rfl | rfl <;> exact ⟨congrArg some own, rfl⟩
    have told := mirrors.tell session transcript _ attributed (ambient.utcNow 2)
    obtain ⟨written, wrote, mirrored⟩ := told.published ⟨counted.agrees⟩ found read active
      (completedRun run request (ambient.utcNow 2)) rfl .responseCompleted
      [("result", .obj request.result.modelDump)] (ambient.uuid4 2) (ambient.utcNow 3) database
    -- The two messages are flushed one after the other.
    have apart : database.messages ++
        (turnMessages run request (history.length + 1) ambient).map (·.rename names) =
          database.messages ++ [_] ++ [_] := (List.append_assoc _ [_] [_]).symm
    rw [apart] at wrote
    simp only [Operation.perform, Command.bind_apply, answer]
    refine .committed ?_ mirrored
    simp only [LockingCall.ending, LockingCall.transaction,
      SQLAlchemyRuntimeStore.commitRunSuccess, Txn.run_bind,
      Ending.andThen_committed (lockedRun_found row), AgentRun.rename_status,
      validateRunTransition_ok allowed, Ending.andThen_committed (Txn.run_lift _ _ _),
      AgentRun.rename_sessionId, Ending.andThen_committed (lockedSession_found opened),
      Ending.andThen_committed next]
    exact Ending.andThen_committed wrote _

end Commit

section Sweeps

/-- Both loops interrupt the same runs, one after the other. -/
theorem interruptEach_mirrors (committed : Database) (matching : List AgentRun) :
    ∀ (index : Nat) (store : InMemorySessionStore) (view : Database), Mirrors names store view →
      Coherent store → Logged Counted store →
      Collected store matching →
      ∃ after written, interruptEach ambient index matching store = (.ok (), after) ∧
        (SQLAlchemyRuntimeStore.interruptEach (ambient.rename names) index
          (matching.map (·.rename names))).run committed view = .committed () written ∧
        Mirrors names after written := by
  induction matching with
  | nil =>
    intro index store view mirrors _ _ _
    exact ⟨store, view, rfl, rfl, mirrors⟩
  | cons run rest ih =>
    intro index store view mirrors coherent counted collected
    obtain ⟨log, found, active, read⟩ := collected.head coherent
    have edit := withInterrupt_edit found active read (ambient.uuid4 index)
      (ambient.utcNow (2 * index)) (ambient.utcNow (2 * index + 1))
    have first := interruptLocked_ok active read (ambient.uuid4 index)
      (ambient.utcNow (2 * index)) (ambient.utcNow (2 * index + 1))
    obtain ⟨written, wrote, next⟩ := mirrors.published counted found read active
      (interruptedRun run (ambient.utcNow (2 * index))) rfl
      .runInterrupted (statusPayload .interrupted) (ambient.uuid4 index)
      (ambient.utcNow (2 * index + 1)) committed
    obtain ⟨after, final, swept, ran, mirrored⟩ := ih (index + 1) _ written next
      (edit.coherent coherent) (edit.counted coherent (by simp) counted)
        (collected.tail log _ _ _)
    refine ⟨after, final, ?_, ?_, mirrored⟩
    · exact (Command.bind_ok first).trans swept
    · simp only [List.map_cons, SQLAlchemyRuntimeStore.interruptEach, Txn.run_bind,
        AgentRun.rename_status,
        validateRunTransition_ok (Move.interrupt active (ambient.utcNow (2 * index))).allowed,
        Ending.andThen_committed (Txn.run_lift _ _ _)]
      exact (Ending.andThen_committed wrote _).trans ran

/-- The rows that one sweep locks are the runs that the other collects. -/
theorem interruptMatching_mirrors (mirrors : Mirrors names store database)
    (coherent : Coherent store) (counted : Logged Counted store) (workerInstanceId : String)
    (sameWorker : Bool) (selected : AgentRun → Bool)
    (same : ∀ run : AgentRun, selected run = decide (if sameWorker
      then run.workerInstanceId = workerInstanceId
      else run.workerInstanceId ≠ workerInstanceId)) :
    ∃ count after written, interruptMatching selected ambient store = (.ok count, after) ∧
      (SQLAlchemyRuntimeStore.interruptMatching workerInstanceId sameWorker
        (ambient.rename names)).run database database = .committed count written ∧
      Mirrors names after written := by
  have rows : (database.runs.values.filter fun run => run.Active ∧
      (if sameWorker then run.workerInstanceId = workerInstanceId
        else run.workerInstanceId ≠ workerInstanceId)) =
          (matchingRuns store selected).map (·.rename names) := by
    rw [mirrors.runValues, List.filter_map, matchingRuns]
    congr 1
    apply List.filter_congr
    intro run _
    simp only [Function.comp, same, decide_eq_true_eq]
    rfl
  obtain ⟨after, written, swept, ran, mirrored⟩ := interruptEach_mirrors database
    (matchingRuns store selected) 0 store database mirrors coherent counted
    (matchingRuns_collected coherent selected)
  refine ⟨(matchingRuns store selected).length, after, written, ?_, ?_, mirrored⟩
  · simp only [interruptMatching, Command.bind_apply, Command.read_apply]
    rw [← matchingRuns, swept]
    rfl
  · have locked : (Txn.lockSkipping (fun run => run.Active ∧
        (if sameWorker then run.workerInstanceId = workerInstanceId
          else run.workerInstanceId ≠ workerInstanceId)) pure).run database database =
            .committed ((matchingRuns store selected).map (·.rename names)) database := by
      rw [Txn.run, rows]
      rfl
    rw [SQLAlchemyRuntimeStore.interruptMatching, Txn.run_bind, Ending.andThen_committed locked,
      Txn.run_bind, Ending.andThen_committed ran, List.length_map]
    rfl

private theorem interruptWorkerRuns_matches (mirrors : Mirrors names store database)
    (coherent : Coherent store) (counted : Logged Counted store) (workerInstanceId : String) :
    Matches names ((Operation.interruptWorkerRuns workerInstanceId).perform ambient store)
      (SQLAlchemyRuntimeStore.perform (ambient.rename names) database
        ((Operation.interruptWorkerRuns workerInstanceId).rename names)) := by
  obtain ⟨count, after, written, swept, ran, mirrored⟩ := interruptMatching_mirrors mirrors
    coherent counted workerInstanceId true
    (fun run => decide (run.workerInstanceId = workerInstanceId)) fun run => rfl
  have answer : interruptWorkerRuns workerInstanceId ambient store = (.ok count, after) := swept
  simp only [Operation.perform, Command.bind_apply, answer]
  refine .committed ?_ mirrored
  exact (Txn.run_bind _ _ _ _).trans (Ending.andThen_committed ran _)

private theorem reconcileOrphanedRuns_matches (mirrors : Mirrors names store database)
    (coherent : Coherent store) (counted : Logged Counted store) (workerInstanceId : String) :
    Matches names ((Operation.reconcileOrphanedRuns workerInstanceId).perform ambient store)
      (SQLAlchemyRuntimeStore.perform (ambient.rename names) database
        ((Operation.reconcileOrphanedRuns workerInstanceId).rename names)) := by
  obtain ⟨count, after, written, swept, ran, mirrored⟩ := interruptMatching_mirrors mirrors
    coherent counted workerInstanceId false
    (fun run => decide (run.workerInstanceId ≠ workerInstanceId)) fun run => by simp
  have answer : reconcileOrphanedRuns workerInstanceId ambient store = (.ok count, after) := swept
  simp only [Operation.perform, Command.bind_apply, answer]
  refine .committed ?_ mirrored
  exact (Txn.run_bind _ _ _ _).trans (Ending.andThen_committed ran _)

private theorem pruneStreamEvents_matches (mirrors : Mirrors names store database)
    (coherent : Coherent store) (before : Time) :
    Matches names ((Operation.pruneStreamEvents before).perform ambient store)
      (SQLAlchemyRuntimeStore.perform (ambient.rename names) database
        ((Operation.pruneStreamEvents before).rename names)) := by
  obtain ⟨removed, after, answer, pruned⟩ := pruneStreamEvents_ok coherent before
  have count := mirrors.prune_count coherent before
  rw [answer] at count
  cases count
  simp only [Operation.perform, Command.bind_apply, answer]
  exact ⟨.answered (.count _), mirrors.prune coherent pruned⟩

end Sweeps

/-- One call answers alike in both stores and leaves them mirrored. -/
theorem perform_matches (operation : Operation) (mirrors : Mirrors names store database)
    (coherent : Coherent store) (counted : Logged Counted store)
    (numbered : ∀ sessionId history, store.messages.get? sessionId = some history →
      Numbered history)
    (fresh : ambient.Fresh store) (named : ambient.uuid4 0 ≠ "") (prompt : Prompt store operation) :
    Matches names (operation.perform ambient store)
      (SQLAlchemyRuntimeStore.perform (ambient.rename names) database
        (operation.rename names)) := by
  cases operation with
  | initializeStore =>
    exact ⟨.answered .unit, ⟨mirrors.sessions, mirrors.runs, mirrors.transcripts, mirrors.logs,
      mirrors.committed, mirrors.owned, mirrors.unnamed⟩⟩
  | createSession metadata sessionId userId =>
    exact createSession_matches mirrors coherent metadata sessionId userId named
  | getSession sessionId => exact getSession_matches mirrors sessionId
  | appendMessage sessionId role content metadata =>
    exact appendMessage_matches mirrors coherent sessionId role content metadata
      (numbered sessionId)
  | listMessages sessionId =>
    exact listMessages_matches mirrors coherent sessionId (numbered sessionId)
  | clearSession sessionId => exact clearSession_matches mirrors coherent sessionId
  | reserveRun request => exact reserveRun_matches request ambient mirrors coherent fresh named
  | getRun ref => exact getRun_matches mirrors ref
  | markRunRunning ref workerInstanceId =>
    exact markRunRunning_matches mirrors coherent counted ref workerInstanceId
  | incrementRunAttempt ref => exact incrementRunAttempt_matches mirrors coherent ref
  | appendStreamEvent ref type payload =>
    exact appendStreamEvent_matches mirrors coherent counted ref type payload prompt
  | listStreamEvents ref afterSequence =>
    exact listStreamEvents_matches mirrors coherent counted ref afterSequence
  | commitRunSuccess ref request =>
    exact commitRunSuccess_matches mirrors coherent counted ref request numbered
  | failRun ref errorCode => exact failRun_matches mirrors coherent counted ref errorCode
  | cancelRun ref workerInstanceId =>
    exact cancelRun_matches mirrors coherent counted ref workerInstanceId
  | interruptWorkerRuns workerInstanceId =>
    exact interruptWorkerRuns_matches mirrors coherent counted workerInstanceId
  | reconcileOrphanedRuns workerInstanceId =>
    exact reconcileOrphanedRuns_matches mirrors coherent counted workerInstanceId
  | pruneStreamEvents before => exact pruneStreamEvents_matches mirrors coherent before
  | ping => exact ⟨.pinged store.ready, mirrors⟩
  | close =>
    exact ⟨.answered .unit, ⟨mirrors.sessions, mirrors.runs, mirrors.transcripts, mirrors.logs,
      mirrors.committed, mirrors.owned, mirrors.unnamed⟩⟩

private theorem execute_matches (names : Renaming) (script : List (Ambient × Operation)) :
    ∀ {calls} {store : InMemorySessionStore} {database : Database}, History empty calls store →
      Logged Counted store → Mirrors names store database → FreshScript store script →
      (∀ entry ∈ script, entry.1.uuid4 0 ≠ "") → PromptScript store script →
      List.Forall₂ (Alike names) ((execute store script).1.map (·.reply))
          (SQLAlchemyRuntimeStore.execute database (renameScript names script)).1 ∧
        Mirrors names (execute store script).2
          (SQLAlchemyRuntimeStore.execute database (renameScript names script)).2 := by
  induction script with
  | nil =>
    intro calls store database _ _ mirrors _ _ _
    exact ⟨.nil, mirrors⟩
  | cons entry rest ih =>
    intro calls store database history counted mirrors fresh named prompt
    obtain ⟨ambient, operation⟩ := entry
    have coherent := history.coherent empty_coherent
    obtain ⟨effects, edits, _⟩ := history.traces empty_coherent
    have ledger := edits_ledger edits
    have step := perform_matches operation mirrors coherent counted
      (fun _ _ read => ledger.numbered read) fresh.1 (named _ List.mem_cons_self) prompt.1
    have answers : Answers store ⟨ambient, operation, (operation.perform ambient store).1⟩
        (operation.perform ambient store).2 := ⟨fresh.1, rfl⟩
    obtain ⟨alike, mirrored⟩ := ih (.snoc history answers)
      (answers.counted coherent prompt.1 counted) step.mirrors fresh.2
      (fun other member => named other (List.mem_cons_of_mem _ member)) prompt.2
    exact ⟨.cons step.alike alike, mirrored⟩

/-- A script answers alike on the in-memory store and, under other identifiers, on the
PostgreSQL store, as long as no event is appended to a terminal run. -/
theorem stores_answer_alike (names : Renaming) (script : List (Ambient × Operation))
    (fresh : FreshScript empty script) (named : ∀ entry ∈ script, entry.1.uuid4 0 ≠ "")
    (prompt : PromptScript empty script) :
    List.Forall₂ (Alike names) ((execute empty script).1.map (·.reply))
      (SQLAlchemyRuntimeStore.execute .empty (renameScript names script)).1 :=
  (execute_matches names script .nil (empty_logged _) (.empty names) fresh named prompt).1

/-- The PostgreSQL store happens to draw another identifier for the run. -/
def sampleRenaming : Renaming where
  apply := Equiv.swap "run" "row"
  injective := (Equiv.swap "run" "row").injective
  blank := Equiv.swap_apply_of_ne_of_ne (by decide) (by decide)

/-- A turn with one delta, a late cancellation and a pruning. -/
def sampleStream : List (Ambient × Operation) :=
  sampleTurn.take 3 ++ (.sample "e" "e", .appendStreamEvent "run" .responseDelta []) ::
    sampleTurn.drop 3 ++ [(.sample "f" "f", .cancelRun "run" "worker"),
      (.sample "g" "g", .pruneStreamEvents 1), (.sample "h" "h", .listStreamEvents "run" 0)]

theorem stores_answer_alike_sampleStream :
    List.Forall₂ (Alike sampleRenaming) ((execute empty sampleStream).1.map (·.reply))
      (SQLAlchemyRuntimeStore.execute .empty (renameScript sampleRenaming sampleStream)).1 :=
  stores_answer_alike sampleRenaming sampleStream (by decide) (by decide) (by decide)

end DayuAgent
