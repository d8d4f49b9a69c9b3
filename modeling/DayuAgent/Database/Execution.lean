import DayuAgent.Database.LockOrder
import DayuAgent.Memory.Spec

namespace DayuAgent

open Library SQLAlchemyRuntimeStore
open InMemorySessionStore (runNotFound sessionNotFound sessionBusy)

/-- How an undisturbed transaction ends. -/
inductive Ending (Value : Type) where
  | committed (value : Value) (database : Database)
  | failed (error : PyException)
  | violated

/-- What follows a transaction that goes on. -/
def Ending.andThen (ending : Ending Value) (next : Value → Database → Ending Other) :
    Ending Other :=
  match ending with
  | .committed value view => next value view
  | .failed error => .failed error
  | .violated => .violated

theorem Ending.andThen_committed {ending : Ending Value} (ends : ending = .committed value view)
    (next : Value → Database → Ending Other) : ending.andThen next = next value view := by
  rw [ends]
  rfl

theorem Ending.andThen_failed {ending : Ending Value} (ends : ending = .failed error)
    (next : Value → Database → Ending Other) : ending.andThen next = .failed error := by
  rw [ends]
  rfl

namespace Txn

variable {Value Other : Type}

/-- Run a transaction over the committed rows; `view` has its own writes as well. -/
def run (committed : Database) : Txn Value → Database → Ending Value
  | .done (.ok value), view => .committed value view
  | .done (.error error), _ => .failed error
  | .lockSession id next, view => (next (view.sessions.get? id)).run committed view
  | .lockRun query next, view => (next (query.find view)).run committed view
  | .lockSkipping selected next, view =>
    (next (view.runs.values.filter selected)).run committed view
  | .readRun query next, view => (next (query view)).run committed view
  | .readCount query next, view => (next (query view)).run committed view
  | .insertRun run next, view =>
    if committed.runs.values.any fun other => Conflicts run other then .violated
    else next.run committed (view.apply (.run run))
  | .write change next, view => next.run committed (view.apply change)

theorem run_bind (transaction : Txn Value) (rest : Value → Txn Other) (committed view : Database) :
    (transaction >>= rest).run committed view =
      (transaction.run committed view).andThen fun value => (rest value).run committed := by
  rw [bind_def]
  induction transaction generalizing view with
  | done result =>
    cases result with
    | ok value => rfl
    | error error => rfl
  | lockSession _ _ ih => exact ih _ _
  | lockRun _ _ ih => exact ih _ _
  | lockSkipping _ _ ih => exact ih _ _
  | readRun _ _ ih => exact ih _ _
  | readCount _ _ ih => exact ih _ _
  | write _ _ ih => exact ih _
  | insertRun inserted next ih =>
    simp only [bind, run]
    split
    · rfl
    · exact ih _

theorem run_lift (value : Value) (committed view : Database) :
    (lift (.ok value)).run committed view = .committed value view := rfl

theorem run_raise (error : PyException) (committed view : Database) :
    (lift (.error error) : Txn Value).run committed view = .failed error := rfl

end Txn

namespace SQLAlchemyRuntimeStore

variable {committed view : Database}

theorem lockedRun_found (found : view.runs.get? ref = some run) :
    (lockedRun ref).run committed view = .committed run view := by
  simp only [lockedRun, Txn.run, RunQuery.find, found]
  rfl

theorem lockedRun_missing (missing : view.runs.get? ref = none) :
    (lockedRun ref).run committed view =
      .failed (.of .runNotFoundError [("run_id", .str ref)]) := by
  simp only [lockedRun, Txn.run, RunQuery.find, missing]
  rfl

theorem lockedSession_found (found : view.sessions.get? ref = some record) :
    (lockedSession ref).run committed view = .committed record view := by
  simp only [lockedSession, Txn.run, found]
  rfl

theorem lockedSession_missing (missing : view.sessions.get? ref = none) :
    (lockedSession ref).run committed view =
      .failed (.of .sessionNotFoundError [("session_id", .str ref)]) := by
  simp only [lockedSession, Txn.run, missing]
  rfl

theorem activeRun_run (sessionId : String) :
    (activeRun sessionId).run committed view = .committed (activeRunIn sessionId view) view := rfl

/-- The event that the next append stores. -/
def followingEvent (view : Database) (ref : String) (type : StreamEventType)
    (payload : JsonObject) (id : String) (now : Time) : StreamEvent :=
  { id, runId := ref, sequence := maxSequence ((view.eventLog ref).map (·.sequence)) + 1, type
    createdAt := now, payload }

theorem appendEvent_run (run : AgentRun) (type : StreamEventType) (payload : JsonObject)
    (id : String) (now : Time) :
    (appendEvent run type payload id now).run committed view =
      .committed (followingEvent view run.id type payload id now)
        (view.apply (.event (followingEvent view run.id type payload id now))) := rfl

theorem publishRun_run (run : AgentRun) (type : StreamEventType) (payload : JsonObject)
    (id : String) (now : Time) :
    (publishRun run type payload id now).run committed view = .committed run
      ((view.apply (.run run)).apply
        (.event (followingEvent view run.id type payload id now))) := rfl

theorem nextMessageSequence_run (sessionId : String) :
    (nextMessageSequence sessionId).run committed view = .committed (maxSequence
      ((view.messages.filter fun message => message.sessionId = some sessionId).map
        (·.sequence)) + 1) view := rfl

end SQLAlchemyRuntimeStore

/-- How the transaction of a call ends over a database at rest. -/
def LockingCall.ending (call : LockingCall) (ambient : Ambient) (database : Database) :
    Ending Reply :=
  (call.transaction ambient).run database database

/-- The run whose row a call locks before anything else. -/
def LockingCall.lockedFirst : LockingCall → Option String
  | markRunRunning runId _ | incrementRunAttempt runId | appendStreamEvent runId _ _
  | commitRunSuccess runId _ | failRun runId _ | cancelRun runId _ => some runId
  | reserveRun _ | appendMessage .. | clearSession _ | interruptWorkerRuns _
  | reconcileOrphanedRuns _ => none

/-- The session whose transcript a call rewrites unless it is busy. -/
def LockingCall.rewritten : LockingCall → Option String
  | appendMessage sessionId .. | clearSession sessionId => some sessionId
  | _ => none

section Endings

variable {database : Database} (ambient : Ambient)

/-- A call for an unknown run does no more than say so. -/
theorem LockingCall.ending_unknown {call : LockingCall} (locks : call.lockedFirst = some ref)
    (absent : database.runs.get? ref = none) :
    call.ending ambient database = .failed (runNotFound ref) := by
  have fails {Answer : Type} (rest : AgentRun → Txn Answer) (reply : Answer → Txn Reply) :
      ((lockedRun ref >>= rest) >>= reply).run database database = .failed (runNotFound ref) := by
    simp only [Txn.run_bind, Ending.andThen_failed (lockedRun_missing absent)]
    rfl
  cases call with
  | reserveRun | appendMessage | clearSession | interruptWorkerRuns | reconcileOrphanedRuns =>
    cases locks
  | markRunRunning | incrementRunAttempt | appendStreamEvent | commitRunSuccess | failRun
  | cancelRun =>
    cases locks
    exact fails _ _

theorem incrementRunAttempt_refused (found : database.runs.get? ref = some run)
    (terminal : run.Terminal) : (LockingCall.incrementRunAttempt ref).ending ambient database =
      .failed (invalidTransition run.status .running) := by
  have stopped : run.status ≠ .running := by
    intro running
    simp [AgentRun.Terminal, running, terminalRunStatuses] at terminal
  simp only [LockingCall.ending, LockingCall.transaction, incrementRunAttempt, Txn.run_bind,
    Ending.andThen_committed (lockedRun_found found), if_pos stopped,
    validateRunTransition_error (terminal_no_transition terminal _),
    Ending.andThen_failed (Txn.run_raise _ _ _)]
  rfl

theorem LockingCall.ending_unopened {call : LockingCall}
    (rewrites : call.rewritten = some sessionId)
    (absent : database.sessions.get? sessionId = none) :
    call.ending ambient database = .failed (sessionNotFound sessionId) := by
  have fails {Answer : Type} (rest : SessionRecord → Txn Answer) (reply : Answer → Txn Reply) :
      ((lockedSession sessionId >>= rest) >>= reply).run database database =
        .failed (sessionNotFound sessionId) := by
    simp only [Txn.run_bind, Ending.andThen_failed (lockedSession_missing absent)]
    rfl
  cases call with
  | appendMessage | clearSession =>
    cases rewrites
    exact fails _ _
  | _ => cases rewrites

theorem LockingCall.ending_busy {call : LockingCall} (rewrites : call.rewritten = some sessionId)
    (found : database.sessions.get? sessionId = some record)
    (busy : activeRunIn sessionId database = some active) :
    call.ending ambient database = .failed (sessionBusy sessionId active) := by
  cases call with
  | appendMessage | clearSession =>
    cases rewrites
    simp only [LockingCall.ending, LockingCall.transaction,
      SQLAlchemyRuntimeStore.appendMessage, SQLAlchemyRuntimeStore.clearSession,
      Txn.run_bind, Ending.andThen_committed (lockedSession_found found),
      Ending.andThen_committed (activeRun_run _), busy]
    rfl
  | _ => cases rewrites

/-- The guard lets every active run pass, a pending one as well. -/
theorem incrementRunAttempt_counted (found : database.runs.get? ref = some run)
    (active : run.Active) : (LockingCall.incrementRunAttempt ref).ending ambient database =
      .committed (.run { run with attemptCount := run.attemptCount + 1 })
        (database.apply (.run { run with attemptCount := run.attemptCount + 1 })) := by
  simp only [LockingCall.ending, LockingCall.transaction, incrementRunAttempt, Txn.run_bind,
    Ending.andThen_committed (lockedRun_found found)]
  by_cases stopped : run.status ≠ .running
  · have allowed : RunStatus.running ∈ allowedRunTransitions run.status := by
      cases status : run.status <;>
        simp_all [AgentRun.Active, activeRunStatuses, allowedRunTransitions]
    simp only [if_pos stopped, validateRunTransition_ok allowed]
    rfl
  · simp only [ne_eq, not_not.mp stopped, not_true_eq_false, if_false]
    rfl

end Endings

/-- One locking call of a service that nobody else uses. -/
def LockingCall.perform (call : LockingCall) (ambient : Ambient) (database : Database) :
    Except PyException Reply × Database :=
  let conclude : Ending Reply → Except PyException Reply × Database := fun
    | .committed value after => (.ok value, after)
    | .failed error => (.error error, database)
    | .violated => (.error (Cluster.databaseError "reserve_run"), database)
  match call.ending ambient database, call.recovery ambient with
  | .violated, some recovery => conclude (recovery.run database database)
  | ending, _ => conclude ending

namespace SQLAlchemyRuntimeStore

/-- One call of the store contract, the database being available and at rest. -/
def perform (ambient : Ambient) (database : Database) :
    Operation → Except PyException Reply × Database
  | .initializeStore => (.ok .unit, database)
  | .createSession metadata sessionId userId =>
    let answer := createSession metadata sessionId userId ambient database
    (answer.1.map .session, answer.2)
  | .getSession sessionId => ((getSession database sessionId).map .session, database)
  | .appendMessage sessionId role content metadata =>
    (LockingCall.appendMessage sessionId role content metadata).perform ambient database
  | .listMessages sessionId => ((listMessages database sessionId).map .messages, database)
  | .clearSession sessionId => (LockingCall.clearSession sessionId).perform ambient database
  | .reserveRun request => (LockingCall.reserveRun request).perform ambient database
  | .getRun runId => ((getRun database runId).map .run, database)
  | .markRunRunning runId workerInstanceId =>
    (LockingCall.markRunRunning runId workerInstanceId).perform ambient database
  | .incrementRunAttempt runId => (LockingCall.incrementRunAttempt runId).perform ambient database
  | .appendStreamEvent runId type payload =>
    (LockingCall.appendStreamEvent runId type payload).perform ambient database
  | .listStreamEvents runId afterSequence =>
    ((listStreamEvents database runId afterSequence).map .events, database)
  | .commitRunSuccess runId request =>
    (LockingCall.commitRunSuccess runId request).perform ambient database
  | .failRun runId errorCode => (LockingCall.failRun runId errorCode).perform ambient database
  | .cancelRun runId workerInstanceId =>
    (LockingCall.cancelRun runId workerInstanceId).perform ambient database
  | .interruptWorkerRuns workerInstanceId =>
    (LockingCall.interruptWorkerRuns workerInstanceId).perform ambient database
  | .reconcileOrphanedRuns workerInstanceId =>
    (LockingCall.reconcileOrphanedRuns workerInstanceId).perform ambient database
  | .pruneStreamEvents before =>
    let answer := pruneStreamEvents before database
    (.ok (.count answer.1), answer.2)
  | .ping => (.ok (.flag true), database)
  | .close => (.ok .unit, database)

/-- The answers of a script of operations, one after the other. -/
def execute (database : Database) :
    List (Ambient × Operation) → List (Except PyException Reply) × Database
  | [] => ([], database)
  | (ambient, operation) :: rest =>
    let answer := perform ambient database operation
    let (replies, final) := execute answer.2 rest
    (answer.1 :: replies, final)

end SQLAlchemyRuntimeStore

namespace Cluster

variable {Value : Type} {cluster : Cluster Value} {process : Nat}

/-- No other transaction holds a lock or an uncommitted insert. -/
structure Alone (cluster : Cluster Value) (process : Nat) : Prop where
  available : ∀ row, cluster.Available process row
  inserts : ∀ entry ∈ cluster.inserting, entry.1 = process

/-- The states in which an undisturbed transaction may leave its process. -/
def Concludes (cluster final : Cluster Value) (process : Nat) : Ending Value → Prop
  | .committed value database =>
    final.database = database ∧ (final.processes process).activity = .finished (.ok value)
  | .failed error =>
    final.database = cluster.database ∧
      (final.processes process).activity = .finished (.error error)
  | .violated =>
    final.database = cluster.database ∧ (final.processes process).pending = [] ∧
      (final.processes process).recovery = none ∧
      (final.processes process).activity =
        match (cluster.processes process).recovery with
        | some recovery => .running recovery
        | none => .finished (.error (databaseError "reserve_run"))

theorem Alone.advance (alone : Alone cluster process) (rest : Txn Value) :
    Alone (cluster.advance process rest) process := ⟨alone.available, alone.inserts⟩

theorem Alone.acquire (alone : Alone cluster process) (row : Row) :
    Alone (cluster.acquire process row) process where
  available other := by
    by_cases same : other = row
    · subst same
      exact .inr (Function.update_self _ _ _)
    · rcases alone.available other with free | own
      · exact .inl ((Function.update_of_ne same _ _).trans free)
      · exact .inr ((Function.update_of_ne same _ _).trans own)
  inserts := alone.inserts

theorem Alone.release (alone : Alone cluster process) (after : Process Value) :
    Alone (cluster.release process after) process where
  available row := by
    rcases alone.available row with free | own
    · exact .inl (by simp [Cluster.release, free])
    · exact .inl (by simp [Cluster.release, own])
  inserts entry member := (alone.inserts entry (List.mem_of_mem_filter member))

theorem Alone.unlocked (alone : Alone cluster process) (selected : AgentRun → Bool) :
    cluster.unlocked process selected = (cluster.view process).runs.values.filter selected := by
  apply List.filter_congr
  intro run _
  simp [alone.available (.run run.id)]

theorem Alone.acquireAll (alone : Alone cluster process) (runs : List AgentRun) :
    Alone (cluster.acquireAll process runs) process where
  available row := by
    by_cases listed : row ∈ runs.map fun run => .run run.id
    · exact .inr (if_pos listed)
    · rcases alone.available row with free | own
      · exact .inl ((if_neg listed).trans free)
      · exact .inr ((if_neg listed).trans own)
  inserts := alone.inserts

/-- The process gets to the end of its transaction by its own statements. -/
def Finishes (cluster : Cluster Value) (process : Nat) (ending : Ending Value) : Prop :=
  ∃ count final, Run Steps cluster (List.replicate count process) final ∧
    Alone final process ∧ Concludes cluster final process ending

/-- One statement, and the rest of the transaction after it. -/
theorem Finishes.step {moved : Cluster Value} (taken : cluster.next process = some moved)
    (database : moved.database = cluster.database)
    (recovery : (moved.processes process).recovery = (cluster.processes process).recovery)
    (finishes : Finishes moved process ending) : Finishes cluster process ending := by
  obtain ⟨count, final, run, alone, concludes⟩ := finishes
  refine ⟨count + 1, final, .cons taken run, alone, ?_⟩
  cases ending with
  | committed value written => exact concludes
  | failed error => exact ⟨concludes.1.trans database, concludes.2⟩
  | violated =>
    obtain ⟨same, pending, spent, activity⟩ := concludes
    exact ⟨same.trans database, pending, spent, by rw [activity, recovery]⟩

/-- A statement that changes nothing the rest of the transaction sees. -/
theorem Finishes.advance {changed : Cluster Value}
    (taken : cluster.next process = some (changed.advance process rest))
    (database : changed.database = cluster.database)
    (processes : changed.processes = cluster.processes)
    (later : Finishes (changed.advance process rest) process
      (rest.run (changed.advance process rest).database
        ((changed.advance process rest).view process))) :
    Finishes cluster process (rest.run cluster.database (cluster.view process)) := by
  have seen : (changed.advance process rest).view process = cluster.view process := by
    simp [view, Cluster.advance, update, database, processes]
  have same : (changed.advance process rest).database = cluster.database := database
  rw [seen, same] at later
  exact later.step taken database (by simp [Cluster.advance, update, processes])

/-- A statement that adds one pending write. -/
theorem Finishes.write {moved : Cluster Value} (taken : cluster.next process = some moved)
    (database : moved.database = cluster.database)
    (written : moved.processes process = { cluster.processes process with
      activity := .running rest
      pending := (cluster.processes process).pending ++ [change] })
    (later : Finishes moved process (rest.run moved.database (moved.view process))) :
    Finishes cluster process (rest.run cluster.database ((cluster.view process).apply change)) := by
  have seen : moved.view process = (cluster.view process).apply change := by
    simp [view, written, database, Database.applyAll]
  rw [seen, database] at later
  exact later.step taken database (by rw [written])

/-- A statement that an answer ends, whether it locks a row or not. -/
theorem Finishes.answered {changed : Cluster Value}
    (taken : cluster.next process = some (changed.advance process rest))
    (alone : Alone changed process) (database : changed.database = cluster.database)
    (processes : changed.processes = cluster.processes)
    (later : ∀ cluster : Cluster Value, Alone cluster process →
      (cluster.processes process).activity = .running rest →
      Finishes cluster process (rest.run cluster.database (cluster.view process))) :
    Finishes cluster process (rest.run cluster.database (cluster.view process)) :=
  .advance taken database processes
    (later _ (alone.advance _) (by simp [Cluster.advance, update]))

private theorem Alone.finishes_done (alone : Alone cluster process)
    (result : Except PyException Value)
    (running : (cluster.processes process).activity = .running (.done result)) :
    Finishes cluster process
      ((Txn.done result).run cluster.database (cluster.view process)) := by
  cases result with
  | ok value =>
    have released := alone.release
      { activity := .finished (.ok value), recovery := none, pending := [] }
    refine ⟨1, _, .single (next_ok running), ⟨released.available, released.inserts⟩, rfl, ?_⟩
    simp [commit, Cluster.release]
  | error error =>
    refine ⟨1, _, .single (next_error running), alone.release _, rfl, ?_⟩
    simp [rollback, Cluster.release]

/-- An insert that a unique index rejects ends in the recovery, or in its error. -/
theorem Alone.finishes_violated (alone : Alone cluster process)
    (taken : cluster.next process = some (cluster.violated process)) :
    Finishes cluster process .violated := by
  refine ⟨1, _, .single taken, ?_⟩
  unfold violated
  cases recovers : (cluster.processes process).recovery with
  | some recovery =>
    refine ⟨alone.release _, rfl, ?_⟩
    simp [Cluster.release, recovers]
  | none =>
    refine ⟨alone.release _, rfl, ?_⟩
    simp [rollback, Cluster.release, recovers]

/-- Nobody else has an uncommitted insert that a statement would wait for. -/
theorem Alone.inserts_freely (alone : Alone cluster process) (run : AgentRun) :
    ¬ (cluster.inserting.any fun entry => entry.1 ≠ process ∧ Conflicts run entry.2) = true := by
  simp only [List.any_eq_true, decide_eq_true_eq, not_exists, not_and]
  intro entry member different
  exact (different (alone.inserts entry member)).elim

/-- A process that nobody disturbs ends as its transaction runs. -/
theorem Alone.finishes (transaction : Txn Value) :
    ∀ cluster : Cluster Value, Alone cluster process →
      (cluster.processes process).activity = .running transaction →
      Finishes cluster process
        (transaction.run cluster.database (cluster.view process)) := by
  induction transaction with
  | done result => exact fun cluster alone running => alone.finishes_done result running
  | lockSession ref next ih =>
    intro cluster alone running
    have taken := next_lockSession running
    rw [Txn.run]
    cases found : (cluster.view process).sessions.get? ref with
    | none =>
      rw [found] at taken
      exact .answered taken alone rfl rfl (ih none)
    | some record =>
      rw [found] at taken
      simp only [acquireThen, if_pos (alone.available _)] at taken
      exact .answered taken (alone.acquire _) rfl rfl (ih (some record))
  | lockRun query next ih =>
    intro cluster alone running
    have taken := next_lockRun running
    rw [Txn.run]
    cases found : query.find (cluster.view process) with
    | none =>
      rw [found] at taken
      exact .answered taken alone rfl rfl (ih none)
    | some run =>
      rw [found] at taken
      simp only [acquireThen, if_pos (alone.available _)] at taken
      exact .answered taken (alone.acquire _) rfl rfl (ih (some run))
  | lockSkipping selected next ih =>
    intro cluster alone running
    have taken := next_lockSkipping running
    rw [alone.unlocked] at taken
    rw [Txn.run]
    exact .answered taken (alone.acquireAll _) rfl rfl (ih _)
  | readRun query next ih =>
    intro cluster alone running
    rw [Txn.run]
    exact .answered (next_readRun running) alone rfl rfl (ih _)
  | readCount query next ih =>
    intro cluster alone running
    rw [Txn.run]
    exact .answered (next_readCount running) alone rfl rfl (ih _)
  | insertRun run next ih =>
    intro cluster alone running
    have taken := next_insertRun running
    rw [Txn.run]
    split
    · next conflict =>
      rw [Cluster.insertRun, if_pos conflict] at taken
      exact alone.finishes_violated taken
    · next accepted =>
      rw [Cluster.insertRun, if_neg accepted, if_neg (alone.inserts_freely run)] at taken
      refine .write taken rfl (by simp [update]) (ih _ ⟨alone.available, ?_⟩ (by simp [update]))
      intro entry member
      rcases List.mem_cons.mp member with rfl | earlier
      · rfl
      · exact alone.inserts entry earlier
  | write change next ih =>
    intro cluster alone running
    rw [Txn.run]
    exact .write (next_write running) rfl (by simp [update])
      (ih _ ⟨alone.available, alone.inserts⟩ (by simp [update]))

end Cluster

/-- A call that nobody disturbs answers, and leaves the rows, as `perform` says. -/
theorem undisturbed_performs (call : LockingCall) (ambient : Ambient) (database : Database)
    (processes : Nat → Process Reply) (own : processes process = call.process ambient) :
    ∃ count final, Run Cluster.Steps (.start database processes) (List.replicate count process)
        final ∧ final.database = (call.perform ambient database).2 ∧
      (final.processes process).activity = .finished (call.perform ambient database).1 := by
  have alone : Cluster.Alone (.start database processes) process :=
    ⟨fun _ => .inl rfl, fun _ member => (List.not_mem_nil member).elim⟩
  have seen : (Cluster.start database processes).view process = database := by
    simp [Cluster.view, Cluster.start, own, LockingCall.process, Database.applyAll]
  have finishes := alone.finishes (call.transaction ambient) _ (congrArg Process.activity own)
  rw [seen] at finishes
  obtain ⟨count, final, run, quiet, concludes⟩ := finishes
  change Cluster.Concludes _ _ _ (call.ending ambient database) at concludes
  cases ends : call.ending ambient database with
  | committed value written =>
    have performed : call.perform ambient database = (.ok value, written) := by
      simp only [LockingCall.perform, ends]
    rw [ends] at concludes
    rw [performed]
    exact ⟨count, final, run, concludes⟩
  | failed error =>
    have performed : call.perform ambient database = (.error error, database) := by
      simp only [LockingCall.perform, ends]
    rw [ends] at concludes
    rw [performed]
    exact ⟨count, final, run, concludes⟩
  | violated =>
    rw [ends] at concludes
    obtain ⟨same, pending, spent, activity⟩ := concludes
    have recovers : ((Cluster.start database processes).processes process).recovery =
        call.recovery ambient := congrArg Process.recovery own
    rw [recovers] at activity
    cases next : call.recovery ambient with
    | none =>
      rw [next] at activity
      have performed : call.perform ambient database =
          (.error (Cluster.databaseError "reserve_run"), database) := by
        simp only [LockingCall.perform, ends, next]
      rw [performed]
      exact ⟨count, final, run, same, activity⟩
    | some recovery =>
      rw [next] at activity
      have again := quiet.finishes recovery final activity
      have clean : final.view process = database := by
        simp [Cluster.view, pending, same, Database.applyAll, Cluster.start]
      have rows : final.database = database := same
      rw [clean, rows] at again
      obtain ⟨more, last, resumed, _, concluded⟩ := again
      have whole := run.append resumed
      rw [List.replicate_append_replicate] at whole
      refine ⟨count + more, last, whole, ?_⟩
      cases resolves : recovery.run database database with
      | committed value written =>
        rw [resolves] at concluded
        simp only [LockingCall.perform, ends, next, resolves]
        exact concluded
      | failed error =>
        rw [resolves] at concluded
        simp only [LockingCall.perform, ends, next, resolves]
        exact ⟨concluded.1.trans rows, concluded.2⟩
      | violated =>
        rw [resolves] at concluded
        simp only [LockingCall.perform, ends, next, resolves]
        obtain ⟨kept, _, _, failed⟩ := concluded
        rw [spent] at failed
        exact ⟨kept.trans rows, failed⟩

end DayuAgent
