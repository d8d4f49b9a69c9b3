import DayuAgent.Database.Store
import DayuAgent.Library.Transition

namespace DayuAgent

open Library SQLAlchemyRuntimeStore
open InMemorySessionStore (implicitSession)

/-- The transactions that lock rows, with every argument but their surroundings. -/
inductive LockingCall where
  | reserveRun (request : ReserveRunRequest)
  | appendMessage (sessionId : String) (role : MessageRole) (content : String)
      (metadata : Option JsonObject)
  | clearSession (sessionId : String)
  | markRunRunning (runId workerInstanceId : String)
  | incrementRunAttempt (runId : String)
  | appendStreamEvent (runId : String) (type : StreamEventType) (payload : JsonObject)
  | commitRunSuccess (runId : String) (request : CommitRunRequest)
  | failRun (runId errorCode : String)
  | cancelRun (runId workerInstanceId : String)
  | interruptWorkerRuns (workerInstanceId : String)
  | reconcileOrphanedRuns (workerInstanceId : String)

namespace LockingCall

def transaction (ambient : Ambient) : LockingCall → Txn Reply
  | reserveRun request => do
    return .reservation (← SQLAlchemyRuntimeStore.reserveRun request ambient)
  | appendMessage sessionId role content metadata => do
    return .message
      (← SQLAlchemyRuntimeStore.appendMessage sessionId role content metadata ambient)
  | clearSession sessionId => do
    let _ ← SQLAlchemyRuntimeStore.clearSession sessionId ambient
    return .unit
  | markRunRunning runId workerInstanceId => do
    return .run (← SQLAlchemyRuntimeStore.markRunRunning runId workerInstanceId ambient)
  | incrementRunAttempt runId => do
    return .run (← SQLAlchemyRuntimeStore.incrementRunAttempt runId)
  | appendStreamEvent runId type payload => do
    return .event (← SQLAlchemyRuntimeStore.appendStreamEvent runId type payload ambient)
  | commitRunSuccess runId request => do
    return .run (← SQLAlchemyRuntimeStore.commitRunSuccess runId request ambient)
  | failRun runId errorCode => do
    return .run (← SQLAlchemyRuntimeStore.failRun runId errorCode ambient)
  | cancelRun runId workerInstanceId => do
    return .cancel (← SQLAlchemyRuntimeStore.cancelRun runId workerInstanceId ambient)
  | interruptWorkerRuns workerInstanceId => do
    return .count (← SQLAlchemyRuntimeStore.interruptWorkerRuns workerInstanceId ambient)
  | reconcileOrphanedRuns workerInstanceId => do
    return .count (← SQLAlchemyRuntimeStore.reconcileOrphanedRuns workerInstanceId ambient)

/-- Only a reservation goes on after a uniqueness violation. -/
def recovery (ambient : Ambient) : LockingCall → Option (Txn Reply)
  | reserveRun request =>
    some do return .reservation (← resolveReservationRace request ambient)
  | _ => none

def process (call : LockingCall) (ambient : Ambient) : Process Reply :=
  { activity := .running (call.transaction ambient), recovery := call.recovery ambient
    pending := [] }

end LockingCall

/-- One statement of a transaction, with all that it asks of the database. -/
inductive Statement where
  | lockSession (ref : String)
  | lockRun (query : RunQuery)
  | lockSkipping (selected : AgentRun → Bool)
  | readRun (query : Database → Option AgentRun)
  | readCount (query : Database → Nat)
  | insertRun (run : AgentRun)
  | write (change : Change)

def Statement.Inserts : Statement → Prop
  | .insertRun _ => True
  | _ => False

namespace Txn

variable {Value Other : Type} {allowed wider : Statement → Prop}

/-- Every statement that the transaction may come to is an allowed one. -/
def Only (allowed : Statement → Prop) : Txn Value → Prop
  | .done _ => True
  | .lockSession ref next => allowed (.lockSession ref) ∧ ∀ answer, (next answer).Only allowed
  | .lockRun query next => allowed (.lockRun query) ∧ ∀ answer, (next answer).Only allowed
  | .lockSkipping selected next =>
    allowed (.lockSkipping selected) ∧ ∀ runs, (next runs).Only allowed
  | .readRun query next => allowed (.readRun query) ∧ ∀ answer, (next answer).Only allowed
  | .readCount query next => allowed (.readCount query) ∧ ∀ count, (next count).Only allowed
  | .insertRun run next => allowed (.insertRun run) ∧ next.Only allowed
  | .write change next => allowed (.write change) ∧ next.Only allowed

theorem bind_def (transaction : Txn Value) (rest : Value → Txn Other) :
    transaction >>= rest = transaction.bind rest := rfl

theorem Only.bind {transaction : Txn Value} {rest : Value → Txn Other}
    (only : transaction.Only allowed) (following : ∀ value, (rest value).Only allowed) :
    (transaction >>= rest).Only allowed := by
  rw [bind_def]
  induction transaction with
  | done result =>
    cases result with
    | ok value => exact following value
    | error error => exact trivial
  | lockSession _ _ ih | lockRun _ _ ih | lockSkipping _ _ ih | readRun _ _ ih
  | readCount _ _ ih => exact ⟨only.1, fun answer => ih answer (only.2 answer)⟩
  | insertRun _ _ ih | write _ _ ih => exact ⟨only.1, ih only.2⟩

theorem Only.mono {transaction : Txn Value} (only : transaction.Only allowed)
    (included : ∀ statement, allowed statement → wider statement) : transaction.Only wider := by
  induction transaction with
  | done _ => exact trivial
  | lockSession _ _ ih | lockRun _ _ ih | lockSkipping _ _ ih | readRun _ _ ih
  | readCount _ _ ih => exact ⟨included _ only.1, fun answer => ih answer (only.2 answer)⟩
  | insertRun _ _ ih | write _ _ ih => exact ⟨included _ only.1, ih only.2⟩

theorem only_lift (result : Except PyException Value) : (lift result).Only allowed := trivial

/-- A check goes on with what follows, or raises. -/
theorem lift_bind {good : Txn Other → Prop} {rest : Unit → Txn Other}
    {result : Except PyException Unit} (raised : ∀ error, good (.done (.error error)))
    (following : result = .ok () → good (rest ())) : good (lift result >>= rest) := by
  cases result with
  | ok value => exact following rfl
  | error error => exact raised error

/-- An insert is the last statement of the transaction. -/
def InsertsLast : Txn Value → Prop
  | .done _ => True
  | .lockSession _ next => ∀ answer, (next answer).InsertsLast
  | .lockRun _ next => ∀ answer, (next answer).InsertsLast
  | .lockSkipping _ next => ∀ runs, (next runs).InsertsLast
  | .readRun _ next => ∀ answer, (next answer).InsertsLast
  | .readCount _ next => ∀ count, (next count).InsertsLast
  | .insertRun _ next => ∃ result, next = .done result
  | .write _ next => next.InsertsLast

theorem InsertsLast.bind {transaction : Txn Value} {rest : Value → Txn Other}
    (last : transaction.InsertsLast) (ends : ∀ value, ∃ result, rest value = .done result) :
    (transaction >>= rest).InsertsLast := by
  rw [bind_def]
  induction transaction with
  | done result =>
    cases result with
    | ok value =>
      obtain ⟨result, same⟩ := ends value
      simp only [Txn.bind, same]
      exact trivial
    | error error => exact trivial
  | lockSession _ _ ih | lockRun _ _ ih | lockSkipping _ _ ih | readRun _ _ ih
  | readCount _ _ ih => exact fun answer => ih answer (last answer)
  | insertRun run next _ =>
    obtain ⟨result, rfl⟩ := last
    cases result with
    | ok value => exact ends value
    | error error => exact ⟨_, rfl⟩
  | write _ _ ih => exact ih last

/-- A transaction that inserts nothing inserts nothing but last. -/
theorem Only.insertsLast {transaction : Txn Value}
    (only : transaction.Only fun statement => ¬ statement.Inserts) : transaction.InsertsLast := by
  induction transaction with
  | done _ => exact trivial
  | lockSession _ _ ih | lockRun _ _ ih | lockSkipping _ _ ih | readRun _ _ ih
  | readCount _ _ ih => exact fun answer => ih answer (only.2 answer)
  | insertRun _ _ _ => exact (only.1 trivial).elim
  | write _ _ ih => exact ih only.2

end Txn

/-- The change writes the row or the log of the run. -/
def Change.Touches (ref : String) : Change → Prop
  | .run written => written.id = ref
  | .event appended => appended.runId = ref
  | _ => False

/-- The calls that write messages. -/
def LockingCall.Rewrites : LockingCall → Prop
  | appendMessage .. | clearSession _ | commitRunSuccess .. => True
  | _ => False

/-- The call creates a session under a new identifier. -/
def LockingCall.Creates (call : LockingCall) (ambient : Ambient) (created : SessionRecord) : Prop :=
  ∃ request, call = reserveRun request ∧ request.sessionId = none ∧
    created = implicitSession request ambient

/-- A row as the call writes it: messages are committed ones, and the generated columns of
messages and events are drawn from its surroundings. -/
def Change.WrittenBy (call : LockingCall) (ambient : Ambient) : Change → Prop
  | .message added => call.Rewrites ∧ added.committed = true ∧
      (∃ index, added.id = ambient.uuid4 index) ∧ ∃ index, added.createdAt = ambient.utcNow index
  | .event appended => ∃ index, appended.createdAt = ambient.utcNow index
  | .session record => call.Rewrites ∨ call.Creates ambient record
  | .deleteMessages _ => call.Rewrites
  | .run _ => True

/-- The calls that write runs or events. -/
def LockingCall.Progresses : LockingCall → Prop
  | reserveRun _ | appendMessage .. | clearSession _ => False
  | _ => True

def LockingCall.IsReserve : LockingCall → Prop
  | reserveRun _ => True
  | _ => False

/-- A statement as the call makes it: only a reservation inserts, an active run. -/
def Statement.MadeBy (call : LockingCall) (ambient : Ambient) : Statement → Prop
  | .insertRun run => call.IsReserve ∧ run.Active
  | .write change => change.WrittenBy call ambient ∧
      (call.Progresses ∨ ∀ ref, ¬ change.Touches ref)
  | _ => True

theorem Statement.MadeBy.inserts {statement : Statement} (made : statement.MadeBy call ambient)
    (inserts : statement.Inserts) : call.IsReserve := by
  cases statement with
  | insertRun => exact made.1
  | _ => exact inserts.elim

section Parts

variable {allowed : Statement → Prop}

theorem lockedSession_only (locks : allowed (.lockSession ref)) :
    (lockedSession ref).Only allowed := by
  refine ⟨locks, fun answer => ?_⟩
  cases answer <;> exact trivial

theorem lockedRun_only (locks : allowed (.lockRun (.byId ref))) :
    (lockedRun ref).Only allowed := by
  refine ⟨locks, fun answer => ?_⟩
  cases answer <;> exact trivial

theorem activeRun_only (reads : ∀ query, allowed (.readRun query)) :
    (activeRun ref).Only allowed := ⟨reads _, fun _ => trivial⟩

theorem idempotentRun_only (key : Option String) (lock : Bool)
    (locks : lock = true → ∀ query, allowed (.lockRun query))
    (reads : ∀ query, allowed (.readRun query)) : (idempotentRun key lock).Only allowed := by
  cases key with
  | none => exact trivial
  | some key =>
    cases lock with
    | false => exact ⟨reads _, fun _ => trivial⟩
    | true => exact ⟨locks rfl _, fun _ => trivial⟩

theorem idempotentReservation_only (model : AgentRun) (requestHash : String) :
    (idempotentReservation model requestHash).Only allowed := by
  unfold idempotentReservation
  split <;> exact trivial

theorem appendEvent_only (counts : ∀ query, allowed (.readCount query))
    (writes : ∀ event : StreamEvent, event.createdAt = now → allowed (.write (.event event))) :
    (appendEvent owner type payload ref now).Only allowed :=
  ⟨counts _, fun _ => ⟨writes _ rfl, trivial⟩⟩

theorem publishRun_only (updates : allowed (.write (.run changed)))
    (counts : ∀ query, allowed (.readCount query))
    (writes : ∀ event : StreamEvent, event.createdAt = now → allowed (.write (.event event))) :
    (publishRun changed type payload ref now).Only allowed :=
  ⟨updates, counts _, fun _ => ⟨writes _ rfl, trivial⟩⟩

theorem interruptEach_only (updates : ∀ run, allowed (.write (.run run)))
    (counts : ∀ query, allowed (.readCount query))
    (writes : ∀ (event : StreamEvent) (index : Nat), event.createdAt = ambient.utcNow index →
      allowed (.write (.event event))) (index : Nat) (runs : List AgentRun) :
    (interruptEach ambient index runs).Only allowed := by
  induction runs generalizing index with
  | nil => exact trivial
  | cons first rest ih =>
    refine (Txn.only_lift _).bind fun _ => ?_
    refine Txn.Only.bind ?_ fun _ => ih (index + 1)
    exact publishRun_only (updates _) counts fun event => writes event _

theorem resolveReservationRace_only (reads : ∀ query, allowed (.readRun query))
    (request : ReserveRunRequest) (ambient : Ambient) :
    (resolveReservationRace request ambient).Only allowed := by
  refine (idempotentRun_only _ false (fun locked => by cases locked) reads).bind fun existing => ?_
  cases existing with
  | some existing => exact idempotentReservation_only _ _
  | none =>
    refine (activeRun_only reads).bind fun active => ?_
    cases active <;> exact trivial

end Parts

section Made

variable {ambient : Ambient} {call : LockingCall}

theorem publishRun_made (progresses : call.Progresses) (changed : AgentRun)
    (type : StreamEventType) (payload : JsonObject) (ref : String) (index : Nat) :
    (publishRun changed type payload ref (ambient.utcNow index)).Only
      (Statement.MadeBy call ambient) :=
  publishRun_only ⟨trivial, .inl progresses⟩ (fun _ => trivial)
    fun _ same => ⟨⟨index, same⟩, .inl progresses⟩

private theorem reserveLocked_made (reserves : call.IsReserve) (request : ReserveRunRequest) :
    (reserveLocked request ambient).Only (Statement.MadeBy call ambient) := by
  refine (idempotentRun_only _ true (fun _ _ => trivial) fun _ => trivial).bind fun existing => ?_
  cases existing with
  | some existing => exact idempotentReservation_only _ _
  | none =>
    refine (activeRun_only fun _ => trivial).bind fun active => ?_
    cases active with
    | some active => exact trivial
    | none =>
      refine ⟨⟨reserves, ?_⟩, trivial⟩
      simp [runModel, InMemorySessionStore.pendingRun, AgentRun.Active,
        activeRunStatuses]

private theorem reserveRun_made (request : ReserveRunRequest) :
    (reserveRun request ambient).Only (Statement.MadeBy (.reserveRun request) ambient) := by
  refine (idempotentRun_only _ true (fun _ _ => trivial) fun _ => trivial).bind fun existing => ?_
  cases existing with
  | some existing => exact idempotentReservation_only _ _
  | none =>
    simp only [reserveSession]
    split
    · next missing =>
      exact ⟨⟨.inr ⟨request, rfl, missing, rfl⟩, .inr fun _ => id⟩,
        reserveLocked_made (by trivial) request⟩
    · exact (lockedSession_only trivial).bind fun _ => reserveLocked_made (by trivial) request

private theorem commitRunSuccess_made (runId : String) (request : CommitRunRequest) :
    (commitRunSuccess runId request ambient).Only
      (Statement.MadeBy (.commitRunSuccess runId request) ambient) := by
  refine (lockedRun_only trivial).bind fun run => (Txn.only_lift _).bind fun _ => ?_
  refine (lockedSession_only trivial).bind fun record => ⟨trivial, fun last => ?_⟩
  refine ⟨⟨⟨trivial, rfl, ⟨0, rfl⟩, 0, rfl⟩, .inl trivial⟩, ?_⟩
  refine ⟨⟨⟨trivial, rfl, ⟨1, rfl⟩, 1, rfl⟩, .inl trivial⟩, ⟨.inl trivial, .inl trivial⟩, ?_⟩
  exact publishRun_made (by trivial) _ _ _ _ 3

private theorem interruptMatching_made (progresses : call.Progresses) (workerInstanceId : String)
    (sameWorker : Bool) :
    (interruptMatching workerInstanceId sameWorker ambient).Only
      (Statement.MadeBy call ambient) := by
  have each (runs : List AgentRun) :
      (interruptEach ambient 0 runs).Only (Statement.MadeBy call ambient) :=
    interruptEach_only (fun _ => ⟨trivial, .inl progresses⟩) (fun _ => trivial)
      (fun _ index same => ⟨⟨index, same⟩, .inl progresses⟩) 0 runs
  exact ⟨trivial, fun runs => (each runs).bind fun _ => trivial⟩

theorem LockingCall.transaction_made (call : LockingCall) (ambient : Ambient) :
    (call.transaction ambient).Only (Statement.MadeBy call ambient) := by
  cases call with
  | reserveRun request => exact (reserveRun_made request).bind fun _ => trivial
  | appendMessage sessionId role content metadata =>
    refine Txn.Only.bind ((lockedSession_only trivial).bind fun record => ?_) fun _ => trivial
    refine (activeRun_only fun _ => trivial).bind fun active => ?_
    cases active with
    | some active => exact trivial
    | none =>
      refine ⟨trivial, fun _ => ⟨⟨⟨trivial, rfl, ⟨0, rfl⟩, 0, rfl⟩, .inr fun _ => id⟩, ?_⟩⟩
      exact ⟨⟨.inl trivial, .inr fun _ => id⟩, trivial⟩
  | clearSession sessionId =>
    refine Txn.Only.bind ((lockedSession_only trivial).bind fun record => ?_) fun _ => trivial
    refine (activeRun_only fun _ => trivial).bind fun active => ?_
    cases active with
    | some active => exact trivial
    | none =>
      exact ⟨⟨trivial, .inr fun _ => id⟩, ⟨.inl trivial, .inr fun _ => id⟩, trivial⟩
  | markRunRunning runId workerInstanceId =>
    refine Txn.Only.bind ((lockedRun_only trivial).bind fun run => ?_) fun _ => trivial
    exact (Txn.only_lift _).bind fun _ => publishRun_made (by trivial) _ _ _ _ 1
  | incrementRunAttempt runId =>
    refine Txn.Only.bind ((lockedRun_only trivial).bind fun run => ?_) fun _ => trivial
    split
    · exact (Txn.only_lift _).bind fun _ => ⟨⟨trivial, .inl trivial⟩, trivial⟩
    · exact ⟨⟨trivial, .inl trivial⟩, trivial⟩
  | appendStreamEvent runId type payload =>
    refine Txn.Only.bind ((lockedRun_only trivial).bind fun run => ?_) fun _ => trivial
    exact appendEvent_only (fun _ => trivial) fun _ same => ⟨⟨0, same⟩, .inl trivial⟩
  | commitRunSuccess runId request =>
    exact (commitRunSuccess_made runId request).bind fun _ => trivial
  | failRun runId errorCode =>
    refine Txn.Only.bind ((lockedRun_only trivial).bind fun run => ?_) fun _ => trivial
    split
    · exact trivial
    · exact (Txn.only_lift _).bind fun _ => publishRun_made (by trivial) _ _ _ _ 1
  | cancelRun runId workerInstanceId =>
    refine Txn.Only.bind ((lockedRun_only trivial).bind fun run => ?_) fun _ => trivial
    split
    · exact trivial
    split
    · exact trivial
    split
    · exact trivial
    · refine (Txn.only_lift _).bind fun _ => ?_
      exact (publishRun_made (by trivial) _ _ _ _ 1).bind fun _ => trivial
  | interruptWorkerRuns workerInstanceId =>
    exact (interruptMatching_made (by trivial) workerInstanceId true).bind fun _ => trivial
  | reconcileOrphanedRuns workerInstanceId =>
    exact (interruptMatching_made (by trivial) workerInstanceId false).bind fun _ => trivial

/-- The recovery of a reservation looks runs up and does nothing else. -/
theorem LockingCall.recovery_only {allowed : Statement → Prop} {recovered : Txn Reply}
    (recovers : call.recovery ambient = some recovered)
    (reads : ∀ query, allowed (.readRun query)) : recovered.Only allowed := by
  cases call with
  | reserveRun request =>
    cases recovers
    exact (resolveReservationRace_only reads request ambient).bind fun _ => trivial
  | _ => cases recovers

end Made

/-- What the statement writes, if it writes anything, is allowed. -/
def Statement.Flushes (allowed : Change → Prop) : Statement → Prop
  | .insertRun run => allowed (.run run)
  | .write change => allowed change
  | _ => True

/-- Every row that the transaction may write is an allowed one. -/
def Txn.Flushes {Value : Type} (allowed : Change → Prop) (transaction : Txn Value) : Prop :=
  transaction.Only (Statement.Flushes allowed)

theorem Txn.Flushes.mono {Value : Type} {allowed wider : Change → Prop} {transaction : Txn Value}
    (flushes : transaction.Flushes allowed) (included : ∀ change, allowed change → wider change) :
    transaction.Flushes wider := by
  refine Txn.Only.mono flushes fun statement writes => ?_
  cases statement with
  | insertRun | write => exact included _ writes
  | _ => exact trivial

theorem LockingCall.transaction_flushes (call : LockingCall) (ambient : Ambient) :
    (call.transaction ambient).Flushes (Change.WrittenBy call ambient) := by
  refine (call.transaction_made ambient).mono fun statement made => ?_
  cases statement with
  | insertRun => exact trivial
  | write => exact made.1
  | _ => exact trivial

theorem LockingCall.recovery_flushes {call : LockingCall} {allowed : Change → Prop}
    {recovered : Txn Reply} (recovers : call.recovery ambient = some recovered) :
    recovered.Flushes allowed := recovery_only recovers fun _ => trivial

section Inserts

theorem idempotentReservation_insertsLast (model : AgentRun) (requestHash : String) :
    (idempotentReservation model requestHash).InsertsLast :=
  (idempotentReservation_only model requestHash).insertsLast

theorem idempotentRun_insertsLast {Value : Type} {rest : Option AgentRun → Txn Value}
    (following : ∀ answer, (rest answer).InsertsLast) :
    (idempotentRun key true >>= rest).InsertsLast := by
  cases key with
  | none => exact following none
  | some key => exact following

private theorem reserveLocked_insertsLast (request : ReserveRunRequest) (ambient : Ambient) :
    (reserveLocked request ambient).InsertsLast := by
  refine idempotentRun_insertsLast fun answer => ?_
  cases answer with
  | some existing => exact idempotentReservation_insertsLast existing _
  | none =>
    intro active
    cases active with
    | some run => exact trivial
    | none => exact ⟨_, rfl⟩

private theorem reserveRun_insertsLast (request : ReserveRunRequest) (ambient : Ambient) :
    (reserveRun request ambient).InsertsLast := by
  refine idempotentRun_insertsLast fun answer => ?_
  cases answer with
  | some existing => exact idempotentReservation_insertsLast existing _
  | none =>
    simp only [reserveSession]
    split
    · exact reserveLocked_insertsLast request ambient
    · intro answer
      cases answer with
      | none => exact trivial
      | some record => exact reserveLocked_insertsLast request ambient

theorem LockingCall.transaction_insertsLast (call : LockingCall) (ambient : Ambient) :
    (call.transaction ambient).InsertsLast := by
  cases call with
  | reserveRun request => exact (reserveRun_insertsLast request ambient).bind fun _ => ⟨_, rfl⟩
  | _ =>
    refine ((LockingCall.transaction_made _ ambient).mono ?_).insertsLast
    exact fun _ made inserts => made.inserts inserts

theorem LockingCall.recovery_insertsLast {call : LockingCall} {transaction : Txn Reply}
    (recovers : call.recovery ambient = some transaction) : transaction.InsertsLast :=
  (recovery_only recovers fun _ => id).insertsLast

end Inserts

end DayuAgent
