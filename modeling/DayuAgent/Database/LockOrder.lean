import DayuAgent.Database.Statements
import DayuAgent.Library.Waiting

namespace DayuAgent

open Library SQLAlchemyRuntimeStore

def LockingCall.IsCommit : LockingCall → Prop
  | commitRunSuccess _ _ => True
  | _ => False

def Statement.Locks : Statement → Prop
  | .lockSession _ | .lockRun _ | .lockSkipping _ => True
  | _ => False

namespace Txn

variable {Value Other : Type}

/-- The transaction locks no further row. -/
def LockFree (transaction : Txn Value) : Prop :=
  transaction.Only fun statement => ¬ statement.Locks

/-- Which second lock a transaction may wait for while it holds the first. -/
structure Nesting where
  runUnderSession : Prop
  sessionUnderRun : Prop

/-- The transaction never waits for a second row of one kind, and for a row of the
other kind only as its nesting says; the flags tell which kinds it holds. -/
def Ordered (nesting : Nesting) (session run : Bool) : Txn Value → Prop
  | .done _ => True
  | .lockSession _ next => session = false ∧ (run = true → nesting.sessionUnderRun) ∧
      (next none).Ordered nesting session run ∧
      ∀ record, (next (some record)).Ordered nesting true run
  | .lockRun _ next => run = false ∧ (session = true → nesting.runUnderSession) ∧
      (next none).Ordered nesting session run ∧
      ∀ found, (next (some found)).Ordered nesting session true
  | .lockSkipping _ next => ∀ answer, (next answer).Ordered nesting session true
  | .readRun _ next => ∀ answer, (next answer).Ordered nesting session run
  | .readCount _ next => ∀ answer, (next answer).Ordered nesting session run
  | .insertRun _ next => next.Ordered nesting session run
  | .write _ next => next.Ordered nesting session run

theorem LockFree.ordered {transaction : Txn Value} (free : transaction.LockFree) :
    transaction.Ordered nesting session run := by
  induction transaction with
  | done _ => exact trivial
  | lockSession _ _ _ | lockRun _ _ _ | lockSkipping _ _ _ => exact (free.1 trivial).elim
  | readRun _ _ ih | readCount _ _ ih => exact fun answer => ih answer (free.2 answer)
  | insertRun _ _ ih | write _ _ ih => exact ih free.2

/-- A part that locks nothing may follow any ordered part. -/
theorem Ordered.bind {transaction : Txn Value} {rest : Value → Txn Other}
    (ordered : transaction.Ordered nesting session run) (free : ∀ value, (rest value).LockFree) :
    (transaction >>= rest).Ordered nesting session run := by
  rw [bind_def]
  induction transaction generalizing session run with
  | done result =>
    cases result with
    | ok value => exact (free value).ordered
    | error error => exact trivial
  | lockSession _ _ ih =>
    obtain ⟨single, nested, missing, found⟩ := ordered
    exact ⟨single, nested, ih none missing, fun record => ih (some record) (found record)⟩
  | lockRun _ _ ih =>
    obtain ⟨single, nested, missing, found⟩ := ordered
    exact ⟨single, nested, ih none missing, fun existing => ih (some existing) (found existing)⟩
  | lockSkipping _ _ ih => exact fun answer => ih answer (ordered answer)
  | readRun _ _ ih => exact fun answer => ih answer (ordered answer)
  | readCount _ _ ih => exact fun answer => ih answer (ordered answer)
  | insertRun _ _ ih => exact ih ordered
  | write _ _ ih => exact ih ordered

end Txn

section Parts

variable {Value : Type} {nesting : Txn.Nesting} {session run : Bool}

theorem publishRun_lockFree (changed : AgentRun) (type : StreamEventType) (payload : JsonObject)
    (ref : String) (now : Time) : (publishRun changed type payload ref now).LockFree :=
  publishRun_only id (fun _ => id) fun _ _ => id

theorem lockedSession_ordered {rest : SessionRecord → Txn Value} (free : run = true →
      nesting.sessionUnderRun) (ordered : ∀ record, (rest record).Ordered nesting true run) :
    (lockedSession sessionId >>= rest).Ordered nesting false run :=
  ⟨rfl, free, trivial, ordered⟩

theorem lockedRun_ordered {rest : AgentRun → Txn Value}
    (ordered : ∀ found, (rest found).Ordered nesting false true) :
    (lockedRun runId >>= rest).Ordered nesting false false :=
  ⟨rfl, (nomatch ·), trivial, ordered⟩

/-- A transaction that locks one run and no other row. -/
theorem lockedRun_lockFree {rest : AgentRun → Txn Value} (free : ∀ found, (rest found).LockFree) :
    (lockedRun runId >>= rest).Ordered nesting false false :=
  lockedRun_ordered fun found => (free found).ordered

/-- A transaction that checks a session under its row lock. -/
theorem checked_ordered {rest : SessionRecord → Txn Value}
    (free : ∀ record, (rest record).LockFree) :
    (lockedSession sessionId >>= rest).Ordered nesting false false :=
  lockedSession_ordered (nomatch ·) fun record => (free record).ordered

theorem activeRun_lockFree {rest : Option AgentRun → Txn Value}
    (free : ∀ answer, (rest answer).LockFree) : (activeRun sessionId >>= rest).LockFree :=
  (activeRun_only fun _ => id).bind free

private theorem reserveIdle_lockFree (request : ReserveRunRequest) (ambient : Ambient) :
    (reserveIdle request ambient).LockFree := by
  refine activeRun_lockFree fun answer => ?_
  cases answer with
  | none => exact ⟨id, trivial⟩
  | some active => exact trivial

/-- A key lookup locks at most the run it finds. -/
theorem idempotentRun_ordered {rest : Option AgentRun → Txn Value}
    (nested : session = true → nesting.runUnderSession)
    (found : ∀ existing, (rest (some existing)).LockFree)
    (missing : (rest none).Ordered nesting session false) :
    (idempotentRun key true >>= rest).Ordered nesting session false := by
  cases key with
  | none => exact missing
  | some key => exact ⟨rfl, nested, missing, fun existing => (found existing).ordered⟩

end Parts

section Transactions

variable {nesting : Txn.Nesting}

private theorem reserveLocked_ordered (nested : nesting.runUnderSession)
    (request : ReserveRunRequest)
    (ambient : Ambient) (session : Bool) :
    (reserveLocked request ambient).Ordered nesting session false := by
  refine idempotentRun_ordered (fun _ => nested) ?_ ?_
  · exact fun existing => idempotentReservation_only existing request.requestHash
  · exact (reserveIdle_lockFree request ambient).ordered

private theorem reserveSession_ordered (nested : nesting.runUnderSession)
    (request : ReserveRunRequest)
    (ambient : Ambient) : (reserveSession request ambient).Ordered nesting false false := by
  unfold reserveSession
  split
  · exact reserveLocked_ordered nested request ambient false
  · exact lockedSession_ordered (nomatch ·)
      fun _ => reserveLocked_ordered nested request ambient true

theorem reserveRun_ordered (nested : nesting.runUnderSession) (request : ReserveRunRequest)
    (ambient : Ambient) : (reserveRun request ambient).Ordered nesting false false := by
  refine idempotentRun_ordered (nomatch ·) ?_ ?_
  · exact fun existing => idempotentReservation_only existing request.requestHash
  · exact reserveSession_ordered nested request ambient

theorem appendMessage_ordered (sessionId : String) (role : MessageRole) (content : String)
    (metadata : Option JsonObject) (ambient : Ambient) :
    (appendMessage sessionId role content metadata ambient).Ordered nesting false false := by
  refine checked_ordered fun record => activeRun_lockFree fun answer => ?_
  cases answer with
  | none => exact ⟨id, fun _ => ⟨id, id, trivial⟩⟩
  | some active => exact trivial

theorem clearSession_ordered (sessionId : String) (ambient : Ambient) :
    (clearSession sessionId ambient).Ordered nesting false false := by
  refine checked_ordered fun record => activeRun_lockFree fun answer => ?_
  cases answer with
  | none => exact ⟨id, id, trivial⟩
  | some active => exact trivial

theorem markRunRunning_ordered (runId workerInstanceId : String) (ambient : Ambient) :
    (markRunRunning runId workerInstanceId ambient).Ordered nesting false false :=
  lockedRun_lockFree fun _ => (Txn.only_lift _).bind fun _ => publishRun_lockFree _ _ _ _ _

theorem incrementRunAttempt_ordered (runId : String) :
    (incrementRunAttempt runId).Ordered nesting false false := by
  refine lockedRun_lockFree fun found => ?_
  split
  · exact (Txn.only_lift _).bind fun _ => ⟨id, trivial⟩
  · exact ⟨id, trivial⟩

theorem appendStreamEvent_ordered (runId : String) (type : StreamEventType)
    (payload : JsonObject) (ambient : Ambient) :
    (appendStreamEvent runId type payload ambient).Ordered nesting false false :=
  lockedRun_lockFree fun _ => appendEvent_only (fun _ => id) fun _ _ => id

/-- The one transaction that takes a session row after a run row. -/
theorem commitRunSuccess_ordered (nested : nesting.sessionUnderRun) (runId : String)
    (request : CommitRunRequest) (ambient : Ambient) :
    (commitRunSuccess runId request ambient).Ordered nesting false false := by
  refine lockedRun_ordered fun found => Txn.lift_bind (fun _ => trivial) fun _ => ?_
  refine lockedSession_ordered (fun _ => nested) fun record => ?_
  exact fun _ => fun _ => trivial

private theorem failRun_ordered (runId errorCode : String) (ambient : Ambient) :
    (failRun runId errorCode ambient).Ordered nesting false false := by
  refine lockedRun_lockFree fun found => ?_
  split
  · exact trivial
  · exact (Txn.only_lift _).bind fun _ => publishRun_lockFree _ _ _ _ _

private theorem cancelRun_ordered (runId workerInstanceId : String) (ambient : Ambient) :
    (cancelRun runId workerInstanceId ambient).Ordered nesting false false := by
  refine lockedRun_lockFree fun found => ?_
  split
  · exact trivial
  split
  · exact trivial
  split
  · exact trivial
  · refine (Txn.only_lift _).bind fun _ => ?_
    refine (publishRun_lockFree _ _ _ _ _).bind fun _ => ?_
    exact trivial

/-- The interrupts skip locked rows and so wait for none. -/
theorem interruptMatching_ordered (workerInstanceId : String) (sameWorker : Bool)
    (ambient : Ambient) :
    (interruptMatching workerInstanceId sameWorker ambient).Ordered nesting false false := by
  intro runs
  have free : (interruptEach ambient 0 runs).LockFree :=
    interruptEach_only (fun _ => id) (fun _ => id) (fun _ _ _ => id) 0 runs
  exact Txn.LockFree.ordered (free.bind fun _ => trivial)

end Transactions

/-- A reservation may wait for a run under a session, a commit for a session under a run. -/
def LockingCall.nesting (call : LockingCall) : Txn.Nesting where
  runUnderSession := call.IsReserve
  sessionUnderRun := call.IsCommit

theorem LockingCall.transaction_ordered (call : LockingCall) (ambient : Ambient) :
    (call.transaction ambient).Ordered call.nesting false false := by
  cases call with
  | reserveRun request => exact (reserveRun_ordered trivial request ambient).bind fun _ => trivial
  | appendMessage => exact (appendMessage_ordered _ _ _ _ _).bind fun _ => trivial
  | clearSession => exact (clearSession_ordered _ _).bind fun _ => trivial
  | markRunRunning => exact (markRunRunning_ordered _ _ _).bind fun _ => trivial
  | incrementRunAttempt => exact (incrementRunAttempt_ordered _).bind fun _ => trivial
  | appendStreamEvent => exact (appendStreamEvent_ordered _ _ _ _).bind fun _ => trivial
  | commitRunSuccess =>
    exact (commitRunSuccess_ordered trivial _ _ _).bind fun _ => trivial
  | failRun => exact (failRun_ordered _ _ _).bind fun _ => trivial
  | cancelRun => exact (cancelRun_ordered _ _ _).bind fun _ => trivial
  | interruptWorkerRuns => exact (interruptMatching_ordered _ _ _).bind fun _ => trivial
  | reconcileOrphanedRuns => exact (interruptMatching_ordered _ _ _).bind fun _ => trivial

theorem LockingCall.recovery_lockFree {call : LockingCall} {transaction : Txn Reply}
    (recovers : call.recovery ambient = some transaction) : transaction.LockFree :=
  recovery_only recovers fun _ => id

end DayuAgent
