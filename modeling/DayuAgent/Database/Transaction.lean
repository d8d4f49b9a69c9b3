import Mathlib.Logic.Function.Basic
import DayuAgent.Memory.Store

/-! Transactions of the PostgreSQL store under READ COMMITTED. Every statement is one
step of its own; row locks are exclusive and held until the transaction ends. -/

namespace DayuAgent

open Library

/-- The committed rows of the four tables. -/
structure Database where
  sessions : Dict String SessionRecord
  runs : Dict String AgentRun
  messages : List AgentMessage
  events : List StreamEvent

/-- One flushed write of a transaction that is not committed yet. -/
inductive Change where
  | session (record : SessionRecord)
  | run (run : AgentRun)
  | message (message : AgentMessage)
  | deleteMessages (sessionId : String)
  | event (event : StreamEvent)

namespace Database

def empty : Database := ⟨.empty, .empty, [], []⟩

def apply (database : Database) : Change → Database
  | .session record => { database with sessions := database.sessions.set record.id record }
  | .run run => { database with runs := database.runs.set run.id run }
  | .message message => { database with messages := database.messages ++ [message] }
  | .deleteMessages sessionId =>
    { database with
      messages := database.messages.filter fun message => message.sessionId ≠ some sessionId }
  | .event event => { database with events := database.events ++ [event] }

def applyAll (database : Database) (changes : List Change) : Database :=
  changes.foldl apply database

end Database

/-- A row that a statement can lock. -/
inductive Row where
  | session (id : String)
  | run (id : String)
  deriving Repr, DecidableEq

/-- How a locking statement finds a run. -/
inductive RunQuery where
  | byId (id : String)
  | byKey (key : String)

def RunQuery.find (query : RunQuery) (database : Database) : Option AgentRun :=
  match query with
  | .byId id => database.runs.get? id
  | .byKey key => database.runs.values.find? fun run => run.idempotencyKey = some key

/-- The rest of a transaction: its next statement and what follows each answer. -/
inductive Txn (Value : Type) where
  | done (result : Except PyException Value)
  | lockSession (id : String) (next : Option SessionRecord → Txn Value)
  | lockRun (query : RunQuery) (next : Option AgentRun → Txn Value)
  | lockSkipping (selected : AgentRun → Bool) (next : List AgentRun → Txn Value)
  | readRun (query : Database → Option AgentRun) (next : Option AgentRun → Txn Value)
  | readCount (query : Database → Nat) (next : Nat → Txn Value)
  | insertRun (run : AgentRun) (next : Txn Value)
  | write (change : Change) (next : Txn Value)

namespace Txn

variable {Value Other : Type}

def bind : Txn Value → (Value → Txn Other) → Txn Other
  | .done (.ok value), rest => rest value
  | .done (.error error), _ => .done (.error error)
  | .lockSession id next, rest => .lockSession id fun answer => (next answer).bind rest
  | .lockRun query next, rest => .lockRun query fun answer => (next answer).bind rest
  | .lockSkipping selected next, rest =>
    .lockSkipping selected fun answer => (next answer).bind rest
  | .readRun query next, rest => .readRun query fun answer => (next answer).bind rest
  | .readCount query next, rest => .readCount query fun answer => (next answer).bind rest
  | .insertRun run next, rest => .insertRun run (next.bind rest)
  | .write change next, rest => .write change (next.bind rest)

instance : Monad Txn where
  pure value := .done (.ok value)
  bind := Txn.bind

def raise (error : PyException) : Txn Value := .done (.error error)

def lift (result : Except PyException Value) : Txn Value := .done result

/-- Flush one write. -/
def flush (change : Change) : Txn Unit := .write change (.done (.ok ()))

end Txn

/-- A transaction runs until its block is left and its outcome reaches the caller. -/
inductive Activity (Value : Type) where
  | running (transaction : Txn Value)
  | finished (result : Except PyException Value)

/-- One store call. A uniqueness violation rolls back and starts the recovery, if
the call has one, in a transaction of its own. -/
structure Process (Value : Type) where
  activity : Activity Value
  recovery : Option (Txn Value)
  pending : List Change

/-- Committed rows, row locks, uncommitted inserts of runs, and the store calls. -/
structure Cluster (Value : Type) where
  database : Database
  locks : Row → Option Nat
  inserting : List (Nat × AgentRun)
  processes : Nat → Process Value

/-- The unique indexes on the primary key, the idempotency key and the session of
an active run reject one of the two rows. -/
def Conflicts (run other : AgentRun) : Prop :=
  run.id = other.id ∨
  (run.idempotencyKey.isSome ∧ run.idempotencyKey = other.idempotencyKey) ∨
  (run.sessionId = other.sessionId ∧ run.Active ∧ other.Active)

instance (run other : AgentRun) : Decidable (Conflicts run other) :=
  inferInstanceAs (Decidable (_ ∨ _ ∨ _))

namespace Cluster

variable {Value : Type}

/-- What a statement of the process sees: committed rows and its own writes. -/
def view (cluster : Cluster Value) (process : Nat) : Database :=
  cluster.database.applyAll (cluster.processes process).pending

def update (cluster : Cluster Value) (process : Nat) (changed : Process Value) : Cluster Value :=
  { cluster with processes := Function.update cluster.processes process changed }

/-- Go on with the rest of the transaction. -/
def advance (cluster : Cluster Value) (process : Nat) (rest : Txn Value) : Cluster Value :=
  cluster.update process { cluster.processes process with activity := .running rest }

/-- The row is free, or locked by the process itself. -/
def Available (cluster : Cluster Value) (process : Nat) (row : Row) : Prop :=
  cluster.locks row = none ∨ cluster.locks row = some process

instance (cluster : Cluster Value) (process : Nat) (row : Row) :
    Decidable (cluster.Available process row) := inferInstanceAs (Decidable (_ ∨ _))

def acquire (cluster : Cluster Value) (process : Nat) (row : Row) : Cluster Value :=
  { cluster with locks := Function.update cluster.locks row (some process) }

/-- Lock one row and go on, unless another transaction holds it. -/
def acquireThen (cluster : Cluster Value) (process : Nat) (row : Row) (rest : Txn Value) :
    Option (Cluster Value) :=
  if cluster.Available process row then some ((cluster.acquire process row).advance process rest)
  else none

/-- End the transaction: its locks and uncommitted inserts are gone. -/
def release (cluster : Cluster Value) (process : Nat) (after : Process Value) : Cluster Value :=
  { cluster with
    locks := fun row => if cluster.locks row = some process then none else cluster.locks row
    inserting := cluster.inserting.filter fun entry => entry.1 ≠ process
    processes := Function.update cluster.processes process after }

def commit (cluster : Cluster Value) (process : Nat) (value : Value) : Cluster Value :=
  { cluster.release process { activity := .finished (.ok value), recovery := none, pending := [] }
    with database := cluster.view process }

def rollback (cluster : Cluster Value) (process : Nat) (error : PyException) : Cluster Value :=
  cluster.release process { activity := .finished (.error error), recovery := none, pending := [] }

def databaseError (operation : String) : PyException :=
  .of .databaseUnavailableError [("operation", .str operation)]

/-- A uniqueness violation rolls back and hands over to the recovery. -/
def violated (cluster : Cluster Value) (process : Nat) : Cluster Value :=
  match (cluster.processes process).recovery with
  | some recovery =>
    cluster.release process { activity := .running recovery, recovery := none, pending := [] }
  | none => cluster.rollback process (databaseError "reserve_run")

/-- Runs that `SKIP LOCKED` finds: selected, and locked by no other transaction. -/
def unlocked (cluster : Cluster Value) (process : Nat) (selected : AgentRun → Bool) :
    List AgentRun :=
  (cluster.view process).runs.values.filter fun run =>
    selected run ∧ cluster.Available process (.run run.id)

def acquireAll (cluster : Cluster Value) (process : Nat) (runs : List AgentRun) :
    Cluster Value :=
  { cluster with
    locks := fun row =>
      if row ∈ runs.map (fun run => .run run.id) then some process else cluster.locks row }

/-- An insert waits for a conflicting uncommitted one and fails on a committed one. -/
def insertRun (cluster : Cluster Value) (process : Nat) (run : AgentRun) (rest : Txn Value) :
    Option (Cluster Value) :=
  if cluster.database.runs.values.any fun other => Conflicts run other then
    some (cluster.violated process)
  else if cluster.inserting.any fun entry => entry.1 ≠ process ∧ Conflicts run entry.2 then none
  else some
    { cluster.update process
        { cluster.processes process with
          activity := .running rest
          pending := (cluster.processes process).pending ++ [.run run] }
      with inserting := (process, run) :: cluster.inserting }

/-- The next statement of one process; a waiting or finished one has no step. -/
def next (cluster : Cluster Value) (process : Nat) : Option (Cluster Value) :=
  match (cluster.processes process).activity with
  | .finished _ => none
  | .running transaction =>
    match transaction with
    | .done (.ok value) => some (cluster.commit process value)
    | .done (.error error) => some (cluster.rollback process error)
    | .lockSession id rest =>
      match (cluster.view process).sessions.get? id with
      | none => some (cluster.advance process (rest none))
      | some record => cluster.acquireThen process (.session id) (rest (some record))
    | .lockRun query rest =>
      match query.find (cluster.view process) with
      | none => some (cluster.advance process (rest none))
      | some run => cluster.acquireThen process (.run run.id) (rest (some run))
    | .lockSkipping selected rest =>
      some ((cluster.acquireAll process (cluster.unlocked process selected)).advance process
        (rest (cluster.unlocked process selected)))
    | .readRun query rest => some (cluster.advance process (rest (query (cluster.view process))))
    | .readCount query rest =>
      some (cluster.advance process (rest (query (cluster.view process))))
    | .insertRun run rest => cluster.insertRun process run rest
    | .write change rest =>
      some (cluster.update process
        { cluster.processes process with
          activity := .running rest
          pending := (cluster.processes process).pending ++ [change] })

section Next

variable {cluster : Cluster Value} {process : Nat}

theorem next_ok (running : (cluster.processes process).activity = .running (.done (.ok value))) :
    cluster.next process = some (cluster.commit process value) := by simp only [next, running]

theorem next_error
    (running : (cluster.processes process).activity = .running (.done (.error error))) :
    cluster.next process = some (cluster.rollback process error) := by simp only [next, running]

theorem next_lockSession
    (running : (cluster.processes process).activity = .running (.lockSession ref rest)) :
    cluster.next process = match (cluster.view process).sessions.get? ref with
      | none => some (cluster.advance process (rest none))
      | some record => cluster.acquireThen process (.session ref) (rest (some record)) := by
  simp only [next, running]

theorem next_lockRun
    (running : (cluster.processes process).activity = .running (.lockRun query rest)) :
    cluster.next process = match query.find (cluster.view process) with
      | none => some (cluster.advance process (rest none))
      | some run => cluster.acquireThen process (.run run.id) (rest (some run)) := by
  simp only [next, running]

theorem next_lockSkipping
    (running : (cluster.processes process).activity = .running (.lockSkipping selected rest)) :
    cluster.next process = some
      ((cluster.acquireAll process (cluster.unlocked process selected)).advance process
        (rest (cluster.unlocked process selected))) := by simp only [next, running]

theorem next_readRun
    (running : (cluster.processes process).activity = .running (.readRun query rest)) :
    cluster.next process =
      some (cluster.advance process (rest (query (cluster.view process)))) := by
  simp only [next, running]

theorem next_readCount
    (running : (cluster.processes process).activity = .running (.readCount query rest)) :
    cluster.next process =
      some (cluster.advance process (rest (query (cluster.view process)))) := by
  simp only [next, running]

theorem next_insertRun
    (running : (cluster.processes process).activity = .running (.insertRun run rest)) :
    cluster.next process = cluster.insertRun process run rest := by simp only [next, running]

theorem next_write
    (running : (cluster.processes process).activity = .running (.write change rest)) :
    cluster.next process = some (cluster.update process
      { cluster.processes process with
        activity := .running rest
        pending := (cluster.processes process).pending ++ [change] }) := by
  simp only [next, running]

theorem acquireThen_some (taken : cluster.acquireThen process row rest = some after) :
    cluster.Available process row ∧ after = (cluster.acquire process row).advance process rest := by
  unfold acquireThen at taken
  split at taken
  · next available => exact ⟨available, (Option.some.inj taken).symm⟩
  · contradiction

end Next

def Steps (before : Cluster Value) (process : Nat) (after : Cluster Value) : Prop :=
  before.next process = some after

/-- Every call at the start of its transaction, over a database at rest. -/
def start (database : Database) (calls : Nat → Process Value) : Cluster Value :=
  { database, locks := fun _ => none, inserting := [], processes := calls }

end Cluster

section Inversion

variable {Value : Type} {before after : Cluster Value} {process : Nat}

/-- What the next statement of a transaction does, with all that it has checked. -/
inductive Cluster.Executed (before : Cluster Value) (process : Nat) :
    Txn Value → Cluster Value → Prop where
  | commit : Executed before process (.done (.ok value)) (before.commit process value)
  | rollback : Executed before process (.done (.error error)) (before.rollback process error)
  | noSession (absent : (before.view process).sessions.get? ref = none) :
    Executed before process (.lockSession ref rest) (before.advance process (rest none))
  | session (found : (before.view process).sessions.get? ref = some record)
    (available : before.Available process (.session ref)) :
    Executed before process (.lockSession ref rest)
      ((before.acquire process (.session ref)).advance process (rest (some record)))
  | noRun (absent : query.find (before.view process) = none) :
    Executed before process (.lockRun query rest) (before.advance process (rest none))
  | run (found : query.find (before.view process) = some record)
    (available : before.Available process (.run record.id)) :
    Executed before process (.lockRun query rest)
      ((before.acquire process (.run record.id)).advance process (rest (some record)))
  | skipping : Executed before process (.lockSkipping selected rest)
      ((before.acquireAll process (before.unlocked process selected)).advance process
        (rest (before.unlocked process selected)))
  | row : Executed before process (.readRun query rest)
      (before.advance process (rest (query (before.view process))))
  | count : Executed before process (.readCount query rest)
      (before.advance process (rest (query (before.view process))))
  | violated (conflict : ∃ other ∈ before.database.runs.values, Conflicts inserted other) :
    Executed before process (.insertRun inserted rest) (before.violated process)
  | insert (unused : ∀ other ∈ before.database.runs.values, ¬ Conflicts inserted other)
    (alone : ∀ entry ∈ before.inserting, entry.1 ≠ process → ¬ Conflicts inserted entry.2) :
    Executed before process (.insertRun inserted rest)
      { before.update process
          { before.processes process with
            activity := .running rest
            pending := (before.processes process).pending ++ [.run inserted] }
        with inserting := (process, inserted) :: before.inserting }
  | write : Executed before process (.write change rest)
      (before.update process
        { before.processes process with
          activity := .running rest
          pending := (before.processes process).pending ++ [change] })

private theorem insertRun_executed (taken : before.insertRun process inserted rest = some after) :
    before.Executed process (.insertRun inserted rest) after := by
  unfold Cluster.insertRun at taken
  split at taken
  · next conflict =>
    cases taken
    exact .violated (by simpa using conflict)
  · next unused =>
    split at taken
    · contradiction
    · next alone =>
      cases taken
      exact .insert (by simpa using unused) fun entry member different conflicts =>
        alone (List.any_eq_true.mpr ⟨entry, member, decide_eq_true ⟨different, conflicts⟩⟩)

/-- A process that takes a step executes the next statement of its transaction. -/
theorem next_executed (taken : before.next process = some after) :
    ∃ transaction, (before.processes process).activity = .running transaction ∧
      before.Executed process transaction after := by
  cases active : (before.processes process).activity with
  | finished result => simp [Cluster.next, active] at taken
  | running transaction =>
    refine ⟨transaction, rfl, ?_⟩
    cases transaction with
    | done result =>
      cases result with
      | ok value => exact Option.some.inj ((Cluster.next_ok active).symm.trans taken) ▸ .commit
      | error error =>
        exact Option.some.inj ((Cluster.next_error active).symm.trans taken) ▸ .rollback
    | lockSession ref rest =>
      rw [Cluster.next_lockSession active] at taken
      split at taken
      · next absent =>
        cases taken
        exact .noSession absent
      · next record found =>
        obtain ⟨available, rfl⟩ := Cluster.acquireThen_some taken
        exact .session found available
    | lockRun query rest =>
      rw [Cluster.next_lockRun active] at taken
      split at taken
      · next absent =>
        cases taken
        exact .noRun absent
      · next run found =>
        obtain ⟨available, rfl⟩ := Cluster.acquireThen_some taken
        exact .run found available
    | lockSkipping selected rest =>
      exact Option.some.inj ((Cluster.next_lockSkipping active).symm.trans taken) ▸ .skipping
    | readRun query rest =>
      exact Option.some.inj ((Cluster.next_readRun active).symm.trans taken) ▸ .row
    | readCount query rest =>
      exact Option.some.inj ((Cluster.next_readCount active).symm.trans taken) ▸ .count
    | insertRun run rest =>
      exact insertRun_executed ((Cluster.next_insertRun active).symm.trans taken)
    | write change rest =>
      exact Option.some.inj ((Cluster.next_write active).symm.trans taken) ▸ .write

/-- A run that `SKIP LOCKED` finds is selected, and may be locked. -/
theorem mem_unlocked (member : run ∈ before.unlocked process selected) :
    run ∈ (before.view process).runs.values ∧ selected run = true ∧
      before.Available process (.run run.id) := by
  simpa [Cluster.unlocked] using member

/-- A statement after which the transaction goes on: the rows it locks, the changes it
flushes and the rest. -/
inductive Cluster.Continues (before : Cluster Value) (process : Nat) :
    Txn Value → List Row → List Change → Txn Value → Prop where
  | missing (absent : (before.view process).sessions.get? ref = none) :
    Continues before process (.lockSession ref rest) [] [] (rest none)
  | session (found : (before.view process).sessions.get? ref = some record) :
    Continues before process (.lockSession ref rest) [.session ref] [] (rest (some record))
  | run (runs : ∀ row ∈ rows, ∃ ref, row = .run ref) :
    Continues before process (.lockRun query rest) rows [] (rest answer)
  | skipping (runs : ∀ row ∈ rows, ∃ ref, row = .run ref) :
    Continues before process (.lockSkipping selected rest) rows [] (rest answers)
  | row : Continues before process (.readRun lookup rest) [] [] (rest answer)
  | count : Continues before process (.readCount query rest) [] []
      (rest (query (before.view process)))
  | insert : Continues before process (.insertRun inserted rest) [] [.run inserted] rest
  | write : Continues before process (.write change rest) [] [change] rest

/-- The cluster after such a statement. -/
def Cluster.proceed (before : Cluster Value) (process : Nat) (rows : List Row)
    (flushed : List Change) (rest : Txn Value) (inserting : List (Nat × AgentRun)) :
    Cluster Value where
  database := before.database
  locks row := if row ∈ rows then some process else before.locks row
  inserting := inserting
  processes := Function.update before.processes process
    { before.processes process with
      activity := .running rest
      pending := (before.processes process).pending ++ flushed }

theorem proceed_advance (rest : Txn Value) :
    before.advance process rest = before.proceed process [] [] rest before.inserting := by
  simp [Cluster.advance, Cluster.update, Cluster.proceed]

theorem proceed_acquire (row : Row) (rest : Txn Value) :
    (before.acquire process row).advance process rest =
      before.proceed process [row] [] rest before.inserting := by
  simp only [Cluster.advance, Cluster.update, Cluster.proceed, Cluster.acquire, Cluster.mk.injEq,
    List.append_nil, true_and, and_true]
  funext other
  simp [Function.update_apply]

theorem proceed_acquireAll (runs : List AgentRun) (rest : Txn Value) :
    (before.acquireAll process runs).advance process rest =
      before.proceed process (runs.map fun run => .run run.id) [] rest before.inserting := by
  simp [Cluster.advance, Cluster.update, Cluster.proceed, Cluster.acquireAll]

theorem proceed_write (change : Change) (rest : Txn Value) :
    before.update process { before.processes process with
      activity := .running rest
      pending := (before.processes process).pending ++ [change] } =
      before.proceed process [] [change] rest before.inserting := by
  simp [Cluster.update, Cluster.proceed]

theorem proceed_insert (inserted : AgentRun) (rest : Txn Value) :
    { before.update process { before.processes process with
        activity := .running rest
        pending := (before.processes process).pending ++ [.run inserted] }
      with inserting := (process, inserted) :: before.inserting } =
      before.proceed process [] [.run inserted] rest
        ((process, inserted) :: before.inserting) := by
  simp [Cluster.update, Cluster.proceed]

/-- The three ways a statement ends: the transaction goes on, it commits, or it is rolled
back, possibly into the recovery. -/
inductive Cluster.Moved (before : Cluster Value) (process : Nat) : Cluster Value → Prop where
  | proceeds {inserting : List (Nat × AgentRun)}
    (active : (before.processes process).activity = .running transaction)
    (continues : before.Continues process transaction rows flushed rest)
    (available : ∀ row ∈ rows, before.Available process row) :
    Moved before process (before.proceed process rows flushed rest inserting)
  | commits (active : (before.processes process).activity = .running (.done (.ok value))) :
    Moved before process (before.commit process value)
  | rolls (blank : ended.recovery = none ∧ ended.pending = [])
    (recovers : ∀ transaction, ended.activity = .running transaction →
      (before.processes process).recovery = some transaction) :
    Moved before process (before.release process ended)

private theorem violated_moved (before : Cluster Value) (process : Nat) :
    before.Moved process (before.violated process) := by
  unfold Cluster.violated
  split
  · next recovery found =>
    refine .rolls ⟨rfl, rfl⟩ fun transaction active => ?_
    cases active
    exact found
  · exact .rolls ⟨rfl, rfl⟩ fun _ active => nomatch active

theorem next_moved (taken : before.next process = some after) : before.Moved process after := by
  obtain ⟨transaction, active, executed⟩ := next_executed taken
  cases executed with
  | commit => exact .commits active
  | rollback => exact .rolls ⟨rfl, rfl⟩ fun _ running => by cases running
  | noSession absent =>
    rw [proceed_advance]
    exact .proceeds active (.missing absent) (by simp)
  | session found available =>
    rw [proceed_acquire]
    exact .proceeds active (.session found) (by simpa using available)
  | noRun =>
    rw [proceed_advance]
    exact .proceeds active (.run (by simp)) (by simp)
  | run found available =>
    rw [proceed_acquire]
    exact .proceeds active (.run (by simp)) (by simpa using available)
  | skipping =>
    rw [proceed_acquireAll]
    refine .proceeds active (.skipping (by simp)) fun row listed => ?_
    obtain ⟨run, member, rfl⟩ := List.mem_map.mp listed
    exact (mem_unlocked member).2.2
  | row =>
    rw [proceed_advance]
    exact .proceeds active .row (by simp)
  | count =>
    rw [proceed_advance]
    exact .proceeds active .count (by simp)
  | violated => exact violated_moved before process
  | insert =>
    rw [proceed_insert]
    exact .proceeds active .insert (by simp)
  | write =>
    rw [proceed_write]
    exact .proceeds active .write (by simp)

end Inversion

end DayuAgent
