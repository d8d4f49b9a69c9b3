import DayuAgent.Database.Store

/-! Races between reservations in PostgreSQL: the key lookups, the session row and
the unique indexes together let one caller own each committed run. -/

namespace DayuAgent

open Library SQLAlchemyRuntimeStore
open InMemorySessionStore (implicitSession pendingRun sessionBusy)

/-- What the primary keys, the unique indexes and the foreign key promise. -/
structure Database.Sound (database : Database) : Prop where
  runId : database.runs.get? ref = some run → run.id = ref
  keys : database.runs.get? ref = some run → database.runs.get? other = some second →
    run.idempotencyKey = some key → second.idempotencyKey = some key → ref = other
  oneActive : database.runs.get? ref = some run → database.runs.get? other = some second →
    run.sessionId = second.sessionId → run.Active → second.Active → ref = other
  runSession : database.runs.get? ref = some run → (database.sessions.get? run.sessionId).isSome

/-- One call of `reserve_run` with what it draws from its surroundings. -/
structure ReserveCall where
  request : ReserveRunRequest
  ambient : Ambient

namespace ReserveCall

def target (call : ReserveCall) : String := resolvedSessionId call.request call.ambient

def model (call : ReserveCall) : AgentRun := runModel call.request call.ambient

def process (call : ReserveCall) : Process RunReservation :=
  reserveProcess call.request call.ambient

@[simp] theorem model_sessionId (call : ReserveCall) : call.model.sessionId = call.target := rfl

@[simp] theorem model_key (call : ReserveCall) :
    call.model.idempotencyKey = call.request.idempotencyKey := rfl

/-- The session row that a call without a session flushes. -/
def opened (call : ReserveCall) : List Change :=
  match call.request.sessionId with
  | none => [.session (implicitSession call.request call.ambient)]
  | some _ => []

end ReserveCall

/-- Generated identifiers are distinct and not in use. -/
structure FreshCalls (calls : Nat → ReserveCall) (database : Database) : Prop where
  runs : ∀ caller, database.runs.get? (calls caller).model.id = none
  sessions : ∀ caller, database.sessions.get? ((calls caller).ambient.uuid4 0) = none
  distinctRuns : (calls one).model.id = (calls two).model.id → one = two
  distinctSessions : (calls one).ambient.uuid4 0 = (calls two).ambient.uuid4 0 → one = two

def keyConflict (run : AgentRun) : PyException :=
  .of .idempotencyConflictError
    [("idempotency_key", .ofOption .str run.idempotencyKey), ("run_id", .str run.id)]

/-- The answer of a lookup that finds the key. -/
def replayOf (run : AgentRun) (requestHash : String) : Except PyException RunReservation :=
  if run.requestHash = requestHash then .ok { run, ownsExecution := false }
  else .error (keyConflict run)

/-- The outcomes of a call that does not own a run: a replay of a committed run with its
own key and hash, or one of three errors. A session that is named and missing was missing
from the start. -/
inductive Declined (initial database : Database) (call : ReserveCall) :
    Except PyException RunReservation → Prop where
  | replayed (present : database.runs.get? ref = some run)
      (keyed : call.request.idempotencyKey = some key) (carried : run.idempotencyKey = some key)
      (same : run.requestHash = call.request.requestHash) :
      Declined initial database call (.ok { run, ownsExecution := false })
  | conflict (present : database.runs.get? ref = some run)
      (keyed : call.request.idempotencyKey = some key) (carried : run.idempotencyKey = some key)
      (different : run.requestHash ≠ call.request.requestHash) :
      Declined initial database call (.error (keyConflict run))
  | busy (present : database.runs.get? ref = some run) (same : run.sessionId = call.target)
      (active : run.Active) : Declined initial database call (.error (sessionBusy call.target run))
  | missing (named : call.request.sessionId.isSome)
      (absent : initial.sessions.get? call.target = none) :
      Declined initial database call
        (.error (.of .sessionNotFoundError [("session_id", .str call.target)]))

theorem Declined.found (present : database.runs.get? ref = some run)
    (keyed : call.request.idempotencyKey = some key) (carried : run.idempotencyKey = some key) :
    Declined initial database call (replayOf run call.request.requestHash) := by
  unfold replayOf
  split
  · next same => exact .replayed present keyed carried same
  · next different => exact .conflict present keyed carried different

section Programs

variable {request : ReserveRunRequest} {ambient : Ambient}

theorem idempotentReservation_done (model : AgentRun) (requestHash : String) :
    idempotentReservation model requestHash = .done (replayOf model requestHash) := by
  unfold idempotentReservation replayOf
  by_cases same : model.requestHash = requestHash
  · rw [if_neg (not_not.mpr same), if_pos same]
    rfl
  · rw [if_pos same, if_neg same]
    rfl

theorem reserveRun_unkeyed (keyless : request.idempotencyKey = none) :
    reserveRun request ambient = reserveSession request ambient := by
  simp only [reserveRun, idempotentRun, keyless]
  rfl

theorem reserveRun_keyed (keyed : request.idempotencyKey = some key) :
    reserveRun request ambient = .lockRun (.byKey key) fun
      | some existing => .done (replayOf existing request.requestHash)
      | none => reserveSession request ambient := by
  simp only [reserveRun, idempotentRun, keyed, ← idempotentReservation_done]
  refine congrArg (Txn.lockRun _) (funext fun answer => ?_)
  cases answer <;> rfl

theorem reserveLocked_unkeyed (keyless : request.idempotencyKey = none) :
    reserveLocked request ambient = reserveIdle request ambient := by
  simp only [reserveLocked, idempotentRun, keyless]
  rfl

theorem reserveLocked_keyed (keyed : request.idempotencyKey = some key) :
    reserveLocked request ambient = .lockRun (.byKey key) fun
      | some existing => .done (replayOf existing request.requestHash)
      | none => reserveIdle request ambient := by
  simp only [reserveLocked, idempotentRun, keyed, ← idempotentReservation_done]
  refine congrArg (Txn.lockRun _) (funext fun answer => ?_)
  cases answer <;> rfl

theorem reserveSession_implicit (unnamed : request.sessionId = none) :
    reserveSession request ambient =
      .write (.session (implicitSession request ambient)) (reserveLocked request ambient) := by
  simp only [reserveSession, unnamed]
  rfl

theorem reserveSession_named (named : request.sessionId = some sessionId) :
    reserveSession request ambient = .lockSession (resolvedSessionId request ambient) fun
      | some _ => reserveLocked request ambient
      | none => .done (.error (.of .sessionNotFoundError
          [("session_id", .str (resolvedSessionId request ambient))])) := by
  simp only [reserveSession, named]
  refine congrArg (Txn.lockSession _) (funext fun answer => ?_)
  cases answer <;> rfl

theorem reserveIdle_eq (request : ReserveRunRequest) (ambient : Ambient) :
    reserveIdle request ambient = .readRun (activeRunIn (resolvedSessionId request ambient)) fun
      | some active => .done (.error (sessionBusy (resolvedSessionId request ambient) active))
      | none => insertReserved request ambient := by
  refine congrArg (Txn.readRun _) (funext fun answer => ?_)
  cases answer <;> rfl

theorem resolveReservationRace_keyed (keyed : request.idempotencyKey = some key) :
    resolveReservationRace request ambient = .readRun (RunQuery.byKey key).find fun
      | some existing => .done (replayOf existing request.requestHash)
      | none => resolveBusy request ambient := by
  simp only [resolveReservationRace, idempotentRun, keyed, ← idempotentReservation_done]
  refine congrArg (Txn.readRun _) (funext fun answer => ?_)
  cases answer <;> rfl

end Programs

theorem conflicts_symm (conflict : Conflicts run other) : Conflicts other run := by
  rcases conflict with same | ⟨some, same⟩ | ⟨same, active, second⟩
  · exact .inl same.symm
  · exact .inr (.inl ⟨same ▸ some, same.symm⟩)
  · exact .inr (.inr ⟨same.symm, second, active⟩)

theorem applyOpened_runs (database : Database) (call : ReserveCall) :
    (database.applyAll call.opened).runs = database.runs := by
  unfold ReserveCall.opened
  split <;> rfl

theorem applyOpened_sessions (database : Database) (call : ReserveCall) (sessionId : String) :
    (database.applyAll call.opened).sessions.get? sessionId =
      if call.request.sessionId = none ∧ sessionId = call.ambient.uuid4 0 then
        some (implicitSession call.request call.ambient)
      else database.sessions.get? sessionId := by
  unfold ReserveCall.opened
  split
  · next unnamed =>
    simp only [Database.applyAll, List.foldl_cons, List.foldl_nil, Database.apply, Dict.get?_set,
      unnamed, true_and]
    rfl
  · next named => simp [Database.applyAll, named]

theorem target_implicit {call : ReserveCall} (unnamed : call.request.sessionId = none) :
    call.target = call.ambient.uuid4 0 := by
  simp [ReserveCall.target, resolvedSessionId, InMemorySessionStore.chosenId, unnamed]

section Invariant

variable {calls : Nat → ReserveCall} {initial : Database}
  {before after cluster : Cluster RunReservation} {caller : Nat}

/-- The caller is alone in its session: it holds the row, or no one else sees it. -/
def Owns (calls : Nat → ReserveCall) (cluster : Cluster RunReservation) (caller : Nat) : Prop :=
  match (calls caller).request.sessionId with
  | some _ => cluster.locks (.session (calls caller).target) = some caller ∧
      (cluster.database.sessions.get? (calls caller).target).isSome
  | none => cluster.database.sessions.get? (calls caller).target = none

/-- No two callers own one session. -/
theorem Owns.exclusive (fresh : FreshCalls calls initial) (first : Owns calls cluster one)
    (second : Owns calls cluster two) (same : (calls one).target = (calls two).target) :
    one = two := by
  unfold Owns at first second
  rw [same] at first
  split at first <;> split at second
  · exact Option.some.inj (first.1.symm.trans second.1)
  · rw [second] at first
    exact absurd first.2 (by simp)
  · rw [first] at second
    exact absurd second.2 (by simp)
  · next unnamedOne _ unnamedTwo =>
    rw [target_implicit unnamedOne, target_implicit unnamedTwo] at same
    exact fresh.distinctSessions same

/-- The session of the caller has no active run. -/
def Idle (calls : Nat → ReserveCall) (database : Database) (caller : Nat) : Prop :=
  ∀ ref run, database.runs.get? ref = some run → run.sessionId = (calls caller).target →
    ¬ run.Active

/-- A run is inserted and waits for the commit of its transaction. -/
structure Inserted (calls : Nat → ReserveCall) (cluster : Cluster RunReservation)
    (caller : Nat) : Prop where
  owns : Owns calls cluster caller
  idle : Idle calls cluster.database caller
  unkeyed : ∀ ref run, cluster.database.runs.get? ref = some run →
    (calls caller).request.idempotencyKey.isSome →
    run.idempotencyKey ≠ (calls caller).request.idempotencyKey
  entry : (caller, (calls caller).model) ∈ cluster.inserting
  alone : ∀ other run, (other, run) ∈ cluster.inserting → other ≠ caller →
    ¬ Conflicts (calls caller).model run

/-- Where one call stands, and what it relies on there. -/
inductive Stage (calls : Nat → ReserveCall) (initial : Database)
    (cluster : Cluster RunReservation) (caller : Nat) : Process RunReservation → Prop where
  | start : Stage calls initial cluster caller (calls caller).process
  | opening : Stage calls initial cluster caller
      { (calls caller).process with
        activity := .running (reserveSession (calls caller).request (calls caller).ambient) }
  | locked (owns : Owns calls cluster caller) : Stage calls initial cluster caller
      { (calls caller).process with
        activity := .running (reserveLocked (calls caller).request (calls caller).ambient)
        pending := (calls caller).opened }
  | checking (owns : Owns calls cluster caller) : Stage calls initial cluster caller
      { (calls caller).process with
        activity := .running (reserveIdle (calls caller).request (calls caller).ambient)
        pending := (calls caller).opened }
  | inserting (owns : Owns calls cluster caller) (idle : Idle calls cluster.database caller) :
      Stage calls initial cluster caller
        { (calls caller).process with
          activity := .running (insertReserved (calls caller).request (calls caller).ambient)
          pending := (calls caller).opened }
  | inserted (inserted : Inserted calls cluster caller) : Stage calls initial cluster caller
      { (calls caller).process with
        activity := .running
          (.done (.ok { run := (calls caller).model, ownsExecution := true }))
        pending := (calls caller).opened ++ [.run (calls caller).model] }
  | leaving (declined : Declined initial cluster.database (calls caller) result)
      (shape : pending = [] ∨ pending = (calls caller).opened) (recovery : Option _) :
      Stage calls initial cluster caller { activity := .running (.done result), recovery, pending }
  | resolving (present : cluster.database.runs.get? ref = some run)
      (keyed : (calls caller).request.idempotencyKey = some key)
      (carried : run.idempotencyKey = some key) : Stage calls initial cluster caller
        { activity := .running
            (resolveReservationRace (calls caller).request (calls caller).ambient)
          recovery := none, pending := [] }
  | owner (present : cluster.database.runs.get? (calls caller).model.id =
      some (calls caller).model) : Stage calls initial cluster caller
        { activity := .finished (.ok { run := (calls caller).model, ownsExecution := true })
          recovery := none, pending := [] }
  | declined (declined : Declined initial cluster.database (calls caller) result) :
      Stage calls initial cluster caller
        { activity := .finished result, recovery := none, pending := [] }

/-- What a step of another call leaves to a caller. -/
structure KeepsCaller (calls : Nat → ReserveCall) (before after : Cluster RunReservation)
    (caller : Nat) : Prop where
  runs : ∀ ref run, before.database.runs.get? ref = some run →
    after.database.runs.get? ref = some run
  owns : Owns calls before caller → Owns calls after caller
  idle : Owns calls before caller → Idle calls before.database caller →
    Idle calls after.database caller
  inserted : Inserted calls before caller → Inserted calls after caller

theorem Declined.mono (declined : Declined initial database call result)
    (runs : ∀ ref run, database.runs.get? ref = some run → later.runs.get? ref = some run) :
    Declined initial later call result := by
  cases declined with
  | replayed present keyed carried same =>
    exact .replayed (runs _ _ present) keyed carried same
  | conflict present keyed carried different =>
    exact .conflict (runs _ _ present) keyed carried different
  | busy present same active => exact .busy (runs _ _ present) same active
  | missing named absent => exact .missing named absent

theorem Stage.keep (stage : Stage calls initial before caller process)
    (keeps : KeepsCaller calls before after caller) : Stage calls initial after caller process := by
  cases stage with
  | start => exact .start
  | opening => exact .opening
  | locked owns => exact .locked (keeps.owns owns)
  | checking owns => exact .checking (keeps.owns owns)
  | inserting owns idle => exact .inserting (keeps.owns owns) (keeps.idle owns idle)
  | inserted inserted => exact .inserted (keeps.inserted inserted)
  | leaving declined shape => exact .leaving (declined.mono keeps.runs) shape _
  | resolving present keyed carried => exact .resolving (keeps.runs _ _ present) keyed carried
  | owner present => exact .owner (keeps.runs _ _ present)
  | declined declined => exact .declined (declined.mono keeps.runs)

/-- A step that commits nothing keeps what its locks and inserts leave alone. -/
theorem KeepsCaller.ofSame (same : after.database = before.database)
    (locks : ∀ row, before.locks row = some caller → after.locks row = some caller)
    (entry : ∀ run, (caller, run) ∈ before.inserting → (caller, run) ∈ after.inserting)
    (alone : Inserted calls before caller → ∀ other run, (other, run) ∈ after.inserting →
      (other, run) ∈ before.inserting ∨ ¬ Conflicts (calls caller).model run) :
    KeepsCaller calls before after caller := by
  have owns : Owns calls before caller → Owns calls after caller := by
    unfold Owns
    rw [same]
    split
    · exact fun owned => ⟨locks _ owned.1, owned.2⟩
    · exact id
  refine ⟨fun ref run present => by rw [same]; exact present, owns, fun _ idle => by rwa [same], ?_⟩
  intro inserted
  refine ⟨owns inserted.owns, by rw [same]; exact inserted.idle,
    by rw [same]; exact inserted.unkeyed, entry _ inserted.entry, ?_⟩
  intro other run member different
  rcases alone inserted other run member with old | apart
  · exact inserted.alone other run old different
  · exact apart

/-- New session rows of other callers do not take a session away. -/
theorem owns_commit (fresh : FreshCalls calls initial) (different : caller ≠ committer)
    (locks : ∀ row, before.locks row = some caller → after.locks row = some caller)
    (sessions : ∀ sessionId, after.database.sessions.get? sessionId =
      before.database.sessions.get? sessionId ∨ (sessionId = (calls committer).ambient.uuid4 0 ∧
        (after.database.sessions.get? sessionId).isSome))
    (owns : Owns calls before caller) : Owns calls after caller := by
  unfold Owns at owns ⊢
  rcases sessions (calls caller).target with same | ⟨own, present⟩
  · rw [same]
    split <;> rename_i named <;> rw [named] at owns
    · exact ⟨locks _ owns.1, owns.2⟩
    · exact owns
  · split <;> rename_i named <;> rw [named] at owns
    · exact ⟨locks _ owns.1, present⟩
    · rw [target_implicit named] at own
      exact (different (fresh.distinctSessions own)).elim

/-- A commit that adds no run. -/
theorem KeepsCaller.ofSessions (fresh : FreshCalls calls initial) (different : caller ≠ committer)
    (locks : ∀ row, before.locks row = some caller → after.locks row = some caller)
    (entry : ∀ other run, (other, run) ∈ after.inserting ↔
      (other, run) ∈ before.inserting ∧ other ≠ committer)
    (runs : after.database.runs = before.database.runs)
    (sessions : ∀ sessionId, after.database.sessions.get? sessionId =
      before.database.sessions.get? sessionId ∨ (sessionId = (calls committer).ambient.uuid4 0 ∧
        (after.database.sessions.get? sessionId).isSome)) :
    KeepsCaller calls before after caller := by
  have owns := @owns_commit calls initial before after caller committer fresh different locks
    sessions
  refine ⟨fun ref run present => by rw [runs]; exact present, owns, ?_, ?_⟩
  · intro _ idle ref run present
    rw [runs] at present
    exact idle ref run present
  · intro inserted
    refine ⟨owns inserted.owns, ?_, ?_, (entry _ _).mpr ⟨inserted.entry, different⟩, ?_⟩
    · intro ref run present
      rw [runs] at present
      exact inserted.idle ref run present
    · intro ref run present
      rw [runs] at present
      exact inserted.unkeyed ref run present
    · intro other run member
      exact inserted.alone other run ((entry _ _).mp member).1

/-- The commit of an inserted run conflicts with no other caller. -/
theorem KeepsCaller.ofInserted (fresh : FreshCalls calls initial) (different : caller ≠ committer)
    (committed : Inserted calls before committer)
    (unused : before.database.runs.get? (calls committer).model.id = none)
    (locks : ∀ row, before.locks row = some caller → after.locks row = some caller)
    (entry : ∀ other run, (other, run) ∈ after.inserting ↔
      (other, run) ∈ before.inserting ∧ other ≠ committer)
    (runs : after.database.runs =
      before.database.runs.set (calls committer).model.id (calls committer).model)
    (sessions : ∀ sessionId, after.database.sessions.get? sessionId =
      before.database.sessions.get? sessionId ∨ (sessionId = (calls committer).ambient.uuid4 0 ∧
        (after.database.sessions.get? sessionId).isSome)) :
    KeepsCaller calls before after caller := by
  have owns := @owns_commit calls initial before after caller committer fresh different locks
    sessions
  have lookup : ∀ ref run, after.database.runs.get? ref = some run →
      run = (calls committer).model ∨ before.database.runs.get? ref = some run := by
    intro ref run present
    rw [runs, Dict.get?_set] at present
    split at present
    · exact .inl (Option.some.inj present).symm
    · exact .inr present
  have idle : Owns calls before caller → Idle calls before.database caller →
      Idle calls after.database caller := by
    intro owned idle ref run present same
    rcases lookup ref run present with rfl | old
    · exact (different (owned.exclusive fresh committed.owns same.symm)).elim
    · exact idle ref run old same
  refine ⟨?_, owns, idle, ?_⟩
  · intro ref run present
    rw [runs, Dict.get?_set_ne _ _ ?_]
    · exact present
    · rintro rfl
      rw [unused] at present
      contradiction
  · intro inserted
    refine ⟨owns inserted.owns, idle inserted.owns inserted.idle, ?_,
      (entry _ _).mpr ⟨inserted.entry, different⟩, ?_⟩
    · intro ref run present keyed
      rcases lookup ref run present with rfl | old
      · intro same
        rw [ReserveCall.model_key] at same
        exact committed.alone _ _ inserted.entry different
          (.inr (.inl ⟨by rw [ReserveCall.model_key, same]; exact keyed, same⟩))
      · exact inserted.unkeyed ref run old keyed
    · intro other run member
      exact inserted.alone other run ((entry _ _).mp member).1

end Invariant

end DayuAgent
