import DayuAgent.Database.Guarded
import DayuAgent.Database.Postconditions
import DayuAgent.Memory.Attempts

namespace DayuAgent

open Library SQLAlchemyRuntimeStore
open InMemorySessionStore (FreshScript)

/-- The change writes no row of a run. -/
def Change.Elsewhere : Change → Prop
  | .run _ => False
  | _ => True

/-- Every run lies under its own identifier. -/
structure Database.Keyed (database : Database) : Prop where
  runId : database.row ref = some run → run.id = ref

theorem Database.Keyed.apply {database : Database} (keyed : database.Keyed) (change : Change) :
    (database.apply change).Keyed := by
  refine ⟨fun {ref run} found => ?_⟩
  rw [apply_row] at found
  cases change with
  | run written =>
    rw [Change.rewritten] at found
    split at found
    · next own =>
      cases found
      exact own
    · exact keyed.runId found
  | session | message | deleteMessages | event => exact keyed.runId found

/-- Rows stay under their identifiers, and no tally of a run moves. -/
structure Database.Spares (before after : Database) : Prop where
  keyed : after.Keyed
  tallied : Tallied (before.row ref) count → Tallied (after.row ref) count

namespace Database.Spares

variable {before after one two three : Database} {updated : AgentRun}

theorem same (keyed : before.Keyed) (runs : after.runs = before.runs) : before.Spares after := by
  have rows : ∀ ref, after.row ref = before.row ref := fun ref => by rw [row, row, runs]
  refine ⟨⟨fun {ref _} found => ?_⟩, fun {ref _} tallied => ?_⟩
  · exact keyed.runId ((rows ref).symm.trans found)
  · exact (rows ref).symm ▸ tallied

theorem refl (keyed : before.Keyed) : before.Spares before := .same keyed rfl

theorem trans (first : one.Spares two) (second : two.Spares three) : one.Spares three where
  keyed := second.keyed
  tallied tallied := second.tallied (first.tallied tallied)

theorem write (keyed : before.Keyed)
    (spares : ∀ {count}, Tallied (before.row updated.id) count → Tallied (some updated) count)
    (runs : after.runs = (before.apply (.run updated)).runs) : before.Spares after := by
  refine trans ⟨keyed.apply (.run updated), fun {ref _} tallied => ?_⟩ (.same (keyed.apply _) runs)
  rw [apply_row, Change.rewritten]
  split
  · next own => exact spares (own ▸ tallied)
  · exact tallied

end Database.Spares

section Calls

open Txn

variable {committed view : Database} {ambient : Ambient} (keyed : view.Keyed)

include keyed

theorem Txn.Flushes.spares {transaction : Txn Value}
    (flushes : transaction.Flushes Change.Elsewhere) :
    transaction.Ensures committed view fun _ after => view.Spares after := by
  have kept : transaction.Ensures committed view fun _ after => after.runs = view.runs := by
    refine flushes.invariant (fun change _ elsewhere same => ?_) rfl
    cases change with
    | run => exact elsewhere.elim
    | session | message | deleteMessages | event => exact same
  exact kept.mono fun _ _ same => .same keyed same

/-- A run that was read, and whose row the transaction has not written since, is published. -/
theorem publishRun_spares {written : Database} {run updated : AgentRun}
    (found : view.row ref = some run) (same : written.runs = view.runs) (own : updated.id = run.id)
    (spares : ∀ {count}, Tallied (some run) count → Tallied (some updated) count)
    (type : StreamEventType) (payload : JsonObject) (id : String) (now : Time) :
    (publishRun updated type payload id now).Ensures committed written
      fun _ after => view.Spares after := by
  refine (publishRun_ensures updated type payload id now).mono fun _ after runs => ?_
  refine .write keyed (fun tallied => spares ?_) (runs.trans ?_)
  · rwa [own, keyed.runId found, found] at tallied
  · exact congrArg (·.set updated.id updated) same

theorem appendMessage_spares (sessionId : String) (role : MessageRole) (content : String)
    (metadata : Option JsonObject) :
    (appendMessage sessionId role content metadata ambient).Ensures committed view
      fun _ after => view.Spares after := by
  refine Flushes.spares keyed ((lockedSession_only trivial).bind fun record => ?_)
  refine (activeRun_only fun _ => trivial).bind fun active => ?_
  cases active with
  | some active => trivial
  | none => exact ⟨trivial, fun _ => ⟨trivial, trivial, trivial⟩⟩

theorem clearSession_spares (sessionId : String) :
    (clearSession sessionId ambient).Ensures committed view fun _ after => view.Spares after := by
  refine Flushes.spares keyed ((lockedSession_only trivial).bind fun record => ?_)
  refine (activeRun_only fun _ => trivial).bind fun active => ?_
  cases active with
  | some active => trivial
  | none => exact ⟨trivial, trivial, trivial⟩

theorem appendStreamEvent_spares (own : String) (type : StreamEventType) (payload : JsonObject) :
    (appendStreamEvent own type payload ambient).Ensures committed view
      fun _ after => view.Spares after :=
  Flushes.spares keyed ((lockedRun_only trivial).bind fun _ =>
    appendEvent_only (fun _ => trivial) fun _ _ => trivial)

theorem markRunRunning_spares (own workerInstanceId : String) :
    (markRunRunning own workerInstanceId ambient).Ensures committed view
      fun _ after => view.Spares after := by
  refine (lockedRun_ensures own).bind ?_
  rintro run _ ⟨found, rfl⟩
  refine (ensures_lift _).bind ?_
  rintro _ _ ⟨_, rfl⟩
  refine publishRun_spares keyed found rfl ?_ ?_ _ _ _ _
  · rfl
  · exact fun tallied => tallied.changed rfl (fun _ => rfl) fun _ => rfl

theorem failRun_spares (own errorCode : String) :
    (failRun own errorCode ambient).Ensures committed view fun _ after => view.Spares after := by
  refine (lockedRun_ensures own).bind ?_
  rintro run _ ⟨found, rfl⟩
  split
  · exact ensures_pure (.refl keyed)
  · refine (ensures_lift _).bind ?_
    rintro _ _ ⟨_, rfl⟩
    refine publishRun_spares keyed found rfl ?_ ?_ _ _ _ _
    · rfl
    · exact fun tallied => tallied.changed rfl id (by simp)

theorem cancelRun_spares (own workerInstanceId : String) :
    (cancelRun own workerInstanceId ambient).Ensures committed view
      fun _ after => view.Spares after := by
  refine (lockedRun_ensures own).bind ?_
  rintro run _ ⟨found, rfl⟩
  split
  · exact ensures_pure (.refl keyed)
  split
  · exact ensures_pure (.refl keyed)
  split
  · exact ensures_raise _
  · refine (ensures_lift _).bind ?_
    rintro _ _ ⟨_, rfl⟩
    refine Ensures.bind (publishRun_spares keyed found rfl ?_ ?_ _ _ _ _) ?_
    · rfl
    · exact fun tallied => tallied.changed rfl id (by simp)
    · exact fun _ _ spares => ensures_pure spares

theorem commitRunSuccess_spares (own : String) (request : CommitRunRequest) :
    (commitRunSuccess own request ambient).Ensures committed view
      fun _ after => view.Spares after := by
  refine (lockedRun_ensures own).bind ?_
  rintro run _ ⟨found, rfl⟩
  refine (ensures_lift _).bind ?_
  rintro _ _ ⟨_, rfl⟩
  refine (Flushes.reads (lockedSession_only trivial)).bind ?_
  rintro record _ rfl
  have numbering : (nextMessageSequence run.sessionId).Flushes fun _ => False :=
    ⟨trivial, fun _ => trivial⟩
  refine numbering.reads.bind ?_
  rintro sequence _ rfl
  refine .flushed (.flushed (.flushed ?_))
  refine publishRun_spares keyed found ?_ ?_ ?_ _ _ _ _
  · rfl
  · rfl
  · exact fun tallied => tallied.changed rfl id (by simp)

/-- The locked rows are written one after the other; the later ones are still as read. -/
theorem interruptEach_spares (index : Nat) (runs : List AgentRun)
    (locked : ∀ run ∈ runs, view.row run.id = some run)
    (distinct : (runs.map fun run => run.id).Nodup) :
    (interruptEach ambient index runs).Ensures committed view fun _ after => view.Spares after := by
  induction runs generalizing index view with
  | nil => exact ensures_pure (.refl keyed)
  | cons run rest ih =>
    have found := locked run List.mem_cons_self
    obtain ⟨fresh, later⟩ := List.nodup_cons.mp distinct
    refine (ensures_lift _).bind ?_
    rintro _ _ ⟨_, rfl⟩
    refine (publishRun_ensures _ _ _ _ _).bind fun _ next written => ?_
    have first : view.Spares next := by
      refine .write keyed (fun tallied => ?_) written
      rw [found] at tallied
      exact tallied.changed rfl id (by simp)
    refine (ih first.keyed (index + 1) (fun other member => ?_) later).mono
      fun _ _ second => first.trans second
    have different : other.id ≠ run.id := fun same => fresh (List.mem_map.mpr ⟨other, member, same⟩)
    rw [Database.row, written]
    exact (Dict.get?_set_ne _ _ different).trans (locked other (List.mem_cons_of_mem _ member))

theorem interruptMatching_spares (workerInstanceId : String) (sameWorker : Bool) :
    (interruptMatching workerInstanceId sameWorker ambient).Ensures committed view
      fun _ after => view.Spares after := by
  have locked : ∀ run ∈ view.runs.values, view.row run.id = some run := by
    intro run member
    obtain ⟨ref, found⟩ := (Dict.mem_values_iff _ _).mp member
    rwa [show run.id = ref from keyed.runId found]
  have distinct := view.runs.nodup_values keyed.runId
  refine .locked ((interruptEach_spares keyed 0 _ ?_ ?_).bind fun _ _ spares => ensures_pure spares)
  · exact fun run member => locked run (List.mem_of_mem_filter member)
  · exact distinct.sublist (List.filter_sublist.map _)

/-- A row that conflicts with no other lies under an unused identifier. -/
theorem insertReserved_spares (request : ReserveRunRequest) (same : view.runs = committed.runs) :
    (insertReserved request ambient).Ensures committed view fun _ after => view.Spares after := by
  refine ensures_insertRun fun free => ensures_pure ?_
  refine .write keyed (fun tallied => ?_) rfl
  cases found : view.row (runModel request ambient).id with
  | none =>
    rw [found] at tallied
    exact tallied.reserved request _ ambient
  | some other =>
    have stored : other ∈ committed.runs.values :=
      same ▸ (Dict.mem_values_iff _ _).mpr ⟨_, found⟩
    exact (free other stored (.inl (keyed.runId found).symm)).elim

/-- A key that finds a run decides the reservation without a write. -/
theorem resolved_spares (request : ReserveRunRequest) {rest : Txn RunReservation}
    (unbound : rest.Ensures committed view fun _ after => view.Spares after) :
    (do match ← idempotentRun request.idempotencyKey true with
      | some existing => idempotentReservation existing request.requestHash
      | none => rest : Txn RunReservation).Ensures committed view
        fun _ after => view.Spares after := by
  refine (Flushes.reads (idempotentRun_only _ _ (fun _ _ => trivial) fun _ => trivial)).bind ?_
  rintro existing _ rfl
  cases existing with
  | some existing =>
    refine (Flushes.reads (idempotentReservation_only _ _)).mono fun _ _ read => ?_
    exact read ▸ .refl keyed
  | none => exact unbound

private theorem reserveLocked_spares (request : ReserveRunRequest)
    (same : view.runs = committed.runs) :
    (reserveLocked request ambient).Ensures committed view fun _ after => view.Spares after := by
  refine resolved_spares keyed request
    ((Flushes.reads (activeRun_only fun _ => trivial)).bind ?_)
  rintro active _ rfl
  cases active with
  | some active => exact ensures_raise _
  | none => exact insertReserved_spares keyed request same

private theorem reserveRun_spares (request : ReserveRunRequest)
    (same : view.runs = committed.runs) :
    (reserveRun request ambient).Ensures committed view fun _ after => view.Spares after := by
  refine resolved_spares keyed request ?_
  simp only [reserveSession]
  split
  · have opened : ∀ change, view.Spares (view.apply (.session change)) := fun _ => .same keyed rfl
    refine .flushed ((reserveLocked_spares (opened _).keyed request same).mono ?_)
    exact fun _ _ spares => (opened _).trans spares
  · refine (Flushes.reads (lockedSession_only trivial)).bind ?_
    rintro record _ rfl
    exact reserveLocked_spares keyed request same

private theorem transaction_spares (call : LockingCall)
    (other : ∀ ref, call ≠ .incrementRunAttempt ref) :
    (call.transaction ambient).Ensures view view fun _ after => view.Spares after := by
  have answered {Answer : Type} {transaction : Txn Answer} (reply : Answer → Reply)
      (spares : transaction.Ensures view view fun _ after => view.Spares after) :
      (transaction >>= fun answer => pure (reply answer)).Ensures view view
        fun _ after => view.Spares after := spares.bind fun _ _ spared => ensures_pure spared
  cases call with
  | reserveRun request => exact answered _ (reserveRun_spares keyed request rfl)
  | appendMessage sessionId role content metadata =>
    exact answered _ (appendMessage_spares keyed sessionId role content metadata)
  | clearSession sessionId => exact answered (fun _ => .unit) (clearSession_spares keyed sessionId)
  | markRunRunning own workerInstanceId =>
    exact answered _ (markRunRunning_spares keyed own workerInstanceId)
  | incrementRunAttempt own => exact (other own rfl).elim
  | appendStreamEvent own type payload =>
    exact answered _ (appendStreamEvent_spares keyed own type payload)
  | commitRunSuccess own request => exact answered _ (commitRunSuccess_spares keyed own request)
  | failRun own errorCode => exact answered _ (failRun_spares keyed own errorCode)
  | cancelRun own workerInstanceId => exact answered _ (cancelRun_spares keyed own workerInstanceId)
  | interruptWorkerRuns workerInstanceId =>
    exact answered _ (interruptMatching_spares keyed workerInstanceId true)
  | reconcileOrphanedRuns workerInstanceId =>
    exact answered _ (interruptMatching_spares keyed workerInstanceId false)

end Calls

namespace SQLAlchemyRuntimeStore

variable {database : Database}

private theorem perform_spares (operation : Operation) (ambient : Ambient) (keyed : database.Keyed)
    (other : operation.attempted = none) :
    database.Spares (perform ambient database operation).2 := by
  have locking (call : LockingCall) (uncounted : ∀ ref, call ≠ .incrementRunAttempt ref) :
      database.Spares (call.perform ambient database).2 :=
    call.perform_ensures ambient (transaction_spares keyed call uncounted) (.refl keyed)
  cases operation with
  | incrementRunAttempt => cases other
  | reserveRun | appendMessage | clearSession | markRunRunning | appendStreamEvent
  | commitRunSuccess | failRun | cancelRun | interruptWorkerRuns | reconcileOrphanedRuns =>
    exact locking _ (by simp)
  | createSession metadata sessionId userId =>
    simp only [perform, createSession]
    split
    · exact .refl keyed
    · exact .same keyed rfl
  | pruneStreamEvents before => exact .same keyed rfl
  | initializeStore | getSession | listMessages | getRun | listStreamEvents | ping | close =>
    exact .refl keyed

def runTable : RunTable Database where
  perform ambient operation database := perform ambient database operation
  row database ref := database.row ref

private theorem perform_counted (ambient : Ambient) (found : database.row ref = some run)
    (active : run.Active) : perform ambient database (.incrementRunAttempt ref) =
      (.ok (.run run.attempt), database.apply (.run run.attempt)) := by
  simp only [perform, LockingCall.perform, incrementRunAttempt_counted ambient found active]
  rfl

private theorem perform_behaves (operation : Operation) (ambient : Ambient)
    (keyed : database.Keyed) :
    runTable.Behaves ambient operation database where
  unknown {ref} same absent := by
    subst same
    have ends : (LockingCall.incrementRunAttempt ref).ending ambient database = _ :=
      LockingCall.ending_unknown ambient rfl absent
    simp only [runTable, perform, LockingCall.perform, ends]
  refused {ref run} same present terminal := by
    subst same
    have found : database.runs.get? ref = some run := present
    simp only [runTable, perform, LockingCall.perform,
      incrementRunAttempt_refused ambient found terminal]
  accepted {ref run} same present active := by
    subst same
    have found : database.row ref = some run := present
    obtain rfl := keyed.runId found
    simp only [runTable, perform_counted ambient found active, true_and]
    exact Dict.get?_set _ _ _
  spared other tallied := (perform_spares operation ambient keyed other).tallied tallied

private theorem perform_keyed (operation : Operation) (ambient : Ambient) (keyed : database.Keyed) :
    (perform ambient database operation).2.Keyed := by
  have locking (call : LockingCall) : (call.perform ambient database).2.Keyed :=
    call.perform_ensures ambient ((call.transaction_flushes ambient).invariant
      (fun change _ _ keyed => keyed.apply change) keyed) keyed
  cases operation with
  | reserveRun | appendMessage | clearSession | markRunRunning | incrementRunAttempt
  | appendStreamEvent | commitRunSuccess | failRun | cancelRun | interruptWorkerRuns
  | reconcileOrphanedRuns => exact locking _
  | createSession metadata sessionId userId =>
    simp only [perform, createSession]
    split
    · exact keyed
    · exact keyed.apply (.session _)
  | pruneStreamEvents before => exact ⟨keyed.runId⟩
  | initializeStore | getSession | listMessages | getRun | listStreamEvents | ping | close =>
    exact keyed

private theorem script_behaves (script : List (Ambient × Operation)) (keyed : database.Keyed) :
    runTable.BehavesAlong database script := by
  induction script generalizing database with
  | nil => trivial
  | cons entry rest ih =>
    obtain ⟨ambient, operation⟩ := entry
    exact ⟨perform_behaves operation ambient keyed, ih (perform_keyed operation ambient keyed)⟩

end SQLAlchemyRuntimeStore

section BothStores

/-- In either store, attempts are counted on started runs only, exactly if no attempt is
counted of a run that is still pending. -/
theorem attempts_counted_iff (script : List (Ambient × Operation)) :
    (FreshScript .empty script →
      (InMemorySessionStore.runTable.CountsAttempts .empty script ↔
        InMemorySessionStore.runTable.StartedScript .empty script)) ∧
    (SQLAlchemyRuntimeStore.runTable.CountsAttempts .empty script ↔
      SQLAlchemyRuntimeStore.runTable.StartedScript .empty script) := by
  constructor
  · intro fresh
    have behaves := InMemorySessionStore.script_behaves InMemorySessionStore.empty_coherent fresh
    exact behaves.countsAttempts_iff fun _ => rfl
  · have keyed : Database.empty.Keyed := ⟨fun found => by cases found⟩
    have behaves := SQLAlchemyRuntimeStore.script_behaves script keyed
    exact behaves.countsAttempts_iff fun _ => rfl

def startedAttempts : List (Ambient × Operation) :=
  [(.sample "lake" "run", .reserveRun (.sample none none "hash")),
    (.sample "start" "b", .markRunRunning "run" "worker"),
    (.sample "c" "d", .incrementRunAttempt "run"), (.sample "e" "f", .incrementRunAttempt "run")]

theorem attempts_counted_iff_started :
    InMemorySessionStore.runTable.CountsAttempts .empty startedAttempts ∧
      SQLAlchemyRuntimeStore.runTable.CountsAttempts .empty startedAttempts :=
  ⟨((attempts_counted_iff startedAttempts).1 (by decide +kernel)).mpr (by decide +kernel),
    (attempts_counted_iff startedAttempts).2.mpr (by decide +kernel)⟩

def pendingAttempt : List (Ambient × Operation) :=
  [(.sample "lake" "run", .reserveRun (.sample none none "hash")),
    (.sample "start" "b", .incrementRunAttempt "run")]

/-- A run that was only reserved has one attempt, and no store has started it. -/
theorem pending_attempt_counted : FreshScript .empty pendingAttempt ∧
    ¬ InMemorySessionStore.runTable.CountsAttempts .empty pendingAttempt ∧
    ¬ SQLAlchemyRuntimeStore.runTable.CountsAttempts .empty pendingAttempt := by
  refine ⟨by decide +kernel, fun counts => ?_, fun counts => ?_⟩
  · exact counts.never_unstarted "run" 0 (by decide +kernel)
  · exact counts.never_unstarted "run" 0 (by decide +kernel)

end BothStores

end DayuAgent
