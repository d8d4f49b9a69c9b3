import DayuAgent.Database.Reference
import DayuAgent.Memory.Terminal
import DayuAgent.Memory.Versions

namespace DayuAgent

open Library SQLAlchemyRuntimeStore
open InMemorySessionStore (Coherent implicitSession edits_coherent edits_ledger empty_coherent)

/-- What a done call makes in the in-memory store. An append changes nothing that is compared. -/
inductive Answered (call : LockingCall) (ambient : Ambient) (value : Reply) :
    List Effect → Prop where
  | made (makes : Makes call.operation (.ok value) effects) : Answered call ambient value effects
  | appended (names : call = .appendStreamEvent ref type payload) :
      Answered call ambient value []
  | stranded (names : call = .reserveRun request) (unnamed : request.sessionId = none)
      (replays : value = .reservation { run, ownsExecution := false }) :
      Answered call ambient value [.opened (ambient.uuid4 0)]

/-- What an entry of a history makes in the in-memory store. -/
inductive Conveys (calls : Workload) : SerialEntry → List Effect → Prop where
  | call (answered : Answered (calls process).1 (calls process).2 value effects) :
      Conveys calls (.call process value) effects
  | opened (record : SessionRecord) : Conveys calls (.opened record) [.opened record.id]
  | pruned (before : Time) (removed : StreamEvent → Bool) :
      Conveys calls (.pruned before removed) []

/-- The in-memory store enacts an entry of a history: it makes the edits of the entry and then
holds the run that the entry's reply shows. -/
def Enacts (calls : Workload) (store : InMemorySessionStore) (entry : SerialEntry)
    (later : InMemorySessionStore) : Prop :=
  ∃ effects, Run Edit store effects later ∧ Conveys calls entry effects ∧
    ∀ process value, entry = .call process value → value.Stored later

section Calls

variable {store : InMemorySessionStore} {view after : Database} {ambient : Ambient}
  {call : LockingCall} {value : Reply}

theorem Txn.Ensures.wrapped {Value : Type} {transaction : Txn Value} {committed view : Database}
    {post : Reply → Database → Prop} (wrap : Value → Reply)
    (ensures : transaction.Ensures committed view fun answer after => post (wrap answer) after) :
    (transaction >>= fun answer => pure (wrap answer)).Ensures committed view post :=
  ensures.bind fun _ _ => Txn.ensures_pure

/-- The session that a reservation may open is not there. -/
theorem unopened {request : ReserveRunRequest}
    (undrawn : ∀ ref ∈ ((LockingCall.reserveRun request).draws ambient).drawnSessions,
      view.sessions.get? ref = none) (unnamed : request.sessionId = none) :
    view.sessions.get? (ambient.uuid4 0) = none := by
  refine undrawn _ ?_
  simp [LockingCall.draws, drawnBy, resolvedSessionId, unnamed, InMemorySessionStore.chosenId]

private theorem appendStreamEvent_reflects (reached : Reached store view) (ref : String)
    (type : StreamEventType) (payload : JsonObject) :
    (appendStreamEvent ref type payload ambient).Ensures view view fun _ after =>
      Reflects store after := by
  refine (lockedRun_ensures ref).bind ?_
  rintro run _ ⟨_, rfl⟩ event after ran
  rw [appendEvent_run] at ran
  cases ran
  exact reached.reflects.events _

/-- A transaction alone does what the in-memory store does, but for the events. -/
theorem Reached.transaction (reached : Reached store view) (call : LockingCall)
    (undrawn : ∀ ref ∈ (call.draws ambient).drawnSessions, view.sessions.get? ref = none)
    (logged : ∀ ref type payload, call ≠ .appendStreamEvent ref type payload) :
    (call.transaction ambient).Ensures view view fun value after =>
      Amounts store call.operation value after := by
  cases call with
  | reserveRun request =>
    exact (reserveRun_amounts reached request (unopened undrawn)).wrapped _
  | appendMessage sessionId role content metadata =>
    exact (appendMessage_amounts reached sessionId role content metadata).wrapped _
  | clearSession sessionId =>
    exact (clearSession_amounts reached sessionId).wrapped fun _ => .unit
  | markRunRunning ref workerInstanceId =>
    exact (markRunRunning_amounts reached ref workerInstanceId).wrapped _
  | incrementRunAttempt ref => exact (incrementRunAttempt_amounts reached ref).wrapped _
  | appendStreamEvent ref type payload => exact (logged ref type payload rfl).elim
  | commitRunSuccess ref request => exact (commitRunSuccess_amounts reached ref request).wrapped _
  | failRun ref errorCode => exact (failRun_amounts reached ref errorCode).wrapped _
  | cancelRun ref workerInstanceId =>
    exact (cancelRun_amounts reached ref workerInstanceId).wrapped _
  | interruptWorkerRuns workerInstanceId =>
    exact (interruptMatching_amounts reached workerInstanceId true fun runs _ => .interrupted runs
      ).wrapped _
  | reconcileOrphanedRuns workerInstanceId =>
    exact (interruptMatching_amounts reached workerInstanceId false fun runs _ => .reconciled runs
      ).wrapped _

/-- A reservation that writes no row is a replay. -/
theorem reserveRun_rereads {request : ReserveRunRequest} (sound : view.Sound)
    (ends : (LockingCall.reserveRun request).ending ambient view = .committed value view) :
    ∃ run, view.row run.id = some run ∧
      value = .reservation { run, ownsExecution := false } := by
  obtain ⟨answer, rfl, ran⟩ := reserveRun_wrapped ends
  rcases reserveRun_commits sound ran with ⟨replays, _, found, _⟩ | ⟨rfl, written, _, _, free⟩
  · obtain ⟨run, owns⟩ := answer
    cases replays
    exact ⟨run, found, rfl⟩
  · have present : view.row (runModel request ambient).id = some (runModel request ambient) := by
      rw [written]
      exact Dict.get?_set_self _ _ _
    exact (free _ _ present (.inl rfl)).elim

/-- However a call ends over one committed state, the in-memory store can follow it. -/
theorem Reached.outcome (reached : Reached store view)
    (undrawn : ∀ ref ∈ (call.draws ambient).drawnSessions, view.sessions.get? ref = none)
    (ends : call.Outcome ambient view (.committed value after)) :
    ∃ effects later, Run Edit store effects later ∧ Answered call ambient value effects ∧
      value.Stored later ∧ Reflects later after := by
  generalize same : Ending.committed value after = ending at ends
  cases ends with
  | whole =>
    by_cases logged : ∃ ref type payload, call = .appendStreamEvent ref type payload
    · obtain ⟨ref, type, payload, rfl⟩ := logged
      have reflects :
          (LockingCall.transaction ambient (.appendStreamEvent ref type payload)).Ensures
            view view fun value after => value.Stored store ∧ Reflects store after :=
        ((appendStreamEvent_reflects reached ref type payload).mono fun _ _ reflects =>
          ⟨trivial, reflects⟩).wrapped Reply.event
      exact ⟨[], store, .nil, .appended rfl, reflects value after same.symm⟩
    · simp only [not_exists] at logged
      obtain ⟨effects, later, edits, makes, reflects⟩ :=
        reached.transaction call undrawn logged value after same.symm
      exact ⟨effects, later, edits, .made makes, reflects⟩
  | sweep sweeping runs distinct selected =>
    have swept : ∀ effects, List.Forall₂ Effect.Interrupts runs effects →
        Makes call.operation (.ok (.count runs.length)) effects := by
      intro effects each
      cases call with
      | interruptWorkerRuns => exact .interrupted runs (fun run own => (selected run own).2.2) each
      | reconcileOrphanedRuns => exact .reconciled runs (fun run own => (selected run own).2.2) each
      | _ => exact sweeping.elim
    have active : ∀ run ∈ runs, view.row run.id = some run ∧ run.Active :=
      fun run member => (selected run member).imp id fun sweeps => sweeps.active
    obtain ⟨effects, later, edits, makes, reflects⟩ :=
      (interruptEach_amounts reached runs swept distinct active).wrapped Reply.count
        value after same.symm
    exact ⟨effects, later, edits, .made makes, reflects⟩
  | late names =>
    cases same
    exact ⟨[], store, .nil, .appended names, trivial, reached.reflects.events _⟩
  | stranded names unnamed replays =>
    cases same
    subst names
    obtain ⟨run, found, rfl⟩ := reserveRun_rereads reached.sound replays
    have absent : store.sessions.get? (ambient.uuid4 0) = none := by
      rw [← reached.reflects.sessions]
      exact unopened undrawn unnamed
    exact ⟨_, _, .single (.openSession (implicitSession _ ambient) absent rfl),
      .stranded rfl unnamed rfl, (reached.reflects.row run.id).symm.trans found,
      reached.reflects.openSession reached.coherent absent⟩

end Calls

/-- The committed rows are those of a store that some edits have led to. -/
structure Attained (database : Database) (store : InMemorySessionStore) : Prop where
  reflects : Reflects store database
  edited : ∃ past, Run Edit .empty past store

theorem Attained.reached (attained : Attained database store) : Reached store database := by
  obtain ⟨past, edits⟩ := attained.edited
  exact ⟨edits_coherent edits empty_coherent, (edits_ledger edits).numbered, attained.reflects⟩

private theorem Attained.edits (attained : Attained before store)
    (edits : Run Edit store effects later)
    (reflects : Reflects later after) : Attained after later := by
  obtain ⟨past, earlier⟩ := attained.edited
  exact ⟨reflects, past ++ effects, earlier.append edits⟩

/-- An entry of a history is a run of edits. -/
theorem Performs.enacted {calls : Workload} {entry : SerialEntry}
    (attained : Attained before store) (performs : Performs calls before entry after) :
    ∃ later, Enacts calls store entry later ∧ Attained after later := by
  have reached := attained.reached
  cases performs with
  | call undrawn ends =>
    obtain ⟨effects, later, edits, answered, stored, reflects⟩ := reached.outcome undrawn ends
    refine ⟨later, ⟨effects, edits, .call answered, ?_⟩, attained.edits edits reflects⟩
    intro process value same
    cases same
    exact stored
  | @opened record absent first =>
    rw [reached.reflects.sessions] at absent
    have opens := Run.single (Edit.openSession record absent first)
    exact ⟨_, ⟨_, opens, .opened record, by simp⟩,
      attained.edits opens (reached.reflects.openSession reached.coherent absent)⟩
  | pruned expired =>
    exact ⟨store, ⟨[], .nil, .pruned _ _, by simp⟩,
      attained.edits .nil (reached.reflects.events _)⟩

section Service

variable {calls : Workload} {actions later : List ServiceAction}
  {middle cluster : Cluster Reply} {history : List SerialEntry}

theorem performs_edits (attained : Attained before store)
    (run : Run (Performs calls) before history after) : ∃ effects final,
      Run Edit store effects final ∧ Produces (Conveys calls) history effects ∧
        Attained after final := by
  obtain ⟨final, followed, reached⟩ := run.simulated Performs.enacted attained
  obtain ⟨effects, edits, produces⟩ := followed.flattened fun follows =>
    follows.imp fun _ made => ⟨made.1, made.2.1⟩
  exact ⟨effects, final, edits, produces, reached⟩

theorem empty_attained : Attained .empty .empty := ⟨.empty, [], .nil⟩

/-- However the statements of the calls interleave, their rows are those of the in-memory store
after it has enacted the calls, one after the other, with the same answers. -/
theorem calls_refine_store (fresh : calls.Fresh) (run : Run Serves calls.start actions cluster)
    (opens : ∀ action ∈ actions, ∀ sessionId, action.Opens calls sessionId) :
    ∃ history store, HasHistory calls (fun _ => True) calls.start cluster history ∧
      Run (Enacts calls) .empty history store ∧ Reflects store cluster.database := by
  obtain ⟨history, has⟩ := (start_serialized calls).hasHistory
    (fun process _ => start_unstarted calls process) fresh run opens
  obtain ⟨store, followed, attained⟩ := has.serial.simulated Performs.enacted empty_attained
  exact ⟨history, store, has, followed, attained.reflects⟩

theorem calls_refine_store_contenders : ∃ cluster history store,
    Run Serves contenders.start ([1, 0, 0, 0, 0, 0, 0, 1, 1, 1].map .statement) cluster ∧
    cluster.database.sessions.values.length = 2 ∧
    HasHistory contenders (fun _ => True) contenders.start cluster history ∧
    Run (Enacts contenders) .empty history store ∧ Reflects store cluster.database := by
  obtain ⟨cluster, run, stranded⟩ : ∃ cluster,
      Run Serves contenders.start ([1, 0, 0, 0, 0, 0, 0, 1, 1, 1].map .statement) cluster ∧
        cluster.database.sessions.values.length = 2 := follow_reaches (by decide +kernel)
  obtain ⟨history, store, refined⟩ := calls_refine_store contenders_fresh run (by
    simp [ServiceAction.Opens])
  exact ⟨cluster, history, store, run, stranded, refined⟩

end Service

end DayuAgent
