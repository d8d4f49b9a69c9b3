import DayuAgent.Database.Serial

namespace DayuAgent

open Library SQLAlchemyRuntimeStore Txn
open InMemorySessionStore (implicitSession touched pendingRun sessionBusy)

/-- Calls that interrupt the runs they find unlocked. -/
def LockingCall.Sweeping : LockingCall → Prop
  | interruptWorkerRuns _ | reconcileOrphanedRuns _ => True
  | _ => False

/-- The runs that a sweep selects. -/
def LockingCall.Sweeps : LockingCall → AgentRun → Prop
  | interruptWorkerRuns workerInstanceId, run =>
    run.Active ∧ run.workerInstanceId = workerInstanceId
  | reconcileOrphanedRuns workerInstanceId, run =>
    run.Active ∧ run.workerInstanceId ≠ workerInstanceId
  | _, _ => False

theorem LockingCall.Sweeps.active {call : LockingCall} {row : AgentRun}
    (sweeps : call.Sweeps row) : row.Active := by
  cases call with
  | interruptWorkerRuns | reconcileOrphanedRuns => exact sweeps.1
  | _ => exact sweeps.elim

/-- The event of an append that has counted so many before it. -/
def countedEvent (ref : String) (type : StreamEventType) (payload : JsonObject) (ambient : Ambient)
    (last : Nat) : StreamEvent :=
  { id := ambient.uuid4 0, runId := ref, sequence := last + 1, type
    createdAt := ambient.utcNow 0, payload }

/-- How a call may end over one committed state. Apart from what its transaction does there, a
sweep may leave out rows that others have locked, an append to a terminal run may have counted
events that are pruned since, and a reservation that finds its key under its new session
leaves that session. -/
inductive LockingCall.Outcome (call : LockingCall) (ambient : Ambient) (database : Database) :
    Ending Reply → Prop where
  | whole : Outcome call ambient database (call.ending ambient database)
  | sweep (sweeping : call.Sweeping) (runs : List AgentRun)
      (distinct : (runs.map fun run => run.id).Nodup)
      (selected : ∀ run ∈ runs, database.row run.id = some run ∧ call.Sweeps run) :
      Outcome call ambient database
        (((do interruptEach ambient 0 runs; return runs.length : Txn Nat) >>=
          fun count => pure (Reply.count count)).run database database)
  | late (names : call = .appendStreamEvent ref type payload)
      (found : database.row ref = some row) (terminal : row.Terminal)
      (last : Nat) (above : maxSequence ((database.eventLog ref).map (·.sequence)) ≤ last) :
      Outcome call ambient database
        (.committed (.event (countedEvent ref type payload ambient last))
          (database.apply (.event (countedEvent ref type payload ambient last))))
  | stranded (names : call = .reserveRun request) (unnamed : request.sessionId = none)
      (replays : call.ending ambient database = .committed answer database) :
      Outcome call ambient database
        (.committed answer (database.apply (.session (implicitSession request ambient))))

section Steady

variable {Value : Type} {held : Holdings} {ambient : Ambient}

theorem lockedRun_steady {rest : AgentRun → Txn Value}
    (following : ∀ run, run.id = ref → (rest run).Steady (held.addRuns [run]) []) :
    (lockedRun ref >>= rest).Steady held [] := ⟨rfl, ⟨_, rfl⟩, following⟩

theorem lockedSession_steady {rest : SessionRecord → Txn Value}
    (following : ∀ record, record.id = ref → (rest record).Steady (held.addSession record) []) :
    (lockedSession ref >>= rest).Steady held [] := ⟨rfl, ⟨_, rfl⟩, following⟩

/-- The last event number of a held and active run is nobody else's to change. -/
theorem lastEvent_stays {before after : Epoch} (member : row ∈ held.runs) (active : row.Active)
    (keeps : held.Keeps before after) (pending : List Change) :
    maxSequence (((after.now.applyAll pending).eventLog row.id).map (·.sequence)) =
      maxSequence (((before.now.applyAll pending).eventLog row.id).map (·.sequence)) := by
  rw [Database.applyAll_eventLog, Database.applyAll_eventLog, keeps.logs row member active]

theorem publishRun_steady {updated : AgentRun} (member : row ∈ held.runs) (active : row.Active)
    (amends : updated.Amends row) (type : StreamEventType) (payload : JsonObject) (id : String)
    (now : Time) : (publishRun updated type payload id now).Steady held pending := by
  refine ⟨.inl ⟨row, member, amends⟩, fun before after _ keeps => ?_, fun count => ⟨?_, trivial⟩⟩
  · have stays := lastEvent_stays member active keeps (pending ++ [.run updated])
    rw [← amends.id] at stays
    exact stays
  · exact ⟨row, member, amends.id.symm⟩

/-- A run that stays itself and was active may take any new record. -/
theorem amends_active {run updated : AgentRun} (active : run.Active) (id : updated.id = run.id)
    (session : updated.sessionId = run.sessionId)
    (key : updated.idempotencyKey = run.idempotencyKey) : updated.Amends run :=
  ⟨id, session, key, fun _ => active⟩

theorem mem_addRuns (held : Holdings) (run : AgentRun) : run ∈ (held.addRuns [run]).runs :=
  List.mem_cons_self

theorem activeRun_stays {before after : Epoch} (member : record ∈ held.sessions)
    (keeps : held.Keeps before after) (idle : activeRunIn record.id before.now = none) :
    activeRunIn record.id after.now = none := by
  cases found : activeRunIn record.id after.now with
  | none => rfl
  | some active =>
    obtain ⟨ref, present, same, busy⟩ := activeRunIn_some found
    obtain ⟨former, earlier, own, was⟩ := keeps.unrevived record member ref active present same busy
    exact (activeRunIn_none idle earlier own was).elim

theorem markRunRunning_steady (ref workerInstanceId : String) :
    (markRunRunning ref workerInstanceId ambient).Steady held [] := by
  refine lockedRun_steady fun run _ => Txn.lift_bind (fun _ => trivial) fun passed => ?_
  have active := allowed_from_active (validated_allowed passed)
  refine publishRun_steady (mem_addRuns held run) active (amends_active active ?_ ?_ ?_) _ _ _ _
  all_goals rfl

theorem incrementRunAttempt_steady (ref : String) : (incrementRunAttempt ref).Steady held [] := by
  refine lockedRun_steady fun run _ => ?_
  have own := mem_addRuns held run
  split
  · exact Txn.lift_bind (fun _ => trivial) fun _ => ⟨.inl ⟨run, own, ⟨rfl, rfl, rfl, id⟩⟩, trivial⟩
  · exact ⟨.inl ⟨run, own, ⟨rfl, rfl, rfl, id⟩⟩, trivial⟩

theorem failRun_steady (ref errorCode : String) :
    (failRun ref errorCode ambient).Steady held [] := by
  refine lockedRun_steady fun run _ => ?_
  split
  · exact trivial
  · refine Txn.lift_bind (fun _ => trivial) fun passed => ?_
    have active := allowed_from_active (validated_allowed passed)
    refine publishRun_steady (mem_addRuns held run) active (amends_active active ?_ ?_ ?_) _ _ _ _
    all_goals rfl

theorem cancelRun_steady (ref workerInstanceId : String) :
    (cancelRun ref workerInstanceId ambient).Steady held [] := by
  refine lockedRun_steady fun run _ => ?_
  split
  · exact trivial
  split
  · exact trivial
  split
  · exact trivial
  · refine Txn.lift_bind (fun _ => trivial) fun passed => ?_
    have active := allowed_from_active (validated_allowed passed)
    refine Steady.map _ ?_
    refine publishRun_steady (mem_addRuns held run) active (amends_active active ?_ ?_ ?_) _ _ _ _
    all_goals rfl

theorem commitRunSuccess_steady (ref : String) (request : CommitRunRequest) :
    (commitRunSuccess ref request ambient).Steady held [] := by
  refine lockedRun_steady fun run _ => Txn.lift_bind (fun _ => trivial) fun passed => ?_
  have active := allowed_from_active (validated_allowed passed)
  refine lockedSession_steady fun record own => ⟨fun before after _ keeps => ?_, fun last => ?_⟩
  · have transcript := keeps.transcripts record List.mem_cons_self
    rw [own] at transcript
    exact congrArg (fun messages => maxSequence (messages.map AgentMessage.sequence)) transcript
  · have tells : ∃ row ∈ ((held.addRuns [run]).addSession record).sessions,
        some row.id = some run.sessionId := ⟨record, List.mem_cons_self, congrArg some own⟩
    refine ⟨tells, tells, .inr ⟨record, List.mem_cons_self, rfl⟩, ?_⟩
    refine publishRun_steady (List.mem_cons_self : run ∈ _) active
      (amends_active active ?_ ?_ ?_) _ _ _ _
    all_goals rfl

theorem appendMessage_steady (sessionId : String) (role : MessageRole) (content : String)
    (metadata : Option JsonObject) :
    (appendMessage sessionId role content metadata ambient).Steady held [] := by
  refine lockedSession_steady fun record own => ⟨fun active => ⟨_, rfl⟩, ?_, ?_, fun last => ?_⟩
  · exact fun before after _ keeps idle =>
      own ▸ activeRun_stays List.mem_cons_self keeps (own ▸ idle)
  · intro before after _ keeps
    have transcript := keeps.transcripts record List.mem_cons_self
    rw [own] at transcript
    exact congrArg (fun messages => maxSequence (messages.map AgentMessage.sequence)) transcript
  · exact ⟨⟨record, List.mem_cons_self, congrArg some own⟩,
      .inr ⟨record, List.mem_cons_self, rfl⟩, trivial⟩

theorem clearSession_steady (sessionId : String) :
    (clearSession sessionId ambient).Steady held [] := by
  refine lockedSession_steady fun record own => ⟨fun active => ⟨_, rfl⟩, ?_, ?_⟩
  · exact fun before after _ keeps idle =>
      own ▸ activeRun_stays List.mem_cons_self keeps (own ▸ idle)
  · exact ⟨⟨record, List.mem_cons_self, own⟩, .inr ⟨record, List.mem_cons_self, rfl⟩, trivial⟩

/-- The loop of a sweep over rows that are locked. -/
theorem interruptEach_steady (index : Nat) (runs : List AgentRun)
    (locked : ∀ run ∈ runs, run ∈ held.runs) :
    (interruptEach ambient index runs).Steady held pending := by
  induction runs generalizing index pending with
  | nil => exact trivial
  | cons run rest ih =>
    refine Txn.lift_bind (fun _ => trivial) fun passed => ?_
    have active := allowed_from_active (validated_allowed passed)
    have own := locked run List.mem_cons_self
    have amends := @amends_active run { run with
      status := .interrupted, completedAt := some (ambient.utcNow (2 * index)) } active rfl rfl rfl
    refine ⟨.inl ⟨run, own, amends⟩, fun before after _ keeps => ?_, fun count => ⟨?_, ?_⟩⟩
    · exact lastEvent_stays own active keeps _
    · exact ⟨run, own, rfl⟩
    · exact ih (index + 1) fun other member => locked other (List.mem_cons_of_mem _ member)

end Steady

namespace LockingCall

variable {call : LockingCall} {ambient : Ambient} {held : Holdings} {epoch : Epoch}

/-- A steady transaction that has not started yet. -/
theorem serial_of_steady (current : held.Current epoch)
    (steady : (call.transaction ambient).Steady held []) :
    (call.transaction ambient).Serial (call.Outcome ambient) rescued held epoch [] :=
  steady.serial current fun _ _ => .whole

private theorem le_maxSequence (member : number ∈ numbers) : number ≤ maxSequence numbers := by
  suffices all : ∀ start, start ≤ numbers.foldl max start ∧ number ≤ numbers.foldl max start from
    (all 0).2
  induction numbers with
  | nil => cases member
  | cons first rest ih =>
    intro start
    have grows : ∀ (rest : List Nat) start, start ≤ rest.foldl max start := by
      intro rest
      induction rest with
      | nil => exact fun start => le_rfl
      | cons next later ih => exact fun start => (le_max_left start next).trans (ih _)
    rcases List.mem_cons.mp member with rfl | later
    · exact ⟨(le_max_left _ _).trans (grows rest _), (le_max_right _ _).trans (grows rest _)⟩
    · obtain ⟨least, bound⟩ := ih later (max start first)
      exact ⟨(le_max_left _ _).trans least, bound⟩

private theorem maxSequence_le (bounded : ∀ number ∈ numbers, number ≤ bound) :
    maxSequence numbers ≤ bound := by
  suffices all : ∀ start, start ≤ bound → numbers.foldl max start ≤ bound from
    all 0 (Nat.zero_le _)
  induction numbers with
  | nil => exact fun start least => least
  | cons first rest ih =>
    intro start least
    refine ih (fun number member => bounded number (List.mem_cons_of_mem _ member)) _ ?_
    exact max_le least (bounded first List.mem_cons_self)

private theorem appendStreamEvent_ending (ambient : Ambient) (ref : String) (type : StreamEventType)
    (payload : JsonObject) {database : Database} (found : database.row ref = some row)
    (own : row.id = ref) :
    (appendStreamEvent ref type payload).ending ambient database =
      .committed (.event (countedEvent ref type payload ambient
        (maxSequence ((database.eventLog ref).map (·.sequence)))))
        (database.apply (.event (countedEvent ref type payload ambient
          (maxSequence ((database.eventLog ref).map (·.sequence)))))) := by
  subst own
  simp only [ending, transaction, SQLAlchemyRuntimeStore.appendStreamEvent, Txn.run_bind,
    Ending.andThen_committed (lockedRun_found found)]
  rfl

/-- An append to an active run counts its events; one to a terminal run may have counted
events that are pruned since. -/
theorem appendStreamEvent_serial (ref : String) (type : StreamEventType) (payload : JsonObject) :
    ((appendStreamEvent ref type payload).transaction ambient).Serial
      ((appendStreamEvent ref type payload).Outcome ambient) rescued held epoch [] := by
  refine ⟨by simp, fun later keeps => ⟨fun absent => ?_, fun row found => ?_⟩⟩
  · refine ⟨later.now, keeps.seen, ?_⟩
    have ends : (appendStreamEvent ref type payload).ending ambient later.now = _ :=
      ending_unknown ambient rfl absent
    exact ends ▸ .whole
  · obtain rfl : row.id = ref := keeps.sound.runId found
    have member := mem_addRuns held row
    intro counted again
    refine ⟨⟨row, member, rfl⟩, fun last once => .inl ?_⟩
    have still := once.runs row member
    by_cases active : row.Active
    · have ends := appendStreamEvent_ending ambient row.id type payload still rfl
      rw [once.logs row member active] at ends
      exact ends ▸ .whole
    · refine .late rfl still ((not_active_iff_terminal _).mp active) _ (maxSequence_le ?_)
      intro number among
      exact le_maxSequence ((once.pruned row member).map _ |>.subset among)

theorem sweep_serial (sweeping : call.Sweeping) (workerInstanceId : String) (sameWorker : Bool)
    (runs : call.transaction ambient =
      (interruptMatching workerInstanceId sameWorker ambient >>= fun count => pure (.count count)))
    (sweeps : ∀ run : AgentRun, (run.Active ∧ (if sameWorker then
      run.workerInstanceId = workerInstanceId else run.workerInstanceId ≠ workerInstanceId)) →
        call.Sweeps run) :
    (call.transaction ambient).Serial (call.Outcome ambient) rescued held epoch [] := by
  rw [runs]
  refine ⟨rfl, fun later keeps rows distinct selected => ?_⟩
  have looped : (interruptEach ambient 0 rows).Steady (held.addRuns rows) [] :=
    interruptEach_steady 0 rows fun run member => List.mem_append_left _ member
  refine ((looped.map fun _ => rows.length).map Reply.count).serial
    (keeps.toCurrent.addRuns fun run member => (selected run member).1) fun last again => ?_
  refine .sweep sweeping rows distinct fun run member => ⟨?_, ?_⟩
  · exact again.runs run (List.mem_append_left _ member)
  · exact sweeps run (of_decide_eq_true (selected run member).2)

/-- A sweep over active runs raises nothing. -/
theorem interruptEach_commits (ambient : Ambient) (index : Nat) (runs : List AgentRun)
    (active : ∀ run ∈ runs, run.Active) (committed view : Database) :
    ∃ after, (interruptEach ambient index runs).run committed view = .committed () after := by
  induction runs generalizing index view with
  | nil => exact ⟨view, rfl⟩
  | cons row rest ih =>
    have allowed := (Move.interrupt (active row List.mem_cons_self) 0).allowed
    obtain ⟨after, ran⟩ := ih (index + 1)
      (fun other member => active other (List.mem_cons_of_mem _ member)) _
    refine ⟨after, ?_⟩
    rw [interruptEach, validateRunTransition_ok allowed, Txn.run_bind, Txn.run_lift]
    simp only [Ending.andThen]
    rw [Txn.run_bind, publishRun_run]
    exact ran

/-- An error is one that the transaction raises when it is alone. -/
theorem Outcome.failed (ends : call.Outcome ambient database (.failed error)) :
    call.ending ambient database = .failed error := by
  generalize same : Ending.failed error = ending at ends
  cases ends with
  | whole => rfl
  | sweep sweeping runs distinct selected =>
    have active : ∀ run ∈ runs, run.Active := fun run member => (selected run member).2.active
    obtain ⟨after, ran⟩ := interruptEach_commits ambient 0 runs active database database
    rw [Txn.run_bind, Txn.run_bind, ran] at same
    cases same
  | late => cases same
  | stranded => cases same

end LockingCall

end DayuAgent
