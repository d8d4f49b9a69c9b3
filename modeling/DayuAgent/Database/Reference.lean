import DayuAgent.Database.History
import DayuAgent.Database.Simulation
import DayuAgent.Memory.Transcript

/-! The rows of the PostgreSQL store as a state of the in-memory store, and the edits of that
state that an undisturbed call makes. -/

namespace DayuAgent

open Library SQLAlchemyRuntimeStore
open InMemorySessionStore (Coherent Numbered activeRunLocked withSession withTranscript withUpdate
  withLog withRun withTurn completedRun turnMessages nextEvent pendingRun implicitSession touched
  interruptedRun statusPayload)

/-- Sessions, runs and transcripts are those of the in-memory store. The event logs are left
out: a pruning may delete other events in the two stores. -/
structure Reflects (store : InMemorySessionStore) (database : Database) : Prop where
  sessions : database.sessions = store.sessions
  runs : database.runs = store.runs
  transcripts : ∀ sessionId,
    database.transcript sessionId = (store.messages.get? sessionId).getD []
  committed : ∀ message ∈ database.messages, message.committed = true

namespace Reflects

variable {store : InMemorySessionStore} {database : Database}

theorem empty : Reflects .empty .empty where
  sessions := rfl
  runs := rfl
  transcripts _ := rfl
  committed := by simp [Database.empty]

/-- Events are not compared. -/
theorem events (reflects : Reflects store database) (events : List StreamEvent) :
    Reflects store { database with events } :=
  ⟨reflects.sessions, reflects.runs, reflects.transcripts, reflects.committed⟩

theorem row (reflects : Reflects store database) (ref : String) :
    database.row ref = store.runs.get? ref := by
  rw [Database.row, reflects.runs]

theorem activeRow (reflects : Reflects store database) (sessionId : String) :
    activeRunIn sessionId database = activeRunLocked store sessionId := by
  rw [activeRunIn, reflects.runs, activeRunLocked]

section Writes

theorem openSession (reflects : Reflects store database) (coherent : Coherent store)
    (absent : store.sessions.get? record.id = none) :
    Reflects (withSession store record) (database.apply (.session record)) where
  sessions := congrArg (·.set record.id record) reflects.sessions
  runs := reflects.runs
  transcripts sessionId := by
    have kept := reflects.transcripts sessionId
    by_cases same : sessionId = record.id
    · subst same
      have unread : store.messages.get? record.id = none := by
        rw [← Option.not_isSome_iff_eq_none, coherent.transcripts, absent]
        simp
      rw [unread] at kept
      rw [withSession, Dict.get?_set_self]
      exact kept
    · rw [withSession, Dict.get?_set_ne _ _ same]
      exact kept
  committed := reflects.committed

/-- More messages at the end of one transcript. -/
theorem tell (reflects : Reflects store database)
    (read : store.messages.get? record.id = some history) (added : List AgentMessage)
    (own : ∀ message ∈ added, message.sessionId = some record.id ∧ message.committed = true)
    (now : Time) :
    Reflects (withTranscript store record (history ++ added) now) { database with
      messages := database.messages ++ added
      sessions := database.sessions.set record.id (touched record now) } where
  sessions := congrArg (·.set record.id (touched record now)) reflects.sessions
  runs := reflects.runs
  transcripts sessionId := by
    have kept := reflects.transcripts sessionId
    simp only [Database.transcript, List.filter_append] at kept ⊢
    rw [kept]
    by_cases same : sessionId = record.id
    · subst same
      have all : (added.filter fun message => message.sessionId = some record.id) = added :=
        List.filter_eq_self.mpr fun message member => decide_eq_true (own message member).1
      rw [all, withTranscript, Dict.get?_set_self, read]
      rfl
    · have none : (added.filter fun message => message.sessionId = some sessionId) = [] := by
        apply List.filter_eq_nil_iff.mpr
        intro message member
        simp [(own message member).1, Ne.symm same]
      rw [none, List.append_nil, withTranscript, Dict.get?_set_ne _ _ same]
  committed message member := by
    rcases List.mem_append.mp member with old | new
    · exact reflects.committed message old
    · exact (own message new).2

/-- The messages of one session are gone. -/
theorem clear (reflects : Reflects store database) (record : SessionRecord) (now : Time) :
    Reflects (withTranscript store record [] now) { database with
      messages := database.messages.filter fun message => message.sessionId ≠ some record.id
      sessions := database.sessions.set record.id (touched record now) } where
  sessions := congrArg (·.set record.id (touched record now)) reflects.sessions
  runs := reflects.runs
  transcripts sessionId := by
    have kept := reflects.transcripts sessionId
    simp only [Database.transcript, List.filter_filter] at kept ⊢
    by_cases same : sessionId = record.id
    · subst same
      rw [withTranscript, Dict.get?_set_self]
      simp
    · rw [withTranscript, Dict.get?_set_ne _ _ same, ← kept]
      apply List.filter_congr
      intro message _
      by_cases own : message.sessionId = some sessionId
      · simp [own, same]
      · simp [own]
  committed message member := reflects.committed message (List.mem_of_mem_filter member)

/-- Another record for an existing run. -/
theorem update (reflects : Reflects store database) (same : updated.id = ref) :
    Reflects (withUpdate store ref updated) (database.apply (.run updated)) where
  sessions := reflects.sessions
  runs := by
    rw [withUpdate, ← reflects.runs, ← same]
    rfl
  transcripts := reflects.transcripts
  committed := reflects.committed

theorem log (reflects : Reflects store database) (ref : String) (log : List StreamEvent) :
    Reflects (withLog store ref log) database :=
  ⟨reflects.sessions, reflects.runs, reflects.transcripts, reflects.committed⟩

theorem reserve (reflects : Reflects store database) (run : AgentRun) :
    Reflects (withRun store run) (database.apply (.run run)) where
  sessions := reflects.sessions
  runs := congrArg (·.set run.id run) reflects.runs
  transcripts := reflects.transcripts
  committed := reflects.committed

end Writes

end Reflects

/-- The call as an operation of the store contract. -/
def LockingCall.operation : LockingCall → Operation
  | reserveRun request => .reserveRun request
  | appendMessage sessionId role content metadata =>
    .appendMessage sessionId role content metadata
  | clearSession sessionId => .clearSession sessionId
  | markRunRunning runId workerInstanceId => .markRunRunning runId workerInstanceId
  | incrementRunAttempt runId => .incrementRunAttempt runId
  | appendStreamEvent runId type payload => .appendStreamEvent runId type payload
  | commitRunSuccess runId request => .commitRunSuccess runId request
  | failRun runId errorCode => .failRun runId errorCode
  | cancelRun runId workerInstanceId => .cancelRun runId workerInstanceId
  | interruptWorkerRuns workerInstanceId => .interruptWorkerRuns workerInstanceId
  | reconcileOrphanedRuns workerInstanceId => .reconcileOrphanedRuns workerInstanceId

/-- A run that a reply carries is the stored one. -/
def Reply.Stored (store : InMemorySessionStore) : Reply → Prop
  | .run record => store.runs.get? record.id = some record
  | .cancel result => store.runs.get? result.run.id = some result.run
  | .reservation answer => store.runs.get? answer.run.id = some answer.run
  | _ => True

/-- What the in-memory store does in an operation with this reply leaves these rows. -/
def Amounts (store : InMemorySessionStore) (operation : Operation) (reply : Reply)
    (after : Database) : Prop :=
  ∃ effects later, Run Edit store effects later ∧ Makes operation (.ok reply) effects ∧
    reply.Stored later ∧ Reflects later after

/-- A store that the operations of the contract can reach, and its rows. -/
structure Reached (store : InMemorySessionStore) (database : Database) : Prop where
  coherent : Coherent store
  numbered : store.messages.get? sessionId = some transcript → Numbered transcript
  reflects : Reflects store database

section Calls

variable {store : InMemorySessionStore} {committed view : Database} {ambient : Ambient}

theorem Amounts.nothing (makes : Makes operation (.ok reply) []) (stored : reply.Stored store)
    (reflects : Reflects store view) : Amounts store operation reply view :=
  ⟨[], store, .nil, makes, stored, reflects⟩

theorem Amounts.one (edit : Edit store effect later) (makes : Makes operation (.ok reply) [effect])
    (stored : reply.Stored later) (reflects : Reflects later after) :
    Amounts store operation reply after :=
  ⟨[effect], later, .single edit, makes, stored, reflects⟩

theorem publishRun_writes (run : AgentRun) (type : StreamEventType) (payload : JsonObject)
    (id : String) (now : Time) : (publishRun run type payload id now).Ensures committed view
      fun answer after => answer = run ∧
        ∃ event, after = (view.apply (.run run)).apply (.event event) := by
  intro answer after ran
  rw [publishRun_run] at ran
  cases ran
  exact ⟨rfl, _, rfl⟩

/-- Leaving a status in the database is a move in the in-memory store. -/
theorem publishRun_moves {run updated : AgentRun} (coherent : Coherent store)
    (reflects : Reflects store view) (found : view.row run.id = some run)
    (change : Move run updated type payload) (id : String) (now : Time) :
    (publishRun updated type payload id now).Ensures committed view fun answer after =>
      answer = updated ∧
        (∃ later event, Edit store (.moved run.id updated event) later ∧ Reflects later after) ∧
        after.runs = view.runs.set run.id updated := by
  refine (publishRun_writes updated type payload id now).mono ?_
  rintro _ after ⟨rfl, event, rfl⟩
  have present := (reflects.row run.id).symm.trans found
  obtain ⟨log, read⟩ := coherent.logOf present
  refine ⟨rfl, ⟨_, _, .move present read change id now, ?_⟩, change.same.1 ▸ rfl⟩
  exact ((reflects.update change.same.1).log _ _).events _

theorem moved_stored (edit : Edit store (.moved ref updated event) later) :
    later.runs.get? updated.id = some updated := by
  cases edit with
  | move found read change =>
    rw [change.same.1]
    exact Dict.get?_set_self _ _ _

theorem reserved_stored (edit : Edit store (.reserved run) later) :
    later.runs.get? run.id = some run := by
  cases edit
  exact Dict.get?_set_self _ _ _

/-- A call that moves one run and answers it. -/
theorem publishRun_amounts {run updated : AgentRun} (reached : Reached store view)
    (found : view.row run.id = some run) (change : Move run updated type payload)
    (makes : ∀ event, Makes operation (.ok (.run updated)) [.moved run.id updated event])
    (id : String) (now : Time) :
    (publishRun updated type payload id now).Ensures committed view fun answer after =>
      Amounts store operation (.run answer) after := by
  refine (publishRun_moves reached.coherent reached.reflects found change id now).mono ?_
  rintro answer after ⟨rfl, ⟨later, event, edit, reflects⟩, _⟩
  exact .one edit (makes event) (moved_stored edit) reflects

/-- A sweep over active rows moves one run after the other. -/
theorem interruptEach_moves (coherent : Coherent store) (reflects : Reflects store view)
    (index : Nat) (runs : List AgentRun) (distinct : (runs.map fun run => run.id).Nodup)
    (selected : ∀ run ∈ runs, view.row run.id = some run ∧ run.Active) :
    (interruptEach ambient index runs).Ensures committed view fun _ after =>
      ∃ effects later, Run Edit store effects later ∧
        List.Forall₂ Effect.Interrupts runs effects ∧ Reflects later after := by
  induction runs generalizing index view store with
  | nil => exact Txn.ensures_pure ⟨[], store, .nil, .nil, reflects⟩
  | cons run rest ih =>
    obtain ⟨found, active⟩ := selected run List.mem_cons_self
    obtain ⟨fresh, apart⟩ := List.nodup_cons.mp distinct
    refine (Txn.ensures_lift _).bind ?_
    rintro _ _ ⟨_, rfl⟩
    refine (publishRun_moves coherent reflects found (.interrupt active _) _ _).bind ?_
    rintro _ middle ⟨_, ⟨moved, event, edit, next⟩, written⟩
    refine (ih (edit.coherent coherent) next (index + 1) apart fun other member => ?_).mono ?_
    · obtain ⟨present, busy⟩ := selected other (List.mem_cons_of_mem _ member)
      have different : other.id ≠ run.id := fun same =>
        fresh (List.mem_map.mpr ⟨other, member, same⟩)
      refine ⟨?_, busy⟩
      rw [Database.row, written, Dict.get?_set_ne _ _ different]
      exact present
    · rintro _ after ⟨effects, later, edits, each, reached⟩
      exact ⟨_, later, .cons edit edits, .cons ⟨_, event, rfl⟩ each, reached⟩

theorem interruptEach_amounts (reached : Reached store view) (runs : List AgentRun)
    (makes : ∀ effects, List.Forall₂ Effect.Interrupts runs effects →
      Makes operation (.ok (.count runs.length)) effects)
    (distinct : (runs.map fun run => run.id).Nodup)
    (selected : ∀ run ∈ runs, view.row run.id = some run ∧ run.Active) :
    (do interruptEach ambient 0 runs; return runs.length : Txn Nat).Ensures committed view
      fun count after => Amounts store operation (.count count) after := by
  refine (interruptEach_moves reached.coherent reached.reflects 0 runs distinct selected).bind ?_
  rintro _ after ⟨effects, later, edits, each, reflects⟩
  exact Txn.ensures_pure ⟨effects, later, edits, makes effects each, trivial, reflects⟩

theorem activeRun_ensures (reflects : Reflects store view) (sessionId : String) :
    (activeRun sessionId).Ensures committed view fun active after =>
      activeRunLocked store sessionId = active ∧ view = after := by
  intro active after ran
  rw [activeRun_run] at ran
  cases ran
  exact ⟨(reflects.activeRow sessionId).symm, rfl⟩

section Each

variable (reached : Reached store view)

include reached

theorem found_named (found : view.row ref = some run) : run.id = ref :=
  reached.coherent.runId ((reached.reflects.row ref).symm.trans found)

theorem markRunRunning_amounts (ref workerInstanceId : String) :
    (markRunRunning ref workerInstanceId ambient).Ensures committed view fun run after =>
      Amounts store (.markRunRunning ref workerInstanceId) (.run run) after := by
  refine (lockedRun_ensures ref).bind ?_
  rintro run _ ⟨found, rfl⟩
  obtain rfl := found_named reached found
  refine (Txn.ensures_lift _).bind ?_
  rintro _ _ ⟨passed, rfl⟩
  have pending : run.status = .pending := by
    have allowed := validated_allowed passed
    cases status : run.status <;> simp_all [allowedRunTransitions]
  exact publishRun_amounts reached found (.start pending _ _) (.started rfl rfl rfl) _ _

theorem incrementRunAttempt_amounts (ref : String) :
    (incrementRunAttempt ref).Ensures committed view fun run after =>
      Amounts store (.incrementRunAttempt ref) (.run run) after := by
  refine (lockedRun_ensures ref).bind ?_
  rintro run _ ⟨found, rfl⟩
  obtain rfl := found_named reached found
  have counted : run.Active → (do
      Txn.flush (.run { run with attemptCount := run.attemptCount + 1 })
      return { run with attemptCount := run.attemptCount + 1 } : Txn AgentRun).Ensures committed
        view fun answer after =>
          Amounts store (.incrementRunAttempt run.id) (.run answer) after := by
    intro active
    refine .flushed (Txn.ensures_pure ?_)
    have present := (reached.reflects.row run.id).symm.trans found
    exact .one (.attempt present active) (.attempted rfl) (Dict.get?_set_self _ _ _)
      (reached.reflects.update rfl)
  split
  · refine (Txn.ensures_lift _).bind ?_
    rintro _ _ ⟨passed, rfl⟩
    exact counted (allowed_from_active (validated_allowed passed))
  · next running =>
    refine counted ?_
    simp [AgentRun.Active, not_not.mp running, activeRunStatuses]

theorem failRun_amounts (ref errorCode : String) :
    (failRun ref errorCode ambient).Ensures committed view fun run after =>
      Amounts store (.failRun ref errorCode) (.run run) after := by
  refine (lockedRun_ensures ref).bind ?_
  rintro run _ ⟨found, rfl⟩
  obtain rfl := found_named reached found
  have present := (reached.reflects.row run.id).symm.trans found
  split
  · next terminal =>
    exact Txn.ensures_pure (.nothing (.settled rfl terminal) present reached.reflects)
  · refine (Txn.ensures_lift _).bind ?_
    rintro _ _ ⟨passed, rfl⟩
    have active := allowed_from_active (validated_allowed passed)
    exact publishRun_amounts reached found (.fail active _ _) (.failed rfl rfl rfl) _ _

theorem cancelRun_amounts (ref workerInstanceId : String) :
    (cancelRun ref workerInstanceId ambient).Ensures committed view fun result after =>
      Amounts store (.cancelRun ref workerInstanceId) (.cancel result) after := by
  refine (lockedRun_ensures ref).bind ?_
  rintro run _ ⟨found, rfl⟩
  obtain rfl := found_named reached found
  have present := (reached.reflects.row run.id).symm.trans found
  split
  · next cancelled =>
    have terminal : run.Terminal := by simp [AgentRun.Terminal, cancelled, terminalRunStatuses]
    exact Txn.ensures_pure (.nothing (.declined rfl terminal (by simp)) present reached.reflects)
  split
  · next terminal =>
    exact Txn.ensures_pure (.nothing (.declined rfl terminal (by simp)) present reached.reflects)
  split
  · exact Txn.ensures_raise _
  · refine (Txn.ensures_lift _).bind ?_
    rintro _ _ ⟨passed, rfl⟩
    have active := allowed_from_active (validated_allowed passed)
    refine (publishRun_moves reached.coherent reached.reflects found (.cancel active _) _ _).bind ?_
    rintro answer after ⟨rfl, ⟨later, event, edit, reflects⟩, _⟩
    refine Txn.ensures_pure (.one edit ?_ (moved_stored edit) reflects)
    apply Makes.cancelled <;> rfl

/-- The number of the next message of a session that exists. -/
theorem nextMessageSequence_ensures (found : view.sessions.get? record.id = some record) :
    ∃ history, store.messages.get? record.id = some history ∧
      (nextMessageSequence record.id).Ensures committed view fun sequence after =>
        sequence = history.length + 1 ∧ view = after := by
  have present : store.sessions.get? record.id = some record := by
    rw [← reached.reflects.sessions]
    exact found
  obtain ⟨history, read⟩ := reached.coherent.transcriptOf present
  refine ⟨history, read, fun sequence after ran => ?_⟩
  rw [nextMessageSequence_run] at ran
  cases ran
  have kept := reached.reflects.transcripts record.id
  rw [read, Option.getD_some] at kept
  have numbers : history.map (·.sequence) = List.range' 1 history.length := reached.numbered read
  rw [← Database.transcript, kept, numbers, maxSequence_range]
  exact ⟨rfl, rfl⟩

theorem lockedSession_ensures (ref : String) : (lockedSession ref).Ensures committed view
    fun record after => (record.id = ref ∧ view.sessions.get? record.id = some record) ∧
      view = after := by
  intro record after ran
  cases found : view.sessions.get? ref with
  | none =>
    rw [lockedSession_missing found] at ran
    cases ran
  | some own =>
    rw [lockedSession_found found] at ran
    cases ran
    have present : store.sessions.get? ref = some record := by
      rw [← reached.reflects.sessions]
      exact found
    obtain rfl := reached.coherent.sessionId present
    exact ⟨⟨rfl, found⟩, rfl⟩

theorem appendMessage_amounts (sessionId : String) (role : MessageRole) (content : String)
    (metadata : Option JsonObject) :
    (SQLAlchemyRuntimeStore.appendMessage sessionId role content metadata ambient).Ensures
      committed view fun message after =>
        Amounts store (.appendMessage sessionId role content metadata) (.message message)
          after := by
  refine (lockedSession_ensures reached sessionId).bind ?_
  rintro record _ ⟨⟨rfl, found⟩, rfl⟩
  refine (activeRun_ensures reached.reflects record.id).bind ?_
  rintro active _ ⟨idle, rfl⟩
  cases active with
  | some active => exact Txn.ensures_raise _
  | none =>
    obtain ⟨history, read, numbering⟩ := nextMessageSequence_ensures reached found
    refine numbering.bind ?_
    rintro sequence _ ⟨rfl, rfl⟩
    refine .flushed (.flushed (Txn.ensures_pure ?_))
    have present : store.sessions.get? record.id = some record := by
      rw [← reached.reflects.sessions]
      exact found
    refine .one (.say present read idle rfl rfl _) (.said _ rfl rfl) trivial
      (reached.reflects.tell read [_] (fun message member => ?_) _)
    rw [List.mem_singleton.mp member]
    exact ⟨rfl, rfl⟩

theorem clearSession_amounts (sessionId : String) :
    (SQLAlchemyRuntimeStore.clearSession sessionId ambient).Ensures committed view fun _ after =>
      Amounts store (.clearSession sessionId) .unit after := by
  refine (lockedSession_ensures reached sessionId).bind ?_
  rintro record _ ⟨⟨rfl, found⟩, rfl⟩
  refine (activeRun_ensures reached.reflects record.id).bind ?_
  rintro active _ ⟨idle, rfl⟩
  cases active with
  | some active => exact Txn.ensures_raise _
  | none =>
    have present : store.sessions.get? record.id = some record := by
      rw [← reached.reflects.sessions]
      exact found
    intro answer after ran
    cases ran
    exact .one (.clear present idle _) .cleared trivial (reached.reflects.clear record _)

theorem commitRunSuccess_amounts (ref : String) (request : CommitRunRequest) :
    (SQLAlchemyRuntimeStore.commitRunSuccess ref request ambient).Ensures committed view
      fun run after => Amounts store (.commitRunSuccess ref request) (.run run) after := by
  refine (lockedRun_ensures ref).bind ?_
  rintro run _ ⟨found, rfl⟩
  obtain rfl := found_named reached found
  refine (Txn.ensures_lift _).bind ?_
  rintro _ _ ⟨passed, rfl⟩
  have running : run.status = .running := by
    have allowed := validated_allowed passed
    cases status : run.status <;> simp_all [allowedRunTransitions]
  refine (lockedSession_ensures reached run.sessionId).bind ?_
  rintro record _ ⟨⟨own, opened⟩, rfl⟩
  obtain ⟨history, read, numbering⟩ := nextMessageSequence_ensures reached opened
  rw [own] at numbering
  refine numbering.bind ?_
  rintro sequence _ ⟨rfl, rfl⟩
  have row := (reached.reflects.row run.id).symm.trans found
  have session : store.sessions.get? record.id = some record := by
    rw [← reached.reflects.sessions]
    exact opened
  obtain ⟨log, logged⟩ := reached.coherent.logOf row
  refine .flushed (.flushed (.flushed ?_))
  refine (publishRun_writes _ _ _ _ _).mono ?_
  rintro _ after ⟨rfl, event, rfl⟩
  refine .one (.commit row running session own.symm read logged request ambient)
    (.committed _ rfl rfl)
    (Dict.get?_set_self _ _ _) ?_
  have told := reached.reflects.tell read
    (turnMessages run request (history.length + 1) ambient) (fun message member => ?_)
    (ambient.utcNow 2)
  · have joined := List.append_cons view.messages
    rw [turnMessages, joined, ← turnMessages] at told
    have own := show (completedRun run request (ambient.utcNow 2)).id = run.id from rfl
    exact ((told.update own).log _ _).events _
  · simp only [turnMessages, List.mem_cons, List.not_mem_nil, or_false] at member
    rcases member with rfl | rfl <;> exact ⟨congrArg some own.symm, rfl⟩

theorem interruptMatching_amounts (workerInstanceId : String) (sameWorker : Bool)
    (makes : ∀ runs effects,
      (∀ run ∈ runs, if sameWorker then run.workerInstanceId = workerInstanceId
        else run.workerInstanceId ≠ workerInstanceId) →
        List.Forall₂ Effect.Interrupts runs effects →
          Makes operation (.ok (.count runs.length)) effects) :
    (interruptMatching workerInstanceId sameWorker ambient).Ensures committed view
      fun count after => Amounts store operation (.count count) after := by
  have locked : ∀ run ∈ view.runs.values, view.row run.id = some run := by
    intro run member
    obtain ⟨ref, found⟩ := (Dict.mem_values_iff _ _).mp member
    rwa [found_named reached found]
  refine .locked (interruptEach_amounts reached _ (fun effects each => ?_) ?_ fun run member => ?_)
  · refine makes _ effects (fun run member => ?_) each
    exact (of_decide_eq_true (List.mem_filter.mp member).2).2
  · exact (view.runs.nodup_values fun found => found_named reached found).sublist
      (List.filter_sublist.map _)
  · have selected := of_decide_eq_true (List.mem_filter.mp member).2
    exact ⟨locked run (List.mem_of_mem_filter member), selected.1⟩

/-- The rows of a coherent store meet what the database promises. -/
theorem Reached.sound : view.Sound where
  runId := found_named reached
  keys found also keyed again := by
    have first :=
      reached.coherent.bindings.mpr ⟨_, (reached.reflects.row _).symm.trans found, keyed⟩
    have second :=
      reached.coherent.bindings.mpr ⟨_, (reached.reflects.row _).symm.trans also, again⟩
    exact Option.some.inj (first.symm.trans second)
  oneActive found also := reached.coherent.oneActive ((reached.reflects.row _).symm.trans found)
    ((reached.reflects.row _).symm.trans also)
  runSession found := by
    rw [reached.reflects.sessions]
    exact reached.coherent.runSession ((reached.reflects.row _).symm.trans found)

omit reached in
/-- The insert of a row that conflicts with none, in the session that it has. -/
theorem reserves_of_free {request : ReserveRunRequest} (coherent : Coherent store)
    (reflects : Reflects store view)
    (found : store.sessions.get? (resolvedSessionId request ambient) = some record)
    (free : ∀ ref other, view.row ref = some other → ¬ Conflicts (runModel request ambient) other) :
    ∃ later, Edit store (.reserved (runModel request ambient)) later ∧
      Reflects later (view.apply (.run (runModel request ambient))) := by
  refine ⟨_, .reserve request _ ambient found ?_ ?_ ?_, reflects.reserve _⟩
  · cases present : store.runs.get? (ambient.uuid4 1) with
    | none => rfl
    | some other =>
      have same : (runModel request ambient).id = other.id := (coherent.runId present).symm
      exact (free _ other ((reflects.row _).trans present) (.inl same)).elim
  · refine (InMemorySessionStore.activeRunLocked_none_iff _ _).mpr ?_
    intro ref other present own busy
    refine free ref other ((reflects.row _).trans present) (.inr (.inr ⟨own.symm, ?_, busy⟩))
    simp [runModel, pendingRun, AgentRun.Active, activeRunStatuses]
  · cases keyed : request.idempotencyKey with
    | none => rfl
    | some key =>
      cases bound : store.idempotency.get? key with
      | none => exact bound
      | some ref =>
        obtain ⟨other, present, carried⟩ := coherent.bindings.mp bound
        have own : (runModel request ambient).idempotencyKey = some key := keyed
        refine (free ref other ((reflects.row _).trans present) (.inr (.inl ⟨?_, ?_⟩))).elim
        · rw [own]
          rfl
        · rw [own, carried]

theorem reserveRun_amounts (request : ReserveRunRequest)
    (undrawn : request.sessionId = none → view.sessions.get? (ambient.uuid4 0) = none) :
    (SQLAlchemyRuntimeStore.reserveRun request ambient).Ensures view view fun answer after =>
      Amounts store (.reserveRun request) (.reservation answer) after := by
  intro answer after ran
  rcases reserveRun_commits reached.sound ran with
    ⟨replays, rfl, found, key, same⟩ | ⟨rfl, rfl, _, opened, free⟩
  · obtain ⟨run, owns⟩ := answer
    cases replays
    have present := (reached.reflects.row run.id).symm.trans found
    exact .nothing (.replayed run key same) present reached.reflects
  cases named : request.sessionId with
  | none =>
    have absent : store.sessions.get? (implicitSession request ambient).id = none := by
      rw [← reached.reflects.sessions]
      exact undrawn named
    have own : resolvedSessionId request ambient = (implicitSession request ambient).id := by
      rw [resolvedSessionId, named]
      rfl
    have opening := Edit.openSession (implicitSession request ambient) absent rfl
    have found : (withSession store (implicitSession request ambient)).sessions.get?
        (resolvedSessionId request ambient) = some (implicitSession request ambient) := by
      rw [own]
      exact Dict.get?_set_self _ _ _
    obtain ⟨later, edit, reflects⟩ := reserves_of_free (opening.coherent reached.coherent)
      (reached.reflects.openSession reached.coherent absent) found free
    have makes : Makes (.reserveRun request)
        (.ok (.reservation { run := runModel request ambient, ownsExecution := true }))
        ([.opened (runModel request ambient).sessionId] ++
          [.reserved (runModel request ambient)]) := 
            .reserved _ rfl rfl (.inr ⟨named, rfl⟩) rfl rfl
    rw [show (runModel request ambient).sessionId = _ from own] at makes
    rw [openedBy, named]
    exact ⟨_, later, .cons opening (.single edit), makes, reserved_stored edit, reflects⟩
  | some sessionId =>
    obtain ⟨record, found⟩ := Option.isSome_iff_exists.mp (opened (by rw [named]; rfl))
    rw [reached.reflects.sessions] at found
    obtain ⟨later, edit, reflects⟩ :=
      reserves_of_free reached.coherent reached.reflects found free
    rw [openedBy, named]
    have asked : request.sessionId.isSome := by rw [named]; rfl
    exact ⟨_, later, .single edit, .reserved _ rfl rfl (.inl ⟨asked, rfl⟩) rfl rfl,
      reserved_stored edit, reflects⟩

end Each

end Calls

end DayuAgent
