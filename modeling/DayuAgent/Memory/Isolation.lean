import DayuAgent.Library.Confinement
import DayuAgent.Memory.Reachable

namespace DayuAgent

open Library

/-- The session of each idempotency key and of each run identifier. -/
structure Homes where
  key : String → String
  run : String → String

namespace InMemorySessionStore

/-- The part of the store that belongs to one session. -/
def within (homes : Homes) (session : String) (store : InMemorySessionStore) :
    InMemorySessionStore where
  sessions := store.sessions.restrict fun ref => ref = session
  messages := store.messages.restrict fun ref => ref = session
  runs := store.runs.restrict fun ref => homes.run ref = session
  events := store.events.restrict fun ref => homes.run ref = session
  idempotency := store.idempotency.restrict fun key => homes.key key = session
  ready := store.ready

/-- Every run is at home in its session, and so is its key. -/
structure Housed (homes : Homes) (store : InMemorySessionStore) : Prop where
  runs : store.runs.get? ref = some run → homes.run ref = run.sessionId
  keys : store.runs.get? ref = some run → run.idempotencyKey = some key →
    homes.key key = run.sessionId

variable {homes : Homes} {own : String} {store : InMemorySessionStore}

section Lookups

theorem within_session : (within homes own store).sessions.get? own = store.sessions.get? own := by
  simp [within, Dict.get?_restrict]

theorem within_transcript :
    (within homes own store).messages.get? own = store.messages.get? own := by
  simp [within, Dict.get?_restrict]

theorem within_run (home : homes.run ref = own) :
    (within homes own store).runs.get? ref = store.runs.get? ref := by
  simp [within, Dict.get?_restrict, home]

theorem within_log (home : homes.run ref = own) :
    (within homes own store).events.get? ref = store.events.get? ref := by
  simp [within, Dict.get?_restrict, home]

theorem within_key (home : homes.key key = own) :
    (within homes own store).idempotency.get? key = store.idempotency.get? key := by
  simp [within, Dict.get?_restrict, home]

/-- The active run of a session is one of its own. -/
theorem within_active (housed : Housed homes store) :
    activeRunLocked (within homes own store) own = activeRunLocked store own := by
  apply Dict.find?_restrict
  intro ref run found passes
  simp only [decide_eq_true_eq] at passes ⊢
  rw [housed.runs found, passes.1]

end Lookups

section Commands

theorem item_confined {dict : InMemorySessionStore → Dict String Value}
    (shown : (dict (within homes own store)).get? key = (dict store).get? key) :
    Confined (within homes) own (item dict key) store := by
  apply Confined.inspected
  · simp only [shown]
  · cases (dict store).get? key with
    | none => exact .raised _
    | some value => exact .done value

theorem sessionLocked_confined : Confined (within homes) own (sessionLocked own) store := by
  apply Confined.inspected
  · simp only [within_session]
  · cases store.sessions.get? own with
    | none => exact .raised _
    | some record => exact .done record

theorem runLocked_confined (home : homes.run ref = own) :
    Confined (within homes) own (runLocked ref) store := by
  apply Confined.inspected
  · simp only [within_run home]
  · cases store.runs.get? ref with
    | none => exact .raised _
    | some run => exact .done run

theorem putRun_confined (home : homes.run ref = own) (updated : AgentRun) :
    Confined (within homes) own (putRun ref updated) store := by
  apply Confined.written
  · simp [within, Dict.restrict_set, home]
  · intro other different
    simp [within, Dict.restrict_set, home, different.symm]

theorem appendEventLocked_confined (home : homes.run ref = own) (type : StreamEventType)
    (payload : JsonObject) (id : String) (now : Time) :
    Confined (within homes) own (appendEventLocked ref type payload id now) store := by
  apply Confined.bind (item_confined (within_log home))
  intro log after _
  refine Confined.bind (Confined.written ?_ ?_) fun _ _ _ => .done _
  · simp [within, Dict.restrict_set, home]
  · intro other different
    simp [within, Dict.restrict_set, home, different.symm]

/-- Store a changed run and publish one event about it. -/
theorem publish_confined (home : homes.run ref = own) (updated : AgentRun)
    (type : StreamEventType) (payload : JsonObject) (id : String) (now : Time) (value : Value) :
    Confined (within homes) own (do
      putRun ref updated
      let _ ← appendEventLocked ref type payload id now
      return value : StoreM Value) store := by
  apply Confined.bind (putRun_confined home updated)
  intro _ after _
  apply Confined.bind (appendEventLocked_confined home type payload id now)
  exact fun _ _ _ => .done value

end Commands

section Runs

variable (home : homes.run ref = own)

include home

theorem markRunRunning_confined (workerInstanceId : String) (ambient : Ambient) :
    Confined (within homes) own (markRunRunning ref workerInstanceId ambient) store := by
  apply Confined.bind (runLocked_confined home)
  intro run _ _
  apply Confined.bind (.lifted _)
  intro _ _ _
  exact publish_confined home _ _ _ _ _ _

theorem incrementRunAttempt_confined :
    Confined (within homes) own (incrementRunAttempt ref) store := by
  apply Confined.bind (runLocked_confined home)
  intro run _ _
  split
  · apply Confined.bind (.lifted _)
    intro _ _ _
    exact Confined.bind (putRun_confined home _) fun _ _ _ => .done _
  · exact Confined.bind (putRun_confined home _) fun _ _ _ => .done _

theorem appendStreamEvent_confined (type : StreamEventType) (payload : JsonObject)
    (ambient : Ambient) :
    Confined (within homes) own (appendStreamEvent ref type payload ambient) store := by
  apply Confined.bind (runLocked_confined home)
  intro _ _ _
  exact appendEventLocked_confined home type payload _ _

theorem listStreamEvents_confined (afterSequence : Nat) :
    Confined (within homes) own (listStreamEvents ref afterSequence) store := by
  apply Confined.bind (runLocked_confined home)
  intro _ _ _
  exact Confined.bind (item_confined (within_log home)) fun _ _ _ => .done _

theorem failRun_confined (errorCode : String) (ambient : Ambient) :
    Confined (within homes) own (failRun ref errorCode ambient) store := by
  apply Confined.bind (runLocked_confined home)
  intro run _ _
  split
  · exact .done run
  · apply Confined.bind (.lifted _)
    intro _ _ _
    exact publish_confined home _ _ _ _ _ _

theorem cancelRun_confined (workerInstanceId : String) (ambient : Ambient) :
    Confined (within homes) own (cancelRun ref workerInstanceId ambient) store := by
  apply Confined.bind (runLocked_confined home)
  intro run _ _
  split
  · exact .done _
  · split
    · exact .done _
    · split
      · exact .raised _
      · apply Confined.bind (.lifted _)
        intro _ _ _
        exact publish_confined home _ _ _ _ _ _

end Runs

section Sessions

theorem getSession_confined : Confined (within homes) own (getSession own) store :=
  sessionLocked_confined

theorem listMessages_confined : Confined (within homes) own (listMessages own) store := by
  apply Confined.bind sessionLocked_confined
  intro _ _ _
  exact item_confined within_transcript

theorem createSession_confined (metadata : Option JsonObject) (sessionId userId : Option String)
    (ambient : Ambient) (chosen : chosenId sessionId (ambient.uuid4 0) = own) :
    Confined (within homes) own (createSession metadata sessionId userId ambient) store := by
  subst chosen
  apply Confined.inspected
  · simp only [within_session]
  · cases store.sessions.get? (chosenId sessionId (ambient.uuid4 0)) with
    | some existing => exact .raised _
    | none =>
      refine Confined.bind (Confined.written ?_ ?_) fun _ _ _ => .done _
      · simp [within, Dict.restrict_set]
      · intro other different
        simp [within, Dict.restrict_set, different.symm]

theorem sessionLocked_found (ran : sessionLocked own store = (.ok record, after)) :
    store.sessions.get? own = some record ∧ after = store := by
  cases found : store.sessions.get? own with
  | none =>
    rw [sessionLocked_missing found] at ran
    cases ran
  | some present =>
    rw [sessionLocked_ok found] at ran
    cases ran
    exact ⟨rfl, rfl⟩

theorem runLocked_found (ran : runLocked ref store = (.ok run, after)) :
    store.runs.get? ref = some run ∧ after = store := by
  cases found : store.runs.get? ref with
  | none =>
    rw [runLocked_missing found] at ran
    cases ran
  | some present =>
    rw [runLocked_ok found] at ran
    cases ran
    exact ⟨rfl, rfl⟩

theorem setTranscript_confined (history : List AgentMessage) :
    Confined (within homes) own (Command.write fun store : InMemorySessionStore =>
      { store with messages := store.messages.set own history } : StoreM Unit) store := by
  apply Confined.written
  · simp [within, Dict.restrict_set]
  · intro other different
    simp [within, Dict.restrict_set, different.symm]

theorem setSession_confined (record : SessionRecord) :
    Confined (within homes) own (Command.write fun store : InMemorySessionStore =>
      { store with sessions := store.sessions.set own record } : StoreM Unit) store := by
  apply Confined.written
  · simp [within, Dict.restrict_set]
  · intro other different
    simp [within, Dict.restrict_set, different.symm]

theorem appendMessage_confined (housed : Housed homes store) (role : MessageRole)
    (content : String) (metadata : Option JsonObject) (ambient : Ambient) :
    Confined (within homes) own (appendMessage own role content metadata ambient) store := by
  apply Confined.bind sessionLocked_confined
  intro record after ran
  obtain ⟨_, rfl⟩ := sessionLocked_found ran
  apply Confined.inspected
  · simp only [within_active housed]
  · cases activeRunLocked after own with
    | some active => exact .raised _
    | none =>
      apply Confined.bind (item_confined within_transcript)
      intro history _ _
      apply Confined.bind (setTranscript_confined _)
      intro _ _ _
      exact Confined.bind (setSession_confined _) fun _ _ _ => .done _

theorem clearSession_confined (housed : Housed homes store) (ambient : Ambient) :
    Confined (within homes) own (clearSession own ambient) store := by
  apply Confined.bind sessionLocked_confined
  intro record after ran
  obtain ⟨_, rfl⟩ := sessionLocked_found ran
  apply Confined.inspected
  · simp only [within_active housed]
  · cases activeRunLocked after own with
    | some active => exact .raised _
    | none =>
      apply Confined.bind (item_confined within_transcript)
      intro _ _ _
      apply Confined.bind (setTranscript_confined _)
      intro _ _ _
      exact setSession_confined _

theorem commitRunSuccess_confined (housed : Housed homes store) (home : homes.run ref = own)
    (request : CommitRunRequest) (ambient : Ambient) :
    Confined (within homes) own (commitRunSuccess ref request ambient) store := by
  apply Confined.bind (runLocked_confined home)
  intro run after ran
  obtain ⟨found, rfl⟩ := runLocked_found ran
  have same : run.sessionId = own := (housed.runs found).symm.trans home
  apply Confined.bind (.lifted _)
  intro _ _ _
  rw [same]
  apply Confined.bind sessionLocked_confined
  intro record _ _
  apply Confined.bind (item_confined within_transcript)
  intro history _ _
  apply Confined.bind (setTranscript_confined _)
  intro _ _ _
  apply Confined.bind (setSession_confined _)
  intro _ _ _
  exact publish_confined home _ _ _ _ _ _

end Sessions

section Reservations

variable (request : ReserveRunRequest) (ambient : Ambient)

/-- A reservation names the session of its key, and a run that it admits is at home there. -/
def Obeys (homes : Homes) (store : InMemorySessionStore) : Prop :=
  (∀ key ∈ request.idempotencyKey, ∀ sessionId ∈ request.sessionId, homes.key key = sessionId) ∧
  ∀ reservation ∈ (reserveRun request ambient store).1.toOption,
    reservation.ownsExecution = true →
      homes.run reservation.run.id = reservation.run.sessionId ∧
        ∀ key ∈ reservation.run.idempotencyKey, homes.key key = reservation.run.sessionId

instance (homes : Homes) (store : InMemorySessionStore) :
    Decidable (Obeys request ambient homes store) := inferInstanceAs (Decidable (_ ∧ _))

/-- The session of its key, or else the session that it names or creates. -/
def reservedFor (homes : Homes) : String :=
  match request.idempotencyKey with
  | some key => homes.key key
  | none => request.sessionId.getD (ambient.uuid4 0)

private theorem replayed_confined (coherent : Coherent store) (housed : Housed homes store)
    (home : homes.key key = own) (bound : store.idempotency.get? key = some ref) :
    Confined (within homes) own (replayed request ref) store := by
  obtain ⟨existing, found, carried⟩ := coherent.bindings.mp bound
  have lives : homes.run ref = own :=
    (housed.runs found).trans ((housed.keys found carried).symm.trans home)
  apply Confined.bind (item_confined (within_run lives))
  intro run _ _
  split
  · exact .raised _
  · exact .done _

private theorem admitRun_confined (housed : Housed homes store)
    (homed : activeRunLocked store own = none → homes.run (ambient.uuid4 1) = own ∧
      ∀ key, request.idempotencyKey = some key → homes.key key = own) :
    Confined (within homes) own (admitRun request own ambient) store := by
  apply Confined.inspected
  · simp only [within_active housed]
  · cases idle : activeRunLocked store own with
    | some active => exact .raised _
    | none =>
      obtain ⟨lives, keyed⟩ := homed idle
      have home : homes.run (pendingRun request own ambient).id = own := lives
      refine Confined.bind (Confined.written ?_ ?_) ?_
      · simp [within, Dict.restrict_set, home]
      · intro other different
        simp [within, Dict.restrict_set, home, different.symm]
      · intro _ _ _
        cases carries : request.idempotencyKey with
        | none => exact Confined.bind (.done ()) fun _ _ _ => .done _
        | some key =>
          refine Confined.bind (Confined.written ?_ ?_) fun _ _ _ => .done _
          · simp [within, Dict.restrict_set, keyed key carries]
          · intro other different
            simp [within, Dict.restrict_set, keyed key carries, different.symm]

/-- What the answer of an admitted reservation says about homes. -/
theorem Obeys.admitted (obeys : Obeys request ambient homes store)
    (answer : reserveRun request ambient store =
      (.ok { run := pendingRun request sessionId ambient, ownsExecution := true }, after)) :
    homes.run (ambient.uuid4 1) = sessionId ∧
      ∀ key, request.idempotencyKey = some key → homes.key key = sessionId :=
  obeys.2 { run := pendingRun request sessionId ambient, ownsExecution := true }
    (by rw [answer]; rfl) rfl

theorem reserveRun_confined (coherent : Coherent store) (housed : Housed homes store)
    (fresh : ambient.Fresh store) (obeys : Obeys request ambient homes store) :
    Confined (within homes) (reservedFor request ambient homes)
      (reserveRun request ambient) store := by
  have shown : request.idempotencyKey.bind
      (within homes (reservedFor request ambient homes) store).idempotency.get? =
        request.idempotencyKey.bind store.idempotency.get? := by
    cases keyed : request.idempotencyKey with
    | none => rfl
    | some key =>
      have home : homes.key key = reservedFor request ambient homes := by
        rw [reservedFor, keyed]
      exact within_key home
  apply Confined.inspected
  · simp only [shown]
  · cases bound : request.idempotencyKey.bind store.idempotency.get? with
    | some ref =>
      obtain ⟨key, keyed, resolved⟩ := Option.bind_eq_some_iff.mp bound
      have home : homes.key key = reservedFor request ambient homes := by
        rw [reservedFor, keyed]
      exact replayed_confined request coherent housed home resolved
    | none =>
      have outcomes := reserveRun_cases coherent request ambient fresh bound
      cases requested : request.sessionId with
      | some sessionId =>
        have target : reservedFor request ambient homes = sessionId := by
          cases keyed : request.idempotencyKey with
          | none => rw [reservedFor, keyed, requested, Option.getD_some]
          | some key =>
            rw [reservedFor, keyed]
            exact obeys.1 key keyed sessionId requested
        have locks : reservedSession request ambient = sessionLocked sessionId := by
          rw [reservedSession, requested]
        rw [target, locks]
        apply Confined.bind sessionLocked_confined
        intro record after ran
        obtain ⟨found, rfl⟩ := sessionLocked_found ran
        rw [coherent.sessionId found]
        apply admitRun_confined request ambient housed
        intro idle
        rcases outcomes with ⟨other, named, absent, _⟩ | ⟨other, active, named, chosen, _⟩ |
          ⟨other, base, admits, _, answer⟩
        · cases requested.symm.trans named
          rw [found] at absent
          contradiction
        · cases requested.symm.trans named
          rw [idle] at chosen
          contradiction
        · cases admits with
          | named named => cases requested.symm.trans named; exact obeys.admitted _ _ answer
          | implicit none => cases requested.symm.trans none
      | none =>
        rcases outcomes with ⟨other, named, _⟩ | ⟨other, _, named, _⟩ |
          ⟨other, base, admits, _, answer⟩
        · cases requested.symm.trans named
        · cases requested.symm.trans named
        · cases admits with
          | named named => cases requested.symm.trans named
          | implicit =>
            have homed := obeys.admitted _ _ answer
            have target : reservedFor request ambient homes = ambient.uuid4 0 := by
              cases keyed : request.idempotencyKey with
              | none => rw [reservedFor, keyed, requested, Option.getD_none]
              | some key =>
                rw [reservedFor, keyed]
                exact homed.2 key keyed
            have opens : reservedSession request ambient = (do
                Command.write fun store => withSession store (implicitSession request ambient)
                return implicitSession request ambient) := by
              rw [reservedSession, requested]
              rfl
            rw [target, opens]
            refine Confined.bind (Confined.bind (Confined.written ?_ ?_) fun _ _ _ => .done _) ?_
            · simp [within, withSession, Dict.restrict_set, implicitSession]
            · intro elsewhere different
              simp [within, withSession, Dict.restrict_set, implicitSession, different.symm]
            · intro session after ran
              simp only [Command.bind_apply, Command.write_apply, Command.pure_apply,
                Prod.mk.injEq, Except.ok.injEq] at ran
              obtain ⟨rfl, rfl⟩ := ran
              exact admitRun_confined request ambient ⟨housed.runs, housed.keys⟩ fun _ => homed

end Reservations

end InMemorySessionStore

open InMemorySessionStore

/-- The session that an operation is addressed to; the others reach the whole store. -/
def Operation.address (homes : Homes) (ambient : Ambient) : Operation → Option String
  | .createSession _ sessionId _ => some (chosenId sessionId (ambient.uuid4 0))
  | .getSession sessionId | .appendMessage sessionId _ _ _ | .listMessages sessionId
  | .clearSession sessionId => some sessionId
  | .reserveRun request => some (reservedFor request ambient homes)
  | .getRun ref | .markRunRunning ref _ | .incrementRunAttempt ref | .appendStreamEvent ref _ _
  | .listStreamEvents ref _ | .commitRunSuccess ref _ | .failRun ref _ | .cancelRun ref _ =>
    some (homes.run ref)
  | .initializeStore | .interruptWorkerRuns _ | .reconcileOrphanedRuns _ | .pruneStreamEvents _
  | .ping | .close => none

def Operation.Obeys (homes : Homes) (ambient : Ambient) (store : InMemorySessionStore) :
    Operation → Prop
  | .reserveRun request => InMemorySessionStore.Obeys request ambient homes store
  | _ => True

section Performing

variable {homes : Homes} {store after : InMemorySessionStore} {ambient : Ambient}

private theorem Edit.housed (edit : Edit store effect after) (housed : Housed homes store)
    (admits : ∀ run, effect = .reserved run → homes.run run.id = run.sessionId ∧
      ∀ key ∈ run.idempotencyKey, homes.key key = run.sessionId) : Housed homes after := by
  -- Another record of the same run keeps its session and its key.
  have updates : ∀ {ref : String} {run updated : AgentRun}, store.runs.get? ref = some run →
      after.runs = store.runs.set ref updated → updated.sessionId = run.sessionId →
      updated.idempotencyKey = run.idempotencyKey → Housed homes after := by
    intro ref run updated found written sameSession sameKey
    constructor
    · intro other record present
      rw [written, Dict.get?_set] at present
      split at present
      · next same =>
        cases present
        rw [same, sameSession, housed.runs found]
      · exact housed.runs present
    · intro other record key present carried
      rw [written, Dict.get?_set] at present
      split at present
      · cases present
        rw [sameSession]
        exact housed.keys found (sameKey.symm.trans carried)
      · exact housed.keys present carried
  cases edit with
  | ready | openSession | say | clear | emit | prune => exact ⟨housed.runs, housed.keys⟩
  | attempt found active => exact updates found rfl rfl rfl
  | move found read change =>
    obtain ⟨_, sameSession, sameKey, _⟩ := change.same
    exact updates found rfl sameSession sameKey
  | commit found => exact updates found rfl rfl rfl
  | reserve request sessionId ambient =>
    obtain ⟨lives, keyed⟩ := admits _ rfl
    constructor
    · intro ref run present
      simp only [withRun, Dict.get?_set] at present
      split at present
      · next same =>
        cases present
        rw [same, lives]
      · exact housed.runs present
    · intro ref run key present carried
      simp only [withRun, Dict.get?_set] at present
      split at present
      · cases present
        exact keyed key carried
      · exact housed.keys present carried

private theorem edits_housed (edits : Run Edit store effects after) (housed : Housed homes store)
    (admits : ∀ run, .reserved run ∈ effects → homes.run run.id = run.sessionId ∧
      ∀ key ∈ run.idempotencyKey, homes.key key = run.sessionId) : Housed homes after := by
  induction edits with
  | nil => exact housed
  | snoc earlier edit ih =>
    apply edit.housed (ih fun run member => admits run (List.mem_append_left _ member))
    rintro run rfl
    exact admits run (by simp)

theorem Operation.perform_housed (operation : Operation) (coherent : Coherent store)
    (fresh : ambient.Fresh store) (housed : Housed homes store)
    (obeys : operation.Obeys homes ambient store) :
    Housed homes (operation.perform ambient store).2 := by
  obtain ⟨effects, edits, makes⟩ := operation.perform_refines coherent fresh rfl
  apply edits_housed edits housed
  intro run member
  obtain ⟨request, _, rfl, _, _, answered, _⟩ := makes_reserved makes member
  change ((do return .reservation (← InMemorySessionStore.reserveRun request ambient) :
    StoreM Reply) store).1 = _
    at answered
  rw [wrap_apply] at answered
  cases reserved : (InMemorySessionStore.reserveRun request ambient store).1 with
  | error error =>
    rw [reserved] at answered
    contradiction
  | ok reservation =>
    rw [reserved] at answered
    cases answered
    exact obeys.2 { run, ownsExecution := true } (by rw [reserved]; rfl) rfl

theorem Operation.perform_confined (operation : Operation)
    (addressed : operation.address homes ambient = some session) (coherent : Coherent store)
    (fresh : ambient.Fresh store) (housed : Housed homes store)
    (obeys : operation.Obeys homes ambient store) :
    Confined (within homes) session (operation.perform ambient) store := by
  cases operation <;> cases addressed <;> refine Confined.bind ?_ fun _ _ _ => .done _
  · exact createSession_confined _ _ _ _ rfl
  · exact getSession_confined
  · exact appendMessage_confined housed _ _ _ _
  · exact listMessages_confined
  · exact clearSession_confined housed _
  · exact reserveRun_confined _ _ coherent housed fresh obeys
  · exact runLocked_confined rfl
  · exact markRunRunning_confined rfl _ _
  · exact incrementRunAttempt_confined rfl
  · exact appendStreamEvent_confined rfl _ _ _
  · exact listStreamEvents_confined rfl _
  · exact commitRunSuccess_confined housed rfl _ _
  · exact failRun_confined rfl _ _
  · exact cancelRun_confined rfl _ _

end Performing

end DayuAgent
