import DayuAgent.Database.Service

namespace DayuAgent

open Library SQLAlchemyRuntimeStore
open InMemorySessionStore (implicitSession touched)

/-- The change writes the row or the messages of the session. -/
def Change.Concerns (sessionId : String) : Change → Prop
  | .session record => record.id = sessionId
  | .message added => added.sessionId = some sessionId
  | .deleteMessages own => own = sessionId
  | .run _ | .event _ => False

/-- From one database to another the version of the session grows by so much, and unless it
grows the transcript is the same. -/
structure Rewritten (sessionId : String) (amount : Nat) (before after : Database) : Prop where
  version : (after.sessions.get? sessionId).map (·.version) =
    (before.sessions.get? sessionId).map (·.version + amount)
  transcript : amount = 0 → after.transcript sessionId = before.transcript sessionId

theorem Rewritten.rfl : Rewritten sessionId 0 database database := ⟨Eq.refl _, fun _ => Eq.refl _⟩

theorem Rewritten.trans (first : Rewritten sessionId amount before between)
    (second : Rewritten sessionId more between after) :
    Rewritten sessionId (amount + more) before after where
  version := by
    have shift : (after.sessions.get? sessionId).map (·.version) =
        ((between.sessions.get? sessionId).map (·.version)).map (· + more) := by
      rw [second.version, Option.map_map]
      exact Eq.refl _
    rw [shift, first.version, Option.map_map]
    congr 1
    funext record
    exact Nat.add_assoc _ _ _
  transcript none := by rw [second.transcript (by omega), first.transcript (by omega)]

theorem applyAll_unconcerned {changes : List Change} (database : Database)
    (clean : ∀ change ∈ changes, ¬ change.Concerns sessionId) :
    (database.applyAll changes).sessions.get? sessionId = database.sessions.get? sessionId ∧
      (database.applyAll changes).transcript sessionId = database.transcript sessionId := by
  induction changes generalizing database with
  | nil => exact ⟨rfl, rfl⟩
  | cons change rest ih =>
    obtain ⟨row, messages⟩ := ih (database.apply change)
      fun other member => clean other (List.mem_cons_of_mem _ member)
    have apart := clean change List.mem_cons_self
    have one : (database.apply change).sessions.get? sessionId = database.sessions.get? sessionId ∧
        (database.apply change).transcript sessionId = database.transcript sessionId := by
      cases change with
      | session record => exact ⟨Dict.get?_set_ne _ _ (Ne.symm apart), rfl⟩
      | message added =>
        have foreign : added.sessionId ≠ some sessionId := apart
        exact ⟨rfl, by simp [Database.apply, Database.transcript, foreign]⟩
      | deleteMessages own =>
        have foreign : own ≠ sessionId := apart
        refine ⟨rfl, ?_⟩
        simp only [Database.apply, Database.transcript, List.filter_filter]
        apply List.filter_congr
        intro message _
        by_cases same : message.sessionId = some sessionId
        · simp [same, Ne.symm foreign]
        · simp [same]
      | run | event => exact ⟨rfl, rfl⟩
    exact ⟨row.trans one.1, messages.trans one.2⟩

/-- Committing the changes leaves the session alone, or raises the version it was locked at. -/
def Settles (sessionId : String) (seen : Option Nat) (pending : List Change) : Prop :=
  (∀ change ∈ pending, ¬ change.Concerns sessionId) ∨ ∃ version, seen = some version ∧
    ∀ database : Database, ((database.applyAll pending).sessions.get? sessionId).map (·.version) =
      some (version + 1)

/-- A transaction writes to the session only once it has locked its row, and then raises the
version it has seen there. -/
def Txn.Tends (sessionId : String) : Option Nat → List Change → Txn Value → Prop
  | seen, pending, .done (.ok _) => Settles sessionId seen pending
  | _, _, .done (.error _) => True
  | seen, pending, .lockSession ref next => (next none).Tends sessionId seen pending ∧
      (ref = sessionId → ∀ change ∈ pending, ¬ change.Concerns sessionId) ∧
      ∀ record, record.id = ref → (next (some record)).Tends sessionId
        (if ref = sessionId then some record.version else seen) pending
  | seen, pending, .lockRun _ next => ∀ answer, (next answer).Tends sessionId seen pending
  | seen, pending, .lockSkipping _ next => ∀ answer, (next answer).Tends sessionId seen pending
  | seen, pending, .readRun _ next => ∀ answer, (next answer).Tends sessionId seen pending
  | seen, pending, .readCount _ next => ∀ answer, (next answer).Tends sessionId seen pending
  | seen, pending, .insertRun run next => next.Tends sessionId seen (pending ++ [.run run])
  | seen, pending, .write change next => (change.Concerns sessionId → seen.isSome) ∧
      next.Tends sessionId seen (pending ++ [change])

section Transactions

variable {Value Other : Type} {sessionId : String}

/-- What never concerns the session. -/
theorem Txn.Flushes.tends {transaction : Txn Value}
    (flushes : transaction.Flushes fun change => ¬ change.Concerns sessionId)
    (clean : ∀ change ∈ pending, ¬ change.Concerns sessionId) (seen : Option Nat) :
    transaction.Tends sessionId seen pending := by
  have extend : ∀ {pending : List Change} {change : Change},
      (∀ other ∈ pending, ¬ other.Concerns sessionId) → ¬ change.Concerns sessionId →
        ∀ other ∈ pending ++ [change], ¬ other.Concerns sessionId := by
    intro pending change old new other member
    rcases List.mem_append.mp member with earlier | last
    · exact old other earlier
    · exact List.mem_singleton.mp last ▸ new
  induction transaction generalizing seen pending with
  | done result =>
    cases result with
    | ok value => exact .inl clean
    | error error => exact trivial
  | lockSession _ _ ih =>
    exact ⟨ih none (flushes.2 none) clean seen, fun _ => clean,
      fun record _ => ih (some record) (flushes.2 (some record)) clean _⟩
  | lockRun _ _ ih | lockSkipping _ _ ih | readRun _ _ ih | readCount _ _ ih =>
    exact fun answer => ih answer (flushes.2 answer) clean seen
  | insertRun _ _ ih => exact ih flushes.2 (extend clean flushes.1) seen
  | write _ _ ih =>
    exact ⟨fun own => (flushes.1 own).elim, ih flushes.2 (extend clean flushes.1) seen⟩

theorem Txn.Tends.map {transaction : Txn Value} (wrap : Value → Other)
    (tends : transaction.Tends sessionId seen pending) :
    (transaction >>= fun value => pure (wrap value)).Tends sessionId seen pending := by
  rw [bind_def]
  induction transaction generalizing seen pending with
  | done result =>
    cases result with
    | ok value => exact tends
    | error error => exact trivial
  | lockSession _ _ ih =>
    exact ⟨ih none tends.1, tends.2.1, fun record own => ih (some record) (tends.2.2 record own)⟩
  | lockRun _ _ ih | lockSkipping _ _ ih | readRun _ _ ih | readCount _ _ ih =>
    exact fun answer => ih answer (tends answer)
  | insertRun _ _ ih => exact ih tends
  | write _ _ ih => exact ⟨tends.1, ih tends.2⟩

theorem lockedSession_tends {rest : SessionRecord → Txn Value}
    (following : ∀ record, record.id = ref →
      (rest record).Tends sessionId (if ref = sessionId then some record.version else none) []) :
    (lockedSession ref >>= rest).Tends sessionId none [] :=
  ⟨trivial, fun _ => by simp, following⟩

private theorem appendMessage_tends (ref : String) (role : MessageRole) (content : String)
    (metadata : Option JsonObject) (ambient : Ambient) :
    (appendMessage ref role content metadata ambient).Tends sessionId none [] := by
  refine lockedSession_tends fun record keyed active => ?_
  cases active with
  | some active => exact trivial
  | none =>
    intro last
    by_cases own : ref = sessionId
    · rw [if_pos own]
      refine ⟨fun _ => rfl, fun _ => rfl, .inr ⟨record.version, rfl, fun database => ?_⟩⟩
      simp [Database.applyAll, Database.apply, touched, keyed, own]
    · rw [if_neg own]
      refine Txn.Flushes.tends ?_ (by simp) none
      refine ⟨?_, ?_, trivial⟩
      · exact fun same => own (Option.some.inj same)
      · exact fun same => own (keyed.symm.trans same)

private theorem clearSession_tends (ref : String) (ambient : Ambient) :
    (clearSession ref ambient).Tends sessionId none [] := by
  refine lockedSession_tends fun record keyed active => ?_
  cases active with
  | some active => exact trivial
  | none =>
    by_cases own : ref = sessionId
    · rw [if_pos own]
      refine ⟨fun _ => rfl, fun _ => rfl, .inr ⟨record.version, rfl, fun database => ?_⟩⟩
      simp [Database.applyAll, Database.apply, touched, keyed, own]
    · rw [if_neg own]
      refine Txn.Flushes.tends ?_ (by simp) none
      refine ⟨own, ?_, trivial⟩
      exact fun same => own (keyed.symm.trans same)

private theorem commitRunSuccess_tends (ref : String) (request : CommitRunRequest)
    (ambient : Ambient) :
    (commitRunSuccess ref request ambient).Tends sessionId none [] := by
  intro found
  cases found with
  | none => exact trivial
  | some run =>
    refine Txn.lift_bind (fun _ => trivial) fun _ => ?_
    refine lockedSession_tends fun record keyed last => ?_
    by_cases own : run.sessionId = sessionId
    · rw [if_pos own]
      refine ⟨fun _ => rfl, fun _ => rfl, fun _ => rfl, fun _ => rfl, fun count => ?_⟩
      refine ⟨fun _ => rfl, .inr ⟨record.version, rfl, fun database => ?_⟩⟩
      simp [Database.applyAll, Database.apply, touched, keyed, own]
    · rw [if_neg own]
      refine Txn.Flushes.tends ?_ (by simp) none
      refine ⟨?_, ?_, ?_, publishRun_only id (fun _ => trivial) fun _ _ => id⟩
      · exact fun same => own (Option.some.inj same)
      · exact fun same => own (Option.some.inj same)
      · exact fun same => own (keyed.symm.trans same)

/-- What a call writes that rewrites no transcript. -/
theorem unconcerned_of_writtenBy {call : LockingCall} (quiet : ¬ call.Rewrites)
    (apart : ∀ record, call.Creates ambient record → record.id ≠ sessionId) (change : Change)
    (written : change.WrittenBy call ambient) : ¬ change.Concerns sessionId := by
  cases change with
  | session record =>
    rcases written with rewrites | creates
    · exact (quiet rewrites).elim
    · exact apart record creates
  | message added => exact (quiet written.1).elim
  | deleteMessages own => exact (quiet written).elim
  | run | event => exact id

theorem LockingCall.transaction_tends (call : LockingCall) (ambient : Ambient)
    (apart : ∀ record, call.Creates ambient record → record.id ≠ sessionId) :
    (call.transaction ambient).Tends sessionId none [] := by
  have others : ¬ call.Rewrites → (call.transaction ambient).Tends sessionId none [] :=
    fun quiet => ((call.transaction_flushes ambient).mono
      (unconcerned_of_writtenBy quiet apart)).tends (by simp) none
  cases call with
  | appendMessage => exact (appendMessage_tends _ _ _ _ _).map _
  | clearSession => exact (clearSession_tends _ _).map fun _ => Reply.unit
  | commitRunSuccess => exact (commitRunSuccess_tends _ _ _).map _
  | reserveRun | markRunRunning | incrementRunAttempt | appendStreamEvent | failRun | cancelRun
  | interruptWorkerRuns | reconcileOrphanedRuns => exact others id

end Transactions

section Rows

variable {database : Database} {changes : List Change}

theorem applyAll_keyed
    (keyed : ∀ ref record, database.sessions.get? ref = some record → record.id = ref)
    (ref : String) (record : SessionRecord)
    (found : (database.applyAll changes).sessions.get? ref = some record) : record.id = ref := by
  induction changes generalizing database with
  | nil => exact keyed ref record found
  | cons change rest ih =>
    refine ih (fun other row present => ?_) found
    cases change with
    | session written =>
      by_cases own : other = written.id
      · simp only [Database.apply, Dict.get?_set, own, ↓reduceIte, Option.some.injEq] at present
        rw [← present, own]
      · simp only [Database.apply, Dict.get?_set, own, ↓reduceIte] at present
        exact keyed other row present
    | run | message | deleteMessages | event => exact keyed other row present

/-- A session row is an old one or was flushed. -/
theorem applyAll_session (found : (database.applyAll changes).sessions.get? ref = some record) :
    database.sessions.get? ref = some record ∨ .session record ∈ changes := by
  induction changes generalizing database with
  | nil => exact .inl found
  | cons change rest ih =>
    rcases ih found with earlier | later
    · cases change with
      | session written =>
        by_cases own : ref = written.id
        · simp only [Database.apply, Dict.get?_set, own, ↓reduceIte, Option.some.injEq] at earlier
          exact .inr (earlier ▸ List.mem_cons_self)
        · simp only [Database.apply, Dict.get?_set, own, ↓reduceIte] at earlier
          exact .inl earlier
      | run | message | deleteMessages | event => exact .inl earlier
    · exact .inr (List.mem_cons_of_mem change later)

theorem applyAll_messages (quiet : ∀ change ∈ changes,
      (∀ message, change ≠ .message message) ∧ ∀ ref, change ≠ .deleteMessages ref) :
    (database.applyAll changes).messages = database.messages := by
  induction changes generalizing database with
  | nil => rfl
  | cons change rest ih =>
    refine (ih fun other member => quiet other (List.mem_cons_of_mem _ member)).trans ?_
    obtain ⟨adds, deletes⟩ := quiet change List.mem_cons_self
    cases change with
    | message added => exact (adds added rfl).elim
    | deleteMessages ref => exact (deletes ref rfl).elim
    | session | run | event => rfl

end Rows

/-- The call draws the identifier of the session for a new one. -/
def Workload.Draws (calls : Workload) (sessionId : String) (process : Nat) : Prop :=
  ∃ record, (calls process).1.Creates (calls process).2 record ∧ record.id = sessionId

/-- No identifier is drawn twice. -/
def Workload.DrawsOnce (calls : Workload) (sessionId : String) : Prop :=
  ∀ one two, calls.Draws sessionId one → calls.Draws sessionId two → one = two

/-- The process holds the row of the session, at its committed version. -/
structure HoldsAt (sessionId : String) (cluster : Cluster Reply) (process version : Nat) :
    Prop where
  locked : cluster.locks (.session sessionId) = some process
  current : (cluster.database.sessions.get? sessionId).map (·.version) = some version

/-- A process follows its transaction with what it has seen of the session. -/
structure Tending (sessionId : String) (cluster : Cluster Reply) (process : Nat) : Prop where
  running : (cluster.processes process).activity = .running transaction → ∃ seen,
    transaction.Tends sessionId seen (cluster.processes process).pending ∧
    (∀ version, seen = some version → HoldsAt sessionId cluster process version) ∧
    (seen = none → ∀ change ∈ (cluster.processes process).pending, ¬ change.Concerns sessionId)
  recovery : (cluster.processes process).recovery = some transaction →
    transaction.Tends sessionId none []

section Service

variable {calls : Workload} {sessionId : String} {before after cluster : Cluster Reply}

theorem Tending.keep (tending : Tending sessionId before process)
    (same : after.processes process = before.processes process)
    (holds : ∀ version, HoldsAt sessionId before process version →
      HoldsAt sessionId after process version) : Tending sessionId after process := by
  constructor
  · intro transaction running
    rw [same] at running ⊢
    obtain ⟨seen, tends, holding, clean⟩ := tending.running running
    exact ⟨seen, tends, fun version own => holds version (holding version own), clean⟩
  · intro transaction recovers
    exact tending.recovery (same ▸ recovers)

/-- The statement of a process that goes on. -/
theorem Tending.proceeds {rows : List Row} {inserting : List (Nat × AgentRun)}
    (tending : Tending sessionId before actor)
    (keyed : ∀ ref record, before.database.sessions.get? ref = some record → record.id = ref)
    (active : (before.processes actor).activity = .running transaction)
    (continues : before.Continues actor transaction rows flushed rest) :
    Tending sessionId (before.proceed actor rows flushed rest inserting) actor := by
  obtain ⟨seen, tends, holding, clean⟩ := tending.running active
  have holds : ∀ version, seen = some version →
      HoldsAt sessionId (before.proceed actor rows flushed rest inserting) actor version := by
    intro version own
    obtain ⟨locked, current⟩ := holding version own
    refine ⟨?_, current⟩
    simp [Cluster.proceed, locked]
  have process : (before.proceed actor rows flushed rest inserting).processes actor =
      { before.processes actor with
        activity := .running rest, pending := (before.processes actor).pending ++ flushed } := by
    simp [Cluster.proceed]
  refine ⟨fun running => ?_, fun recovers => ?_⟩
  · rw [process] at running ⊢
    cases running
    cases continues with
    | missing absent =>
      exact ⟨seen, by simpa using tends.1, holds, by simpa using clean⟩
    | @session ref record next found =>
      have later := tends.2.2 record (applyAll_keyed keyed ref record found)
      by_cases own : ref = sessionId
      · subst own
        rw [if_pos rfl] at later
        have row := (applyAll_unconcerned before.database (tends.2.1 rfl)).1
        refine ⟨some record.version, by simpa using later, fun version same => ?_, by simp⟩
        refine ⟨by simp [Cluster.proceed], ?_⟩
        have committed : before.database.sessions.get? ref = some record := row.symm.trans found
        simpa [Cluster.proceed, committed] using same
      · rw [if_neg own] at later
        exact ⟨seen, by simpa using later, holds, by simpa using clean⟩
    | run | skipping | row | count =>
      exact ⟨seen, by simpa using tends _, holds, by simpa using clean⟩
    | insert =>
      refine ⟨seen, tends, holds, fun unseen change member => ?_⟩
      rcases List.mem_append.mp member with old | new
      · exact clean unseen change old
      · exact List.mem_singleton.mp new ▸ id
    | write =>
      refine ⟨seen, tends.2, holds, fun unseen change member => ?_⟩
      rcases List.mem_append.mp member with old | new
      · exact clean unseen change old
      · intro concerns
        have locked := tends.1 (List.mem_singleton.mp new ▸ concerns)
        simp [unseen] at locked
  · rw [process] at recovers
    exact tending.recovery recovers

/-- Where the rows of a session come from, and who may change them. -/
structure Tended (calls : Workload) (sessionId : String) (cluster : Cluster Reply) : Prop where
  keyed : ∀ ref record, cluster.database.sessions.get? ref = some record → record.id = ref
  writes : ∀ process, Writes
    (fun process => Change.WrittenBy (calls process).1 (calls process).2) cluster process
  tends : ∀ process, ¬ calls.Draws sessionId process → Tending sessionId cluster process
  absent : ∀ process, calls.Draws sessionId process →
    (∃ result, (cluster.processes process).activity = .finished result) ∨
      cluster.database.sessions.get? sessionId = none
  opened : ∀ record, cluster.database.sessions.get? sessionId = some record → 1 ≤ record.version
  blank : (∀ record, cluster.database.sessions.get? sessionId = some record → record.version ≤ 1) →
    cluster.database.transcript sessionId = []

/-- What a call commits to a session that it does not create. -/
theorem Tended.committing (tended : Tended calls sessionId before)
    (active : (before.processes actor).activity = .running (.done (.ok value)))
    (other : ¬ calls.Draws sessionId actor) :
    ∃ amount, Rewritten sessionId amount before.database (before.view actor) ∧
      (amount ≠ 0 → before.locks (.session sessionId) = some actor ∧
        (before.database.sessions.get? sessionId).isSome) := by
  obtain ⟨seen, settles, holding, _⟩ := (tended.tends actor other).running active
  rcases settles with clean | ⟨version, own, raises⟩
  · obtain ⟨row, messages⟩ := applyAll_unconcerned before.database clean
    refine ⟨0, ⟨?_, fun _ => messages⟩, fun none => (none rfl).elim⟩
    rw [Cluster.view, row]
    rfl
  · obtain ⟨locked, current⟩ := holding version own
    refine ⟨1, ⟨?_, by simp⟩, fun _ => ⟨locked, ?_⟩⟩
    · obtain ⟨record, found, same⟩ := Option.map_eq_some_iff.mp current
      rw [Cluster.view, raises, found, Option.map_some, same]
    · obtain ⟨record, found, _⟩ := Option.map_eq_some_iff.mp current
      rw [found]
      rfl

/-- A call that creates the session commits its first row and no message. -/
theorem Tended.creating (tended : Tended calls sessionId before)
    (draws : calls.Draws sessionId actor) :
    (∀ record, (before.view actor).sessions.get? sessionId = some record →
      before.database.sessions.get? sessionId = some record ∨ record.version = 1) ∧
    (before.view actor).transcript sessionId = before.database.transcript sessionId := by
  obtain ⟨_, ⟨request, call, _, _⟩, _⟩ := draws
  have quiet : ¬ (calls actor).1.Rewrites := by
    rw [call]
    exact id
  have written := (tended.writes actor).pending
  constructor
  · intro record found
    rcases applyAll_session found with old | new
    · exact .inl old
    · rcases written _ new with rewrites | ⟨_, _, _, rfl⟩
      · exact (quiet rewrites).elim
      · exact .inr rfl
  · have same : (before.view actor).messages = before.database.messages := by
      refine applyAll_messages fun change flushed => ⟨fun message own => ?_, fun ref own => ?_⟩
      · subst own
        exact quiet (written _ flushed).1
      · subst own
        exact quiet (written _ flushed)
    rw [Database.transcript, same, Database.transcript]

/-- A statement that changes no committed row leaves all but its process to show. -/
theorem Tended.unchanged (tended : Tended calls sessionId before)
    (sessions : after.database.sessions = before.database.sessions)
    (messages : after.database.transcript sessionId = before.database.transcript sessionId)
    (writes : ∀ process, Writes
      (fun process => Change.WrittenBy (calls process).1 (calls process).2) after process)
    (tends : ∀ process, ¬ calls.Draws sessionId process → Tending sessionId after process)
    (finished : ∀ process result, (before.processes process).activity = .finished result →
      (after.processes process).activity = .finished result) :
    Tended calls sessionId after where
  keyed := by rw [sessions]; exact tended.keyed
  writes := writes
  tends := tends
  absent process draws := by
    rw [sessions]
    rcases tended.absent process draws with ⟨result, done⟩ | absent
    · exact .inl ⟨result, finished process result done⟩
    · exact .inr absent
  opened := by rw [sessions]; exact tended.opened
  blank := by rw [sessions, messages]; exact tended.blank

/-- A row that another process holds stays locked when a transaction ends. -/
theorem HoldsAt.released (holds : HoldsAt sessionId before process version)
    (ended : Process Reply) (other : process ≠ actor) :
    (before.release actor ended).locks (.session sessionId) = some process := by
  have locked := holds.locked
  simp [Cluster.release, locked, other]

/-- The version after a commit, from the version before it. -/
theorem Rewritten.found (rewritten : Rewritten sessionId amount database later)
    (found : later.sessions.get? sessionId = some record) :
    ∃ row, database.sessions.get? sessionId = some row ∧ record.version = row.version + amount := by
  have version := rewritten.version
  rw [found, Option.map_some] at version
  obtain ⟨row, present, same⟩ := Option.map_eq_some_iff.mp version.symm
  exact ⟨row, present, same.symm⟩

theorem Rewritten.present (rewritten : Rewritten sessionId amount database later)
    (found : database.sessions.get? sessionId = some record) :
    ∃ row, later.sessions.get? sessionId = some row ∧ row.version = record.version + amount := by
  have version := rewritten.version
  rw [found, Option.map_some] at version
  exact Option.map_eq_some_iff.mp version

/-- The commit of the call that creates the session. -/
theorem Tended.created (tended : Tended calls sessionId before)
    (once : calls.DrawsOnce sessionId)
    (active : (before.processes actor).activity = .running (.done (.ok value)))
    (draws : calls.Draws sessionId actor) : Tended calls sessionId (before.commit actor value) := by
  have absent : before.database.sessions.get? sessionId = none := by
    rcases tended.absent actor draws with ⟨result, done⟩ | absent
    · rw [active] at done
      contradiction
    · exact absent
  obtain ⟨rows, messages⟩ := tended.creating draws
  constructor
  · exact applyAll_keyed tended.keyed
  · exact Writes.moved tended.writes (.commits active)
  · intro process other
    have own : process ≠ actor := by
      rintro rfl
      exact other draws
    refine (tended.tends process other).keep (Function.update_of_ne own _ _) ?_
    intro version holds
    have current := holds.current
    simp [absent] at current
  · intro process also
    have own := once process actor also draws
    subst own
    exact .inl ⟨.ok value, by simp [Cluster.commit, Cluster.release]⟩
  · intro record found
    rcases rows record found with old | first
    · rw [absent] at old
      contradiction
    · exact first.ge
  · intro _
    refine messages.trans (tended.blank fun record found => ?_)
    rw [absent] at found
    contradiction

/-- The commit of any other call. -/
theorem Tended.committed (tended : Tended calls sessionId before)
    (active : (before.processes actor).activity = .running (.done (.ok value)))
    (other : ¬ calls.Draws sessionId actor) :
    Tended calls sessionId (before.commit actor value) := by
  obtain ⟨amount, rewritten, owned⟩ := tended.committing active other
  constructor
  · exact applyAll_keyed tended.keyed
  · exact Writes.moved tended.writes (.commits active)
  · intro process apart
    by_cases own : process = actor
    · subst own
      constructor <;> simp [Cluster.commit, Cluster.release]
    · refine (tended.tends process apart).keep (Function.update_of_ne own _ _) ?_
      intro version holds
      refine ⟨holds.released ⟨.finished (.ok value), none, []⟩ own, ?_⟩
      by_cases none : amount = 0
      · subst none
        exact rewritten.version.trans holds.current
      · have locked := (owned none).1
        rw [holds.locked] at locked
        exact (own (Option.some.inj locked)).elim
  · intro process draws
    have own : process ≠ actor := by
      rintro rfl
      exact other draws
    rcases tended.absent process draws with ⟨result, done⟩ | absent
    · exact .inl ⟨result,
        (congrArg Process.activity (Function.update_of_ne own _ _)).trans done⟩
    · have version := rewritten.version
      rw [absent, Option.map_none, Option.map_eq_none_iff] at version
      exact .inr version
  · intro record found
    obtain ⟨row, present, grown⟩ := rewritten.found found
    have least := tended.opened row present
    omega
  · intro low
    by_cases none : amount = 0
    · refine (rewritten.transcript none).trans (tended.blank fun record found => ?_)
      obtain ⟨row, present, grown⟩ := rewritten.present found
      have most := low row present
      omega
    · obtain ⟨record, found⟩ := Option.isSome_iff_exists.mp (owned none).2
      obtain ⟨row, present, grown⟩ := rewritten.present found
      have most := low row present
      have least := tended.opened record found
      omega

private theorem Tended.statement (tended : Tended calls sessionId before)
    (once : calls.DrawsOnce sessionId)
    (moved : before.Moved actor after) (active : ∀ result,
      (before.processes actor).activity ≠ .finished result) : Tended calls sessionId after := by
  have writes := Writes.moved tended.writes moved
  cases moved with
  | @proceeds transaction rows flushed rest inserting running continues available =>
    refine tended.unchanged rfl rfl writes (fun process other => ?_) ?_
    · by_cases own : process = actor
      · subst own
        exact (tended.tends process other).proceeds tended.keyed running continues
      · refine (tended.tends process other).keep (Function.update_of_ne own _ _) ?_
        rintro version ⟨locked, current⟩
        refine ⟨?_, current⟩
        have free : .session sessionId ∉ rows := by
          intro listed
          rcases available _ listed with none | mine
          · rw [none] at locked
            contradiction
          · rw [mine] at locked
            exact own (Option.some.inj locked).symm
        exact (if_neg free).trans locked
    · intro process result done
      have own : process ≠ actor := by
        rintro rfl
        exact active result done
      exact (congrArg Process.activity (Function.update_of_ne own _ _)).trans done
  | @rolls ended blank recovers =>
    refine tended.unchanged rfl rfl writes (fun process other => ?_) ?_
    · by_cases own : process = actor
      · subst own
        constructor
        · intro transaction running
          simp only [Cluster.release, Function.update_self] at running ⊢
          refine ⟨none, ?_, by simp, by simp [blank.2]⟩
          rw [blank.2]
          exact (tended.tends process other).recovery (recovers transaction running)
        · simp [Cluster.release, blank.1]
      · refine (tended.tends process other).keep (Function.update_of_ne own _ _) ?_
        exact fun version holds => ⟨holds.released ended own, holds.current⟩
    · intro process result done
      have own : process ≠ actor := by
        rintro rfl
        exact active result done
      exact (congrArg Process.activity (Function.update_of_ne own _ _)).trans done
  | commits running =>
    by_cases draws : calls.Draws sessionId actor
    · exact tended.created once running draws
    · exact tended.committed running draws

/-- Sessions are opened at version one, and under an identifier of their own. -/
def ServiceAction.Opens (calls : Workload) (sessionId : String) : ServiceAction → Prop
  | .createSession record => record.version = 1 ∧
      (record.id = sessionId → ∀ process, ¬ calls.Draws sessionId process)
  | .statement _ | .prune _ _ => True

theorem serve_createSession_fresh {record : SessionRecord}
    (taken : before.serve (.createSession record) = some after) :
    before.database.sessions.get? record.id = none := by
  simp only [Cluster.serve] at taken
  split at taken
  · contradiction
  · next absent => exact Option.not_isSome_iff_eq_none.mp absent

/-- A new session appears, and no other is touched. -/
theorem Tended.opening {record : SessionRecord} (tended : Tended calls sessionId before)
    (opens : (ServiceAction.createSession record).Opens calls sessionId)
    (taken : before.serve (.createSession record) = some after) :
    Tended calls sessionId after := by
  have fresh := serve_createSession_fresh taken
  obtain rfl := serve_createSession taken
  have spared : record.id ≠ sessionId →
      (before.database.apply (.session record)).sessions.get? sessionId =
        before.database.sessions.get? sessionId := fun other => Dict.get?_set_ne _ _ (Ne.symm other)
  have own_row : record.id = sessionId →
      (before.database.apply (.session record)).sessions.get? sessionId = some record := by
    rintro rfl
    exact Dict.get?_set_self ..
  constructor
  · exact @applyAll_keyed before.database [.session record] tended.keyed
  · exact fun process => (tended.writes process).keep rfl
  · intro process other
    refine (tended.tends process other).keep rfl fun version holds => ⟨holds.locked, ?_⟩
    refine (congrArg (Option.map (·.version)) (spared ?_)).trans holds.current
    rintro rfl
    have current := holds.current
    simp [fresh] at current
  · intro process draws
    refine (tended.absent process draws).imp id fun absent => (spared ?_).trans absent
    exact fun own => opens.2 own process draws
  · intro row found
    by_cases own : record.id = sessionId
    · obtain rfl := Option.some.inj ((own_row own).symm.trans found)
      exact opens.1.ge
    · exact tended.opened row ((spared own).symm.trans found)
  · intro low
    refine tended.blank fun row found => ?_
    by_cases own : record.id = sessionId
    · subst own
      rw [fresh] at found
      contradiction
    · exact low row ((spared own).trans found)

theorem Tended.serves (tended : Tended calls sessionId before)
    (once : calls.DrawsOnce sessionId)
    (opens : action.Opens calls sessionId) (taken : Serves before action after) :
    Tended calls sessionId after := by
  have writes := Writes.serves tended.writes taken
  cases action with
  | statement actor =>
    refine tended.statement once (next_moved taken) fun result done => ?_
    have stuck : before.next actor = none := by simp [Cluster.next, done]
    have impossible := stuck.symm.trans taken
    contradiction
  | prune time removed =>
    obtain ⟨_, rfl⟩ := serve_prune taken
    exact tended.unchanged rfl rfl writes
      (fun process other => (tended.tends process other).keep rfl fun _ holds =>
        ⟨holds.locked, holds.current⟩) fun _ _ done => done
  | createSession record => exact tended.opening opens taken

private theorem Tended.rewritten (tended : Tended calls sessionId before)
    (taken : Serves before action after)
    (found : before.database.sessions.get? sessionId = some record) :
    ∃ amount, Rewritten sessionId amount before.database after.database := by
  cases action with
  | statement actor =>
    cases next_moved taken with
    | proceeds | rolls => exact ⟨0, .rfl⟩
    | commits running =>
      by_cases draws : calls.Draws sessionId actor
      · rcases tended.absent actor draws with ⟨result, done⟩ | absent
        · rw [running] at done
          contradiction
        · rw [absent] at found
          contradiction
      · obtain ⟨amount, rewritten, _⟩ := tended.committing running draws
        exact ⟨amount, rewritten⟩
  | prune time removed =>
    obtain ⟨_, rfl⟩ := serve_prune taken
    exact ⟨0, rfl, fun _ => rfl⟩
  | createSession created =>
    have fresh := serve_createSession_fresh taken
    obtain rfl := serve_createSession taken
    have other : sessionId ≠ created.id := by
      rintro rfl
      rw [fresh] at found
      contradiction
    have spared : (before.database.apply (.session created)).sessions.get? sessionId =
        before.database.sessions.get? sessionId := Dict.get?_set_ne _ _ other
    exact ⟨0, congrArg (Option.map SessionRecord.version) spared, fun _ => rfl⟩

private theorem start_tended : Tended calls sessionId calls.start where
  keyed := by simp [Workload.start, Cluster.start, Database.empty]
  writes := start_writes fun process => (calls process).1.transaction_flushes (calls process).2
  tends process other := by
    constructor
    · intro transaction running
      cases running
      refine ⟨none, ?_, by simp,
        fun _ => by simp [Workload.start, Cluster.start, LockingCall.process]⟩
      exact (calls process).1.transaction_tends (calls process).2
        fun record creates own => other ⟨record, creates, own⟩
    · intro transaction recovers
      have reads : transaction.Flushes fun change => ¬ change.Concerns sessionId :=
        LockingCall.recovery_flushes recovers
      exact reads.tends (by simp) none
  absent _ _ := .inr rfl
  opened _ found := by cases found
  blank _ := rfl

theorem run_tended (once : calls.DrawsOnce sessionId) (run : Run Serves calls.start actions cluster)
    (opens : ∀ action ∈ actions, action.Opens calls sessionId) :
    Tended calls sessionId cluster := by
  induction run with
  | nil => exact start_tended
  | snoc earlier last ih =>
    have tended := ih fun action member => opens action (List.mem_append_left _ member)
    exact tended.serves once (opens _ (by simp)) last

/-- Along a run the version of a session grows with every change of its transcript. -/
theorem run_rewritten (once : calls.DrawsOnce sessionId)
    (tended : Tended calls sessionId before) (run : Run Serves before actions after)
    (opens : ∀ action ∈ actions, action.Opens calls sessionId)
    (found : before.database.sessions.get? sessionId = some record) :
    ∃ amount, Rewritten sessionId amount before.database after.database := by
  suffices both : Tended calls sessionId after ∧
      ∃ amount, Rewritten sessionId amount before.database after.database from both.2
  induction run with
  | nil => exact ⟨tended, 0, .rfl⟩
  | snoc earlier last ih =>
    obtain ⟨middle, amount, first⟩ :=
      ih fun action member => opens action (List.mem_append_left _ member)
    obtain ⟨row, present, _⟩ := first.present found
    obtain ⟨more, second⟩ := middle.rewritten last present
    exact ⟨middle.serves once (opens _ (by simp)) last, _, first.trans second⟩

end Service

end DayuAgent
