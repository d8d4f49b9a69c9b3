import DayuAgent.Database.Reservation
import DayuAgent.Library.Transition

namespace DayuAgent

open Library SQLAlchemyRuntimeStore
open InMemorySessionStore (implicitSession pendingRun)

/-- What committed rows and finished calls agree on. -/
structure Arbitrated (calls : Nat → ReserveCall) (initial : Database)
    (cluster : Cluster RunReservation) : Prop where
  keys : cluster.database.runs.get? ref = some run →
    cluster.database.runs.get? other = some second →
    run.idempotencyKey = some key → second.idempotencyKey = some key → ref = other
  oneActive : cluster.database.runs.get? ref = some run →
    cluster.database.runs.get? other = some second →
    run.sessionId = second.sessionId → run.Active → second.Active → ref = other
  oneOwner : cluster.database.runs.get? ref = some run → initial.runs.get? ref = none →
    ∃! owner, (cluster.processes owner).activity =
      .finished (.ok { run, ownsExecution := true })
  owned : (cluster.processes caller).activity = .finished (.ok { run, ownsExecution := true }) →
    run = (calls caller).model ∧ cluster.database.runs.get? run.id = some run ∧
      initial.runs.get? run.id = none
  outcome : (cluster.processes caller).activity = .finished result →
    result = .ok { run := (calls caller).model, ownsExecution := true } ∨
      Declined initial cluster.database (calls caller) result

section Invariant

variable {calls : Nat → ReserveCall} {initial : Database}
  {before after cluster : Cluster RunReservation} {caller : Nat}

/-- The invariant of all interleavings. -/
structure Safe (calls : Nat → ReserveCall) (initial : Database)
    (cluster : Cluster RunReservation) : Prop where
  sound : cluster.database.Sound
  stages : ∀ caller, Stage calls initial cluster caller (cluster.processes caller)
  origin : ∀ ref run, cluster.database.runs.get? ref = some run →
    initial.runs.get? ref = some run ∨ ∃ owner, run = (calls owner).model ∧
      (cluster.processes owner).activity = .finished (.ok { run, ownsExecution := true })
  openers : ∀ sessionId, (cluster.database.sessions.get? sessionId).isSome →
    (initial.sessions.get? sessionId).isSome ∨ ∃ opener result,
      sessionId = (calls opener).ambient.uuid4 0 ∧
      (cluster.processes opener).activity = .finished result
  kept : ∀ sessionId, (initial.sessions.get? sessionId).isSome →
    (cluster.database.sessions.get? sessionId).isSome

theorem start_safe (sound : initial.Sound) :
    Safe calls initial (Cluster.start initial fun caller => (calls caller).process) where
  sound := sound
  stages _ := .start
  origin _ _ present := .inl present
  openers _ present := .inl present
  kept _ present := present

/-- The effect of one step of an unfinished call on the invariant. -/
theorem Safe.act (safe : Safe calls initial before)
    (processes : after.processes = Function.update before.processes actor process)
    (running : (before.processes actor).activity = .running transaction)
    (own : Stage calls initial after actor process) (sound : after.database.Sound)
    (keeps : ∀ other, other ≠ actor → KeepsCaller calls before after other)
    (runs : ∀ ref run, after.database.runs.get? ref = some run →
      before.database.runs.get? ref = some run ∨ (run = (calls actor).model ∧
        process.activity = .finished (.ok { run, ownsExecution := true })))
    (sessions : ∀ sessionId, (after.database.sessions.get? sessionId).isSome →
      (before.database.sessions.get? sessionId).isSome ∨
        (sessionId = (calls actor).ambient.uuid4 0 ∧
          ∃ result, process.activity = .finished result))
    (grown : ∀ sessionId, (before.database.sessions.get? sessionId).isSome →
      (after.database.sessions.get? sessionId).isSome) : Safe calls initial after := by
  have others : ∀ {other result}, (before.processes other).activity = .finished result →
      (after.processes other).activity = .finished result := by
    intro other result finished
    have different : other ≠ actor := by
      rintro rfl
      rw [running] at finished
      contradiction
    rw [processes, Function.update_of_ne different, finished]
  have mine : after.processes actor = process := by rw [processes, Function.update_self]
  refine ⟨sound, ?_, ?_, ?_, fun sessionId first => grown sessionId (safe.kept sessionId first)⟩
  · intro caller
    by_cases same : caller = actor
    · subst same
      rw [mine]
      exact own
    · rw [processes, Function.update_of_ne same]
      exact (safe.stages caller).keep (keeps caller same)
  · intro ref run present
    rcases runs ref run present with old | ⟨model, finished⟩
    · rcases safe.origin ref run old with first | ⟨owner, model, finished⟩
      · exact .inl first
      · exact .inr ⟨owner, model, others finished⟩
    · exact .inr ⟨actor, model, by rw [mine]; exact finished⟩
  · intro sessionId present
    rcases sessions sessionId present with old | ⟨own, result, finished⟩
    · rcases safe.openers sessionId old with first | ⟨opener, result, same, finished⟩
      · exact .inl first
      · exact .inr ⟨opener, result, same, others finished⟩
    · exact .inr ⟨actor, result, own, by rw [mine]; exact finished⟩

/-- A step that commits nothing and changes only the acting call. -/
theorem Safe.quiet (safe : Safe calls initial before)
    (processes : after.processes = Function.update before.processes actor process)
    (running : (before.processes actor).activity = .running transaction)
    (own : Stage calls initial after actor process) (same : after.database = before.database)
    (keeps : ∀ other, other ≠ actor → KeepsCaller calls before after other) :
    Safe calls initial after := by
  refine safe.act processes running own (same ▸ safe.sound) keeps ?_ ?_
    fun sessionId present => same ▸ present
  · intro ref run present
    exact .inl (same ▸ present)
  · intro sessionId present
    exact .inl (same ▸ present)

theorem Safe.advance (safe : Safe calls initial before)
    (running : (before.processes actor).activity = .running transaction)
    (own : Stage calls initial before actor
      { before.processes actor with activity := .running rest }) :
    Safe calls initial (before.advance actor rest) := by
  have keeps : ∀ other, KeepsCaller calls before (before.advance actor rest) other := fun other =>
    .ofSame rfl (fun _ locked => locked) (fun _ entry => entry) fun _ _ _ member => .inl member
  exact safe.quiet rfl running (own.keep (keeps actor)) rfl fun other _ => keeps other

/-- Locking a row takes no lock away. -/
theorem Safe.acquire (safe : Safe calls initial before)
    (running : (before.processes actor).activity = .running transaction)
    (available : before.Available actor row)
    (own : Stage calls initial (before.acquire actor row) actor
      { before.processes actor with activity := .running rest }) :
    Safe calls initial ((before.acquire actor row).advance actor rest) := by
  have keeps : ∀ other, other ≠ actor →
      KeepsCaller calls before ((before.acquire actor row).advance actor rest) other := by
    intro other different
    refine .ofSame rfl ?_ (fun _ entry => entry) fun _ _ _ member => .inl member
    intro locked held
    refine (Function.update_of_ne ?_ _ _).trans held
    rintro rfl
    rcases available with free | mine
    · rw [free] at held
      contradiction
    · rw [mine] at held
      exact different (Option.some.inj held).symm
  refine safe.quiet rfl running (own.keep ?_) rfl keeps
  exact .ofSame rfl (fun _ locked => locked) (fun _ entry => entry) fun _ _ _ member => .inl member

private theorem mem_release {changed : Process RunReservation} :
    (other, run) ∈ (before.release actor changed).inserting ↔
      (other, run) ∈ before.inserting ∧ other ≠ actor := by
  simp [Cluster.release]

private theorem locks_release {changed : Process RunReservation} (different : other ≠ actor)
    (held : before.locks row = some other) :
    (before.release actor changed).locks row = some other := by
  have foreign : some other ≠ some actor := by simpa using different
  simp [Cluster.release, held, foreign]

theorem mem_commit : (other, run) ∈ (before.commit actor value).inserting ↔
    (other, run) ∈ before.inserting ∧ other ≠ actor := by
  simp [Cluster.commit, Cluster.release]

theorem locks_commit (different : other ≠ actor) (held : before.locks row = some other) :
    (before.commit actor value).locks row = some other := by
  have foreign : some other ≠ some actor := by simpa using different
  simp [Cluster.commit, Cluster.release, held, foreign]

/-- Ending a transaction without a commit. -/
theorem Safe.release (safe : Safe calls initial before)
    (running : (before.processes actor).activity = .running transaction)
    (own : Stage calls initial (before.release actor changed) actor changed) :
    Safe calls initial (before.release actor changed) := by
  refine safe.quiet rfl running own rfl fun other different => ?_
  refine .ofSame rfl (fun _ held => locks_release different held) ?_ ?_
  · exact fun run member => mem_release.mpr ⟨member, different⟩
  · exact fun _ _ _ member => .inl (mem_release.mp member).1

/-- The row of a generated identifier is free until its call is finished. -/
theorem Safe.unused (safe : Safe calls initial cluster) (fresh : FreshCalls calls initial)
    (running : (cluster.processes caller).activity = .running transaction) :
    cluster.database.runs.get? (calls caller).model.id = none := by
  cases present : cluster.database.runs.get? (calls caller).model.id with
  | none => rfl
  | some run =>
    have named := safe.sound.runId present
    rcases safe.origin _ _ present with first | ⟨owner, rfl, finished⟩
    · rw [fresh.runs caller] at first
      contradiction
    · obtain rfl := fresh.distinctRuns named
      rw [running] at finished
      contradiction

theorem Safe.unopened (safe : Safe calls initial cluster) (fresh : FreshCalls calls initial)
    (running : (cluster.processes caller).activity = .running transaction) :
    cluster.database.sessions.get? ((calls caller).ambient.uuid4 0) = none := by
  cases present : cluster.database.sessions.get? ((calls caller).ambient.uuid4 0) with
  | none => rfl
  | some record =>
    rcases safe.openers _ (by rw [present]; rfl) with first | ⟨opener, result, same, finished⟩
    · rw [fresh.sessions caller] at first
      contradiction
    · obtain rfl := fresh.distinctSessions same
      rw [running] at finished
      contradiction

/-- The lookup by key finds a committed run that carries it. -/
theorem find_byKey (found : (RunQuery.byKey key).find database = some run) :
    ∃ ref, database.runs.get? ref = some run ∧ run.idempotencyKey = some key := by
  obtain ⟨ref, present⟩ := (Dict.mem_values_iff _ _).mp (List.mem_of_find?_eq_some found)
  exact ⟨ref, present, by simpa using List.find?_some found⟩

theorem find_byKey_none (missing : (RunQuery.byKey key).find database = none)
    (present : database.runs.get? ref = some run) : run.idempotencyKey ≠ some key := by
  have absent := List.find?_eq_none.mp missing run ((Dict.mem_values_iff _ _).mpr ⟨ref, present⟩)
  simpa using absent

theorem activeRunIn_some (found : activeRunIn sessionId database = some run) :
    ∃ ref, database.runs.get? ref = some run ∧ run.sessionId = sessionId ∧ run.Active := by
  obtain ⟨ref, present⟩ := (Dict.mem_values_iff _ _).mp (List.mem_of_find?_eq_some found)
  exact ⟨ref, present, by simpa using List.find?_some found⟩

theorem activeRunIn_none (missing : activeRunIn sessionId database = none)
    (present : database.runs.get? ref = some run) (same : run.sessionId = sessionId) :
    ¬ run.Active := by
  have absent := List.find?_eq_none.mp missing run ((Dict.mem_values_iff _ _).mpr ⟨ref, present⟩)
  simpa [same] using absent

/-- A pending session row changes no lookup of a run. -/
theorem view_runs (shape : pending = [] ∨ pending = (calls caller).opened)
    (same : (cluster.processes caller).pending = pending) :
    (cluster.view caller).runs = cluster.database.runs := by
  unfold Cluster.view
  rw [same]
  rcases shape with rfl | rfl
  · rfl
  · exact applyOpened_runs _ _

theorem find_congr (same : database.runs = other.runs) (query : RunQuery) :
    query.find database = query.find other := by
  cases query <;> simp only [RunQuery.find, same]

theorem activeRunIn_congr (same : database.runs = other.runs) (sessionId : String) :
    activeRunIn sessionId database = activeRunIn sessionId other := by
  simp only [activeRunIn, same]

/-- A locking key lookup ends the call if it finds a run. -/
theorem Safe.lookup (safe : Safe calls initial before)
    (same : before.processes actor = process)
    (running : process.activity = .running (.lockRun (.byKey key) fun
      | some existing => .done (replayOf existing (calls actor).request.requestHash)
      | none => rest))
    (keyed : (calls actor).request.idempotencyKey = some key)
    (shape : process.pending = [] ∨ process.pending = (calls actor).opened)
    (missing : (∀ ref run, before.database.runs.get? ref = some run →
        run.idempotencyKey ≠ some key) →
      Stage calls initial before actor { process with activity := .running rest })
    (taken : Cluster.Steps before actor after) : Safe calls initial after := by
  subst same
  have seen := find_congr (view_runs shape rfl) (RunQuery.byKey key)
  rw [Cluster.Steps, Cluster.next_lockRun running, seen] at taken
  cases found : (RunQuery.byKey key).find before.database with
  | none =>
    rw [found] at taken
    cases taken
    exact safe.advance running (missing fun ref run present => find_byKey_none found present)
  | some run =>
    rw [found] at taken
    obtain ⟨available, rfl⟩ := Cluster.acquireThen_some taken
    obtain ⟨ref, present, carried⟩ := find_byKey found
    have declined : Declined initial (before.acquire actor (.run run.id)).database (calls actor)
        (replayOf run (calls actor).request.requestHash) := .found present keyed carried
    exact safe.acquire running available (.leaving declined shape _)

theorem Safe.session_step (fresh : FreshCalls calls initial) (safe : Safe calls initial before)
    (same : before.processes actor = { (calls actor).process with
      activity := .running (reserveSession (calls actor).request (calls actor).ambient) })
    (taken : Cluster.Steps before actor after) : Safe calls initial after := by
  have activity := congrArg Process.activity same
  cases named : (calls actor).request.sessionId with
  | none =>
    rw [reserveSession_implicit named] at activity
    rw [Cluster.Steps, Cluster.next_write activity] at taken
    cases taken
    have keeps : ∀ other process,
        KeepsCaller calls before (before.update actor process) other := fun other _ =>
      .ofSame rfl (fun _ held => held) (fun _ member => member) fun _ _ _ member => .inl member
    refine safe.quiet rfl activity ?_ rfl fun other _ => keeps other _
    have owns : Owns calls before actor := by
      unfold Owns
      rw [named]
      exact (target_implicit named).symm ▸ safe.unopened fresh activity
    have opened : (calls actor).opened =
        [.session (implicitSession (calls actor).request (calls actor).ambient)] := by
      simp only [ReserveCall.opened, named]
    have stage : Stage calls initial before actor _ := .locked owns
    rw [opened] at stage
    rw [same]
    exact stage.keep (keeps actor _)
  | some sessionId =>
    rw [reserveSession_named named] at activity
    have pending : before.view actor = before.database := by
      unfold Cluster.view
      rw [same]
      rfl
    rw [Cluster.Steps, Cluster.next_lockSession activity, pending] at taken
    cases found : before.database.sessions.get?
        (resolvedSessionId (calls actor).request (calls actor).ambient) with
    | none =>
      rw [found] at taken
      cases taken
      refine safe.advance activity ?_
      rw [same]
      have absent : initial.sessions.get? (calls actor).target = none := by
        by_contra present
        have first := safe.kept _ (Option.isSome_iff_ne_none.mpr present)
        have later : before.database.sessions.get? (calls actor).target = none := found
        rw [later] at first
        contradiction
      exact .leaving (.missing (by rw [named]; rfl) absent) (.inl rfl) _
    | some record =>
      rw [found] at taken
      obtain ⟨available, rfl⟩ := Cluster.acquireThen_some taken
      refine safe.acquire activity available ?_
      have opened : (calls actor).opened = [] := by simp only [ReserveCall.opened, named]
      have owns : Owns calls (before.acquire actor (.session (calls actor).target)) actor := by
        unfold Owns
        rw [named]
        exact ⟨Function.update_self _ _ _, by
          rw [Option.isSome_iff_exists]
          exact ⟨record, found⟩⟩
      have stage : Stage calls initial _ actor _ := .locked owns
      rw [opened] at stage
      rw [same]
      exact stage

theorem Safe.idle_step (safe : Safe calls initial before)
    (same : before.processes actor = { (calls actor).process with
      activity := .running (reserveIdle (calls actor).request (calls actor).ambient)
      pending := (calls actor).opened })
    (owns : Owns calls before actor) (taken : Cluster.Steps before actor after) :
    Safe calls initial after := by
  have activity := congrArg Process.activity same
  rw [reserveIdle_eq] at activity
  have seen := activeRunIn_congr (view_runs (.inr rfl) (congrArg Process.pending same))
    (resolvedSessionId (calls actor).request (calls actor).ambient)
  rw [Cluster.Steps, Cluster.next_readRun activity, seen] at taken
  cases taken
  refine safe.advance activity ?_
  rw [same]
  cases found : activeRunIn (resolvedSessionId (calls actor).request (calls actor).ambient)
      before.database with
  | none => exact .inserting owns fun ref run present own => activeRunIn_none found present own
  | some run =>
    obtain ⟨ref, present, own, active⟩ := activeRunIn_some found
    exact .leaving (.busy present own active) (.inr rfl) _

theorem Safe.locked_step (safe : Safe calls initial before)
    (same : before.processes actor = { (calls actor).process with
      activity := .running (reserveLocked (calls actor).request (calls actor).ambient)
      pending := (calls actor).opened })
    (owns : Owns calls before actor) (taken : Cluster.Steps before actor after) :
    Safe calls initial after := by
  cases keyed : (calls actor).request.idempotencyKey with
  | none =>
    rw [reserveLocked_unkeyed keyed] at same
    exact safe.idle_step same owns taken
  | some key =>
    rw [reserveLocked_keyed keyed] at same
    exact safe.lookup same rfl keyed (.inr rfl) (fun _ => .checking owns) taken

theorem Safe.start_step (fresh : FreshCalls calls initial) (safe : Safe calls initial before)
    (same : before.processes actor = (calls actor).process)
    (taken : Cluster.Steps before actor after) : Safe calls initial after := by
  unfold ReserveCall.process reserveProcess at same
  cases keyed : (calls actor).request.idempotencyKey with
  | none =>
    rw [reserveRun_unkeyed keyed] at same
    exact safe.session_step fresh same taken
  | some key =>
    rw [reserveRun_keyed keyed] at same
    exact safe.lookup same rfl keyed (.inl rfl) (fun _ => .opening) taken

theorem Safe.insert_step (fresh : FreshCalls calls initial) (safe : Safe calls initial before)
    (same : before.processes actor = { (calls actor).process with
      activity := .running (insertReserved (calls actor).request (calls actor).ambient)
      pending := (calls actor).opened })
    (owns : Owns calls before actor) (idle : Idle calls before.database actor)
    (taken : Cluster.Steps before actor after) : Safe calls initial after := by
  have activity : (before.processes actor).activity = .running (.insertRun (calls actor).model
      (.done (.ok { run := (calls actor).model, ownsExecution := true }))) :=
    congrArg Process.activity same
  have unused := safe.unused fresh activity
  rw [Cluster.Steps, Cluster.next_insertRun activity, Cluster.insertRun] at taken
  split at taken
  · next violation =>
    -- The only committed row that can be in the way carries the same key.
    obtain ⟨run, member, conflict⟩ := List.any_eq_true.mp violation
    obtain ⟨ref, present⟩ := (Dict.mem_values_iff _ _).mp member
    have recovery := congrArg Process.recovery same
    cases taken
    unfold Cluster.violated
    rw [recovery]
    refine safe.release activity ?_
    rcases of_decide_eq_true conflict with sameId | ⟨some, sameKey⟩ | ⟨sameSession, _, active⟩
    · rw [sameId, safe.sound.runId present, present] at unused
      contradiction
    · obtain ⟨key, keyed⟩ := Option.isSome_iff_exists.mp some
      exact .resolving present keyed (sameKey.symm.trans keyed)
    · exact (idle ref run present sameSession.symm active).elim
  · next clear =>
    split at taken
    · contradiction
    · next alone =>
      cases taken
      have apart : ∀ other run, (other, run) ∈ before.inserting → other ≠ actor →
          ¬ Conflicts (calls actor).model run := by
        intro other run member different conflict
        exact alone (List.any_eq_true.mpr ⟨_, member, by simp [different, conflict]⟩)
      refine safe.quiet rfl activity ?_ rfl ?_
      · rw [same]
        refine .inserted ⟨owns, idle, ?_, List.mem_cons_self, ?_⟩
        · intro ref run present keyed carried
          refine clear (List.any_eq_true.mpr ⟨run, (Dict.mem_values_iff _ _).mpr ⟨ref, present⟩,
            decide_eq_true (.inr (.inl ⟨keyed, carried.symm⟩))⟩)
        · intro other run member different
          rcases List.mem_cons.mp member with own | old
          · exact (different (congrArg Prod.fst own)).elim
          · exact apart other run old different
      · intro other different
        refine .ofSame rfl (fun _ held => held) (fun _ member => List.mem_cons_of_mem _ member) ?_
        intro inserted third run member
        rcases List.mem_cons.mp member with own | old
        · right
          cases own
          exact fun conflict => apart other _ inserted.entry different (conflicts_symm conflict)
        · exact .inl old

/-- The session rows after a call without a run of its own has committed. -/
theorem applied_sessions {database : Database}
    (shape : pending = [] ∨ pending = (calls caller).opened) (sessionId : String) :
    (database.applyAll pending).sessions.get? sessionId = database.sessions.get? sessionId ∨
      (sessionId = (calls caller).ambient.uuid4 0 ∧
        ((database.applyAll pending).sessions.get? sessionId).isSome) := by
  rcases shape with rfl | rfl
  · exact .inl rfl
  · rw [applyOpened_sessions]
    split
    · next own => exact .inr ⟨own.2, rfl⟩
    · exact .inl rfl

private theorem applied_runs {database : Database}
    (shape : pending = [] ∨ pending = (calls caller).opened) :
    (database.applyAll pending).runs = database.runs := by
  rcases shape with rfl | rfl
  · rfl
  · exact applyOpened_runs _ _

theorem grown_sessions {database later : Database} {own : String}
    (grown : ∀ sessionId,
      later.sessions.get? sessionId = database.sessions.get? sessionId ∨
        (sessionId = own ∧ (later.sessions.get? sessionId).isSome))
    (sessionId : String)
    (present : (database.sessions.get? sessionId).isSome) :
    (later.sessions.get? sessionId).isSome := by
  rcases grown sessionId with same | ⟨_, opened⟩
  · rw [same]
    exact present
  · exact opened

theorem Database.Sound.grow {database later : Database} (sound : database.Sound)
    (runs : later.runs = database.runs)
    (sessions : ∀ sessionId, (database.sessions.get? sessionId).isSome →
      (later.sessions.get? sessionId).isSome) : later.Sound where
  runId present := sound.runId (runs ▸ present)
  keys first second := sound.keys (runs ▸ first) (runs ▸ second)
  oneActive first second := sound.oneActive (runs ▸ first) (runs ▸ second)
  runSession present := sessions _ (sound.runSession (runs ▸ present))

/-- One more run in a session without an active one and under a fresh key. -/
theorem Database.Sound.insert {database later : Database} (sound : database.Sound)
    (runs : later.runs = database.runs.set (calls caller).model.id (calls caller).model)
    (sessions : ∀ sessionId, (database.sessions.get? sessionId).isSome →
      (later.sessions.get? sessionId).isSome)
    (opened : (later.sessions.get? (calls caller).target).isSome)
    (idle : Idle calls database caller)
    (unkeyed : ∀ ref run, database.runs.get? ref = some run →
      (calls caller).request.idempotencyKey.isSome →
      run.idempotencyKey ≠ (calls caller).request.idempotencyKey) : later.Sound := by
  have lookup : ∀ {ref run}, later.runs.get? ref = some run →
      (ref = (calls caller).model.id ∧ run = (calls caller).model) ∨
        database.runs.get? ref = some run := by
    intro ref run present
    rw [runs, Dict.get?_set] at present
    split at present
    · next same => exact .inl ⟨same, (Option.some.inj present).symm⟩
    · exact .inr present
  refine ⟨?_, ?_, ?_, ?_⟩
  · intro ref run present
    rcases lookup present with ⟨rfl, rfl⟩ | old
    · rfl
    · exact sound.runId old
  · intro ref run other second key first next carried again
    rcases lookup first with ⟨rfl, rfl⟩ | old <;> rcases lookup next with ⟨rfl, rfl⟩ | oldNext
    · rfl
    · rw [ReserveCall.model_key] at carried
      exact (unkeyed _ _ oldNext (by rw [carried]; rfl) (again.trans carried.symm)).elim
    · rw [ReserveCall.model_key] at again
      exact (unkeyed _ _ old (by rw [again]; rfl) (carried.trans again.symm)).elim
    · exact sound.keys old oldNext carried again
  · intro ref run other second first next same active again
    rcases lookup first with ⟨rfl, rfl⟩ | old <;> rcases lookup next with ⟨rfl, rfl⟩ | oldNext
    · rfl
    · exact (idle _ _ oldNext same.symm again).elim
    · exact (idle _ _ old same active).elim
    · exact sound.oneActive old oldNext same active again
  · intro ref run present
    rcases lookup present with ⟨rfl, rfl⟩ | old
    · exact opened
    · exact sessions _ (sound.runSession old)

private theorem Safe.leave_step (fresh : FreshCalls calls initial)
    (safe : Safe calls initial before)
    (same : before.processes actor =
      { activity := .running (.done result), recovery, pending })
    (declined : Declined initial before.database (calls actor) result)
    (shape : pending = [] ∨ pending = (calls actor).opened)
    (taken : Cluster.Steps before actor after) : Safe calls initial after := by
  have activity := congrArg Process.activity same
  cases result with
  | error error =>
    rw [Cluster.Steps, Cluster.next_error activity] at taken
    cases taken
    exact safe.release activity (.declined declined)
  | ok value =>
    rw [Cluster.Steps, Cluster.next_ok activity] at taken
    cases taken
    have seen : before.view actor = before.database.applyAll pending := by
      unfold Cluster.view
      rw [same]
    have runs : (before.view actor).runs = before.database.runs := by
      rw [seen]
      exact applied_runs shape
    have sessions := fun sessionId => @applied_sessions calls actor pending before.database
      shape sessionId
    rw [← seen] at sessions
    refine safe.act rfl activity (.declined (declined.mono ?_))
      (safe.sound.grow runs (grown_sessions sessions)) ?_ ?_ ?_ (grown_sessions sessions)
    · intro ref run present
      exact runs ▸ present
    · intro other different
      exact .ofSessions fresh different (fun _ held => locks_commit different held)
        (fun _ _ => mem_commit) runs sessions
    · intro ref run present
      exact .inl (runs ▸ present)
    · intro sessionId present
      rcases sessions sessionId with old | ⟨own, _⟩
      · exact .inl (old ▸ present)
      · exact .inr ⟨own, _, rfl⟩

/-- The commit that creates a run. -/
theorem Safe.inserted_step (fresh : FreshCalls calls initial) (safe : Safe calls initial before)
    (same : before.processes actor = { (calls actor).process with
      activity := .running
        (.done (.ok { run := (calls actor).model, ownsExecution := true }))
      pending := (calls actor).opened ++ [.run (calls actor).model] })
    (inserted : Inserted calls before actor) (taken : Cluster.Steps before actor after) :
    Safe calls initial after := by
  have activity := congrArg Process.activity same
  have unused := safe.unused fresh activity
  rw [Cluster.Steps, Cluster.next_ok activity] at taken
  cases taken
  have seen : before.view actor = (before.database.applyAll (calls actor).opened).apply
      (.run (calls actor).model) := by
    unfold Cluster.view
    rw [same]
    simp only [Database.applyAll, List.foldl_append, List.foldl_cons, List.foldl_nil]
  have runs : (before.view actor).runs =
      before.database.runs.set (calls actor).model.id (calls actor).model := by
    rw [seen]
    simp only [Database.apply, applyOpened_runs]
  have rows : ∀ sessionId, (before.view actor).sessions.get? sessionId =
      (before.database.applyAll (calls actor).opened).sessions.get? sessionId := by
    intro sessionId
    rw [seen]
    rfl
  have sessions := fun sessionId => @applied_sessions calls actor (calls actor).opened
    before.database (.inr rfl) sessionId
  simp only [← rows] at sessions
  have opened : ((before.view actor).sessions.get? (calls actor).target).isSome := by
    have owns := inserted.owns
    unfold Owns at owns
    cases named : (calls actor).request.sessionId with
    | none =>
      rw [rows, applyOpened_sessions, if_pos ⟨named, target_implicit named⟩]
      rfl
    | some sessionId =>
      rw [named] at owns
      exact grown_sessions sessions _ owns.2
  have created : (before.view actor).runs.get? (calls actor).model.id =
      some (calls actor).model := by
    rw [runs, Dict.get?_set_self]
  refine safe.act rfl activity (.owner created) (safe.sound.insert runs
    (grown_sessions sessions) opened inserted.idle inserted.unkeyed) ?_ ?_ ?_
    (grown_sessions sessions)
  · intro other different
    exact .ofInserted fresh different inserted unused (fun _ held => locks_commit different held)
      (fun _ _ => mem_commit) runs sessions
  · intro ref run present
    have later : (before.view actor).runs.get? ref = some run := present
    rw [runs, Dict.get?_set] at later
    split at later
    · cases later
      exact .inr ⟨rfl, rfl⟩
    · exact .inl later
  · intro sessionId present
    rcases sessions sessionId with old | ⟨own, _⟩
    · exact .inl (old ▸ present)
    · exact .inr ⟨own, _, rfl⟩

/-- The fresh lookup after a violation finds the run that was in the way. -/
theorem Safe.resolve_step (safe : Safe calls initial before)
    (same : before.processes actor =
      { activity := .running
          (resolveReservationRace (calls actor).request (calls actor).ambient)
        recovery := none, pending := [] })
    (present : before.database.runs.get? ref = some run)
    (keyed : (calls actor).request.idempotencyKey = some key)
    (carried : run.idempotencyKey = some key) (taken : Cluster.Steps before actor after) :
    Safe calls initial after := by
  have activity := congrArg Process.activity same
  rw [resolveReservationRace_keyed keyed] at activity
  have seen : before.view actor = before.database := by
    unfold Cluster.view
    rw [same]
    rfl
  rw [Cluster.Steps, Cluster.next_readRun activity, seen] at taken
  cases taken
  refine safe.advance activity ?_
  rw [same]
  cases found : (RunQuery.byKey key).find before.database with
  | none => exact (find_byKey_none found present carried).elim
  | some existing =>
    obtain ⟨ref, present, carried⟩ := find_byKey found
    exact .leaving (.found present keyed carried) (.inl rfl) _

private theorem Safe.step (fresh : FreshCalls calls initial) (safe : Safe calls initial before)
    (taken : Cluster.Steps before actor after) : Safe calls initial after := by
  have stage := safe.stages actor
  generalize same : before.processes actor = process at stage
  cases stage with
  | start => exact safe.start_step fresh same taken
  | opening => exact safe.session_step fresh same taken
  | locked owns => exact safe.locked_step same owns taken
  | checking owns => exact safe.idle_step same owns taken
  | inserting owns idle => exact safe.insert_step fresh same owns idle taken
  | inserted inserted => exact safe.inserted_step fresh same inserted taken
  | leaving declined shape => exact safe.leave_step fresh same declined shape taken
  | resolving present keyed carried => exact safe.resolve_step same present keyed carried taken
  | owner => simp [Cluster.Steps, Cluster.next, same] at taken
  | declined => simp [Cluster.Steps, Cluster.next, same] at taken

private theorem run_safe (sound : initial.Sound) (fresh : FreshCalls calls initial)
    (run : Run Cluster.Steps (Cluster.start initial fun caller => (calls caller).process)
      schedule cluster) : Safe calls initial cluster :=
  run.invariant (start_safe sound) fun safe taken => safe.step fresh taken

private theorem Safe.owned (safe : Safe calls initial cluster)
    (finished : (cluster.processes caller).activity =
      .finished (.ok { run, ownsExecution := true })) :
    run = (calls caller).model ∧ cluster.database.runs.get? run.id = some run := by
  have stage := safe.stages caller
  generalize (cluster.processes caller) = process at stage finished
  cases stage with
  | owner present =>
    cases finished
    exact ⟨rfl, present⟩
  | declined declined =>
    cases finished
    cases declined
  | _ => cases finished

private theorem Safe.outcome (safe : Safe calls initial cluster)
    (finished : (cluster.processes caller).activity = .finished result) :
    result = .ok { run := (calls caller).model, ownsExecution := true } ∨
      Declined initial cluster.database (calls caller) result := by
  have stage := safe.stages caller
  generalize (cluster.processes caller) = process at stage finished
  cases stage with
  | owner =>
    cases finished
    exact .inl rfl
  | declined declined =>
    cases finished
    exact .inr declined
  | _ => cases finished

/-- In every interleaving of any number of reservations, keys and busy sessions are
arbitrated: each committed run has one owner, every other caller is declined. -/
theorem reservations_arbitrated (sound : initial.Sound) (fresh : FreshCalls calls initial)
    (run : Run Cluster.Steps (Cluster.start initial fun caller => (calls caller).process)
      schedule cluster) : Arbitrated calls initial cluster := by
  have safe := run_safe sound fresh run
  refine ⟨safe.sound.keys, safe.sound.oneActive, ?_, ?_, safe.outcome⟩
  · intro ref run present absent
    rcases safe.origin ref run present with first | ⟨owner, model, finished⟩
    · rw [absent] at first
      contradiction
    · refine ⟨owner, finished, fun other owned => ?_⟩
      obtain ⟨same, _⟩ := safe.owned owned
      exact fresh.distinctRuns (same ▸ model ▸ rfl)
  · intro caller run finished
    obtain ⟨rfl, present⟩ := safe.owned finished
    exact ⟨rfl, present, fresh.runs caller⟩

end Invariant

/-- Callers that race for one key, each without a session. -/
def racers (caller : Nat) : ReserveCall :=
  { request := .sample none (some "key") "hash"
    ambient :=
      .sample (.ofList (List.replicate caller 's')) (.ofList (List.replicate caller 'r')) }

theorem racers_fresh : FreshCalls racers .empty where
  runs _ := rfl
  sessions _ := rfl
  distinctRuns same := by
    simpa [racers, ReserveCall.model, runModel, pendingRun, Ambient.sample]
      using congrArg String.length same
  distinctSessions same := by
    simpa [racers, Ambient.sample] using congrArg String.length same

theorem empty_sound : Database.empty.Sound where
  runId present := by cases present
  keys present := by cases present
  oneActive present := by cases present
  runSession present := by cases present

/-- Both callers miss the key; the second insert fails and its recovery replays. -/
theorem reservations_arbitrated_racers :
    ∃ cluster, follow Cluster.next (Cluster.start .empty fun caller => (racers caller).process)
        [0, 1, 0, 1, 0, 1, 0, 1, 0, 0, 1, 1, 1] = some cluster ∧
      Arbitrated racers .empty cluster := by
  cases reached : follow Cluster.next
      (Cluster.start .empty fun caller => (racers caller).process)
      [0, 1, 0, 1, 0, 1, 0, 1, 0, 0, 1, 1, 1] with
  | none => exact absurd reached (by decide)
  | some cluster =>
    exact ⟨cluster, rfl, reservations_arbitrated empty_sound racers_fresh (follow_run reached)⟩

end DayuAgent
