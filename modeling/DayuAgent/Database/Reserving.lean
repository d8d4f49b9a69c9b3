import DayuAgent.Database.Outcomes

namespace DayuAgent

open Library SQLAlchemyRuntimeStore
open InMemorySessionStore (implicitSession pendingRun sessionBusy)

section Endings

variable {request : ReserveRunRequest} {ambient : Ambient} {database view : Database}

/-- No run carries the key of the request. -/
def Unbound (request : ReserveRunRequest) (database : Database) : Prop :=
  ∀ key, request.idempotencyKey = some key → (RunQuery.byKey key).find database = none

/-- The key of the request is carried by a run. -/
def KeyTaken (request : ReserveRunRequest) (database : Database) : Prop :=
  ∃ key ref run, request.idempotencyKey = some key ∧ database.row ref = some run ∧
    run.idempotencyKey = some key

/-- The lookup by key finds the only run that carries it. -/
theorem Database.Sound.finds (sound : database.Sound) (found : database.row ref = some run)
    (carried : run.idempotencyKey = some key) :
    (RunQuery.byKey key).find database = some run := by
  cases chosen : (RunQuery.byKey key).find database with
  | none => exact (find_byKey_none chosen found carried).elim
  | some other =>
    obtain ⟨second, present, also⟩ := find_byKey chosen
    obtain rfl := sound.keys found present carried also
    exact present.symm.trans found

theorem reserveRun_bound (ambient : Ambient) (sound : database.Sound)
    (keyed : request.idempotencyKey = some key) (found : database.row ref = some existing)
    (carried : existing.idempotencyKey = some key) :
    (reserveRun request ambient).run database database =
      (Txn.done (replayOf existing request.requestHash)).run database database := by
  rw [reserveRun_keyed keyed]
  simp only [Txn.run, sound.finds found carried]

theorem reserveRun_unbound (unbound : Unbound request database) :
    (reserveRun request ambient).run database database =
      (reserveSession request ambient).run database database := by
  cases keyed : request.idempotencyKey with
  | none => rw [reserveRun_unkeyed keyed]
  | some key =>
    rw [reserveRun_keyed keyed]
    simp only [Txn.run, unbound key keyed]

private theorem reserveLocked_unbound (unbound : Unbound request database)
    (same : view.runs = database.runs) :
    (reserveLocked request ambient).run database view =
      (reserveIdle request ambient).run database view := by
  cases keyed : request.idempotencyKey with
  | none => rw [reserveLocked_unkeyed keyed]
  | some key =>
    have missing := unbound key keyed
    rw [← find_congr same] at missing
    rw [reserveLocked_keyed keyed]
    simp only [Txn.run, missing]

theorem reserveRun_missing (unbound : Unbound request database)
    (named : request.sessionId = some sessionId)
    (absent : database.sessions.get? (resolvedSessionId request ambient) = none) :
    (reserveRun request ambient).run database database = .failed
      (.of .sessionNotFoundError [("session_id", .str (resolvedSessionId request ambient))]) := by
  rw [reserveRun_unbound unbound, reserveSession_named named]
  simp only [Txn.run, absent]

/-- What the transaction has flushed when it looks for an active run. -/
def openedBy (request : ReserveRunRequest) (ambient : Ambient) : List Change :=
  match request.sessionId with
  | none => [.session (implicitSession request ambient)]
  | some _ => []

theorem openedBy_runs (database : Database) :
    (database.applyAll (openedBy request ambient)).runs = database.runs := by
  unfold openedBy
  split <;> rfl

theorem reserveRun_idle (unbound : Unbound request database)
    (opened : request.sessionId.isSome →
      (database.sessions.get? (resolvedSessionId request ambient)).isSome) :
    (reserveRun request ambient).run database database =
      (reserveIdle request ambient).run database
        (database.applyAll (openedBy request ambient)) := by
  rw [reserveRun_unbound unbound]
  cases named : request.sessionId with
  | none =>
    rw [reserveSession_implicit named, openedBy, named]
    exact reserveLocked_unbound unbound rfl
  | some sessionId =>
    obtain ⟨record, found⟩ := Option.isSome_iff_exists.mp (opened (by rw [named]; rfl))
    rw [reserveSession_named named, openedBy, named]
    simp only [Txn.run, found]
    exact reserveLocked_unbound unbound rfl

theorem reserveIdle_busy
    (busy : activeRunIn (resolvedSessionId request ambient) view = some active) :
    (reserveIdle request ambient).run database view =
      .failed (sessionBusy (resolvedSessionId request ambient) active) := by
  rw [reserveIdle_eq]
  simp only [Txn.run, busy]

theorem reserveIdle_inserts (same : view.runs = database.runs)
    (free : ∀ ref other, database.row ref = some other →
      ¬ Conflicts (runModel request ambient) other) :
    (reserveIdle request ambient).run database view =
      .committed { run := runModel request ambient, ownsExecution := true }
        (view.apply (.run (runModel request ambient))) := by
  have idle : activeRunIn (resolvedSessionId request ambient) view = none := by
    cases found : activeRunIn (resolvedSessionId request ambient) view with
    | none => rfl
    | some active =>
      rw [activeRunIn_congr same] at found
      obtain ⟨ref, present, own, busy⟩ := activeRunIn_some found
      refine (free ref active present (.inr (.inr ⟨own.symm, ?_, busy⟩))).elim
      simp [runModel, pendingRun, AgentRun.Active, activeRunStatuses]
  have accepted : ¬ (database.runs.values.any fun other =>
      Conflicts (runModel request ambient) other) = true := by
    simp only [List.any_eq_true, decide_eq_true_eq, not_exists, not_and]
    intro other listed
    obtain ⟨ref, present⟩ := (Dict.mem_values_iff _ _).mp listed
    exact free ref other present
  rw [reserveIdle_eq]
  simp only [Txn.run, idle, insertReserved, accepted]
  rfl

private theorem unbound_of_free_key (free : ¬ KeyTaken request database) :
    Unbound request database := by
  intro key keyed
  cases chosen : (RunQuery.byKey key).find database with
  | none => rfl
  | some other =>
    obtain ⟨ref, present, carried⟩ := find_byKey chosen
    exact (free ⟨key, ref, other, keyed, present, carried⟩).elim

/-- The ways in which a reservation ends that nobody disturbs. -/
theorem reserveRun_ends (sound : database.Sound) :
    (∃ run, database.row run.id = some run ∧ run.idempotencyKey = request.idempotencyKey ∧
      (reserveRun request ambient).run database database =
        (Txn.done (replayOf run request.requestHash)).run database database) ∨
    (reserveRun request ambient).run database database = .failed
      (.of .sessionNotFoundError [("session_id", .str (resolvedSessionId request ambient))]) ∨
    (∃ active, activeRunIn (resolvedSessionId request ambient) database = some active ∧
      (reserveRun request ambient).run database database =
        .failed (sessionBusy (resolvedSessionId request ambient) active)) ∨
    (reserveRun request ambient).run database database = .violated ∨
    Unbound request database ∧ (request.sessionId.isSome →
      (database.sessions.get? (resolvedSessionId request ambient)).isSome) ∧
    (∀ ref other, database.row ref = some other → ¬ Conflicts (runModel request ambient) other) ∧
    (reserveRun request ambient).run database database = .committed
      { run := runModel request ambient, ownsExecution := true }
      ((database.applyAll (openedBy request ambient)).apply (.run (runModel request ambient))) := by
  by_cases taken : KeyTaken request database
  · obtain ⟨key, ref, run, keyed, found, carried⟩ := taken
    have own : run.id = ref := sound.runId found
    exact .inl ⟨run, own ▸ found, carried.trans keyed.symm,
      reserveRun_bound ambient sound keyed found carried⟩
  have unbound := unbound_of_free_key taken
  by_cases opened : request.sessionId.isSome →
      (database.sessions.get? (resolvedSessionId request ambient)).isSome
  · rw [reserveRun_idle unbound opened, reserveIdle_eq]
    simp only [Txn.run, activeRunIn_congr (openedBy_runs database)]
    cases found : activeRunIn (resolvedSessionId request ambient) database with
    | some active => exact .inr (.inr (.inl ⟨active, rfl, rfl⟩))
    | none =>
      simp only [insertReserved, Txn.run]
      split
      · exact .inr (.inr (.inr (.inl rfl)))
      · next free =>
        refine .inr (.inr (.inr (.inr ⟨unbound, opened, fun ref other found conflicts => ?_, rfl⟩)))
        exact free (List.any_eq_true.mpr
          ⟨other, (Dict.mem_values_iff _ _).mpr ⟨ref, found⟩, decide_eq_true conflicts⟩)
  · simp only [not_forall, Bool.not_eq_true, Option.isSome_eq_false_iff,
      Option.isNone_iff_eq_none] at opened
    obtain ⟨named, absent⟩ := opened
    obtain ⟨sessionId, named⟩ := Option.isSome_iff_exists.mp named
    exact .inr (.inl (reserveRun_missing unbound named absent))

/-- A reservation that commits has found its key and written nothing, or has written a row
that conflicts with no other. -/
theorem reserveRun_commits (sound : database.Sound)
    (ran : (reserveRun request ambient).run database database = .committed answer after) :
    (answer.ownsExecution = false ∧ after = database ∧
      database.row answer.run.id = some answer.run ∧
      answer.run.idempotencyKey = request.idempotencyKey ∧
      answer.run.requestHash = request.requestHash) ∨
    answer = { run := runModel request ambient, ownsExecution := true } ∧
      after = (database.applyAll (openedBy request ambient)).apply
        (.run (runModel request ambient)) ∧
      Unbound request database ∧ (request.sessionId.isSome →
        (database.sessions.get? (resolvedSessionId request ambient)).isSome) ∧
      ∀ ref other, database.row ref = some other →
        ¬ Conflicts (runModel request ambient) other := by
  rcases reserveRun_ends sound with ⟨run, found, carried, replays⟩ | missing |
    ⟨active, _, busy⟩ | rejected | ⟨unbound, opened, free, inserts⟩
  · rw [replays, replayOf] at ran
    split at ran
    · next same =>
      cases ran
      exact .inl ⟨rfl, rfl, found, carried, same⟩
    · cases ran
  · rw [missing] at ran
    cases ran
  · rw [busy] at ran
    cases ran
  · rw [rejected] at ran
    cases ran
  · rw [inserts] at ran
    cases ran
    exact .inr ⟨rfl, rfl, unbound, opened, free⟩

/-- The call wraps the answer of its transaction. -/
theorem reserveRun_wrapped
    (ends : (LockingCall.reserveRun request).ending ambient database = .committed value after) :
    ∃ answer, value = .reservation answer ∧
      (reserveRun request ambient).run database database = .committed answer after := by
  rw [LockingCall.ending, LockingCall.transaction, Txn.run_bind] at ends
  cases ran : (reserveRun request ambient).run database database with
  | failed | violated =>
    rw [ran] at ends
    cases ends
  | committed answer left =>
    rw [ran] at ends
    obtain ⟨rfl, rfl⟩ := Ending.committed.inj ends
    exact ⟨answer, rfl, rfl⟩

/-- A reservation that fails names its session or its key. -/
theorem reserveRun_fails (sound : database.Sound)
    (ran : (reserveRun request ambient).run database database = .failed error) :
    error = .of .sessionNotFoundError
        [("session_id", .str (resolvedSessionId request ambient))] ∨
      (∃ active, activeRunIn (resolvedSessionId request ambient) database = some active ∧
        error = sessionBusy (resolvedSessionId request ambient) active) ∨
      ∃ run, database.row run.id = some run ∧ run.idempotencyKey = request.idempotencyKey ∧
        run.requestHash ≠ request.requestHash ∧ error = keyConflict run := by
  rcases reserveRun_ends sound with ⟨run, found, carried, replays⟩ | missing |
    ⟨active, found, busy⟩ | rejected | ⟨_, _, _, inserts⟩
  · rw [replays, replayOf] at ran
    split at ran
    · cases ran
    · next different =>
      cases ran
      exact .inr (.inr ⟨run, found, carried, different, rfl⟩)
  · rw [missing] at ran
    cases ran
    exact .inl rfl
  · rw [busy] at ran
    cases ran
    exact .inr (.inl ⟨active, found, rfl⟩)
  · rw [rejected] at ran
    cases ran
  · rw [inserts] at ran
    cases ran

end Endings

section Serial

variable {request : ReserveRunRequest} {ambient : Ambient} {held : Holdings} {epoch : Epoch}

/-- How `reserve_run` may end, before its answer is wrapped. -/
def ReserveOutcome (request : ReserveRunRequest) (ambient : Ambient) (database : Database)
    (ending : Ending RunReservation) : Prop :=
  (LockingCall.reserveRun request).Outcome ambient database
    (ending.andThen fun answer => .committed (.reservation answer))

theorem reserveRun_whole {ending : Ending RunReservation}
    (ran : (reserveRun request ambient).run database database = ending) :
    ReserveOutcome request ambient database ending := by
  have whole : (LockingCall.reserveRun request).ending ambient database =
      ending.andThen fun answer => .committed (.reservation answer) := by
    rw [LockingCall.ending, LockingCall.transaction, Txn.run_bind, ran]
    rfl
  rw [ReserveOutcome, ← whole]
  exact .whole

/-- The transaction has written no more than its new session. -/
structure Opening (request : ReserveRunRequest) (ambient : Ambient) (held : Holdings)
    (pending : List Change) : Prop where
  flushed : pending = openedBy request ambient
  inserted : held.inserted = []
  drawn : (runModel request ambient).id ∈ held.drawnRuns
  implicit : request.sessionId = none → resolvedSessionId request ambient ∈ held.drawnSessions
  named : request.sessionId.isSome → held.drawnSessions = [] ∧
    ∃ record ∈ held.sessions, record.id = resolvedSessionId request ambient

theorem Opening.runs (opening : Opening request ambient held pending) (database : Database) :
    (database.applyAll pending).runs = database.runs := by
  rw [opening.flushed]
  exact openedBy_runs database

theorem Opening.untouched (opening : Opening request ambient held pending) :
    ∀ change ∈ pending, ∀ ref, ¬ change.Touches ref := by
  rw [opening.flushed, openedBy]
  intro change member ref
  split at member
  · rw [List.mem_singleton.mp member]
    exact id
  · cases member

/-- The session of the transaction exists, or nobody else knows it. -/
theorem Opening.owns (opening : Opening request ambient held pending) :
    held.Owns (resolvedSessionId request ambient) := by
  cases named : request.sessionId with
  | none => exact .inl (opening.implicit named)
  | some sessionId => exact .inr (opening.named (by rw [named]; rfl)).2

theorem Opening.found (opening : Opening request ambient held pending)
    (current : held.Current epoch) (named : request.sessionId.isSome) :
    (epoch.now.sessions.get? (resolvedSessionId request ambient)).isSome := by
  obtain ⟨record, member, own⟩ := (opening.named named).2
  rw [← own, current.sessions record member]
  rfl

/-- Without a session of its own the transaction has an empty one. -/
theorem Opening.empty (opening : Opening request ambient held pending)
    (current : held.Current epoch) (implicit : request.sessionId = none)
    (found : epoch.now.row ref = some run) : run.sessionId ≠ resolvedSessionId request ambient := by
  intro same
  have present := current.sound.runSession found
  rw [same, current.drawnSessions _ (opening.implicit implicit)] at present
  contradiction

theorem replayOf_serial {existing : AgentRun} (current : held.Current epoch)
    (shape : pending = [] ∨ request.sessionId = none ∧ pending = openedBy request ambient)
    (keyed : request.idempotencyKey = some key) (member : existing ∈ held.runs)
    (carried : existing.idempotencyKey = some key) :
    (Txn.done (replayOf existing request.requestHash)).Serial (ReserveOutcome request ambient)
      rescued held epoch pending := by
  have ran : ∀ later, held.Keeps epoch later →
      (reserveRun request ambient).run later.now later.now =
        (Txn.done (replayOf existing request.requestHash)).run later.now later.now := by
    intro later keeps
    exact reserveRun_bound ambient keeps.sound keyed (keeps.runs existing member) carried
  cases answer : replayOf existing request.requestHash with
  | error error =>
    rw [answer] at ran
    exact ⟨epoch.now, current.seen, reserveRun_whole (ran epoch current.refl)⟩
  | ok reservation =>
    rw [answer] at ran
    intro later keeps
    left
    have replays := ran later keeps
    rcases shape with rfl | ⟨implicit, rfl⟩
    · exact reserveRun_whole replays
    · have ends : (LockingCall.reserveRun request).ending ambient later.now =
          .committed (.reservation reservation) later.now := by
        rw [LockingCall.ending, LockingCall.transaction, Txn.run_bind, replays]
        rfl
      have stranded : (LockingCall.reserveRun request).Outcome ambient later.now _ :=
        .stranded rfl implicit ends
      rw [openedBy, implicit]
      exact stranded

/-- An active run that appears later in the session of the transaction was active before. -/
theorem Opening.busy (opening : Opening request ambient held pending)
    (current : held.Current epoch) (keeps : held.Keeps epoch later)
    (found : activeRunIn (resolvedSessionId request ambient) later.now = some active) :
    ∃ former, activeRunIn (resolvedSessionId request ambient) epoch.now = some former ∧
      former.id = active.id := by
  obtain ⟨ref, present, same, busy⟩ := activeRunIn_some found
  cases named : request.sessionId with
  | none => exact (opening.empty keeps.toCurrent named present same).elim
  | some sessionId =>
    obtain ⟨record, member, own⟩ := (opening.named (by rw [named]; rfl)).2
    obtain ⟨earlier, before, mine, was⟩ :=
      keeps.unrevived record member ref active present (same.trans own.symm) busy
    cases chosen : activeRunIn (resolvedSessionId request ambient) epoch.now with
    | none => exact (activeRunIn_none chosen before (mine.trans own) was).elim
    | some former =>
      obtain ⟨second, also, alike, active'⟩ := activeRunIn_some chosen
      refine ⟨former, rfl, ?_⟩
      obtain rfl := current.sound.oneActive also before (alike.trans (mine.trans own).symm) active'
        was
      rw [current.sound.runId also, keeps.sound.runId present]

/-- The uniqueness of the session's active run rejects no insert after the active-run check:
only the key can be taken. -/
theorem Opening.rejected (opening : Opening request ambient held pending)
    (current : held.Current epoch)
    (idle : activeRunIn (resolvedSessionId request ambient) epoch.now = none)
    (found : epoch.now.row ref = some other)
    (conflicts : Conflicts (runModel request ambient) other) : KeyTaken request epoch.now := by
  rcases conflicts with same | ⟨keyed, same⟩ | ⟨same, _, busy⟩
  · have absent := current.drawnRuns _ opening.drawn
    rw [same, show other.id = ref from current.sound.runId found, found] at absent
    contradiction
  · obtain ⟨key, own⟩ := Option.isSome_iff_exists.mp keyed
    exact ⟨key, ref, other, own, found, same.symm.trans own⟩
  · exact (activeRunIn_none idle found same.symm busy).elim

/-- Under its session row, after a lookup that did not find the key. -/
theorem reserveIdle_serial (current : held.Current epoch)
    (opening : Opening request ambient held pending) (unbound : Unbound request epoch.now) :
    (reserveIdle request ambient).Serial (ReserveOutcome request ambient)
      (fun later => KeyTaken request later.now) held epoch pending := by
  rw [reserveIdle_eq]
  intro later keeps
  rw [activeRunIn_congr (opening.runs later.now)]
  cases found : activeRunIn (resolvedSessionId request ambient) later.now with
  | some active =>
    obtain ⟨former, before, same⟩ := opening.busy current keeps found
    refine ⟨epoch.now, keeps.earlier _ current.seen, reserveRun_whole ?_⟩
    rw [reserveRun_idle unbound (opening.found current)]
    have ends : sessionBusy (resolvedSessionId request ambient) active =
        sessionBusy (resolvedSessionId request ambient) former := by simp only [sessionBusy, same]
    rw [ends]
    exact reserveIdle_busy ((activeRunIn_congr (openedBy_runs _) _).trans before)
  | none =>
    have own : (runModel request ambient).sessionId = resolvedSessionId request ambient := rfl
    refine ⟨⟨opening.inserted, opening.drawn, opening.owns, fun drawn => ?_⟩,
      fun last again => ⟨fun ⟨ref, other, present, conflicts⟩ => ?_, fun free => ?_⟩⟩
    · cases named : request.sessionId with
      | some sessionId =>
        rw [(opening.named (by rw [named]; rfl)).1] at drawn
        cases drawn
      | none =>
        refine ⟨implicitSession request ambient, ?_, ?_⟩
        · rw [opening.flushed, openedBy, named]
          exact List.mem_singleton_self _
        · simp [own, resolvedSessionId, named, InMemorySessionStore.chosenId, implicitSession]
    · have idle : activeRunIn (resolvedSessionId request ambient) last.now = none := by
        cases busy : activeRunIn (resolvedSessionId request ambient) last.now with
        | none => rfl
        | some active =>
          obtain ⟨former, before, _⟩ := opening.busy keeps.toCurrent again busy
          rw [found] at before
          contradiction
      exact opening.rejected again.toCurrent idle present conflicts
    · intro final once
      left
      have unused := once.inserted (runModel request ambient) List.mem_cons_self
      have unkeyed : Unbound request final.now := by
        intro key keyed
        cases chosen : (RunQuery.byKey key).find final.now with
        | none => rfl
        | some other =>
          obtain ⟨ref, present, carried⟩ := find_byKey chosen
          refine (unused ref other present (.inr (.inl ⟨?_, ?_⟩))).elim
          · exact Option.isSome_iff_exists.mpr ⟨key, keyed⟩
          · exact Eq.trans keyed carried.symm
      have held' := once.toCurrent.mono (held.within_addInsert (runModel request ambient))
      have ran := reserveRun_idle unkeyed (opening.found held')
      rw [reserveIdle_inserts (openedBy_runs final.now) unused, ← opening.flushed] at ran
      have committed := reserveRun_whole ran
      rw [Database.applyAll, List.foldl_append]
      exact committed

private theorem Opening.shape (opening : Opening request ambient held pending) :
    pending = [] ∨ request.sessionId = none ∧ pending = openedBy request ambient := by
  cases named : request.sessionId with
  | none => exact .inr ⟨rfl, opening.flushed⟩
  | some sessionId =>
    refine .inl (opening.flushed.trans ?_)
    rw [openedBy, named]

/-- The second lookup of the key. -/
theorem reserveLocked_serial (current : held.Current epoch)
    (opening : Opening request ambient held pending) :
    (reserveLocked request ambient).Serial (ReserveOutcome request ambient)
      (fun later => KeyTaken request later.now) held epoch pending := by
  cases keyed : request.idempotencyKey with
  | none =>
    rw [reserveLocked_unkeyed keyed]
    refine reserveIdle_serial current opening fun key own => ?_
    rw [keyed] at own
    cases own
  | some key =>
    rw [reserveLocked_keyed keyed]
    refine ⟨opening.untouched, fun later keeps => ⟨fun missing => ?_, fun existing found => ?_⟩⟩
    · refine reserveIdle_serial keeps.toCurrent opening fun other own => ?_
      rw [keyed] at own
      cases own
      exact missing
    · obtain ⟨ref, present, carried⟩ := find_byKey found
      refine replayOf_serial (keeps.toCurrent.addRuns ?_) opening.shape keyed
        (mem_addRuns held existing) carried
      intro run member
      rw [List.mem_singleton.mp member, keeps.sound.runId present]
      exact present

/-- What a reservation draws from its surroundings and nobody else does. -/
def drawnBy (request : ReserveRunRequest) (ambient : Ambient) : Holdings :=
  { Holdings.nothing with
    drawnRuns := [(runModel request ambient).id]
    drawnSessions := match request.sessionId with
      | none => [resolvedSessionId request ambient]
      | some _ => [] }

/-- After a lookup that did not find the key in a state of the past. -/
theorem reserveSession_serial {past : Database} (current : (drawnBy request ambient).Current epoch)
    (seen : epoch.seen past) (unbound : Unbound request past)
    (lasts : ∀ sessionId, (past.sessions.get? sessionId).isSome →
      (epoch.now.sessions.get? sessionId).isSome) :
    (reserveSession request ambient).Serial (ReserveOutcome request ambient)
      (fun later => KeyTaken request later.now) (drawnBy request ambient) epoch [] := by
  cases named : request.sessionId with
  | none =>
    have target : (implicitSession request ambient).id = resolvedSessionId request ambient := by
      simp [resolvedSessionId, named, InMemorySessionStore.chosenId, implicitSession]
    have drawn : resolvedSessionId request ambient ∈ (drawnBy request ambient).drawnSessions := by
      simp [drawnBy, named]
    rw [reserveSession_implicit named]
    refine ⟨.inl (target ▸ drawn), reserveLocked_serial current ⟨?_, rfl, ?_, fun _ => drawn, ?_⟩⟩
    · rw [openedBy, named]
      rfl
    · exact List.mem_singleton_self _
    · simp [named]
  | some sessionId =>
    rw [reserveSession_named named]
    refine ⟨by simp, fun later keeps => ⟨fun absent => ?_, fun record found => ?_⟩⟩
    · refine ⟨past, keeps.earlier _ seen, reserveRun_whole (reserveRun_missing unbound named ?_)⟩
      cases earlier : past.sessions.get? (resolvedSessionId request ambient) with
      | none => rfl
      | some record =>
        have still := keeps.lasting _ (lasts _ (by rw [earlier]; rfl))
        rw [absent] at still
        contradiction
    · have own := keeps.keyed _ record found
      refine reserveLocked_serial (keeps.toCurrent.addSession (own.symm ▸ found))
        ⟨?_, rfl, ?_, ?_, fun _ => ⟨?_, record, List.mem_cons_self, own⟩⟩
      · rw [openedBy, named]
      · exact List.mem_singleton_self _
      · simp [named]
      · simp [drawnBy, Holdings.addSession, named]

theorem reserveRun_serial (current : (drawnBy request ambient).Current epoch) :
    (reserveRun request ambient).Serial (ReserveOutcome request ambient)
      (fun later => KeyTaken request later.now) (drawnBy request ambient) epoch [] := by
  cases keyed : request.idempotencyKey with
  | none =>
    rw [reserveRun_unkeyed keyed]
    refine reserveSession_serial current current.seen (fun key own => ?_) fun _ => id
    rw [keyed] at own
    cases own
  | some key =>
    rw [reserveRun_keyed keyed]
    refine ⟨by simp, fun later keeps => ⟨fun missing => ?_, fun existing found => ?_⟩⟩
    · refine reserveSession_serial keeps.toCurrent keeps.seen (fun other own => ?_) fun _ => id
      rw [keyed] at own
      cases own
      exact missing
    · obtain ⟨ref, present, carried⟩ := find_byKey found
      refine replayOf_serial (keeps.toCurrent.addRuns ?_) (.inl rfl) keyed
        (mem_addRuns _ existing) carried
      intro run member
      rw [List.mem_singleton.mp member, keeps.sound.runId present]
      exact present

/-- A reservation whose insert was rejected finds its key: neither a busy session nor a failed
database is ever reported from there. -/
theorem resolveReservationRace_serial (taken : KeyTaken request epoch.now) :
    (resolveReservationRace request ambient).Serial (ReserveOutcome request ambient)
      (fun _ => False) held epoch [] := by
  obtain ⟨key, ref, run, keyed, found, carried⟩ := taken
  rw [resolveReservationRace_keyed keyed]
  intro later keeps
  obtain ⟨existing, present, same⟩ := keeps.carried ref run found
  have finds := keeps.sound.finds present (same.trans carried)
  have ran := reserveRun_bound ambient keeps.sound keyed present (same.trans carried)
  rw [Database.applyAll, List.foldl_nil, finds]
  change (Txn.done (replayOf existing request.requestHash)).Serial _ _ _ _ _
  cases answer : replayOf existing request.requestHash with
  | ok reservation =>
    rw [answer] at ran
    exact fun last again =>
      .inr ⟨rfl, later.now, again.earlier _ keeps.seen, reserveRun_whole ran⟩
  | error error =>
    rw [answer] at ran
    exact ⟨later.now, keeps.seen, reserveRun_whole ran⟩

/-- A transaction that answers in other words. -/
theorem Txn.Serial.wrapped {transaction : Txn Value} {outcome : Database → Ending Other → Prop}
    (wrap : Value → Other) (serial : transaction.Serial (fun database ending =>
      outcome database (ending.andThen fun answer => .committed (wrap answer))) rescued held epoch
        pending) :
    (transaction >>= fun value => pure (wrap value)).Serial outcome rescued held epoch pending := by
  rw [Txn.bind_def]
  induction transaction generalizing held epoch pending with
  | done result =>
    cases result with
    | ok value => exact serial
    | error error => exact serial
  | lockSession _ _ ih =>
    refine ⟨serial.1, fun later keeps => ?_⟩
    obtain ⟨absent, present⟩ := serial.2 later keeps
    exact ⟨fun missing => ih none (absent missing),
      fun record found => ih (some record) (present record found)⟩
  | lockRun _ _ ih =>
    refine ⟨serial.1, fun later keeps => ?_⟩
    obtain ⟨absent, present⟩ := serial.2 later keeps
    exact ⟨fun missing => ih none (absent missing),
      fun run found => ih (some run) (present run found)⟩
  | lockSkipping _ _ ih =>
    exact ⟨serial.1, fun later keeps runs distinct selected =>
      ih runs (serial.2 later keeps runs distinct selected)⟩
  | readRun _ _ ih => exact fun later keeps => ih _ (serial later keeps)
  | readCount _ _ ih => exact fun later keeps => ih _ (serial later keeps)
  | insertRun _ _ ih =>
    refine ⟨serial.1, fun later keeps => ?_⟩
    obtain ⟨taken, free⟩ := serial.2 later keeps
    exact ⟨taken, fun unused => ih (free unused)⟩
  | write _ _ ih => exact ⟨serial.1, ih serial.2⟩

end Serial

/-- What a call draws from its surroundings and nobody else does. -/
def LockingCall.draws (ambient : Ambient) : LockingCall → Holdings
  | reserveRun request => drawnBy request ambient
  | _ => .nothing

/-- The states in which the insert of a call can have been rejected. -/
def LockingCall.Rejected : LockingCall → Epoch → Prop
  | reserveRun request, epoch => KeyTaken request epoch.now
  | _, _ => False

/-- Each call ends as it may end over one of the committed states, whatever is committed
between its statements. -/
theorem LockingCall.transaction_serial (call : LockingCall) (ambient : Ambient)
    (current : (call.draws ambient).Current epoch) :
    (call.transaction ambient).Serial (call.Outcome ambient) call.Rejected (call.draws ambient)
      epoch [] := by
  cases call with
  | reserveRun request => exact (reserveRun_serial current).wrapped Reply.reservation
  | appendMessage => exact serial_of_steady current ((appendMessage_steady _ _ _ _).map _)
  | clearSession => exact serial_of_steady current ((clearSession_steady _).map fun _ => .unit)
  | markRunRunning => exact serial_of_steady current ((markRunRunning_steady _ _).map _)
  | incrementRunAttempt => exact serial_of_steady current ((incrementRunAttempt_steady _).map _)
  | appendStreamEvent ref type payload => exact appendStreamEvent_serial ref type payload
  | commitRunSuccess => exact serial_of_steady current ((commitRunSuccess_steady _ _).map _)
  | failRun => exact serial_of_steady current ((failRun_steady _ _).map _)
  | cancelRun => exact serial_of_steady current ((cancelRun_steady _ _).map _)
  | interruptWorkerRuns workerInstanceId =>
    exact sweep_serial trivial workerInstanceId true rfl (by simp [Sweeps])
  | reconcileOrphanedRuns workerInstanceId =>
    exact sweep_serial trivial workerInstanceId false rfl (by simp [Sweeps])

theorem LockingCall.recovery_serial {call : LockingCall} (ambient : Ambient)
    (rejected : call.Rejected epoch) :
    ∃ recovered, call.recovery ambient = some recovered ∧
      recovered.Serial (call.Outcome ambient) (fun _ => False) held epoch [] := by
  cases call with
  | reserveRun request =>
    exact ⟨_, rfl, (resolveReservationRace_serial rejected).wrapped Reply.reservation⟩
  | _ => exact rejected.elim

end DayuAgent
