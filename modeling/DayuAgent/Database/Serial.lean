import DayuAgent.Database.Holdings
import DayuAgent.Database.Postconditions

namespace DayuAgent

open Library SQLAlchemyRuntimeStore
open InMemorySessionStore (implicitSession)

/-- Whatever others do between its statements, the transaction ends as it may end over one
of the committed states: over the last one if it has written anything. `rescued` is where a
uniqueness violation leaves it. -/
def Txn.Serial {Value : Type} (outcome : Database → Ending Value → Prop)
    (rescued : Epoch → Prop) : Holdings → Epoch → List Change → Txn Value → Prop
  | held, epoch, pending, .done (.ok value) => ∀ later, held.Keeps epoch later →
      outcome later.now (.committed value (later.now.applyAll pending)) ∨
        pending = [] ∧ ∃ past, later.seen past ∧ outcome past (.committed value past)
  | _, epoch, _, .done (.error error) => ∃ past, epoch.seen past ∧ outcome past (.failed error)
  | held, epoch, pending, .lockSession ref next =>
      (∀ change ∈ pending, ¬ change.Concerns ref) ∧ ∀ later, held.Keeps epoch later →
        (later.now.sessions.get? ref = none →
          (next none).Serial outcome rescued held later pending) ∧
        ∀ record, later.now.sessions.get? ref = some record →
          (next (some record)).Serial outcome rescued (held.addSession record) later pending
  | held, epoch, pending, .lockRun query next =>
      (∀ change ∈ pending, ∀ ref, ¬ change.Touches ref) ∧ ∀ later, held.Keeps epoch later →
        (query.find later.now = none → (next none).Serial outcome rescued held later pending) ∧
        ∀ run, query.find later.now = some run →
          (next (some run)).Serial outcome rescued (held.addRuns [run]) later pending
  | held, epoch, pending, .lockSkipping selected next => pending = [] ∧
      ∀ later, held.Keeps epoch later → ∀ runs : List AgentRun,
        (runs.map fun run => run.id).Nodup →
        (∀ run ∈ runs, later.now.row run.id = some run ∧ selected run = true) →
          (next runs).Serial outcome rescued (held.addRuns runs) later pending
  | held, epoch, pending, .readRun query next => ∀ later, held.Keeps epoch later →
      (next (query (later.now.applyAll pending))).Serial outcome rescued held later pending
  | held, epoch, pending, .readCount query next => ∀ later, held.Keeps epoch later →
      (next (query (later.now.applyAll pending))).Serial outcome rescued held later pending
  | held, epoch, pending, .insertRun run next =>
      (held.inserted = [] ∧ run.id ∈ held.drawnRuns ∧ held.Owns run.sessionId ∧
        (run.sessionId ∈ held.drawnSessions →
          ∃ record, .session record ∈ pending ∧ record.id = run.sessionId)) ∧
      ∀ later, held.Keeps epoch later →
        ((∃ ref other, later.now.row ref = some other ∧ Conflicts run other) → rescued later) ∧
        ((∀ ref other, later.now.row ref = some other → ¬ Conflicts run other) →
          next.Serial outcome rescued (held.addInsert run) later (pending ++ [.run run]))
  | held, epoch, pending, .write change next => change.Held held ∧
      next.Serial outcome rescued held epoch (pending ++ [change])

namespace Txn

variable {Value Other : Type} {outcome : Database → Ending Value → Prop} {rescued : Epoch → Prop}
  {held : Holdings} {epoch before after : Epoch}

theorem Serial.kept {transaction : Txn Value}
    (serial : transaction.Serial outcome rescued held before pending)
    (keeps : held.Keeps before after) :
    transaction.Serial outcome rescued held after pending := by
  induction transaction generalizing pending with
  | done result =>
    cases result with
    | ok value => exact fun later next => serial later (keeps.trans next)
    | error error =>
      obtain ⟨past, seen, ends⟩ := serial
      exact ⟨past, keeps.earlier past seen, ends⟩
  | lockSession _ _ _ => exact ⟨serial.1, fun later next => serial.2 later (keeps.trans next)⟩
  | lockRun _ _ _ => exact ⟨serial.1, fun later next => serial.2 later (keeps.trans next)⟩
  | lockSkipping _ _ _ => exact ⟨serial.1, fun later next => serial.2 later (keeps.trans next)⟩
  | readRun _ _ _ => exact fun later next => serial later (keeps.trans next)
  | readCount _ _ _ => exact fun later next => serial later (keeps.trans next)
  | insertRun _ _ _ => exact ⟨serial.1, fun later next => serial.2 later (keeps.trans next)⟩
  | write _ _ ih => exact ⟨serial.1, ih serial.2⟩

def Raises (transaction : Txn Value) : Prop := ∃ error, transaction = .done (.error error)

/-- Whatever the transaction has read and goes on with is protected by the rows it holds; on
every other answer it raises. -/
def Steady : Holdings → List Change → Txn Value → Prop
  | _, _, .done _ => True
  | held, pending, .lockSession ref next => pending = [] ∧ (next none).Raises ∧
      ∀ record, record.id = ref → (next (some record)).Steady (held.addSession record) []
  | held, pending, .lockRun (.byId ref) next => pending = [] ∧ (next none).Raises ∧
      ∀ run, run.id = ref → (next (some run)).Steady (held.addRuns [run]) []
  | _, _, .lockRun (.byKey _) _ => False
  | _, _, .lockSkipping _ _ => False
  | held, pending, .readRun query next => (∀ run, (next (some run)).Raises) ∧
      (∀ before after, held.Current before → held.Keeps before after →
        query (before.now.applyAll pending) = none → query (after.now.applyAll pending) = none) ∧
      (next none).Steady held pending
  | held, pending, .readCount query next =>
      (∀ before after, held.Current before → held.Keeps before after →
        query (after.now.applyAll pending) = query (before.now.applyAll pending)) ∧
      ∀ count, (next count).Steady held pending
  | _, _, .insertRun _ _ => False
  | held, pending, .write change next => change.Held held ∧ next.Steady held (pending ++ [change])

private theorem Raises.serial {transaction : Txn Value} (raises : transaction.Raises)
    (current : held.Current epoch)
    (replays : outcome epoch.now (transaction.run epoch.now view)) :
    transaction.Serial outcome rescued held epoch pending := by
  obtain ⟨error, rfl⟩ := raises
  exact ⟨epoch.now, current.seen, replays⟩

/-- A steady transaction goes on as it would have gone over any later state. -/
theorem Steady.serial {transaction : Txn Value} (steady : transaction.Steady held pending)
    (current : held.Current epoch)
    (replays : ∀ later, held.Keeps epoch later →
      outcome later.now (transaction.run later.now (later.now.applyAll pending))) :
    transaction.Serial outcome rescued held epoch pending := by
  induction transaction generalizing held epoch pending with
  | done result =>
    cases result with
    | ok value => exact fun later keeps => .inl (replays later keeps)
    | error error => exact ⟨epoch.now, current.seen, replays epoch current.refl⟩
  | lockSession ref next ih =>
    obtain ⟨rfl, raises, steady⟩ := steady
    refine ⟨by simp, fun later keeps => ⟨fun absent => ?_, fun record found => ?_⟩⟩
    · have replayed := replays later keeps
      simp only [Database.applyAll, List.foldl_nil, run, absent] at replayed
      exact raises.serial keeps.toCurrent replayed
    · have own := keeps.keyed ref record found
      refine ih (some record) (steady record own)
        (keeps.toCurrent.addSession (own.symm ▸ found)) fun last again => ?_
      have replayed := replays last (keeps.trans (again.mono (held.within_addSession record)))
      have still := again.sessions record List.mem_cons_self
      rw [own] at still
      simp only [Database.applyAll, List.foldl_nil, run, still] at replayed
      exact replayed
  | lockRun query next ih =>
    cases query with
    | byKey key => exact steady.elim
    | byId ref =>
      obtain ⟨rfl, raises, steady⟩ := steady
      refine ⟨by simp, fun later keeps => ⟨fun absent => ?_, fun row found => ?_⟩⟩
      · have replayed := replays later keeps
        simp only [Database.applyAll, List.foldl_nil, run, absent] at replayed
        exact raises.serial keeps.toCurrent replayed
      · have own : row.id = ref := keeps.sound.runId found
        refine ih (some row) (steady row own) (keeps.toCurrent.addRuns ?_) fun last again => ?_
        · intro one member
          rw [List.mem_singleton.mp member, own]
          exact found
        · have replayed := replays last (keeps.trans (again.mono (held.within_addRuns [row])))
          have still := again.runs row List.mem_cons_self
          rw [own] at still
          have finds : (RunQuery.byId ref).find last.now = some row := still
          simp only [Database.applyAll, List.foldl_nil, run, finds] at replayed
          exact replayed
  | lockSkipping => exact steady.elim
  | readRun query next ih =>
    obtain ⟨raises, stays, steady⟩ := steady
    intro later keeps
    have replayed := replays later keeps
    cases answer : query (later.now.applyAll pending) with
    | some row =>
      simp only [run, answer] at replayed
      exact (raises row).serial keeps.toCurrent replayed
    | none =>
      refine ih none steady keeps.toCurrent fun last again => ?_
      have replayed := replays last (keeps.trans again)
      simp only [run, stays later last keeps.toCurrent again answer] at replayed
      exact replayed
  | readCount query next ih =>
    intro later keeps
    refine ih _ (steady.2 _) keeps.toCurrent fun last again => ?_
    have replayed := replays last (keeps.trans again)
    simp only [run, steady.1 later last keeps.toCurrent again] at replayed
    exact replayed
  | insertRun => exact steady.elim
  | write change next ih =>
    refine ⟨steady.1, ih steady.2 current fun later keeps => ?_⟩
    have replayed := replays later keeps
    simpa only [Database.applyAll, List.foldl_append, List.foldl_cons, List.foldl_nil, run]
      using replayed

theorem Steady.map {transaction : Txn Value} (wrap : Value → Other)
    (steady : transaction.Steady held pending) :
    (transaction >>= fun value => pure (wrap value)).Steady held pending := by
  have raised : ∀ {rest : Txn Value}, rest.Raises →
      (rest.bind fun value => pure (wrap value)).Raises := by
    rintro rest ⟨error, rfl⟩
    exact ⟨error, rfl⟩
  rw [bind_def]
  induction transaction generalizing held pending with
  | done result => cases result <;> exact trivial
  | lockSession _ _ ih =>
    exact ⟨steady.1, raised steady.2.1,
      fun record own => ih (some record) (steady.2.2 record own)⟩
  | lockRun query _ ih =>
    cases query with
    | byKey key => exact steady.elim
    | byId ref =>
      exact ⟨steady.1, raised steady.2.1, fun run own => ih (some run) (steady.2.2 run own)⟩
  | lockSkipping => exact steady.elim
  | readRun _ _ ih =>
    exact ⟨fun run => raised (steady.1 run), steady.2.1, ih none steady.2.2⟩
  | readCount _ _ ih => exact ⟨steady.1, fun count => ih count (steady.2 count)⟩
  | insertRun => exact steady.elim
  | write _ _ ih => exact ⟨steady.1, ih steady.2⟩

end Txn

end DayuAgent
