import DayuAgent.Database.Statements
import DayuAgent.Database.Reservation
import DayuAgent.Memory.RunLog

/-! What a transaction of the PostgreSQL store may rely on while it holds run rows, and what
it then commits: for each run one step of its journal. -/

namespace DayuAgent

open Library SQLAlchemyRuntimeStore
open InMemorySessionStore (pendingRun)

/-- The row of the run after a change. -/
def Change.rewritten (ref : String) (row : Option AgentRun) : Change → Option AgentRun
  | .run written => if written.id = ref then some written else row
  | _ => row

/-- The event that a change adds to the log of the run. -/
def Change.published (ref : String) : Change → List StreamEvent
  | .event appended => if appended.runId = ref then [appended] else []
  | _ => []

/-- The committed rows and every event issued so far. -/
structure Chronicle where
  database : Database
  issued : String → List StreamEvent

namespace Database

theorem apply_row (database : Database) (change : Change) (ref : String) :
    (database.apply change).row ref = change.rewritten ref (database.row ref) := by
  cases change with
  | run run =>
    by_cases own : run.id = ref
    · simp [apply, row, Change.rewritten, own]
    · simp [apply, row, Change.rewritten, own, Dict.get?_set, Ne.symm own]
  | session | message | deleteMessages | event => rfl

private theorem apply_eventLog (database : Database) (change : Change) (ref : String) :
    (database.apply change).eventLog ref = database.eventLog ref ++ change.published ref := by
  cases change with
  | event event =>
    by_cases own : event.runId = ref <;>
      simp [apply, eventLog, Change.published, own, List.filter_append]
  | session | message | deleteMessages | run => simp [apply, eventLog, Change.published]

theorem applyAll_row (database : Database) (changes : List Change) (ref : String) :
    (database.applyAll changes).row ref =
      changes.foldl (Change.rewritten ref) (database.row ref) := by
  induction changes generalizing database with
  | nil => rfl
  | cons change rest ih => exact (ih _).trans (by rw [apply_row]; rfl)

theorem applyAll_eventLog (database : Database) (changes : List Change) (ref : String) :
    (database.applyAll changes).eventLog ref =
      database.eventLog ref ++ changes.flatMap (Change.published ref) := by
  induction changes generalizing database with
  | nil => simp [applyAll]
  | cons change rest ih =>
    refine (ih _).trans ?_
    rw [apply_eventLog, List.append_assoc, List.flatMap_cons]

end Database

theorem rewritten_untouched {changes : List Change} (row : Option AgentRun)
    (untouched : ∀ change ∈ changes, ¬ change.Touches ref) :
    changes.foldl (Change.rewritten ref) row = row := by
  induction changes with
  | nil => rfl
  | cons change rest ih =>
    have same : change.rewritten ref row = row := by
      have own := untouched change (by simp)
      cases change with
      | run run => exact if_neg own
      | _ => rfl
    rw [List.foldl_cons, same]
    exact ih fun other member => untouched other (List.mem_cons_of_mem _ member)

theorem published_untouched {changes : List Change}
    (untouched : ∀ change ∈ changes, ¬ change.Touches ref) :
    changes.flatMap (Change.published ref) = [] := by
  apply List.flatMap_eq_nil_iff.mpr
  intro change member
  have own := untouched change member
  cases change with
  | event event => exact if_neg own
  | _ => rfl

namespace Chronicle

variable {late : Prop}

/-- Rows lie under their own identifiers and agree with their journals. -/
structure Sound (late : Prop) (chronicle : Chronicle) : Prop where
  keyed : chronicle.database.row ref = some run → run.id = ref
  closes : ∀ ref, Closes late (chronicle.database.row ref)
    ⟨chronicle.database.eventLog ref, chronicle.issued ref⟩

/-- What others may do while a transaction holds the rows of some runs. -/
structure Spares (late : Prop) (held : List String) (before after : Chronicle) : Prop where
  sound : after.Sound late
  rows : ∀ ref ∈ held, after.database.row ref = before.database.row ref
  issued : ∀ ref ∈ held, after.issued ref = before.issued ref

theorem Spares.refl {chronicle : Chronicle} (sound : chronicle.Sound late) :
    Spares late held chronicle chronicle := ⟨sound, fun _ _ => rfl, fun _ _ => rfl⟩

theorem Spares.trans (first : Spares late held one two) (second : Spares late held two three) :
    Spares late held one three where
  sound := second.sound
  rows ref member := (second.rows ref member).trans (first.rows ref member)
  issued ref member := (second.issued ref member).trans (first.issued ref member)

/-- The flushed changes of a transaction: they touch held runs only, and do to each what a
step of its journal may do. -/
structure Commits (late : Prop) (held : List String) (chronicle : Chronicle)
    (pending : List Change) : Prop where
  within : ∀ change ∈ pending, ∀ ref, change.Touches ref → ref ∈ held
  advances : ∀ ref ∈ held, Extends late (chronicle.issued ref) (chronicle.database.row ref)
    (pending.foldl (Change.rewritten ref) (chronicle.database.row ref))
    (pending.flatMap (Change.published ref))

theorem Commits.nothing (held : List String) (chronicle : Chronicle)
    (untouched : ∀ change ∈ pending, ∀ ref, ¬ change.Touches ref) :
    Commits late held chronicle pending where
  within change member ref touches := (untouched change member ref touches).elim
  advances ref _ := by
    have none := fun change member => untouched change member ref
    rw [rewritten_untouched _ none, published_untouched none]
    exact .idle

theorem Commits.spared (commits : Commits late held before pending)
    (spares : Spares late held before after) : Commits late held after pending where
  within := commits.within
  advances ref member := by
    rw [spares.rows ref member, spares.issued ref member]
    exact commits.advances ref member

/-- Changes of one held run that the transaction has not touched yet. -/
theorem Commits.change (commits : Commits late held chronicle pending) (member : own ∈ held)
    (untouched : ∀ change ∈ pending, ¬ change.Touches own)
    (only : ∀ change ∈ changes, ∀ ref, change.Touches ref → ref = own)
    (advances : Extends late (chronicle.issued own) (chronicle.database.row own)
      (changes.foldl (Change.rewritten own) (chronicle.database.row own))
      (changes.flatMap (Change.published own))) :
    Commits late held chronicle (pending ++ changes) where
  within change flushed ref touches := by
    rcases List.mem_append.mp flushed with old | new
    · exact commits.within change old ref touches
    · exact only change new ref touches ▸ member
  advances ref held := by
    rw [List.foldl_append, List.flatMap_append]
    by_cases same : ref = own
    · subst same
      rw [rewritten_untouched _ untouched, published_untouched untouched]
      exact advances
    · have apart : ∀ change ∈ changes, ¬ change.Touches ref :=
        fun change flushed touches => same (only change flushed ref touches)
      rw [rewritten_untouched _ apart, published_untouched apart, List.append_nil]
      exact commits.advances ref held

end Chronicle

/-- A transaction that holds the rows of some runs commits allowed changes only, whatever
others do between its statements. `allowed` is what its counts may rely on. -/
def Txn.Guarded (late : Prop) (allowed : Chronicle → Prop) :
    List String → Chronicle → List Change → Txn Value → Prop
  | held, chronicle, pending, .done (.ok _) => chronicle.Commits late held pending
  | _, _, _, .done (.error _) => True
  | held, chronicle, pending, .lockSession _ next => ∀ later,
      chronicle.Spares late held later →
        ∀ answer, (next answer).Guarded late allowed held later pending
  | held, chronicle, pending, .lockRun query next => ∀ later,
      chronicle.Spares late held later → (next none).Guarded late allowed held later pending ∧
        ∀ run, query.find (later.database.applyAll pending) = some run →
          (next (some run)).Guarded late allowed (run.id :: held) later pending
  | held, chronicle, pending, .lockSkipping selected next => ∀ later,
      chronicle.Spares late held later → ∀ runs,
        runs.Sublist (later.database.applyAll pending).runs.values →
        (∀ run ∈ runs, selected run = true) →
          (next runs).Guarded late allowed (runs.map (·.id) ++ held) later pending
  | held, chronicle, pending, .readRun _ next => ∀ later,
      chronicle.Spares late held later →
        ∀ answer, (next answer).Guarded late allowed held later pending
  | held, chronicle, pending, .readCount query next => ∀ later,
      chronicle.Spares late held later → allowed later →
        (next (query (later.database.applyAll pending))).Guarded late allowed held later pending
  | held, chronicle, pending, .insertRun run next => ∀ later,
      chronicle.Spares late held later → later.database.row run.id = none →
        next.Guarded late allowed (run.id :: held) later (pending ++ [.run run])
  | held, chronicle, pending, .write change next =>
      (∀ ref, change.Touches ref → ref ∈ held) ∧
        next.Guarded late allowed held chronicle (pending ++ [change])

/-- A new run is active, and no other run and no event is written. -/
def Statement.Modest : Statement → Prop
  | .insertRun run => run.Active
  | .write change => ∀ ref, ¬ change.Touches ref
  | _ => True

namespace Txn

open Chronicle

variable {late : Prop} {allowed : Chronicle → Prop} {Value Other : Type}

/-- What others do to rows that are not held does not matter. -/
theorem Guarded.spared {transaction : Txn Value}
    (guarded : transaction.Guarded late allowed held before pending)
    (spares : before.Spares late held after) :
    transaction.Guarded late allowed held after pending := by
  induction transaction generalizing pending with
  | done result =>
    cases result with
    | ok value => exact Commits.spared guarded spares
    | error error => exact trivial
  | lockSession _ _ _ => exact fun later next => guarded later (spares.trans next)
  | lockRun _ _ _ => exact fun later next => guarded later (spares.trans next)
  | lockSkipping _ _ _ => exact fun later next => guarded later (spares.trans next)
  | readRun _ _ _ => exact fun later next => guarded later (spares.trans next)
  | readCount _ _ _ => exact fun later next => guarded later (spares.trans next)
  | insertRun _ _ _ => exact fun later next => guarded later (spares.trans next)
  | write _ _ ih => exact ⟨guarded.1, ih guarded.2⟩

/-- Wrapping the value of a transaction. -/
theorem Guarded.map {transaction : Txn Value} (wrap : Value → Other)
    (guarded : transaction.Guarded late allowed held chronicle pending) :
    (transaction >>= fun value => pure (wrap value)).Guarded late allowed held chronicle
      pending := by
  rw [bind_def]
  induction transaction generalizing held chronicle pending with
  | done result =>
    cases result with
    | ok value => exact guarded
    | error error => exact trivial
  | lockSession _ _ ih => exact fun later spares answer => ih answer (guarded later spares answer)
  | lockRun _ _ ih =>
    exact fun later spares => ⟨ih none (guarded later spares).1,
      fun run found => ih (some run) ((guarded later spares).2 run found)⟩
  | lockSkipping _ _ ih =>
    exact fun later spares runs part only => ih runs (guarded later spares runs part only)
  | readRun _ _ ih => exact fun later spares answer => ih answer (guarded later spares answer)
  | readCount _ _ ih => exact fun later spares may => ih _ (guarded later spares may)
  | insertRun _ _ ih => exact fun later spares fresh => ih (guarded later spares fresh)
  | write _ _ ih => exact ⟨guarded.1, ih guarded.2⟩

theorem Only.guarded {transaction : Txn Value} (modest : transaction.Only Statement.Modest)
    (last : transaction.InsertsLast) (untouched : ∀ change ∈ pending, ∀ ref, ¬ change.Touches ref) :
    transaction.Guarded late allowed held chronicle pending := by
  induction transaction generalizing held chronicle pending with
  | done result =>
    cases result with
    | ok value => exact .nothing held chronicle untouched
    | error error => exact trivial
  | lockSession _ _ ih | readRun _ _ ih =>
    exact fun later _ answer => ih answer (modest.2 answer) (last answer) untouched
  | lockRun _ _ ih =>
    exact fun later _ => ⟨ih none (modest.2 none) (last none) untouched,
      fun run _ => ih (some run) (modest.2 (some run)) (last (some run)) untouched⟩
  | lockSkipping _ _ ih =>
    exact fun later _ runs _ _ => ih runs (modest.2 runs) (last runs) untouched
  | readCount _ _ ih => exact fun later _ _ => ih _ (modest.2 _) (last _) untouched
  | insertRun run _ _ =>
    obtain ⟨result, rfl⟩ := last
    intro later _ fresh
    cases result with
    | error error => exact trivial
    | ok value =>
      refine (Commits.nothing _ later untouched).change List.mem_cons_self
        (fun change member => untouched change member run.id) ?_ ?_
      · intro change member ref touches
        rw [List.mem_singleton.mp member] at touches
        exact touches.symm
      · rw [fresh]
        simpa [Change.rewritten, Change.published] using Extends.opened modest.1
  | write change _ ih =>
    refine ⟨fun ref touches => (modest.1 ref touches).elim,
      ih modest.2 last fun other member ref => ?_⟩
    rcases List.mem_append.mp member with old | new
    · exact untouched other old ref
    · rw [List.mem_singleton.mp new]
      exact modest.1 ref

end Txn

section Transactions

open Chronicle

variable {late : Prop} {allowed : Chronicle → Prop} {Value : Type} {chronicle : Chronicle}
  {held : List String} {pending : List Change}

theorem lockedRun_guarded {rest : AgentRun → Txn Value}
    (following : ∀ later run, later.Sound late → later.database.row run.id = some run →
      run.id = ref → (rest run).Guarded late allowed [run.id] later []) :
    (lockedRun ref >>= rest).Guarded late allowed [] chronicle [] := by
  refine fun later spares => ⟨trivial, fun run found => ?_⟩
  have present : later.database.row ref = some run := found
  have own := spares.sound.keyed present
  exact following later run spares.sound (own ▸ present) own

theorem Chronicle.Sound.numbered (sound : chronicle.Sound late)
    (stored : ∀ event, (chronicle.issued ref).getLast? = some event →
      event ∈ chronicle.database.eventLog ref) :
    maxSequence ((chronicle.database.eventLog ref).map (·.sequence)) =
      (chronicle.issued ref).length := (sound.closes ref).sound.maximum stored

theorem Chronicle.Sound.stored (sound : chronicle.Sound late)
    (found : chronicle.database.row ref = some run) (active : run.Active) :
    ∀ event, (chronicle.issued ref).getLast? = some event →
      event ∈ chronicle.database.eventLog ref := by
  intro event last
  have complete : chronicle.database.eventLog ref = chronicle.issued ref :=
    (sound.closes ref).complete found active
  rw [complete]
  exact List.mem_of_getLast? last

/-- The event that `appendEvent` flushes once it has read a maximum. -/
def numberedEvent (run : AgentRun) (last : Nat) (type : StreamEventType) (payload : JsonObject)
    (id : String) (now : Time) : StreamEvent :=
  { id, runId := run.id, sequence := last + 1, type, createdAt := now, payload }

theorem validated_allowed (passed : validateRunTransition current target = .ok ()) :
    target ∈ allowedRunTransitions current := by
  by_contra denied
  simp [validateRunTransition, denied] at passed

/-- Publishing for one held and active run that the transaction has not touched before. -/
theorem publishRun_guarded {rest : AgentRun → Txn Value} {updated : AgentRun}
    (commits : chronicle.Commits late held pending)
    (member : updated.id ∈ held) (untouched : ∀ change ∈ pending, ¬ change.Touches updated.id)
    (found : chronicle.database.row updated.id = some run) (active : run.Active)
    (agrees : (updated.Active ∧ type ∉ terminalEventTypes) ∨
      (updated.Terminal ∧ type ∈ terminalEventTypes))
    (following : ∀ later last, chronicle.Spares late held later →
      later.Commits late held (pending ++ [.run updated] ++
        [.event (numberedEvent updated last type payload eventId now)]) →
      (rest updated).Guarded late allowed held later (pending ++ [.run updated] ++
        [.event (numberedEvent updated last type payload eventId now)])) :
    (publishRun updated type payload eventId now >>= rest).Guarded late allowed held chronicle
      pending := by
  have own : ∀ ref, (Change.run updated).Touches ref → ref ∈ held :=
    fun ref touches => (show updated.id = ref from touches) ▸ member
  refine ⟨own, fun later spares _ => ⟨own, following later _ spares ?_⟩⟩
  have present := (spares.rows updated.id member).trans found
  have counted : maxSequence ((((later.database.applyAll (pending ++ [.run updated])).events).filter
      fun event => event.runId = updated.id).map (·.sequence)) =
        (later.issued updated.id).length := by
    have same := later.database.applyAll_eventLog (pending ++ [.run updated]) updated.id
    rw [List.flatMap_append, published_untouched untouched] at same
    have written : ([Change.run updated].flatMap (Change.published updated.id)) = [] := rfl
    rw [written, List.append_nil, List.append_nil] at same
    rw [Database.eventLog] at same
    rw [same]
    exact spares.sound.numbered (spares.sound.stored present active)
  rw [List.append_assoc]
  refine (commits.spared spares).change member untouched ?_ ?_
  · intro change flushed ref touches
    simp only [List.cons_append, List.nil_append, List.mem_cons, List.not_mem_nil,
      or_false] at flushed
    rcases flushed with rfl | rfl <;> exact touches.symm
  · rw [present]
    simp only [List.cons_append, List.nil_append, List.foldl_cons, List.foldl_nil,
      List.flatMap_cons, List.flatMap_nil, List.append_nil, Change.rewritten, Change.published,
      numberedEvent, ↓reduceIte]
    refine .published active (congrArg (· + 1) counted) ?_
    rcases agrees with ⟨stays, middle⟩ | ⟨ends, last⟩
    · exact .inl ⟨stays, not_ends_of_type rfl middle⟩
    · exact .inr ⟨ends, ends_of_type rfl last⟩

/-- A transaction that publishes for the one run it holds, as its only change of a run. -/
theorem publishRun_last {run updated : AgentRun} (same : updated.id = run.id)
    (untouched : ∀ change ∈ pending, ∀ ref, ¬ change.Touches ref)
    (found : chronicle.database.row run.id = some run) (active : run.Active)
    (agrees : (updated.Active ∧ type ∉ terminalEventTypes) ∨
      (updated.Terminal ∧ type ∈ terminalEventTypes)) :
    (publishRun updated type payload eventId now).Guarded late allowed [run.id] chronicle
      pending := by
  rw [← same] at found ⊢
  have published : (publishRun updated type payload eventId now >>= pure).Guarded late allowed
      [updated.id] chronicle pending :=
    publishRun_guarded (.nothing _ _ untouched) (List.mem_singleton_self _)
      (fun change member => untouched change member updated.id) found active agrees
      fun later last _ commits => commits
  exact published

theorem markRunRunning_guarded (ref workerInstanceId : String) (ambient : Ambient) :
    (markRunRunning ref workerInstanceId ambient).Guarded late allowed [] chronicle [] := by
  refine lockedRun_guarded fun later run _ found _ => ?_
  refine Txn.lift_bind (fun _ => trivial) fun passed => ?_
  have active := allowed_from_active (validated_allowed passed)
  refine publishRun_last rfl (by simp) found active (.inl ⟨?_, by decide⟩)
  simp [AgentRun.Active, activeRunStatuses]

theorem incrementRunAttempt_guarded (ref : String) :
    (incrementRunAttempt ref).Guarded late allowed [] chronicle [] := by
  refine lockedRun_guarded fun later run _ found _ => ?_
  have attempted (active : run.Active) : later.Commits late [run.id]
      [.run { run with attemptCount := run.attemptCount + 1 }] := by
    have blank : later.Commits late [run.id] [] := .nothing _ _ (by simp)
    refine blank.change (List.mem_singleton_self run.id) (by simp) ?_ ?_
    · intro change member other touches
      rw [List.mem_singleton.mp member] at touches
      exact touches.symm
    · rw [found]
      simp only [List.foldl_cons, List.foldl_nil, List.flatMap_cons, List.flatMap_nil,
        List.append_nil, Change.rewritten, Change.published, ↓reduceIte]
      exact .kept active active
  have own : ∀ ref, (Change.run { run with attemptCount := run.attemptCount + 1 }).Touches ref →
      ref ∈ [run.id] := fun _ touches => List.mem_singleton.mpr touches.symm
  split
  · exact Txn.lift_bind (fun _ => trivial) fun passed =>
      ⟨own, attempted (allowed_from_active (validated_allowed passed))⟩
  · next running =>
    refine ⟨own, attempted ?_⟩
    simp [AgentRun.Active, not_not.mp running, activeRunStatuses]

theorem failRun_guarded (ref errorCode : String) (ambient : Ambient) :
    (failRun ref errorCode ambient).Guarded late allowed [] chronicle [] := by
  refine lockedRun_guarded fun later run _ found _ => ?_
  by_cases terminal : run.Terminal
  · rw [if_pos terminal]
    exact .nothing _ _ (by simp)
  · rw [if_neg terminal]
    refine Txn.lift_bind (fun _ => trivial) fun passed => ?_
    have active := allowed_from_active (validated_allowed passed)
    refine publishRun_last rfl (by simp) found active (.inr ⟨?_, by decide⟩)
    simp [AgentRun.Terminal, terminalRunStatuses]

theorem cancelRun_guarded (ref workerInstanceId : String) (ambient : Ambient) :
    (cancelRun ref workerInstanceId ambient).Guarded late allowed [] chronicle [] := by
  refine lockedRun_guarded fun later run _ found _ => ?_
  split
  · exact .nothing _ _ (by simp)
  · split
    · exact .nothing _ _ (by simp)
    · split
      · exact trivial
      · refine Txn.lift_bind (fun _ => trivial) fun passed => ?_
        have active := allowed_from_active (validated_allowed passed)
        apply Txn.Guarded.map
        refine publishRun_last rfl (by simp) found active (.inr ⟨?_, by decide⟩)
        simp [AgentRun.Terminal, terminalRunStatuses]

/-- A delta may be numbered: its run is active unless deltas are late, and the event issued
last is still stored. -/
def Timely (late : Prop) (ref : String) (chronicle : Chronicle) : Prop :=
  (late ∨ ∀ run, chronicle.database.row ref = some run → run.Active) ∧
    ∀ event, (chronicle.issued ref).getLast? = some event →
      event ∈ chronicle.database.eventLog ref

theorem appendStreamEvent_guarded (ref : String) (payload : JsonObject) (ambient : Ambient)
    (timely : ∀ chronicle, allowed chronicle → Timely late ref chronicle) :
    (appendStreamEvent ref .responseDelta payload ambient).Guarded late allowed [] chronicle
      [] := by
  refine lockedRun_guarded fun later run _ found own => ?_
  intro last spares permitted
  subst own
  obtain ⟨admitted, stored⟩ := timely last permitted
  have present := (spares.rows run.id (List.mem_singleton_self _)).trans found
  have counted : maxSequence (((last.database.applyAll []).eventLog run.id).map (·.sequence)) =
      (last.issued run.id).length := spares.sound.numbered stored
  have blank : last.Commits late [run.id] [] := .nothing _ _ (by simp)
  refine ⟨fun _ touches => List.mem_singleton.mpr touches.symm, ?_⟩
  refine blank.change (List.mem_singleton_self run.id) (by simp) ?_ ?_
  · intro change member other touches
    rw [List.mem_singleton.mp member] at touches
    exact touches.symm
  · have quiet : ∀ event : StreamEvent, event.type = .responseDelta → ¬ event.Ends :=
      fun event delta => not_ends_of_type delta (by decide)
    rw [present]
    simp only [List.foldl_cons, List.foldl_nil, List.flatMap_cons, List.flatMap_nil,
      List.append_nil, Change.rewritten, Change.published, ↓reduceIte]
    rcases admitted with behind | active
    · exact .late behind (congrArg (· + 1) counted) (quiet _ rfl)
    · have active := active run present
      exact .published active (congrArg (· + 1) counted) (.inl ⟨active, quiet _ rfl⟩)

theorem commitRunSuccess_guarded (ref : String) (request : CommitRunRequest) (ambient : Ambient) :
    (commitRunSuccess ref request ambient).Guarded late allowed [] chronicle [] := by
  refine lockedRun_guarded fun later run _ found _ => ?_
  refine Txn.lift_bind (fun _ => trivial) fun passed => ?_
  have active := allowed_from_active (validated_allowed passed)
  intro middle spares answer
  cases answer with
  | none => exact trivial
  | some record =>
    intro last sparesAgain _
    have present : last.database.row run.id = some run := by
      rw [sparesAgain.rows _ (List.mem_singleton_self _), spares.rows _ (List.mem_singleton_self _)]
      exact found
    have quiet : ∀ change : Change, (∀ ref, ¬ change.Touches ref) → ∀ ref, change.Touches ref →
        ref ∈ [run.id] := fun _ none ref touches => (none ref touches).elim
    refine ⟨quiet _ fun _ => id, quiet _ fun _ => id, quiet _ fun _ => id, ?_⟩
    refine publishRun_last rfl ?_ present active (.inr ⟨?_, by decide⟩)
    · simp [Change.Touches]
    · simp [AgentRun.Terminal, terminalRunStatuses]

/-- The loop over locked rows: the runs still to come are active and untouched. -/
theorem interruptEach_guarded (ambient : Ambient) (index : Nat) (runs : List AgentRun)
    (commits : chronicle.Commits late held pending) (distinct : (runs.map (·.id)).Nodup)
    (coming : ∀ run ∈ runs, run.id ∈ held ∧ run.Active ∧
      chronicle.database.row run.id = some run ∧ ∀ change ∈ pending, ¬ change.Touches run.id) :
    (interruptEach ambient index runs).Guarded late allowed held chronicle pending := by
  induction runs generalizing chronicle pending index with
  | nil => exact commits
  | cons run rest ih =>
    obtain ⟨absent, distinctRest⟩ := List.nodup_cons.mp distinct
    obtain ⟨member, active, found, untouched⟩ := coming run List.mem_cons_self
    refine Txn.lift_bind (fun _ => trivial) fun _ => ?_
    refine publishRun_guarded commits member untouched found active (.inr ⟨?_, by decide⟩) ?_
    · simp [AgentRun.Terminal, terminalRunStatuses]
    · intro later last spares committed
      refine ih (index + 1) committed distinctRest fun other listed => ?_
      obtain ⟨also, otherActive, present, apart⟩ := coming other (List.mem_cons_of_mem _ listed)
      refine ⟨also, otherActive, (spares.rows _ also).trans present, ?_⟩
      have different : run.id ≠ other.id := by
        intro same
        exact absent (List.mem_map.mpr ⟨other, listed, same.symm⟩)
      intro change flushed
      simp only [List.append_assoc, List.cons_append, List.nil_append, List.mem_append,
        List.mem_cons, List.not_mem_nil, or_false] at flushed
      rcases flushed with old | rfl | rfl
      · exact apart change old
      · exact different
      · exact different

private theorem interruptMatching_guarded (workerInstanceId : String) (sameWorker : Bool)
    (ambient : Ambient) : (interruptMatching workerInstanceId sameWorker ambient).Guarded late
      allowed [] chronicle [] := by
  intro later spares runs part selected
  refine (interruptEach_guarded ambient 0 runs (.nothing _ _ (by simp)) ?_ ?_).map _
  · exact (later.database.runs.nodup_values spares.sound.keyed).sublist (part.map _)
  · intro run member
    obtain ⟨ref, found⟩ := (later.database.runs.mem_values_iff run).mp (part.subset member)
    have own := spares.sound.keyed found
    have chosen := selected run member
    simp only [Bool.decide_and, Bool.and_eq_true, decide_eq_true_eq] at chosen
    refine ⟨?_, chosen.1, own ▸ found, by simp⟩
    exact List.mem_append_left _ (List.mem_map_of_mem member)

end Transactions

/-- The call publishes nothing by hand but deltas. -/
def LockingCall.Publishes : LockingCall → Prop
  | appendStreamEvent _ type _ => type = .responseDelta
  | _ => True

/-- What the counts of a call may rely on: an append numbers its delta in time. -/
def LockingCall.Timely (late : Prop) (chronicle : Chronicle) : LockingCall → Prop
  | appendStreamEvent ref _ _ => DayuAgent.Timely late ref chronicle
  | _ => True

/-- A call that writes no run and no event but a run it inserts. -/
theorem LockingCall.transaction_modest {call : LockingCall} (ambient : Ambient)
    (quiet : ¬ call.Progresses) : (call.transaction ambient).Only Statement.Modest := by
  refine (call.transaction_made ambient).mono fun statement made => ?_
  cases statement with
  | insertRun => exact made.2
  | write => exact made.2.resolve_left quiet
  | _ => exact trivial

theorem LockingCall.transaction_guarded {late : Prop} {call : LockingCall}
    (publishes : call.Publishes) (ambient : Ambient) (chronicle : Chronicle) :
    (call.transaction ambient).Guarded late (fun later => call.Timely late later) [] chronicle
      [] := by
  cases call with
  | reserveRun | appendMessage | clearSession =>
    exact (LockingCall.transaction_modest ambient id).guarded
      (LockingCall.transaction_insertsLast _ ambient) (by simp)
  | markRunRunning => exact (markRunRunning_guarded _ _ ambient).map _
  | incrementRunAttempt => exact (incrementRunAttempt_guarded _).map _
  | appendStreamEvent ref type payload =>
    cases publishes
    exact (appendStreamEvent_guarded ref payload ambient fun _ timely => timely).map _
  | commitRunSuccess => exact (commitRunSuccess_guarded _ _ ambient).map _
  | failRun => exact (failRun_guarded _ _ ambient).map _
  | cancelRun => exact (cancelRun_guarded _ _ ambient).map _
  | interruptWorkerRuns => exact (interruptMatching_guarded _ _ ambient).map _
  | reconcileOrphanedRuns => exact (interruptMatching_guarded _ _ ambient).map _

theorem LockingCall.recovery_guarded {late : Prop} {allowed : Chronicle → Prop}
    {call : LockingCall} {transaction : Txn Reply}
    (recovers : call.recovery ambient = some transaction) (chronicle : Chronicle) :
    transaction.Guarded late allowed [] chronicle [] :=
  (recovery_only recovers fun _ => trivial).guarded (recovery_insertsLast recovers) (by simp)

end DayuAgent
