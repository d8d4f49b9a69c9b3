import DayuAgent.Database.Guarded

namespace DayuAgent

open Library SQLAlchemyRuntimeStore Chronicle

/-- A statement of a call that takes locks, or a transaction of one statement: the new row
of `create_session` and the `DELETE` of `prune_stream_events`, which removes what its snapshot
saw. Reads change nothing. -/
inductive ServiceAction where
  | statement (process : Nat)
  | createSession (record : SessionRecord)
  | prune (before : Time) (removed : StreamEvent → Bool)

/-- The next state of the service under one action; a waiting statement has none. -/
def Cluster.serve (cluster : Cluster Reply) : ServiceAction → Option (Cluster Reply)
  | .statement process => cluster.next process
  | .createSession record =>
    if (cluster.database.sessions.get? record.id).isSome then none
    else some { cluster with database := cluster.database.apply (.session record) }
  | .prune before removed =>
    if ∀ event ∈ cluster.database.events, removed event = true →
      cluster.database.Expired before event
    then some { cluster with database := cluster.database.without removed }
    else none

def Serves (before : Cluster Reply) (action : ServiceAction) (after : Cluster Reply) : Prop :=
  before.serve action = some after

theorem serve_createSession {cluster after : Cluster Reply}
    (taken : cluster.serve (.createSession record) = some after) :
    after = { cluster with database := cluster.database.apply (.session record) } := by
  simp only [Cluster.serve] at taken
  split at taken
  · contradiction
  · exact (Option.some.inj taken).symm

theorem serve_prune {cluster after : Cluster Reply}
    (taken : cluster.serve (.prune before removed) = some after) :
    (∀ event ∈ cluster.database.events, removed event = true →
      cluster.database.Expired before event) ∧
      after = { cluster with database := cluster.database.without removed } := by
  simp only [Cluster.serve] at taken
  split at taken
  · next expired => exact ⟨expired, (Option.some.inj taken).symm⟩
  · contradiction

/-- The calls of a service, each with what it draws from its surroundings. -/
abbrev Workload := Nat → LockingCall × Ambient

/-- Every call at its start, over an empty database. -/
def Workload.start (calls : Workload) : Cluster Reply :=
  .start .empty fun process => (calls process).1.process (calls process).2

/-- The next statement counts rows, which is how an append numbers its event. -/
def Activity.counts : Activity Value → Bool
  | .running (.readCount _ _) => true
  | _ => false

def Cluster.Counts (cluster : Cluster Value) (process : Nat) : Prop :=
  (cluster.processes process).activity.counts = true

instance (cluster : Cluster Value) (process : Nat) : Decidable (cluster.Counts process) :=
  inferInstanceAs (Decidable (_ = true))

/-- The process keeps the run row from others: locked, or inserted and not committed. -/
def Cluster.Guards (cluster : Cluster Value) (process : Nat) (ref : String) : Prop :=
  cluster.locks (.run ref) = some process ∨
    ∃ run, (process, run) ∈ cluster.inserting ∧ run.id = ref

section Invariant

variable {late : Prop} {calls : Workload} {before after cluster : Cluster Reply}
  {issued : String → List StreamEvent}

def chronicleOf (cluster : Cluster Value) (issued : String → List StreamEvent) : Chronicle :=
  ⟨cluster.database, issued⟩

/-- A process follows its transaction with the rows that it holds. -/
structure Abides (late : Prop) (calls : Workload) (cluster : Cluster Reply)
    (issued : String → List StreamEvent) (process : Nat) : Prop where
  running : (cluster.processes process).activity = .running transaction → ∃ held,
    transaction.Guarded late (fun later => (calls process).1.Timely late later) held
      (chronicleOf cluster issued) (cluster.processes process).pending ∧
    (∀ ref ∈ held, cluster.Guards process ref) ∧
    ∀ change ∈ (cluster.processes process).pending, ∀ ref, change.Touches ref → ref ∈ held
  recovery : (cluster.processes process).recovery = some transaction → ∀ chronicle,
    transaction.Guarded late (fun later => (calls process).1.Timely late later) [] chronicle []

/-- Locked rows and rows about to be inserted do not meet. -/
structure Exclusive (cluster : Cluster Reply) : Prop where
  locked : cluster.locks (.run ref) = some process → (cluster.database.row ref).isSome ∨
    ∃ run, (process, run) ∈ cluster.inserting ∧ run.id = ref
  absent : (process, run) ∈ cluster.inserting → cluster.database.row run.id = none
  apart : (one, run) ∈ cluster.inserting → (two, other) ∈ cluster.inserting →
    run.id = other.id → one = two

structure Upheld (late : Prop) (calls : Workload) (cluster : Cluster Reply)
    (issued : String → List StreamEvent) : Prop where
  sound : (chronicleOf cluster issued).Sound late
  exclusive : Exclusive cluster
  abides : ∀ process, Abides late calls cluster issued process

theorem Exclusive.holder (exclusive : Exclusive cluster) (first : cluster.Guards one ref)
    (second : cluster.Guards two ref) : one = two := by
  have mixed : ∀ {one two}, cluster.locks (.run ref) = some one →
      (∃ run, (two, run) ∈ cluster.inserting ∧ run.id = ref) → one = two := by
    rintro one two taken ⟨run, inserting, rfl⟩
    rcases exclusive.locked taken with present | ⟨other, own, same⟩
    · rw [exclusive.absent inserting] at present
      contradiction
    · exact exclusive.apart own inserting same
  rcases first with taken | ⟨run, inserting, own⟩
  · rcases second with also | insertion
    · rw [taken] at also
      exact Option.some.inj also
    · exact mixed taken insertion
  · rcases second with taken | ⟨other, also, same⟩
    · exact (mixed taken ⟨run, inserting, own⟩).symm
    · exact exclusive.apart inserting also (own.trans same.symm)

/-- A process is not concerned by steps of others that spare the rows it holds. -/
theorem Abides.spared (abides : Abides late calls before issued process)
    (same : after.processes process = before.processes process)
    (holds : ∀ ref, before.Guards process ref → after.Guards process ref)
    (spares : ∀ held, (∀ ref ∈ held, before.Guards process ref) →
      Chronicle.Spares late held (chronicleOf before issued) (chronicleOf after more)) :
    Abides late calls after more process where
  running active := by
    rw [same] at active ⊢
    obtain ⟨held, guarded, own, within⟩ := abides.running active
    exact ⟨held, guarded.spared (spares held own), fun ref member => holds ref (own ref member),
      within⟩
  recovery := by
    rw [same]
    exact abides.recovery

theorem view_keyed {chronicle : Chronicle} (sound : chronicle.Sound late) (pending : List Change)
    (found : (chronicle.database.applyAll pending).row ref = some run) : run.id = ref := by
  rw [Database.applyAll_row] at found
  induction pending using List.reverseRecOn with
  | nil => exact sound.keyed found
  | append_singleton earlier change ih =>
    rw [List.foldl_append] at found
    cases change with
    | run written =>
      by_cases own : written.id = ref
      · simp only [List.foldl_cons, List.foldl_nil, Change.rewritten, own, ↓reduceIte] at found
        cases found
        exact own
      · simp only [List.foldl_cons, List.foldl_nil, Change.rewritten, own, ↓reduceIte] at found
        exact ih found
    | _ => exact ih found

theorem RunQuery.find_row {query : RunQuery} {database : Database}
    (keyed : ∀ {ref run}, database.row ref = some run → run.id = ref)
    (found : query.find database = some run) : database.row run.id = some run := by
  cases query with
  | byId id =>
    have own := keyed found
    rw [own]
    exact found
  | byKey key =>
    obtain ⟨ref, present⟩ := (database.runs.mem_values_iff run).mp (List.mem_of_find?_eq_some found)
    rw [keyed present]
    exact present

/-- A row that a process sees is committed or one that it holds. -/
theorem Upheld.seen {held : List String} (upheld : Upheld late calls cluster issued)
    (within : ∀ change ∈ (cluster.processes process).pending, ∀ ref, change.Touches ref →
      ref ∈ held)
    (own : ∀ ref ∈ held, cluster.Guards process ref)
    (found : (cluster.view process).row ref = some run) :
    (cluster.database.row ref).isSome ∨
      ∃ run, (process, run) ∈ cluster.inserting ∧ run.id = ref := by
  by_cases touched : ∃ change ∈ (cluster.processes process).pending, change.Touches ref
  · obtain ⟨change, flushed, touches⟩ := touched
    rcases own ref (within change flushed ref touches) with taken | inserting
    · exact upheld.exclusive.locked taken
    · exact .inr inserting
  · simp only [not_exists, not_and] at touched
    rw [Cluster.view, Database.applyAll_row, rewritten_untouched _ touched] at found
    exact .inl (by rw [found]; rfl)

/-- A statement that writes nothing to the database: the locks and inserts of the process may
grow, and nobody else is concerned. -/
theorem Upheld.quiet (upheld : Upheld late calls before issued)
    (sameDatabase : after.database = before.database)
    (holds : ∀ process ref, before.Guards process ref → after.Guards process ref)
    (exclusive : Exclusive after)
    (abides : ∀ process, after.processes process = before.processes process ∨
      Abides late calls after issued process) : Upheld late calls after issued where
  sound := by
    rw [chronicleOf, sameDatabase]
    exact upheld.sound
  exclusive := exclusive
  abides process := by
    rcases abides process with same | own
    · refine (upheld.abides process).spared same (holds process) fun held _ => ?_
      rw [chronicleOf, chronicleOf, sameDatabase]
      exact .refl upheld.sound
    · exact own

theorem Upheld.advance (upheld : Upheld late calls before issued) (rest : Txn Reply)
    (within : ∀ change ∈ (before.processes process).pending, ∀ ref, change.Touches ref → ref ∈ held)
    (own : ∀ ref ∈ held, before.Guards process ref)
    (guarded : rest.Guarded late (fun later => (calls process).1.Timely late later) held
      (chronicleOf before issued) (before.processes process).pending) :
    Upheld late calls (before.advance process rest) issued := by
  refine upheld.quiet rfl (fun _ _ held => held) ⟨upheld.exclusive.locked,
    upheld.exclusive.absent, upheld.exclusive.apart⟩ fun other => ?_
  by_cases mine : other ≠ process
  · exact .inl (Function.update_of_ne mine _ _)
  obtain rfl := not_not.mp mine
  right
  constructor
  · intro transaction active
    simp only [Cluster.advance, Cluster.update, Function.update_self, Activity.running.injEq]
      at active
    subst active
    refine ⟨held, ?_, own, ?_⟩
    · simpa [Cluster.advance, Cluster.update, chronicleOf] using guarded
    · simpa [Cluster.advance, Cluster.update] using within
  · intro transaction recovers
    simp only [Cluster.advance, Cluster.update, Function.update_self] at recovers
    exact (upheld.abides other).recovery recovers

/-- Locking more run rows, each visible and free. -/
theorem Upheld.acquire (process : Nat) (upheld : Upheld late calls before issued)
    (processes : after.processes = before.processes)
    (sameDatabase : after.database = before.database)
    (inserting : after.inserting = before.inserting)
    (grows : ∀ row, after.locks row = before.locks row ∨
      (after.locks row = some process ∧ before.Available process row ∧
        ∀ ref, row = .run ref → (before.database.row ref).isSome ∨
          ∃ run, (process, run) ∈ before.inserting ∧ run.id = ref)) :
    Upheld late calls after issued := by
  have holds : ∀ other ref, before.Guards other ref → after.Guards other ref := by
    intro other ref held
    rcases held with taken | ⟨run, entry, own⟩
    · rcases grows (.run ref) with same | ⟨gained, available, _⟩
      · exact .inl (same.trans taken)
      · rcases available with free | mine
        · rw [free] at taken
          contradiction
        · rw [mine] at taken
          exact .inl (gained.trans taken)
    · exact .inr ⟨run, inserting ▸ entry, own⟩
  refine upheld.quiet sameDatabase holds ⟨?_, ?_, ?_⟩ fun other => .inl (congrFun processes other)
  · intro ref other taken
    rw [sameDatabase, inserting]
    rcases grows (.run ref) with same | ⟨gained, _, known⟩
    · exact upheld.exclusive.locked (same.symm.trans taken)
    · rw [gained] at taken
      cases taken
      exact known ref rfl
  · rw [sameDatabase, inserting]
    exact upheld.exclusive.absent
  · rw [inserting]
    exact upheld.exclusive.apart

/-- A statement after which the process has flushed one more change. -/
theorem Upheld.flush {before : Cluster Reply} {rest : Txn Reply}
    (upheld : Upheld late calls before issued) {inserting : List (Nat × AgentRun)}
    (kept : ∀ entry ∈ before.inserting, entry ∈ inserting)
    (exclusive : Exclusive { before with inserting })
    (within : ∀ flushed ∈ (before.processes process).pending ++ [change], ∀ ref,
      flushed.Touches ref → ref ∈ held)
    (own : ∀ ref ∈ held, Cluster.Guards { before with inserting } process ref)
    (guarded : rest.Guarded late (fun later => (calls process).1.Timely late later) held
      (chronicleOf before issued) ((before.processes process).pending ++ [change])) :
    Upheld late calls { before.update process
      { before.processes process with
        activity := .running rest
        pending := (before.processes process).pending ++ [change] } with inserting } issued := by
  refine upheld.quiet rfl ?_ ⟨exclusive.locked, exclusive.absent, exclusive.apart⟩
    fun other => ?_
  · intro other ref held
    rcases held with taken | ⟨run, entry, same⟩
    · exact .inl taken
    · exact .inr ⟨run, kept _ entry, same⟩
  · by_cases mine : other ≠ process
    · exact .inl (Function.update_of_ne mine _ _)
    obtain rfl := not_not.mp mine
    right
    constructor
    · intro transaction active
      simp only [Cluster.update, Function.update_self, Activity.running.injEq] at active
      subst active
      refine ⟨held, ?_, own, ?_⟩
      · simpa [Cluster.update, chronicleOf] using guarded
      · simpa [Cluster.update] using within
    · intro transaction recovers
      simp only [Cluster.update, Function.update_self] at recovers
      exact (upheld.abides other).recovery recovers

theorem holds_release {before : Cluster Reply} (ended : Process Reply) (apart : other ≠ process)
    (held : before.Guards other ref) : (before.release process ended).Guards other ref := by
  rcases held with taken | ⟨run, entry, same⟩
  · left
    simp [Cluster.release, taken, apart]
  · exact .inr ⟨run, List.mem_filter.mpr ⟨entry, by simpa using apart⟩, same⟩

/-- The end of a transaction gives its rows back. -/
theorem Exclusive.release {committed : Database} (exclusive : Exclusive before)
    (ended : Process Reply)
    (present : ∀ ref, (before.database.row ref).isSome → (committed.row ref).isSome)
    (absent : ∀ other run, other ≠ process → (other, run) ∈ before.inserting →
      committed.row run.id = none) :
    Exclusive { before.release process ended with database := committed } where
  locked {ref other} taken := by
    have held : before.locks (.run ref) = some other ∧ other ≠ process := by
      by_cases mine : before.locks (.run ref) = some process
      · simp [Cluster.release, mine] at taken
      · simp only [Cluster.release, mine, ↓reduceIte] at taken
        exact ⟨taken, fun own => mine (own ▸ taken)⟩
    rcases exclusive.locked held.1 with known | ⟨run, entry, same⟩
    · exact .inl (present ref known)
    · exact .inr ⟨run, List.mem_filter.mpr ⟨entry, by simpa using held.2⟩, same⟩
  absent {other run} entry := by
    obtain ⟨listed, foreign⟩ := List.mem_filter.mp entry
    exact absent other run (by simpa using foreign) listed
  apart first second same :=
    exclusive.apart (List.mem_filter.mp first).1 (List.mem_filter.mp second).1 same

/-- A transaction that ends without a commit. -/
theorem Upheld.abort (upheld : Upheld late calls before issued)
    (ended : Process Reply) (rest : ∀ transaction, ended.activity = .running transaction →
      ∀ chronicle, transaction.Guarded late (fun later => (calls process).1.Timely late later) []
        chronicle [])
    (blank : ended.recovery = none ∧ ended.pending = []) :
    Upheld late calls (before.release process ended) issued where
  sound := upheld.sound
  exclusive := by
    have kept : Exclusive { before.release process ended with database := before.database } :=
      upheld.exclusive.release ended (fun _ => id)
        fun _ _ _ entry => upheld.exclusive.absent entry
    exact ⟨kept.locked, kept.absent, kept.apart⟩
  abides other := by
    by_cases mine : other = process
    · subst mine
      constructor
      · intro transaction active
        simp only [Cluster.release, Function.update_self] at active
        refine ⟨[], ?_, by simp, ?_⟩
        · simpa [Cluster.release, blank.2, chronicleOf] using rest transaction active _
        · simp [Cluster.release, blank.2]
      · intro transaction recovers
        simp [Cluster.release, blank.1] at recovers
    · refine (upheld.abides other).spared ?_ (fun ref held => holds_release ended mine held)
        fun held _ => .refl upheld.sound
      simp [Cluster.release, mine]

private theorem Extends.present {entries : List StreamEvent}
    (extension : Extends late entries row later added) (some : row.isSome) : later.isSome := by
  cases extension with
  | idle => exact some
  | opened | kept | published | late => rfl

/-- What was issued, once a step is recorded. -/
def Cluster.recorded (before after : Cluster Reply) (issued : String → List StreamEvent)
    (ref : String) : List StreamEvent :=
  issued ref ++ (after.database.eventLog ref).drop (before.database.eventLog ref).length

theorem recorded_same (same : after.database.eventLog ref = before.database.eventLog ref) :
    before.recorded after issued ref = issued ref := by
  rw [Cluster.recorded, same, List.drop_length, List.append_nil]

/-- What a transaction that is about to commit does to each run. -/
theorem Upheld.committing (upheld : Upheld late calls before issued)
    (active : (before.processes process).activity = .running (.done (.ok value))) :
    ∃ held : List String, (∀ ref ∈ held, before.Guards process ref) ∧ ∀ ref, ∃ added,
      (before.view process).eventLog ref = before.database.eventLog ref ++ added ∧
      Extends late (issued ref) (before.database.row ref) ((before.view process).row ref) added ∧
      (ref ∉ held → (before.view process).row ref = before.database.row ref ∧ added = []) := by
  obtain ⟨held, guarded, own, _⟩ := (upheld.abides process).running active
  have commits : (chronicleOf before issued).Commits late held
      (before.processes process).pending := guarded
  refine ⟨held, own, fun ref => ⟨_, before.database.applyAll_eventLog _ ref, ?_⟩⟩
  rw [Cluster.view, Database.applyAll_row]
  by_cases mine : ref ∈ held
  · exact ⟨commits.advances ref mine, fun apart => (apart mine).elim⟩
  · have untouched : ∀ change ∈ (before.processes process).pending, ¬ change.Touches ref :=
      fun change flushed touches => mine (commits.within change flushed ref touches)
    rw [rewritten_untouched _ untouched, published_untouched untouched]
    exact ⟨.idle, fun _ => ⟨rfl, rfl⟩⟩

theorem Upheld.commit (upheld : Upheld late calls before issued)
    (active : (before.processes process).activity = .running (.done (.ok value))) :
    Upheld late calls (before.commit process value)
      (before.recorded (before.commit process value) issued) := by
  obtain ⟨held, own, each⟩ := upheld.committing active
  choose added log step foreign using each
  have noted : ∀ ref, before.recorded (before.commit process value) issued ref =
      issued ref ++ added ref := by
    intro ref
    have drops := congrArg (List.drop (before.database.eventLog ref).length) (log ref)
    rw [List.drop_left] at drops
    exact congrArg (issued ref ++ ·) drops
  have sound : (chronicleOf (before.commit process value)
      (before.recorded (before.commit process value) issued)).Sound late := by
    constructor
    · exact fun found => view_keyed upheld.sound _ found
    · intro ref
      have advanced := (upheld.sound.closes ref).advance (step ref)
      have closed : Closes late ((before.view process).row ref)
          ⟨(before.view process).eventLog ref,
            before.recorded (before.commit process value) issued ref⟩ := by
        rw [log ref, noted ref]
        exact advanced
      exact closed
  refine ⟨sound, ?_, fun other => ?_⟩
  · refine upheld.exclusive.release _ (fun ref => (step ref).present) ?_
    intro other run apart entry
    have unheld : run.id ∉ held := fun mine =>
      apart (upheld.exclusive.holder (.inr ⟨run, entry, rfl⟩) (own run.id mine))
    rw [(foreign run.id unheld).1]
    exact upheld.exclusive.absent entry
  · by_cases mine : other = process
    · subst mine
      constructor
      · intro transaction running
        simp [Cluster.commit, Cluster.release] at running
      · intro transaction recovers
        simp [Cluster.commit, Cluster.release] at recovers
    · refine (upheld.abides other).spared ?_ ?_ fun others guards => ?_
      · simp [Cluster.commit, Cluster.release, mine]
      · exact fun ref guards =>
          holds_release ⟨.finished (.ok value), none, []⟩ mine guards
      · have unheld : ∀ ref ∈ others, ref ∉ held := fun ref member also =>
          mine (upheld.exclusive.holder (guards ref member) (own ref also))
        refine ⟨sound, fun ref member => (foreign ref (unheld ref member)).1, ?_⟩
        intro ref member
        refine (noted ref).trans ?_
        rw [(foreign ref (unheld ref member)).2, List.append_nil]
        rfl

theorem acquire_eq (cluster : Cluster Reply) (process : Nat) (run : AgentRun) :
    cluster.acquire process (.run run.id) = cluster.acquireAll process [run] := by
  simp only [Cluster.acquire, Cluster.acquireAll, Cluster.mk.injEq, true_and, and_true]
  funext row
  simp [Function.update_apply]

/-- A uniqueness violation: the recovery, if there is one, starts without rows. -/
theorem Upheld.violated (upheld : Upheld late calls before issued) (process : Nat) :
    Upheld late calls (before.violated process) issued := by
  unfold Cluster.violated
  split
  · next recovery found =>
    refine upheld.abort _ ?_ ⟨rfl, rfl⟩
    intro transaction active
    cases active
    exact (upheld.abides process).recovery found
  · exact upheld.abort _ (by simp) ⟨rfl, rfl⟩

theorem violated_database (cluster : Cluster Reply) (process : Nat) :
    (cluster.violated process).database = cluster.database := by
  unfold Cluster.violated
  split <;> rfl

section Running

variable {held : List String} {rest : Txn Reply} (upheld : Upheld late calls before issued)
  (within : ∀ change ∈ (before.processes process).pending, ∀ ref, change.Touches ref → ref ∈ held)
  (own : ∀ ref ∈ held, before.Guards process ref)

include upheld within own

/-- Locking visible run rows that no other transaction has locked. -/
theorem Upheld.lock {runs : List AgentRun}
    (seen : ∀ run ∈ runs, (before.view process).row run.id = some run ∧
      before.Available process (.run run.id))
    (guarded : rest.Guarded late (fun later => (calls process).1.Timely late later)
      (runs.map (·.id) ++ held) (chronicleOf before issued) (before.processes process).pending) :
    Upheld late calls ((before.acquireAll process runs).advance process rest) issued := by
  have acquired : Upheld late calls (before.acquireAll process runs) issued := by
    refine upheld.acquire process rfl rfl rfl fun row => ?_
    by_cases listed : row ∈ runs.map fun run => .run run.id
    · right
      obtain ⟨run, member, rfl⟩ := List.mem_map.mp listed
      refine ⟨if_pos listed, (seen run member).2, fun ref same => ?_⟩
      cases same
      exact upheld.seen within own (seen run member).1
    · exact .inl (if_neg listed)
  refine acquired.advance rest ?_ ?_ guarded
  · exact fun change flushed ref touches =>
      List.mem_append_right _ (within change flushed ref touches)
  · intro ref member
    have gained : (before.acquireAll process runs).locks (.run ref) =
        if .run ref ∈ runs.map (fun run => Row.run run.id) then some process
        else before.locks (.run ref) := rfl
    by_cases listed : Row.run ref ∈ runs.map fun run => .run run.id
    · exact .inl (gained.trans (if_pos listed))
    · rcases List.mem_append.mp member with new | old
      · obtain ⟨run, among, rfl⟩ := List.mem_map.mp new
        exact (listed (List.mem_map_of_mem among)).elim
      · rcases own ref old with taken | inserting
        · exact .inl ((gained.trans (if_neg listed)).trans taken)
        · exact .inr inserting

/-- An insert that the unique indexes admit. -/
theorem Upheld.insert {run : AgentRun}
    (guarded : before.database.row run.id = none →
      rest.Guarded late (fun later => (calls process).1.Timely late later) (run.id :: held)
        (chronicleOf before issued) ((before.processes process).pending ++ [.run run]))
    (unused : ∀ other ∈ before.database.runs.values, ¬ Conflicts run other)
    (alone : ∀ entry ∈ before.inserting, entry.1 ≠ process → ¬ Conflicts run entry.2) :
    Upheld late calls { before.update process
      { before.processes process with
        activity := .running rest
        pending := (before.processes process).pending ++ [.run run] }
      with inserting := (process, run) :: before.inserting } issued := by
  have absent : before.database.row run.id = none := by
    by_contra present
    obtain ⟨other, found⟩ := Option.ne_none_iff_exists'.mp present
    have listed := (Dict.mem_values_iff _ other).mpr ⟨run.id, found⟩
    exact unused other listed (.inl (upheld.sound.keyed found).symm)
  have mine : ∀ other inserted, (other, inserted) ∈ before.inserting → run.id = inserted.id →
      other = process := by
    intro other inserted entry same
    by_contra foreign
    exact alone _ entry foreign (.inl same)
  refine upheld.flush (fun _ => List.mem_cons_of_mem _) ⟨?_, ?_, ?_⟩ ?_ ?_ (guarded absent)
  · intro ref other taken
    rcases upheld.exclusive.locked taken with known | ⟨inserted, entry, same⟩
    · exact .inl known
    · exact .inr ⟨inserted, List.mem_cons_of_mem _ entry, same⟩
  · intro other inserted entry
    rcases List.mem_cons.mp entry with same | earlier
    · cases same
      exact absent
    · exact upheld.exclusive.absent earlier
  · intro one inserted two other first second same
    rcases List.mem_cons.mp first with head | earlier
    · cases head
      rcases List.mem_cons.mp second with head | later
      · exact (Prod.mk.inj head).1.symm
      · exact (mine two other later same).symm
    · rcases List.mem_cons.mp second with head | later
      · cases head
        exact mine one inserted earlier same.symm
      · exact upheld.exclusive.apart earlier later same
  · intro flushed member ref touches
    rcases List.mem_append.mp member with old | new
    · exact List.mem_cons_of_mem _ (within flushed old ref touches)
    · rw [List.mem_singleton.mp new] at touches
      exact List.mem_cons.mpr (.inl touches.symm)
  · intro ref member
    rcases List.mem_cons.mp member with rfl | old
    · exact .inr ⟨run, List.mem_cons_self, rfl⟩
    · rcases own ref old with taken | ⟨inserted, entry, same⟩
      · exact .inl taken
      · exact .inr ⟨inserted, List.mem_cons_of_mem _ entry, same⟩

private theorem Upheld.lockSession
    (available : before.Available process (.session sessionId))
    (guarded : rest.Guarded late (fun later => (calls process).1.Timely late later) held
      (chronicleOf before issued) (before.processes process).pending) :
    Upheld late calls ((before.acquire process (.session sessionId)).advance process rest)
      issued := by
  have acquired : Upheld late calls (before.acquire process (.session sessionId)) issued := by
    refine upheld.acquire process rfl rfl rfl fun row => ?_
    by_cases same : row = .session sessionId
    · subst same
      exact .inr ⟨Function.update_self .., available, by simp⟩
    · exact .inl (Function.update_of_ne same _ _)
  refine acquired.advance _ within (fun ref member => ?_) guarded
  rcases own ref member with held | inserting
  · have apart : (before.acquire process (.session sessionId)).locks (.run ref) =
        before.locks (.run ref) := by simp [Cluster.acquire]
    exact .inl (apart.trans held)
  · exact .inr inserting

private theorem Upheld.lockRun
    (found : RunQuery.find query (before.view process) = some run)
    (available : before.Available process (.run run.id))
    (guarded : rest.Guarded late (fun later => (calls process).1.Timely late later)
      (run.id :: held) (chronicleOf before issued) (before.processes process).pending) :
    Upheld late calls ((before.acquire process (.run run.id)).advance process rest) issued := by
  rw [acquire_eq]
  refine upheld.lock within own (List.forall_mem_singleton.mpr ?_) guarded
  exact ⟨RunQuery.find_row (view_keyed upheld.sound _) found, available⟩

private theorem Upheld.lockSkipping {rest : List AgentRun → Txn Reply}
    (guarded : ∀ runs : List AgentRun, runs.Sublist (before.view process).runs.values →
      (∀ run ∈ runs, selected run = true) →
        (rest runs).Guarded late (fun later => (calls process).1.Timely late later)
          (runs.map (·.id) ++ held) (chronicleOf before issued)
          (before.processes process).pending) :
    Upheld late calls ((before.acquireAll process (before.unlocked process selected)).advance
      process (rest (before.unlocked process selected))) issued := by
  refine upheld.lock within own (fun run member => ?_)
    (guarded _ List.filter_sublist fun run member => (mem_unlocked member).2.1)
  obtain ⟨listed, _, available⟩ := mem_unlocked member
  obtain ⟨ref, found⟩ := (Dict.mem_values_iff _ run).mp listed
  obtain rfl := view_keyed upheld.sound _ found
  exact ⟨found, available⟩

private theorem Upheld.write
    (holds : ∀ ref, change.Touches ref → ref ∈ held)
    (guarded : rest.Guarded late (fun later => (calls process).1.Timely late later) held
      (chronicleOf before issued) ((before.processes process).pending ++ [change])) :
    Upheld late calls (before.update process
      { before.processes process with
        activity := .running rest
        pending := (before.processes process).pending ++ [change] }) issued := by
  refine upheld.flush (fun _ => id) upheld.exclusive ?_ own guarded
  intro flushed member ref touches
  rcases List.mem_append.mp member with old | new
  · exact within flushed old ref touches
  · exact holds ref (List.mem_singleton.mp new ▸ touches)

end Running

/-- One statement of one call. -/
theorem Upheld.statement (upheld : Upheld late calls before issued)
    (taken : before.next process = some after)
    (timely : before.Counts process →
      (calls process).1.Timely late (chronicleOf before issued)) :
    Upheld late calls after (before.recorded after issued) := by
  have unrecorded : after.database = before.database → Upheld late calls after issued →
      Upheld late calls after (before.recorded after issued) := by
    intro same kept
    have issue : before.recorded after issued = issued :=
      funext fun ref => recorded_same (by rw [same])
    rw [issue]
    exact kept
  obtain ⟨transaction, active, executed⟩ := next_executed taken
  obtain ⟨held, guarded, own, within⟩ := (upheld.abides process).running active
  have here : Chronicle.Spares late held (chronicleOf before issued) (chronicleOf before issued) :=
    .refl upheld.sound
  cases executed with
  | commit => exact upheld.commit active
  | rollback => exact unrecorded rfl (upheld.abort _ (by simp) ⟨rfl, rfl⟩)
  | noSession => exact unrecorded rfl (upheld.advance _ within own (guarded _ here none))
  | session found available =>
    exact unrecorded rfl (upheld.lockSession within own available (guarded _ here _))
  | noRun => exact unrecorded rfl (upheld.advance _ within own (guarded _ here).1)
  | run found available =>
    exact unrecorded rfl (upheld.lockRun within own found available ((guarded _ here).2 _ found))
  | skipping => exact unrecorded rfl (upheld.lockSkipping within own (guarded _ here))
  | row => exact unrecorded rfl (upheld.advance _ within own (guarded _ here _))
  | count =>
    have counting : before.Counts process := by rw [Cluster.Counts, active]; rfl
    exact unrecorded rfl (upheld.advance _ within own (guarded _ here (timely counting)))
  | violated => exact unrecorded (violated_database before process) (upheld.violated process)
  | insert unused alone =>
    exact unrecorded rfl (upheld.insert within own (guarded _ here) unused alone)
  | write => exact unrecorded rfl (upheld.write within own guarded.1 guarded.2)

/-- Committed rows change outside the locking calls, and no run among them. -/
theorem Upheld.replace {committed : Database} (upheld : Upheld late calls before issued)
    (rows : ∀ ref, committed.row ref = before.database.row ref)
    (closes : ∀ ref, Closes late (committed.row ref) ⟨committed.eventLog ref, issued ref⟩) :
    Upheld late calls { before with database := committed } issued := by
  have sound : (chronicleOf { before with database := committed } issued).Sound late :=
    ⟨fun found => upheld.sound.keyed ((rows _).symm.trans found), closes⟩
  refine ⟨sound, ⟨?_, ?_, upheld.exclusive.apart⟩, fun process => ?_⟩
  · intro ref process taken
    rw [rows]
    exact upheld.exclusive.locked taken
  · intro process run entry
    rw [rows]
    exact upheld.exclusive.absent entry
  · exact (upheld.abides process).spared rfl (fun _ => id)
      fun held _ => ⟨sound, fun ref _ => rows ref, fun _ _ => rfl⟩

/-- Pruning touches logs of terminal runs only. -/
theorem Closes.pruned {database : Database} (removed : StreamEvent → Bool)
    (closes : Closes late (database.row ref) ⟨database.eventLog ref, issued ref⟩)
    (expired : ∀ event ∈ database.events, removed event = true → database.Expired time event) :
    Closes late (database.row ref) ⟨(database.without removed).eventLog ref, issued ref⟩ := by
  by_cases untouched : ∀ event ∈ database.events, event.runId = ref → removed event = false
  · have same : (database.without removed).eventLog ref = database.eventLog ref := by
      simp only [Database.eventLog, Database.without, List.filter_filter]
      apply List.filter_congr
      intro event member
      by_cases own : event.runId = ref
      · simp [own, untouched event member own]
      · simp [own]
    rw [same]
    exact closes
  · simp only [not_forall, Bool.not_eq_false] at untouched
    obtain ⟨event, member, rfl, gone⟩ := untouched
    obtain ⟨_, run, found, terminal⟩ := expired event member gone
    rw [found] at closes ⊢
    exact closes.prune terminal (database.without_sublist removed event.runId)

theorem Upheld.serves (upheld : Upheld late calls before issued)
    (taken : Serves before action after)
    (timely : ∀ process, action = .statement process → before.Counts process →
      (calls process).1.Timely late (chronicleOf before issued)) :
    Upheld late calls after (before.recorded after issued) := by
  cases action with
  | statement process => exact upheld.statement taken (timely process rfl)
  | createSession record =>
    obtain rfl := serve_createSession taken
    have issue : before.recorded { before with
        database := before.database.apply (.session record) } issued = issued :=
      funext fun _ => recorded_same rfl
    rw [issue]
    exact upheld.replace (fun _ => rfl) upheld.sound.closes
  | prune time removed =>
    obtain ⟨expired, rfl⟩ := serve_prune taken
    have issue : before.recorded { before with
        database := before.database.without removed } issued = issued := by
      funext ref
      have fewer := before.database.without_sublist removed ref
      rw [Cluster.recorded, List.drop_eq_nil_of_le fewer.length_le, List.append_nil]
    rw [issue]
    exact upheld.replace (fun _ => rfl)
      fun ref => Closes.pruned removed (upheld.sound.closes ref) expired

/-- Only a commit changes the committed rows. -/
theorem next_database (taken : before.next process = some after) :
    after.database = before.database ∨ ∃ value,
      (before.processes process).activity = .running (.done (.ok value)) ∧
        after = before.commit process value := by
  cases next_moved taken with
  | proceeds | rolls => exact .inl rfl
  | commits active => exact .inr ⟨_, active, rfl⟩

/-- What one action does to one run and its log: a step of its journal, or a pruning. -/
theorem Upheld.moves (upheld : Upheld late calls before issued)
    (taken : Serves before action after) (ref : String) :
    (∃ added, Extends late (issued ref) (before.database.row ref) (after.database.row ref) added ∧
      after.database.eventLog ref = before.database.eventLog ref ++ added) ∨
    (after.database.row ref = before.database.row ref ∧
      (after.database.eventLog ref).Sublist (before.database.eventLog ref)) := by
  cases action with
  | statement process =>
    rcases next_database taken with same | ⟨value, active, rfl⟩
    · rw [same]
      exact .inr ⟨rfl, List.Sublist.refl _⟩
    · obtain ⟨_, _, each⟩ := upheld.committing active
      obtain ⟨added, log, step, _⟩ := each ref
      exact .inl ⟨added, step, log⟩
  | createSession record =>
    obtain rfl := serve_createSession taken
    exact .inr ⟨rfl, List.Sublist.refl _⟩
  | prune time removed =>
    obtain ⟨_, rfl⟩ := serve_prune taken
    exact .inr ⟨rfl, before.database.without_sublist removed ref⟩

theorem start_upheld (publishes : ∀ process, (calls process).1.Publishes) :
    Upheld late calls calls.start fun _ => [] where
  sound := ⟨fun found => by simp [chronicleOf, Workload.start, Cluster.start, Database.row,
    Database.empty] at found, fun _ => .empty late⟩
  exclusive := by
    constructor <;> simp [Workload.start, Cluster.start]
  abides process := by
    constructor
    · intro transaction active
      have start : (calls process).1.transaction (calls process).2 = transaction := by
        simpa [Workload.start, Cluster.start, LockingCall.process] using active
      subst start
      refine ⟨[], ?_, by simp, by simp [Workload.start, Cluster.start, LockingCall.process]⟩
      exact LockingCall.transaction_guarded (publishes process) _ _
    · intro transaction recovers chronicle
      exact LockingCall.recovery_guarded recovers chronicle

end Invariant

section Rows

variable {allowed : Nat → Change → Prop} {before after : Cluster Reply}

/-- A statement continues in a transaction with the same rights. -/
theorem Txn.Flushes.continues {allowed : Change → Prop} {transaction rest : Txn Reply}
    (flushes : transaction.Flushes allowed)
    (continues : before.Continues process transaction rows flushed rest) :
    rest.Flushes allowed ∧ ∀ change ∈ flushed, allowed change := by
  cases continues with
  | missing | session | run | skipping | row | count => exact ⟨flushes.2 _, by simp⟩
  | insert | write => exact ⟨flushes.2, by simpa [Statement.Flushes] using flushes.1⟩

/-- A process writes, has written and will write only rows that are allowed to it. -/
structure Writes (allowed : Nat → Change → Prop) (cluster : Cluster Reply) (process : Nat) :
    Prop where
  running : (cluster.processes process).activity = .running transaction →
    transaction.Flushes (allowed process)
  recovery : (cluster.processes process).recovery = some transaction →
    transaction.Flushes (allowed process)
  pending : ∀ change ∈ (cluster.processes process).pending, allowed process change

theorem Writes.keep (writes : Writes allowed before process)
    (same : after.processes process = before.processes process) : Writes allowed after process := by
  constructor <;> rw [same]
  · exact writes.running
  · exact writes.recovery
  · exact writes.pending

theorem Writes.moved (all : ∀ process, Writes allowed before process)
    (moved : before.Moved actor after) (process : Nat) : Writes allowed after process := by
  by_cases own : process = actor
  · subst own
    cases moved with
    | proceeds active continues =>
      obtain ⟨later, fresh⟩ := ((all process).running active).continues continues
      constructor
      · intro transaction running
        simp only [Cluster.proceed, Function.update_self, Activity.running.injEq] at running
        exact running ▸ later
      · intro transaction recovers
        simp only [Cluster.proceed, Function.update_self] at recovers
        exact (all process).recovery recovers
      · intro change flushed
        simp only [Cluster.proceed, Function.update_self, List.mem_append] at flushed
        exact flushed.elim ((all process).pending change) (fresh change)
    | commits active =>
      constructor <;> simp [Cluster.commit, Cluster.release]
    | rolls blank recovers =>
      constructor
      · intro transaction running
        simp only [Cluster.release, Function.update_self] at running
        exact (all process).recovery (recovers transaction running)
      · simp [Cluster.release, blank.1]
      · simp [Cluster.release, blank.2]
  · refine (all process).keep ?_
    cases moved with
    | proceeds => exact Function.update_of_ne own _ _
    | commits => exact Function.update_of_ne own _ _
    | rolls => exact Function.update_of_ne own _ _

theorem Writes.serves (all : ∀ process, Writes allowed before process)
    (taken : Serves before action after) (process : Nat) : Writes allowed after process := by
  cases action with
  | statement actor => exact Writes.moved all (next_moved taken) process
  | createSession record =>
    obtain rfl := serve_createSession taken
    exact (all process).keep rfl
  | prune time removed =>
    obtain ⟨_, rfl⟩ := serve_prune taken
    exact (all process).keep rfl

theorem start_writes {calls : Workload} (allows : ∀ process,
      ((calls process).1.transaction (calls process).2).Flushes (allowed process))
    (process : Nat) : Writes allowed calls.start process where
  running active := by
    cases active
    exact allows process
  recovery recovers := LockingCall.recovery_flushes recovers
  pending := by simp [Workload.start, Cluster.start, LockingCall.process]

/-- A row of the messages is an old one or was flushed. -/
theorem mem_applyAll_messages {changes : List Change} {database : Database}
    (member : message ∈ (database.applyAll changes).messages) :
    message ∈ database.messages ∨ .message message ∈ changes := by
  induction changes generalizing database with
  | nil => exact .inl member
  | cons change rest ih =>
    rcases ih member with earlier | later
    · cases change with
      | message added =>
        rcases List.mem_append.mp earlier with old | new
        · exact .inl old
        · exact .inr (List.mem_singleton.mp new ▸ List.mem_cons_self)
      | deleteMessages ref => exact .inl (List.mem_filter.mp earlier).1
      | session | run | event => exact .inl earlier
    · exact .inr (List.mem_cons_of_mem change later)

/-- Every stored message was written by one of the calls. -/
structure Sourced (allowed : Nat → Change → Prop) (cluster : Cluster Reply) : Prop where
  writes : ∀ process, Writes allowed cluster process
  stored : ∀ message ∈ cluster.database.messages, ∃ process, allowed process (.message message)

private theorem Sourced.serves (sourced : Sourced allowed before)
    (taken : Serves before action after) :
    Sourced allowed after := by
  refine ⟨Writes.serves sourced.writes taken, fun message member => ?_⟩
  cases action with
  | createSession record =>
    obtain rfl := serve_createSession taken
    exact sourced.stored message member
  | prune time removed =>
    obtain ⟨_, rfl⟩ := serve_prune taken
    exact sourced.stored message member
  | statement actor =>
    cases next_moved taken with
    | proceeds => exact sourced.stored message member
    | rolls => exact sourced.stored message member
    | commits active =>
      rcases mem_applyAll_messages member with old | new
      · exact sourced.stored message old
      · exact ⟨actor, (sourced.writes actor).pending _ new⟩

theorem run_sourced {calls : Workload} (allows : ∀ process,
      ((calls process).1.transaction (calls process).2).Flushes (allowed process))
    (run : Run Serves calls.start actions cluster) : Sourced allowed cluster :=
  run.invariant ⟨start_writes allows, fun _ member => nomatch member⟩ Sourced.serves

end Rows

end DayuAgent
