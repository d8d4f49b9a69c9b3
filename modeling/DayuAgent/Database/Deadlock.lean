import DayuAgent.Database.LockOrder

namespace DayuAgent

open Library

/-- One store call with what it draws from its surroundings. -/
structure IssuedCall where
  call : LockingCall
  ambient : Ambient

namespace Cluster

/-- The row that the next statement of a process has to lock. -/
def wanted (cluster : Cluster Reply) (caller : Nat) : Option Row :=
  match (cluster.processes caller).activity with
  | .running (.lockSession id _) =>
    ((cluster.view caller).sessions.get? id).map fun _ => .session id
  | .running (.lockRun query _) => (query.find (cluster.view caller)).map fun run => .run run.id
  | _ => none

def waiting (cluster : Cluster Reply) : Waiting Nat Row :=
  { wanted := cluster.wanted, holder := cluster.locks }

end Cluster

def Row.isRun : Row → Bool
  | .session _ => false
  | .run _ => true

/-- A row of one kind is locked by the process. -/
def Cluster.Holds (cluster : Cluster Reply) (caller : Nat) (kind : Bool) : Prop :=
  ∃ row, cluster.locks row = some caller ∧ row.isRun = kind

/-- What remains of a call respects its lock order, given the rows it holds. -/
structure Disciplined (issued : Nat → IssuedCall) (cluster : Cluster Reply) (caller : Nat) :
    Prop where
  running : (cluster.processes caller).activity = .running transaction →
    ∃ session run, transaction.Ordered (issued caller).call.nesting session run ∧
      (cluster.Holds caller false → session = true) ∧ (cluster.Holds caller true → run = true)
  recovery : (cluster.processes caller).recovery = some transaction → transaction.LockFree

section Steps

variable {issued : Nat → IssuedCall} {before after : Cluster Reply} {caller actor : Nat}

/-- A call is undisturbed by a step that neither moves it nor locks rows for it. -/
theorem Disciplined.keep (disciplined : Disciplined issued before caller)
    (same : after.processes caller = before.processes caller)
    (locks : ∀ row, after.locks row = some caller → before.locks row = some caller) :
    Disciplined issued after caller := by
  have holds : ∀ {kind}, after.Holds caller kind → before.Holds caller kind :=
    fun ⟨row, held, isKind⟩ => ⟨row, locks row held, isKind⟩
  refine ⟨?_, ?_⟩
  · intro transaction running
    rw [same] at running
    obtain ⟨session, run, ordered, sessions, runs⟩ := disciplined.running running
    exact ⟨session, run, ordered, fun held => sessions (holds held), fun held => runs (holds held)⟩
  · intro transaction recovers
    exact disciplined.recovery (same ▸ recovers)

theorem Disciplined.move (all : ∀ caller, Disciplined issued before caller)
    (processes : after.processes = Function.update before.processes actor process)
    (foreign : ∀ row other, other ≠ actor → after.locks row = some other →
      before.locks row = some other) (own : Disciplined issued after actor) :
    ∀ caller, Disciplined issued after caller := by
  intro caller
  by_cases same : caller = actor
  · rw [same]
    exact own
  · refine (all caller).keep ?_ fun row held => foreign row caller same held
    rw [processes, Function.update_of_ne same]

/-- The transaction goes on with what its last statement left. -/
theorem Disciplined.proceed (all : ∀ caller, Disciplined issued before caller)
    (processes : after.processes = Function.update before.processes actor
      { before.processes actor with activity := .running rest, pending })
    (foreign : ∀ row other, other ≠ actor → after.locks row = some other →
      before.locks row = some other)
    (ordered : rest.Ordered (issued actor).call.nesting session run)
    (sessions : after.Holds actor false → session = true)
    (runs : after.Holds actor true → run = true) : ∀ caller, Disciplined issued after caller := by
  have mine : after.processes actor =
      { before.processes actor with activity := .running rest, pending } := by
    rw [processes, Function.update_self]
  refine Disciplined.move all processes foreign ⟨?_, ?_⟩
  · intro transaction running
    rw [mine] at running
    cases running
    exact ⟨session, run, ordered, sessions, runs⟩
  · intro transaction recovers
    rw [mine] at recovers
    exact (all actor).recovery recovers

/-- A statement that locks nothing. -/
theorem Disciplined.unlocked (all : ∀ caller, Disciplined issued before caller)
    (processes : after.processes = Function.update before.processes actor
      { before.processes actor with activity := .running rest, pending })
    (locks : after.locks = before.locks)
    (ordered : rest.Ordered (issued actor).call.nesting session run)
    (sessions : before.Holds actor false → session = true)
    (runs : before.Holds actor true → run = true) :
    ∀ caller, Disciplined issued after caller := by
  have same : ∀ {kind}, after.Holds actor kind → before.Holds actor kind :=
    fun ⟨row, held, isKind⟩ => ⟨row, locks ▸ held, isKind⟩
  refine Disciplined.proceed all processes ?_ ordered ?_ ?_
  · exact fun _ _ _ held => locks ▸ held
  · exact fun held => sessions (same held)
  · exact fun held => runs (same held)

/-- A statement that locks rows of one kind. -/
theorem Disciplined.locking (all : ∀ caller, Disciplined issued before caller)
    (processes : after.processes = Function.update before.processes actor
      { before.processes actor with activity := .running rest, pending })
    (gained : ∀ row other, after.locks row = some other →
      before.locks row = some other ∨ (other = actor ∧ row.isRun = kind))
    (ordered : rest.Ordered (issued actor).call.nesting session run)
    (sessions : before.Holds actor false ∨ kind = false → session = true)
    (runs : before.Holds actor true ∨ kind = true → run = true) :
    ∀ caller, Disciplined issued after caller := by
  have holds : ∀ {one}, after.Holds actor one → before.Holds actor one ∨ kind = one := by
    rintro one ⟨row, held, isKind⟩
    rcases gained row actor held with old | ⟨_, new⟩
    · exact .inl ⟨row, old, isKind⟩
    · exact .inr (new.symm.trans isKind)
  refine Disciplined.proceed all processes ?_ ordered ?_ ?_
  · intro row other different held
    rcases gained row other held with old | ⟨same, _⟩
    · exact old
    · exact (different same).elim
  · exact fun held => sessions (holds held)
  · exact fun held => runs (holds held)

/-- The end of a transaction gives up all its rows. -/
theorem Disciplined.release (all : ∀ caller, Disciplined issued before caller)
    (processes : after.processes = Function.update before.processes actor process)
    (locks : ∀ row, after.locks row =
      if before.locks row = some actor then none else before.locks row)
    (rest : ∀ transaction, process.activity = .running transaction → transaction.LockFree)
    (recovery : process.recovery = none) : ∀ caller, Disciplined issued after caller := by
  have mine : after.processes actor = process := by rw [processes, Function.update_self]
  have given : ∀ kind, ¬ after.Holds actor kind := by
    rintro kind ⟨row, held, _⟩
    rw [locks] at held
    split at held
    · contradiction
    · next foreign => exact foreign held
  refine Disciplined.move all processes ?_ ⟨?_, ?_⟩
  · intro row other _ held
    rw [locks] at held
    split at held
    · contradiction
    · exact held
  · intro transaction running
    rw [mine] at running
    exact ⟨false, false, (rest transaction running).ordered, fun held => (given _ held).elim,
      fun held => (given _ held).elim⟩
  · intro transaction recovers
    rw [mine, recovery] at recovers
    contradiction

private theorem acquire_gained (held : (before.acquire actor row).locks other = some holder) :
    before.locks other = some holder ∨ (holder = actor ∧ other.isRun = row.isRun) := by
  have changed : Function.update before.locks row (some actor) other = some holder := held
  by_cases same : other = row
  · subst same
    rw [Function.update_self] at changed
    exact .inr ⟨(Option.some.inj changed).symm, rfl⟩
  · rw [Function.update_of_ne same] at changed
    exact .inl changed

private theorem acquireAll_gained {runs : List AgentRun}
    (held : (before.acquireAll actor runs).locks row = some holder) :
    before.locks row = some holder ∨ (holder = actor ∧ row.isRun = true) := by
  unfold Cluster.acquireAll at held
  simp only at held
  split at held
  · next member =>
    obtain ⟨run, _, rfl⟩ := List.mem_map.mp member
    exact .inr ⟨(Option.some.inj held).symm, rfl⟩
  · exact .inl held

private theorem Disciplined.violated (all : ∀ caller, Disciplined issued before caller) :
    ∀ caller, Disciplined issued (before.violated actor) caller := by
  unfold Cluster.violated
  split
  · next recovery recovers =>
    refine Disciplined.release all rfl (fun _ => rfl) ?_ rfl
    rintro transaction ⟨⟩
    exact (all actor).recovery recovers
  · exact Disciplined.release all rfl (fun _ => rfl) (fun _ running => nomatch running) rfl

theorem Disciplined.step (all : ∀ caller, Disciplined issued before caller)
    (taken : Cluster.Steps before actor after) : ∀ caller, Disciplined issued after caller := by
  obtain ⟨transaction, activity, executed⟩ := next_executed taken
  obtain ⟨session, run, ordered, sessions, runs⟩ := (all actor).running activity
  cases executed with
  | commit | rollback =>
    exact Disciplined.release all rfl (fun _ => rfl) (fun _ running => nomatch running) rfl
  | noSession => exact Disciplined.unlocked all rfl rfl ordered.2.2.1 sessions runs
  | session =>
    exact Disciplined.locking all rfl (fun _ _ => acquire_gained) (ordered.2.2.2 _)
      (fun _ => rfl) (fun held => runs (held.resolve_right (nomatch ·)))
  | noRun => exact Disciplined.unlocked all rfl rfl ordered.2.2.1 sessions runs
  | run =>
    exact Disciplined.locking all rfl (fun _ _ => acquire_gained) (ordered.2.2.2 _)
      (fun held => sessions (held.resolve_right (nomatch ·))) (fun _ => rfl)
  | skipping =>
    exact Disciplined.locking all rfl (fun _ _ => acquireAll_gained) (ordered _)
      (fun held => sessions (held.resolve_right (nomatch ·))) (fun _ => rfl)
  | row | count => exact Disciplined.unlocked all rfl rfl (ordered _) sessions runs
  | violated => exact Disciplined.violated all
  | insert | write => exact Disciplined.unlocked all rfl rfl ordered sessions runs

/-- The calls at their start, over a database at rest. -/
def launch (issued : Nat → IssuedCall) (database : Database) : Cluster Reply :=
  Cluster.start database fun caller => (issued caller).call.process (issued caller).ambient

theorem launch_disciplined (database : Database) (caller : Nat) :
    Disciplined issued (launch issued database) caller where
  running running := by
    cases running
    refine ⟨false, false, (issued caller).call.transaction_ordered _, ?_, ?_⟩
    · rintro ⟨row, held, _⟩
      cases held
    · rintro ⟨row, held, _⟩
      cases held
  recovery recovers := LockingCall.recovery_lockFree recovers

private theorem wanted_cases (wants : before.wanted caller = some row) :
    (∃ ref rest, (before.processes caller).activity = .running (.lockSession ref rest) ∧
      row.isRun = false) ∨
    (∃ query rest, (before.processes caller).activity = .running (.lockRun query rest) ∧
      row.isRun = true) := by
  unfold Cluster.wanted at wants
  split at wants
  · next ref rest running =>
    obtain ⟨_, _, rfl⟩ := Option.map_eq_some_iff.mp wants
    exact .inl ⟨ref, rest, running, rfl⟩
  · next query rest running =>
    obtain ⟨_, _, rfl⟩ := Option.map_eq_some_iff.mp wants
    exact .inr ⟨query, rest, running, rfl⟩
  · contradiction

/-- A call that holds a row and waits for another is a reservation or a commit. -/
theorem Disciplined.waits (disciplined : Disciplined issued before caller)
    (wants : before.wanted caller = some row) (holds : before.Holds caller kind) :
    (row.isRun = true ∧ kind = false ∧ (issued caller).call.IsReserve) ∨
    (row.isRun = false ∧ kind = true ∧ (issued caller).call.IsCommit) := by
  rcases wanted_cases wants with ⟨ref, rest, running, isSession⟩ | ⟨query, rest, running, isRun⟩
  · obtain ⟨session, run, ⟨noSession, nested, _⟩, sessions, runs⟩ := disciplined.running running
    cases kind with
    | false => exact absurd (sessions holds) (by rw [noSession]; decide)
    | true => exact .inr ⟨isSession, rfl, nested (runs holds)⟩
  · obtain ⟨session, run, ⟨noRun, nested, _⟩, sessions, runs⟩ := disciplined.running running
    cases kind with
    | false => exact .inl ⟨isRun, rfl, nested (sessions holds)⟩
    | true => exact absurd (runs holds) (by rw [noRun]; decide)

theorem Disciplined.apart (all : ∀ caller, Disciplined issued before caller) :
    before.waiting.Apart Row.isRun := by
  intro caller wanted held wants holds same
  rcases (all caller).waits wants ⟨held, holds, rfl⟩ with
    ⟨isRun, isSession, _⟩ | ⟨isSession, isRun, _⟩
  · rw [isRun, isSession] at same
    contradiction
  · rw [isRun, isSession] at same
    contradiction

/-- A reservation that holds its session row waits, in its second key lookup, for a run
row that a commit has locked. -/
structure Crosses (issued : Nat → IssuedCall) (cluster : Cluster Reply)
    (replayer committer : Nat) : Prop where
  reserves : (issued replayer).call.IsReserve
  commits : (issued committer).call.IsCommit
  holds : cluster.Holds replayer false
  waits : ∃ runId, cluster.wanted replayer = some (.run runId) ∧
    cluster.locks (.run runId) = some committer

/-- A commit that is crossed waits for the session row of a crossing reservation, be it
the same one or another. -/
def Inverted (issued : Nat → IssuedCall) (cluster : Cluster Reply) : Prop :=
  ∃ replayer committer other last sessionId, Crosses issued cluster replayer committer ∧
    cluster.wanted committer = some (.session sessionId) ∧
    cluster.locks (.session sessionId) = some other ∧ Crosses issued cluster other last

/-- The member of a ring that waits for a run crosses a commit of the ring. -/
theorem Disciplined.crosses (all : ∀ caller, Disciplined issued before caller)
    (ring : before.waiting.Ring one) (wants : before.waiting.wanted one = some row)
    (isRun : row.isRun = true) : ∃ two other, Crosses issued before one two ∧
      before.waiting.Ring two ∧ before.waiting.wanted two = some other ∧
      other.isRun = false := by
  obtain ⟨⟨held, holds, isSession⟩, two, other, locked, ringTwo, wantsOther, isOther⟩ :=
    ring.alternates (Disciplined.apart all) wants
  rw [isRun] at isSession isOther
  refine ⟨two, other, ⟨?_, ?_, ⟨held, holds, isSession⟩, ?_⟩, ringTwo, wantsOther, isOther⟩
  · rcases (all one).waits wants ⟨held, holds, isSession⟩ with ⟨_, _, reserves⟩ | ⟨_, isRun, _⟩
    · exact reserves
    · contradiction
  · rcases (all two).waits wantsOther ⟨row, locked, isRun⟩ with ⟨_, isSession, _⟩ | ⟨_, _, commits⟩
    · contradiction
    · exact commits
  · cases row with
    | session => contradiction
    | run runId => exact ⟨runId, wants, locked⟩

theorem Disciplined.inverted (all : ∀ caller, Disciplined issued before caller)
    (ring : before.waiting.Ring caller) : Inverted issued before := by
  obtain ⟨replayer, row, ringOne, wants, isRun⟩ := ring.wanting (Disciplined.apart all) true
  obtain ⟨committer, session, crosses, ringTwo, wantsSession, isSession⟩ :=
    Disciplined.crosses all ringOne wants isRun
  obtain ⟨_, other, last, locked, ringThree, wantsLast, isLast⟩ :=
    ringTwo.alternates (Disciplined.apart all) wantsSession
  rw [isSession] at isLast
  obtain ⟨final, _, crossesAgain, _⟩ := Disciplined.crosses all ringThree wantsLast isLast
  cases session with
  | session sessionId =>
    exact ⟨replayer, committer, other, final, sessionId, crosses, wantsSession, locked,
      crossesAgain⟩
  | run => contradiction

theorem run_disciplined (run : Run Cluster.Steps (launch issued database) schedule cluster) :
    ∀ caller, Disciplined issued cluster caller :=
  run.invariant (launch_disciplined database) Disciplined.step

/-- A step after which no commit and reservation have crossed. -/
def CarefulStep (issued : Nat → IssuedCall) (before : Cluster Reply) (actor : Nat)
    (after : Cluster Reply) : Prop :=
  Cluster.Steps before actor after ∧ ¬ Inverted issued after

end Steps

/-- Without such a crossing no schedule of any calls lets transactions wait in a ring. -/
theorem no_lock_ring (run : Run (CarefulStep issued) (launch issued database) schedule cluster)
    (caller : Nat) : ¬ cluster.waiting.Ring caller := by
  intro ring
  have inverted : Inverted issued cluster :=
    Disciplined.inverted (run_disciplined (run.mono And.left)) ring
  have careful : cluster = launch issued database ∨ ¬ Inverted issued cluster := by
    cases run with
    | nil => exact .inl rfl
    | snoc _ last => exact .inr last.2
  rcases careful with rfl | never
  · obtain ⟨_, held⟩ := ring.holds
    cases held
  · exact never inverted

/-- One open session and no run. -/
def openSession : Database :=
  { Database.empty with
    sessions := Dict.empty.set "lake"
      { id := "lake", userId := none, status := "open", metadata := [], version := 1
        createdAt := 0, updatedAt := 0 } }

/-- Reservations of one key in one session. -/
def replays (caller : Nat) : IssuedCall :=
  ⟨.reserveRun (.sample (some "lake") (some "key") "hash"),
    .sample "a" (.ofList (List.replicate caller 'r'))⟩

/-- A reservation of another key meets the commit of a run. -/
def rivalCommit : Nat → IssuedCall
  | 0 => ⟨.reserveRun (.sample (some "lake") (some "key") "hash"), .sample "a" "run"⟩
  | 2 => ⟨.markRunRunning "run" "worker", .sample "c" "c"⟩
  | 3 => ⟨.commitRunSuccess "run" .sample, .sample "d" "d"⟩
  | _ => ⟨.reserveRun (.sample (some "lake") (some "other") "hash"), .sample "b" "spare"⟩

/-- The second reservation misses the key, the first creates the run, the worker starts
it; then the second reservation locks the session and the commit locks the run. -/
def crossingSchedule : List Nat := [1, 0, 0, 0, 0, 0, 0, 2, 2, 2, 2, 2, 1, 3]

/-- What the commit waits for is not held by a caller that waits for a row of the commit. -/
def Uncrossed (cluster : Cluster Reply) : Prop :=
  ∀ session ∈ cluster.wanted 3, ∀ other ∈ cluster.locks session, ∀ row ∈ cluster.wanted other,
    cluster.locks row ≠ some 3

instance (cluster : Cluster Reply) : Decidable (Uncrossed cluster) := by
  unfold Uncrossed
  infer_instance

private theorem Uncrossed.not_inverted (uncrossed : Uncrossed cluster) :
    ¬ Inverted rivalCommit cluster := by
  rintro ⟨_, committer, other, last, session, crosses, wants, locked, again⟩
  have third : ∀ {caller}, (rivalCommit caller).call.IsCommit → caller = 3 := by
    intro caller commits
    match caller with
    | 0 | 1 | 2 | _ + 4 => cases commits
    | 3 => rfl
  obtain rfl := third crosses.commits
  obtain rfl := third again.commits
  obtain ⟨ref, waits, held⟩ := again.waits
  exact uncrossed _ wants other locked _ waits held

/-- The commit holds its run and waits for the session row of a reservation that waits for none. -/
theorem no_lock_ring_rivalCommit : ∃ cluster,
    Run Cluster.Steps (launch rivalCommit openSession) crossingSchedule cluster ∧
      cluster.wanted 3 = some (.session "lake") ∧ cluster.locks (.session "lake") = some 1 ∧
      ∀ caller, ¬ cluster.waiting.Ring caller := by
  obtain ⟨cluster, run, waits⟩ : ∃ cluster,
      Run (fun before actor after => admitted Cluster.next (fun _ _ after => Uncrossed after)
        before actor = some after) (launch rivalCommit openSession) crossingSchedule cluster ∧
      cluster.wanted 3 = some (.session "lake") ∧ cluster.locks (.session "lake") = some 1 :=
    follow_reaches (by decide)
  have careful : Run (CarefulStep rivalCommit) (launch rivalCommit openSession)
      crossingSchedule cluster :=
    run.mono fun taken => ⟨(admitted_some taken).1, (admitted_some taken).2.not_inverted⟩
  exact ⟨cluster, careful.mono And.left, waits.1, waits.2, no_lock_ring careful⟩

/-- Two reservations of one key, the start of the run and its commit. -/
def replayedCommit : Nat → IssuedCall
  | 0 => ⟨.reserveRun (.sample (some "lake") (some "key") "hash"), .sample "a" "run"⟩
  | 1 => ⟨.reserveRun (.sample (some "lake") (some "key") "hash"), .sample "b" "spare"⟩
  | 2 => ⟨.markRunRunning "run" "worker", .sample "c" "c"⟩
  | _ => ⟨.commitRunSuccess "run" .sample, .sample "d" "d"⟩

theorem lock_ring : ∃ cluster,
    Run Cluster.Steps (launch replayedCommit openSession) crossingSchedule cluster ∧
      cluster.waiting.Ring 1 := by
  obtain ⟨cluster, run, waitsRun, lockedRun, waitsSession, lockedSession⟩ : ∃ cluster,
      Run Cluster.Steps (launch replayedCommit openSession) crossingSchedule cluster ∧
        cluster.wanted 1 = some (.run "run") ∧ cluster.locks (.run "run") = some 3 ∧
        cluster.wanted 3 = some (.session "lake") ∧
        cluster.locks (.session "lake") = some 1 := follow_reaches (by decide)
  have waits : cluster.waiting.WaitsFor 1 3 := ⟨_, waitsRun, lockedRun⟩
  have waitsBack : cluster.waiting.WaitsFor 3 1 := ⟨_, waitsSession, lockedSession⟩
  exact ⟨cluster, run, .tail (.single waits) waitsBack⟩

end DayuAgent
