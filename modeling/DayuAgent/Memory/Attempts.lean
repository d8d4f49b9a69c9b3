import DayuAgent.Memory.Reachable

namespace DayuAgent

open Library InMemorySessionStore

/-- The run that an operation counts an attempt of. -/
def Operation.attempted : Operation → Option String
  | .incrementRunAttempt runId => some runId
  | _ => none

theorem Operation.attempted_eq {operation : Operation}
    (attempted : operation.attempted = some ref) : operation = .incrementRunAttempt ref := by
  cases operation <;> cases attempted
  rfl

theorem active_running {status : RunStatus} (active : status ∈ activeRunStatuses)
    (started : status ≠ .pending) : status = .running := by
  cases status <;> simp_all [activeRunStatuses]

/-- The record with one attempt more. -/
def AgentRun.attempt (run : AgentRun) : AgentRun :=
  { run with attemptCount := run.attemptCount + 1 }

/-- A store seen from its runs: what a call answers and leaves, and the row of each run. -/
structure RunTable (State : Type) where
  perform : Ambient → Operation → State → Except PyException Reply × State
  row : State → String → Option AgentRun

/-- The row of a run agrees with the attempts that were counted while it was running. -/
structure Tallied (row : Option AgentRun) (count : Nat) : Prop where
  absent : row = none → count = 0
  counted : row = some run → run.attemptCount = count
  started : row = some run → run.status = .running ∨ 0 < run.attemptCount → run.startedAt.isSome

namespace Tallied

theorem empty : Tallied none 0 where
  absent _ := rfl
  counted found := by cases found
  started found := by cases found

theorem reserved (tallied : Tallied none count) (request : ReserveRunRequest)
    (sessionId : String) (ambient : Ambient) :
    Tallied (some (pendingRun request sessionId ambient)) count where
  absent none := by cases none
  counted found := by
    cases found
    exact (tallied.absent rfl).symm
  started found := by
    cases found
    simp [pendingRun]

/-- A change that counts no attempt and forgets no start. -/
theorem changed {updated : AgentRun} (tallied : Tallied (some run) count)
    (same : updated.attemptCount = run.attemptCount)
    (kept : run.startedAt.isSome → updated.startedAt.isSome)
    (running : updated.status = .running → updated.startedAt.isSome) :
    Tallied (some updated) count where
  absent none := by cases none
  counted found := by
    cases found
    exact same.trans (tallied.counted rfl)
  started found attempted := by
    cases found
    rcases attempted with now | before
    · exact running now
    · exact kept (tallied.started rfl (.inr (same ▸ before)))

theorem moved (tallied : Tallied (some run) count) (move : Move run updated type payload) :
    Tallied (some updated) count := by
  cases move with
  | start => exact tallied.changed rfl (fun _ => rfl) fun _ => rfl
  | fail | cancel | interrupt => exact tallied.changed rfl id (by simp)

/-- One attempt more of a running run. -/
theorem attempted (tallied : Tallied (some run) count) (running : run.status = .running) :
    Tallied (some run.attempt) (count + 1) where
  absent none := by cases none
  counted found := by
    cases found
    have same : run.attemptCount = count := tallied.counted rfl
    exact congrArg (· + 1) same
  started found _ := by
    cases found
    have old : run.startedAt.isSome := tallied.started rfl (.inl running)
    exact old

end Tallied

namespace RunTable

variable {State : Type} (table : RunTable State)

/-- The state in which a script of operations leaves the store. -/
def after : State → List (Ambient × Operation) → State
  | state, [] => state
  | state, (ambient, operation) :: rest => after (table.perform ambient operation state).2 rest

def Running (state : State) (ref : String) : Prop :=
  ∃ run ∈ table.row state ref, run.status = .running

instance (state : State) (ref : String) : Decidable (table.Running state ref) :=
  inferInstanceAs (Decidable (∃ run ∈ table.row state ref, run.status = .running))

/-- How many attempts of a run a script counts while the run is running. -/
def attempts (ref : String) : State → List (Ambient × Operation) → Nat
  | _, [] => 0
  | state, (ambient, operation) :: rest =>
    (if operation.attempted = some ref ∧ table.Running state ref then 1 else 0) +
      attempts ref (table.perform ambient operation state).2 rest

/-- `increment_run_attempt` counts an attempt of a running run and is refused otherwise. -/
def Counts (ambient : Ambient) (ref : String) (state : State) : Prop :=
  let answer := table.perform ambient (.incrementRunAttempt ref) state
  match table.row state ref with
  | none => answer = (.error (runNotFound ref), state)
  | some run =>
    if run.status = .running then
      answer.1 = .ok (.run run.attempt) ∧ table.row answer.2 ref = some run.attempt
    else answer = (.error (invalidTransition run.status .running), state)

/-- At every point of a script, attempts are counted on started runs only. -/
structure CountsAttempts (start : State) (script : List (Ambient × Operation)) : Prop where
  answers : earlier ++ [(ambient, .incrementRunAttempt ref)] <+: script →
    table.Counts ambient ref (table.after start earlier)
  started : earlier <+: script → table.row (table.after start earlier) ref = some run →
    0 < run.attemptCount → run.startedAt.isSome
  counted : earlier <+: script → table.row (table.after start earlier) ref = some run →
    run.attemptCount = table.attempts ref start earlier

/-- No attempt is counted of a run that is pending. -/
def StartedScript : State → List (Ambient × Operation) → Prop
  | _, [] => True
  | state, (ambient, operation) :: rest =>
    (∀ ref ∈ operation.attempted, ∀ run ∈ table.row state ref, run.status ≠ .pending) ∧
      StartedScript (table.perform ambient operation state).2 rest

instance decideStartedScript (state : State) :
    (script : List (Ambient × Operation)) → Decidable (table.StartedScript state script)
  | [] => inferInstanceAs (Decidable True)
  | (ambient, operation) :: rest =>
    have := decideStartedScript (table.perform ambient operation state).2 rest
    inferInstanceAs (Decidable (_ ∧ _))

/-- What one call does to the rows: an increment counts on every active run, and no other
call moves a tally. -/
structure Behaves (ambient : Ambient) (operation : Operation) (state : State) : Prop where
  unknown : operation = .incrementRunAttempt ref → table.row state ref = none →
    table.perform ambient operation state = (.error (runNotFound ref), state)
  refused : operation = .incrementRunAttempt ref → table.row state ref = some run →
    run.Terminal → table.perform ambient operation state =
      (.error (invalidTransition run.status .running), state)
  accepted : operation = .incrementRunAttempt ref → table.row state ref = some run →
    run.Active → (table.perform ambient operation state).1 = .ok (.run run.attempt) ∧
      ∀ other, table.row (table.perform ambient operation state).2 other =
        if other = ref then some run.attempt else table.row state other
  spared : operation.attempted = none → Tallied (table.row state ref) count →
    Tallied (table.row (table.perform ambient operation state).2 ref) count

/-- Every call of a script behaves. -/
def BehavesAlong : State → List (Ambient × Operation) → Prop
  | _, [] => True
  | state, (ambient, operation) :: rest =>
    table.Behaves ambient operation state ∧
      BehavesAlong (table.perform ambient operation state).2 rest

section Scripts

variable {table} {state start : State} {earlier later script : List (Ambient × Operation)}

theorem startedScript_append : table.StartedScript state (earlier ++ later) ↔
    table.StartedScript state earlier ∧ table.StartedScript (table.after state earlier) later := by
  induction earlier generalizing state with
  | nil => exact (true_and _).symm.to_iff
  | cons entry rest ih => simp only [List.cons_append, StartedScript, after, ih, and_assoc]

theorem behavesAlong_append : table.BehavesAlong state (earlier ++ later) ↔
    table.BehavesAlong state earlier ∧ table.BehavesAlong (table.after state earlier) later := by
  induction earlier generalizing state with
  | nil => exact (true_and _).symm.to_iff
  | cons entry rest ih => simp only [List.cons_append, BehavesAlong, after, ih, and_assoc]

/-- One call moves the tallies as the attempts of running runs say. -/
theorem Behaves.tallied (behaves : table.Behaves ambient operation state)
    (calm : ∀ ref ∈ operation.attempted, ∀ run ∈ table.row state ref, run.status ≠ .pending)
    (tallied : Tallied (table.row state ref) count) :
    Tallied (table.row (table.perform ambient operation state).2 ref)
      (count + if operation.attempted = some ref ∧ table.Running state ref then 1 else 0) := by
  cases attempted : operation.attempted with
  | none => simpa using behaves.spared attempted tallied
  | some own =>
    obtain rfl := Operation.attempted_eq attempted
    cases found : table.row state own with
    | none =>
      have idle : ¬ (some own = some ref ∧ table.Running state ref) := by
        rintro ⟨same, run, present, _⟩
        rw [← Option.some.inj same, found] at present
        cases present
      rw [behaves.unknown rfl found, if_neg idle]
      exact tallied
    | some run =>
      have started : run.status ≠ .pending := calm own rfl run found
      rcases active_or_terminal run.status with active | terminal
      · have running : run.status = .running := active_running active started
        rw [(behaves.accepted rfl found active).2]
        by_cases same : ref = own
        · subst same
          rw [if_pos rfl, if_pos ⟨rfl, run, found, running⟩]
          rw [found] at tallied
          exact tallied.attempted running
        · rw [if_neg same, if_neg fun both => same (Option.some.inj both.1).symm]
          exact tallied
      · have idle : ¬ (some own = some ref ∧ table.Running state ref) := by
          rintro ⟨same, other, present, running⟩
          rw [← Option.some.inj same, found] at present
          cases present
          simp [running, terminalRunStatuses] at terminal
        rw [behaves.refused rfl found terminal, if_neg idle]
        exact tallied

/-- The tallies at the end of a script that counts no attempt of a pending run. -/
theorem BehavesAlong.tallied (behaves : table.BehavesAlong state script)
    (started : table.StartedScript state script) (tallied : Tallied (table.row state ref) count) :
    Tallied (table.row (table.after state script) ref)
      (count + table.attempts ref state script) := by
  induction script generalizing state count with
  | nil => exact tallied
  | cons entry rest ih =>
    have next := ih behaves.2 started.2 (behaves.1.tallied started.1 tallied)
    rw [Nat.add_assoc] at next
    exact next

/-- What an increment answers at a run that is not pending is what it should. -/
theorem Behaves.counts (behaves : table.Behaves ambient (.incrementRunAttempt ref) state)
    (calm : ∀ run ∈ table.row state ref, run.status ≠ .pending) :
    table.Counts ambient ref state := by
  unfold Counts
  cases found : table.row state ref with
  | none => exact behaves.unknown rfl found
  | some run =>
    simp only
    split
    · next running =>
      have active : run.Active := by simp [AgentRun.Active, running, activeRunStatuses]
      obtain ⟨answer, rows⟩ := behaves.accepted rfl found active
      exact ⟨answer, (rows ref).trans (if_pos rfl)⟩
    · next other =>
      refine behaves.refused rfl found ((active_or_terminal run.status).resolve_left ?_)
      exact fun active => other (active_running active (calm run found))

/-- A pending run betrays the increment: it is not refused. -/
theorem Behaves.started (behaves : table.Behaves ambient (.incrementRunAttempt ref) state)
    (counts : table.Counts ambient ref state) :
    ∀ run ∈ table.row state ref, run.status ≠ .pending := by
  intro run found pending
  have present : table.row state ref = some run := found
  have active : run.Active := by simp [AgentRun.Active, pending, activeRunStatuses]
  have answer := (behaves.accepted rfl present active).1
  simp only [Counts, present, pending, reduceCtorEq, if_false] at counts
  rw [counts] at answer
  cases answer

private theorem BehavesAlong.startedScript (behaves : table.BehavesAlong state script)
    (counts : ∀ {earlier ambient ref}, earlier ++ [(ambient, .incrementRunAttempt ref)] <+: script →
      table.Counts ambient ref (table.after state earlier)) :
    table.StartedScript state script := by
  induction script generalizing state with
  | nil => trivial
  | cons entry rest ih =>
    obtain ⟨ambient, operation⟩ := entry
    constructor
    · intro ref attempted
      obtain rfl := Operation.attempted_eq attempted
      have first : table.Counts ambient ref state :=
        @counts [] ambient ref (List.prefix_append [_] rest)
      exact behaves.1.started first
    · refine ih behaves.2 fun {earlier _ _} below => ?_
      exact @counts ((ambient, operation) :: earlier) _ _ (List.cons_prefix_cons.mpr ⟨rfl, below⟩)

/-- Attempts are counted on started runs along a script exactly if it counts no attempt of a
pending run. -/
theorem BehavesAlong.countsAttempts_iff (behaves : table.BehavesAlong start script)
    (blank : ∀ ref, table.row start ref = none) :
    table.CountsAttempts start script ↔ table.StartedScript start script := by
  constructor
  · exact fun counts => behaves.startedScript counts.answers
  · intro started
    have tallied : ∀ {earlier ref}, earlier <+: script →
        Tallied (table.row (table.after start earlier) ref)
          (table.attempts ref start earlier) := by
      rintro earlier ref ⟨later, rfl⟩
      have zero : Tallied (table.row start ref) 0 := blank ref ▸ .empty
      have calm := (startedScript_append.mp started).1
      have now := (behavesAlong_append.mp behaves).1.tallied calm zero
      rwa [Nat.zero_add] at now
    constructor
    · intro earlier ambient ref below
      obtain ⟨later, rfl⟩ := below
      rw [List.append_assoc] at behaves started
      have behaved := (behavesAlong_append.mp behaves).2.1
      exact behaved.counts ((startedScript_append.mp started).2.1 ref rfl)
    · exact fun below found attempted => (tallied below).started found (.inr attempted)
    · exact fun below found => (tallied below).counted found

theorem CountsAttempts.never_unstarted (counts : table.CountsAttempts start script)
    (ref : String) (attempt : Nat) : (table.row (table.after start script) ref).map
      (fun run => (run.attemptCount, run.startedAt)) ≠ some (attempt + 1, none) := by
  intro seen
  obtain ⟨run, found, columns⟩ := Option.map_eq_some_iff.mp seen
  obtain ⟨counted, unstarted⟩ := Prod.mk.inj columns
  have positive : 0 < run.attemptCount := by omega
  have started : run.startedAt.isSome := counts.started List.prefix_rfl found positive
  simp [unstarted] at started

end Scripts

end RunTable

/-- Effects that are no attempt. -/
def Effect.Uncounted : Effect → Prop
  | .attempted _ => False
  | _ => True

private theorem makes_uncounted (makes : Makes operation reply effects)
    (other : operation.attempted = none) : ∀ effect ∈ effects, effect.Uncounted := by
  intro effect member
  have origin := makes.origin member
  cases effect with
  | attempted =>
    subst origin
    cases other
  | _ => trivial

private theorem Edit.tallied (edit : Edit store effect after) (uncounted : effect.Uncounted)
    (tallied : Tallied (store.runs.get? ref) count) : Tallied (after.runs.get? ref) count := by
  have replaced : ∀ {run updated : AgentRun}, store.runs.get? run.id = some run →
      (Tallied (some run) count → Tallied (some updated) count) →
        Tallied ((store.runs.set run.id updated).get? ref) count := by
    intro run updated found spares
    rw [Dict.get?_set]
    split
    · next same =>
      rw [same, found] at tallied
      exact spares tallied
    · exact tallied
  cases edit with
  | ready | openSession | say | clear | emit | prune => exact tallied
  | attempt => exact uncounted.elim
  | reserve request sessionId ambient opened absent =>
    rw [show (withRun store (pendingRun request sessionId ambient)).runs =
      store.runs.set (ambient.uuid4 1) (pendingRun request sessionId ambient) from rfl,
      Dict.get?_set]
    split
    · next same =>
      rw [same, absent] at tallied
      exact tallied.reserved request sessionId ambient
    · exact tallied
  | move found read change => exact replaced found fun tallied => tallied.moved change
  | commit found running session own transcript read request ambient =>
    exact replaced found fun tallied => tallied.changed rfl id (by simp [completedRun])

private theorem edits_tallied (edits : Run Edit store effects after)
    (uncounted : ∀ effect ∈ effects, effect.Uncounted)
    (tallied : Tallied (store.runs.get? ref) count) : Tallied (after.runs.get? ref) count := by
  induction edits with
  | nil => exact tallied
  | snoc earlier edit ih =>
    obtain ⟨before, last⟩ := List.forall_mem_append.mp uncounted
    exact edit.tallied (last _ (List.mem_singleton_self _)) (ih before)

namespace InMemorySessionStore

variable {store : InMemorySessionStore}

def runTable : RunTable InMemorySessionStore where
  perform ambient operation store := operation.perform ambient store
  row store ref := store.runs.get? ref

private theorem perform_tallied (operation : Operation) (coherent : Coherent store)
    (fresh : ambient.Fresh store) (other : operation.attempted = none)
    (tallied : Tallied (store.runs.get? ref) count) :
    Tallied ((operation.perform ambient store).2.runs.get? ref) count := by
  obtain ⟨effects, edits, makes⟩ := operation.perform_refines coherent fresh rfl
  exact edits_tallied edits (makes_uncounted makes other) tallied

private theorem perform_behaves (operation : Operation) (coherent : Coherent store)
    (fresh : ambient.Fresh store) : runTable.Behaves ambient operation store where
  unknown {ref} same absent := by
    subst same
    have none : store.runs.get? ref = none := absent
    rcases incrementRunAttempt_cases store ref with
      ⟨_, answer⟩ | ⟨run, found, _⟩ | ⟨run, found, _⟩
    · simp only [runTable, Operation.perform, wrap_apply, answer, Except.map]
    · simp [none] at found
    · simp [none] at found
  refused {ref run} same present terminal := by
    subst same
    have found : store.runs.get? ref = some run := present
    rcases incrementRunAttempt_cases store ref with
      ⟨absent, _⟩ | ⟨other, own, _, answer⟩ | ⟨other, own, active, _⟩
    · simp [found] at absent
    · rw [found] at own
      cases own
      simp only [runTable, Operation.perform, wrap_apply, answer, Except.map]
    · rw [found] at own
      cases own
      exact ((not_active_iff_terminal _).mpr terminal active).elim
  accepted {ref run} same present active := by
    subst same
    have found : store.runs.get? ref = some run := present
    rcases incrementRunAttempt_cases store ref with
      ⟨absent, _⟩ | ⟨other, own, terminal, _⟩ | ⟨other, own, _, answer⟩
    · simp [found] at absent
    · rw [found] at own
      cases own
      exact ((not_active_iff_terminal _).mpr terminal active).elim
    · rw [found] at own
      cases own
      simp only [runTable, Operation.perform, wrap_apply, answer, Except.map]
      exact ⟨rfl, fun other => Dict.get?_set _ _ _ other⟩
  spared other tallied := perform_tallied operation coherent fresh other tallied

theorem script_behaves (coherent : Coherent store) (fresh : FreshScript store script) :
    runTable.BehavesAlong store script := by
  induction script generalizing store with
  | nil => trivial
  | cons entry rest ih =>
    obtain ⟨ambient, operation⟩ := entry
    have answers : Answers store ⟨ambient, operation, (operation.perform ambient store).1⟩
        (operation.perform ambient store).2 := ⟨fresh.1, rfl⟩
    exact ⟨perform_behaves operation coherent fresh.1, ih (answers.coherent coherent) fresh.2⟩

end InMemorySessionStore

end DayuAgent
