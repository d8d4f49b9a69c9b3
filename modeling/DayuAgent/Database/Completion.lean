import DayuAgent.Database.Deadlock

namespace DayuAgent

open Library SQLAlchemyRuntimeStore

namespace Txn

variable {Value Other : Type}

/-- What an answer to its next statement leaves of a transaction. -/
inductive Leaves : Txn Value → Txn Value → Prop where
  | lockSession : Leaves (next answer) (.lockSession ref next)
  | lockRun : Leaves (next answer) (.lockRun query next)
  | lockSkipping : Leaves (next runs) (.lockSkipping selected next)
  | readRun : Leaves (next answer) (.readRun lookup next)
  | readCount : Leaves (next count) (.readCount lookup next)
  | insertRun (run : AgentRun) : Leaves next (.insertRun run next)
  | write : Leaves next (.write change next)

private theorem leaves_wellFounded : WellFounded (@Leaves Value) := by
  refine ⟨fun transaction => ?_⟩
  induction transaction with
  | done result => exact ⟨_, fun _ leaves => nomatch leaves⟩
  | lockSession _ _ ih | lockRun _ _ ih | lockSkipping _ _ ih | readRun _ _ ih
  | readCount _ _ ih =>
    refine ⟨_, fun rest leaves => ?_⟩
    cases leaves
    exact ih _
  | insertRun _ _ ih | write _ _ ih =>
    refine ⟨_, fun rest leaves => ?_⟩
    cases leaves
    exact ih

theorem InsertsLast.leaves {rest transaction : Txn Value} (last : transaction.InsertsLast)
    (leaves : rest.Leaves transaction) : rest.InsertsLast := by
  cases leaves with
  | lockSession | lockRun | lockSkipping | readRun | readCount => exact last _
  | insertRun =>
    obtain ⟨result, rfl⟩ := last
    exact trivial
  | write => exact last

end Txn

section Termination

variable {Value : Type}

/-- What a step of a call makes of its activity. -/
inductive Activity.Shrinks : Activity Value → Activity Value → Prop where
  | rest (leaves : rest.Leaves transaction) : Shrinks (.running rest) (.running transaction)
  | ended : Shrinks (.finished result) (.running transaction)

private theorem shrinks_wellFounded : WellFounded (@Activity.Shrinks Value) := by
  have finished (result : Except PyException Value) :
      Acc Activity.Shrinks (Activity.finished result) := ⟨_, fun _ shrinks => nomatch shrinks⟩
  have running (transaction : Txn Value) :
      Acc Activity.Shrinks (Activity.running transaction) := by
    induction transaction using Txn.leaves_wellFounded.induction with
    | _ transaction ih =>
      refine ⟨_, fun other shrinks => ?_⟩
      cases shrinks with
      | rest leaves => exact ih _ leaves
      | ended => exact finished _
  refine ⟨fun activity => ?_⟩
  cases activity with
  | running transaction => exact running transaction
  | finished result => exact finished result

/-- What is left of a call: a recovery that it may still start, and its activity. -/
def Process.remainder (process : Process Value) : Nat × Activity Value :=
  (if process.recovery.isSome then 1 else 0, process.activity)

/-- A call with less left to do than another. -/
def Process.Shrinks (after before : Process Value) : Prop :=
  Prod.Lex (· < ·) Activity.Shrinks after.remainder before.remainder

private theorem process_wellFounded : WellFounded (@Process.Shrinks Value) :=
  InvImage.wf Process.remainder (WellFounded.prod_lex Nat.lt_wfRel.wf shrinks_wellFounded)

variable {before after : Cluster Value} {actor : Nat}

theorem Cluster.Continues.leaves
    (continues : before.Continues actor transaction rows flushed rest) :
    rest.Leaves transaction := by
  cases continues <;> constructor

/-- A call that ends its transaction has less left to do, whether it may recover or not. -/
theorem ended_shrinks {process ended : Process Value}
    (running : process.activity = .running transaction) (spent : ended.recovery = none)
    (recovers : ∀ next, ended.activity = .running next → process.recovery = some next) :
    ended.Shrinks process := by
  unfold Process.Shrinks Process.remainder
  rw [spent, running]
  cases recovery : process.recovery with
  | some next => exact .left _ _ Nat.zero_lt_one
  | none =>
    cases activity : ended.activity with
    | running next =>
      rw [recovers next activity] at recovery
      contradiction
    | finished result => exact .right _ .ended

theorem next_shrinks (taken : before.next actor = some after) :
    (after.processes actor).Shrinks (before.processes actor) ∧
      ∀ other, other ≠ actor → after.processes other = before.processes other := by
  cases activity : (before.processes actor).activity with
  | finished result => simp [Cluster.next, activity] at taken
  | running transaction =>
    cases next_moved taken with
    | proceeds active continues available =>
      refine ⟨?_, fun other different => Function.update_of_ne different _ _⟩
      simp only [Process.Shrinks, Process.remainder, Cluster.proceed, Function.update_self, active]
      exact .right _ (.rest continues.leaves)
    | commits active =>
      refine ⟨?_, fun other different => Function.update_of_ne different _ _⟩
      simp only [Cluster.commit, Cluster.release, Function.update_self]
      refine ended_shrinks activity rfl fun next running => ?_
      cases running
    | rolls blank recovers =>
      refine ⟨?_, fun other different => Function.update_of_ne different _ _⟩
      simp only [Cluster.release, Function.update_self]
      exact ended_shrinks activity blank.1 recovers

/-- However they are scheduled, finitely many calls take a bounded number of steps. -/
theorem calls_bounded (callers : Finset Nat) (cluster : Cluster Value) :
    ∃ bound, ∀ schedule after, Run Cluster.Steps cluster schedule after →
      (∀ caller ∈ schedule, caller ∈ callers) → schedule.length ≤ bound :=
  Run.bounded process_wellFounded next_shrinks callers cluster

end Termination

namespace Cluster

variable {cluster before after : Cluster Reply} {caller actor : Nat}

/-- The call has locked a row, or has inserted a run that it has not committed. -/
def Engaged (cluster : Cluster Reply) (caller : Nat) : Prop :=
  (∃ row, cluster.locks row = some caller) ∨ ∃ run, (caller, run) ∈ cluster.inserting

/-- The next statement of one call has to wait for another: for a row that the other has
locked, or for a conflicting run that it has inserted. -/
inductive Awaits (cluster : Cluster Reply) (one two : Nat) : Prop where
  | row (waits : cluster.waiting.WaitsFor one two)
  | insert (running : (cluster.processes one).activity = .running (.insertRun run rest))
    (entry : (two, other) ∈ cluster.inserting) (different : two ≠ one)
    (conflicts : Conflicts run other)

def Returned (cluster : Cluster Reply) (caller : Nat) : Prop :=
  ∃ result, (cluster.processes caller).activity = .finished result

theorem Awaits.engaged (awaits : cluster.Awaits one two) : cluster.Engaged two := by
  cases awaits with
  | row waits =>
    obtain ⟨row, _, held⟩ := waits
    exact .inl ⟨row, held⟩
  | insert running entry different conflicts => exact .inr ⟨_, entry⟩

private theorem acquireThen_none {row : Row} {rest : Txn Reply}
    (stuck : cluster.acquireThen caller row rest = none) :
    ∃ other, cluster.locks row = some other := by
  unfold acquireThen at stuck
  split at stuck
  · contradiction
  · next unavailable =>
    rw [Available, not_or] at unavailable
    exact Option.ne_none_iff_exists'.mp unavailable.1

/-- A call that has not returned can go on, or waits for another call. -/
theorem next_or_awaits (unreturned : ¬ cluster.Returned caller) :
    (∃ after, Steps cluster caller after) ∨ ∃ other, cluster.Awaits caller other := by
  refine (Option.eq_none_or_eq_some (cluster.next caller)).symm.imp id fun stuck => ?_
  cases activity : (cluster.processes caller).activity with
  | finished result => exact (unreturned ⟨result, activity⟩).elim
  | running transaction =>
    cases transaction with
    | done result => cases result <;> simp [next, activity] at stuck
    | lockSession ref rest =>
      rw [next_lockSession activity] at stuck
      split at stuck
      · contradiction
      · next record found =>
        obtain ⟨other, held⟩ := acquireThen_none stuck
        exact ⟨other, .row ⟨.session ref, by simp [waiting, wanted, activity, found], held⟩⟩
    | lockRun query rest =>
      rw [next_lockRun activity] at stuck
      split at stuck
      · contradiction
      · next run found =>
        obtain ⟨other, held⟩ := acquireThen_none stuck
        exact ⟨other, .row ⟨.run run.id, by simp [waiting, wanted, activity, found], held⟩⟩
    | insertRun run rest =>
      rw [next_insertRun activity, insertRun] at stuck
      split at stuck
      · contradiction
      · split at stuck
        · next blocked =>
          obtain ⟨⟨other, inserted⟩, entry, apart⟩ := List.any_eq_true.mp blocked
          obtain ⟨different, conflicts⟩ := of_decide_eq_true apart
          exact ⟨other, .insert activity entry different conflicts⟩
        · contradiction
    | lockSkipping | readRun | readCount | write => simp [next, activity] at stuck

/-- An inserted run is an old one, whose transaction has not just ended, or the statement
has inserted it. -/
theorem next_inserting (taken : before.next actor = some after)
    (entry : (caller, run) ∈ after.inserting) :
    ((caller, run) ∈ before.inserting ∧
      (caller = actor → ∀ result, (before.processes actor).activity ≠ .running (.done result))) ∨
    caller = actor ∧ ∃ rest, (before.processes actor).activity = .running (.insertRun run rest) ∧
      (after.processes actor).activity = .running rest := by
  have released (entry : (caller, run) ∈ before.inserting.filter fun entry => entry.1 ≠ actor) :
      (caller, run) ∈ before.inserting ∧ caller ≠ actor := by
    obtain ⟨old, foreign⟩ := List.mem_filter.mp entry
    exact ⟨old, of_decide_eq_true foreign⟩
  obtain ⟨transaction, activity, executed⟩ := next_executed taken
  rw [activity]
  cases executed with
  | commit | rollback =>
    obtain ⟨old, foreign⟩ := released entry
    exact .inl ⟨old, fun same => (foreign same).elim⟩
  | violated =>
    have old : (caller, run) ∈ before.inserting := by
      unfold violated at entry
      split at entry
      · exact (released entry).1
      · exact (released entry).1
    exact .inl ⟨old, fun _ _ => by simp⟩
  | insert =>
    rcases List.mem_cons.mp entry with new | old
    · cases new
      exact .inr ⟨rfl, _, rfl, by simp [update]⟩
    · exact .inl ⟨old, fun _ _ => by simp⟩
  | noSession | session | noRun | run | skipping | row | count | write =>
    exact .inl ⟨entry, fun _ _ => by simp⟩

/-- A call with an uncommitted insert is about to end, and one that has returned has given
up everything. -/
structure Poised (cluster : Cluster Reply) (caller : Nat) : Prop where
  running : (cluster.processes caller).activity = .running transaction → transaction.InsertsLast
  recovery : (cluster.processes caller).recovery = some transaction → transaction.InsertsLast
  inserted : (caller, run) ∈ cluster.inserting →
    ∃ result, (cluster.processes caller).activity = .running (.done result)
  locked : cluster.locks row = some caller → ¬ cluster.Returned caller

private theorem Poised.keep (poised : before.Poised caller) (taken : before.next actor = some after)
    (other : caller ≠ actor) : after.Poised caller := by
  have same := (next_shrinks taken).2 caller other
  refine ⟨?_, ?_, ?_, ?_⟩
  · rw [same]
    exact poised.running
  · rw [same]
    exact poised.recovery
  · intro run entry
    rw [same]
    rcases next_inserting taken entry with ⟨old, _⟩ | ⟨mine, _⟩
    · exact poised.inserted old
    · exact (other mine).elim
  · intro row held
    have before : before.locks row = some caller := by
      cases next_moved taken with
      | proceeds active continues available =>
        simp only [proceed] at held
        split at held
        · exact (other (Option.some.inj held).symm).elim
        · exact held
      | commits active | rolls blank recovers =>
        simp only [commit, release] at held
        split at held
        · contradiction
        · exact held
    rw [Returned, same]
    exact poised.locked before

private theorem Poised.moves (poised : before.Poised actor)
    (taken : before.next actor = some after) :
    after.Poised actor := by
  have ended {process : Process Reply} {database : Database} (spent : process.recovery = none)
      (recovers : ∀ transaction, process.activity = .running transaction →
        (before.processes actor).recovery = some transaction) :
      Poised { before.release actor process with database } actor := by
    have mine : (before.release actor process).processes actor = process :=
      Function.update_self ..
    refine ⟨?_, ?_, ?_, ?_⟩
    · intro transaction running
      simp only [mine] at running
      exact poised.recovery (recovers transaction running)
    · intro transaction recovery
      simp only [mine, spent] at recovery
      contradiction
    · intro run entry
      exact (of_decide_eq_true (List.mem_filter.mp entry).2 rfl).elim
    · intro row held
      simp only [release] at held
      split at held
      · contradiction
      · next foreign => exact (foreign held).elim
  cases next_moved taken with
  | @proceeds transaction rows flushed rest inserting active continues available =>
    have mine : ((before.proceed actor rows flushed rest inserting).processes actor).activity =
        .running rest := by simp [proceed]
    refine ⟨?_, ?_, ?_, ?_⟩
    · intro transaction running
      rw [mine] at running
      cases running
      exact (poised.running active).leaves continues.leaves
    · intro transaction recovery
      simp only [proceed, Function.update_self] at recovery
      exact poised.recovery recovery
    · intro run entry
      rcases next_inserting taken entry with ⟨old, unended⟩ | ⟨_, next, inserting, goes⟩
      · obtain ⟨result, done⟩ := poised.inserted old
        exact (unended rfl result done).elim
      · obtain ⟨result, rfl⟩ := poised.running inserting
        exact ⟨result, goes⟩
    · intro row held returned
      obtain ⟨result, finished⟩ := returned
      rw [mine] at finished
      contradiction
  | commits active =>
    refine ended rfl fun next running => ?_
    cases running
  | rolls blank recovers => exact ended blank.1 recovers

private theorem Poised.step (all : ∀ caller, before.Poised caller)
    (taken : Steps before actor after) :
    ∀ caller, after.Poised caller := by
  intro caller
  by_cases other : caller = actor
  · subst other
    exact (all caller).moves taken
  · exact (all caller).keep taken other

private theorem launch_poised (issued : Nat → IssuedCall) (database : Database) (caller : Nat) :
    (launch issued database).Poised caller where
  running running := by
    cases running
    exact LockingCall.transaction_insertsLast _ _
  recovery recovers := LockingCall.recovery_insertsLast recovers
  inserted entry := nomatch entry
  locked held := nomatch held

theorem run_poised {database : Database}
    (run : Run Steps (launch issued database) schedule cluster) (caller : Nat) :
    cluster.Poised caller :=
  run.invariant (launch_poised issued database) Poised.step caller

private theorem Engaged.earlier (engaged : after.Engaged caller)
    (taken : Steps before actor after) :
    caller = actor ∨ before.Engaged caller := by
  by_cases mine : caller = actor
  · exact .inl mine
  · right
    rcases engaged with ⟨row, held⟩ | ⟨run, entry⟩
    · refine .inl ⟨row, ?_⟩
      cases next_moved taken with
      | proceeds active continues available =>
        simp only [proceed] at held
        split at held
        · exact (mine (Option.some.inj held).symm).elim
        · exact held
      | commits active | rolls blank recovers =>
        simp only [commit, release] at held
        split at held
        · contradiction
        · exact held
    · rcases next_inserting taken entry with ⟨old, _⟩ | ⟨own, _⟩
      · exact .inr ⟨run, old⟩
      · exact (mine own).elim

/-- Only calls that have been scheduled hold anything. -/
theorem Engaged.scheduled {database : Database}
    (run : Run Steps (launch issued database) schedule cluster)
    (engaged : cluster.Engaged caller) : caller ∈ schedule := by
  induction run with
  | nil =>
    rcases engaged with ⟨row, held⟩ | ⟨run, entry⟩
    · cases held
    · cases entry
  | snoc earlier taken ih =>
    rcases engaged.earlier taken with rfl | before
    · exact List.mem_append_right _ List.mem_cons_self
    · exact List.mem_append_left _ (ih before)

private theorem Poised.unreturned (poised : cluster.Poised caller)
    (engaged : cluster.Engaged caller) :
    ¬ cluster.Returned caller := by
  rcases engaged with ⟨row, held⟩ | ⟨run, entry⟩
  · exact poised.locked held
  · obtain ⟨result, active⟩ := poised.inserted entry
    intro returned
    obtain ⟨ending, finished⟩ := returned
    rw [active] at finished
    contradiction

/-- Nobody waits behind an uncommitted insert in a ring: its transaction is about to end. -/
theorem Awaits.locked (awaits : cluster.Awaits one two) (poised : cluster.Poised two)
    (next : cluster.Awaits two three) : cluster.waiting.WaitsFor one two := by
  cases awaits with
  | row waits => exact waits
  | insert running entry different conflicts =>
    obtain ⟨result, active⟩ := poised.inserted entry
    cases next with
    | row waits =>
      obtain ⟨row, wants, _⟩ := waits
      simp [waiting, wanted, active] at wants
    | insert again =>
      rw [active] at again
      cases again

private theorem Awaits.chain (poised : ∀ caller, cluster.Poised caller)
    (chain : Relation.TransGen cluster.Awaits one two) (next : cluster.Awaits two three) :
    Relation.TransGen cluster.waiting.WaitsFor one two := by
  induction chain generalizing three with
  | single awaits => exact .single (awaits.locked (poised _) next)
  | tail _ awaits ih => exact .tail (ih awaits) (awaits.locked (poised _) next)

private theorem Awaits.ring (poised : ∀ caller, cluster.Poised caller)
    (ring : Relation.TransGen cluster.Awaits caller caller) : cluster.waiting.Ring caller := by
  obtain ⟨next, awaits, _⟩ := Relation.TransGen.head'_iff.mp ring
  exact Awaits.chain poised ring awaits

end Cluster

open Cluster

/-- Without a crossing, calls are never blocked for good: finitely many of them take a
bounded number of steps, and until a call has returned it can go on or waits, through
others, for a call that can. -/
theorem calls_return {callers : Finset Nat} {database : Database} {cluster : Cluster Reply}
    (run : Run (CarefulStep issued) (launch issued database) schedule cluster)
    (members : ∀ caller ∈ schedule, caller ∈ callers) :
    (∃ bound, ∀ more after, Run Steps cluster more after →
      (∀ caller ∈ more, caller ∈ callers) → more.length ≤ bound) ∧
    ∀ caller ∈ callers, cluster.Returned caller ∨
      ∃ ahead ∈ callers, Relation.ReflTransGen cluster.Awaits caller ahead ∧
        ∃ after, Steps cluster ahead after := by
  refine ⟨calls_bounded callers cluster, fun caller member => ?_⟩
  have steps : Run Steps (launch issued database) schedule cluster := run.mono And.left
  have poised := run_poised steps
  have acyclic : ∀ party, ¬ Relation.TransGen cluster.Awaits party party := by
    intro party ring
    have waits := Awaits.ring poised ring
    have inverted := Disciplined.inverted (run_disciplined steps) waits
    cases run with
    | nil =>
      obtain ⟨_, held⟩ := waits.holds
      cases held
    | snoc _ last => exact last.2 inverted
  have within : ∀ one two, cluster.Awaits one two → two ∈ callers := fun _ _ awaits =>
    members _ (awaits.engaged.scheduled steps)
  obtain ⟨ahead, chain, idle⟩ := waiting_ends within acyclic caller
  by_cases returned : cluster.Returned caller
  · exact .inl returned
  · right
    have unreturned : ahead ∈ callers ∧ ¬ cluster.Returned ahead := by
      rcases Relation.ReflTransGen.cases_tail chain with same | ⟨last, _, awaits⟩
      · rw [same]
        exact ⟨member, returned⟩
      · exact ⟨within _ _ awaits, (poised ahead).unreturned awaits.engaged⟩
    rcases next_or_awaits unreturned.2 with goes | ⟨other, awaits⟩
    · exact ⟨ahead, unreturned.1, chain, goes⟩
    · exact (idle other awaits).elim

/-- The second reservation waits for the session row of the first, which can go on. -/
theorem calls_return_replays : ∃ cluster,
    Run Steps (launch replays openSession) [1, 0, 0] cluster ∧
      cluster.wanted 1 = some (.session "lake") ∧ cluster.locks (.session "lake") = some 0 ∧
      ∃ ahead ∈ ({0, 1} : Finset Nat), Relation.ReflTransGen cluster.Awaits 1 ahead ∧
        ∃ after, Steps cluster ahead after := by
  obtain ⟨cluster, run, wants, held⟩ : ∃ cluster,
      Run Steps (launch replays openSession) [1, 0, 0] cluster ∧
        cluster.wanted 1 = some (.session "lake") ∧ cluster.locks (.session "lake") = some 0 :=
    follow_reaches (by decide)
  have careful : Run (CarefulStep replays) (launch replays openSession) [1, 0, 0] cluster :=
    run.mono fun taken => ⟨taken, fun ⟨_, _, _, _, _, crosses, _⟩ => crosses.commits⟩
  have members : ∀ caller ∈ [1, 0, 0], caller ∈ ({0, 1} : Finset Nat) := by simp
  obtain ⟨_, goes⟩ := calls_return careful members
  rcases goes 1 (by simp) with ⟨result, finished⟩ | ahead
  · simp [wanted, finished] at wants
  · exact ⟨cluster, run, wants, held, ahead⟩

end DayuAgent
