import DayuAgent.Database.Execution
import DayuAgent.Database.Statements

namespace DayuAgent

open Library SQLAlchemyRuntimeStore

namespace Txn

variable {Value Other : Type} {committed view : Database} {transaction : Txn Value}

/-- If the transaction gets to its commit, its answer and the rows that it then leaves are as
the postcondition says. -/
def Ensures (transaction : Txn Value) (committed view : Database)
    (post : Value → Database → Prop) : Prop :=
  ∀ value after, transaction.run committed view = .committed value after → post value after

theorem ensures_pure (holds : post value view) :
    (pure value : Txn Value).Ensures committed view post := by
  intro other after ran
  cases ran
  exact holds

theorem ensures_raise (error : PyException) :
    (raise error : Txn Value).Ensures committed view post := by
  intro value after ran
  cases ran

theorem ensures_lift (result : Except PyException Value) :
    (lift result).Ensures committed view fun value after => result = .ok value ∧ view = after := by
  cases result with
  | ok value => exact ensures_pure ⟨rfl, rfl⟩
  | error error => exact ensures_raise error

/-- A new row is written only where no committed one conflicts with it. -/
theorem ensures_insertRun {inserted : AgentRun}
    (next : (∀ other ∈ committed.runs.values, ¬ Conflicts inserted other) →
      transaction.Ensures committed (view.apply (.run inserted)) post) :
    (insertRun inserted transaction).Ensures committed view post := by
  intro value after ran
  simp only [Txn.run] at ran
  split at ran
  · cases ran
  · next free =>
    refine next (fun other member conflicts => free ?_) value after ran
    exact List.any_eq_true.mpr ⟨other, member, decide_eq_true conflicts⟩

theorem Ensures.mono (ensures : transaction.Ensures committed view post)
    (weakens : ∀ value after, post value after → wider value after) :
    transaction.Ensures committed view wider :=
  fun value after ran => weakens value after (ensures value after ran)

/-- What follows starts in the rows that the first part leaves. -/
theorem Ensures.bind {rest : Value → Txn Other}
    (first : transaction.Ensures committed view between)
    (later : ∀ value after, between value after → (rest value).Ensures committed after post) :
    (transaction >>= rest).Ensures committed view post := by
  intro value after ran
  rw [run_bind] at ran
  cases ends : transaction.run committed view with
  | committed middle reached =>
    rw [Ending.andThen_committed ends] at ran
    exact later middle reached (first middle reached ends) value after ran
  | failed error =>
    rw [Ending.andThen_failed ends] at ran
    cases ran
  | violated =>
    rw [ends] at ran
    cases ran

private theorem Ensures.written (next : transaction.Ensures committed (view.apply change) post) :
    (write change transaction).Ensures committed view post := next

theorem Ensures.flushed {rest : Unit → Txn Value}
    (next : (rest ()).Ensures committed (view.apply change) post) :
    (flush change >>= rest).Ensures committed view post := next

theorem Ensures.locked {rest : List AgentRun → Txn Value}
    (next : (rest (view.runs.values.filter selected)).Ensures committed view post) :
    (lockSkipping selected pure >>= rest).Ensures committed view post := next

/-- What every flushed row preserves still holds at the commit. -/
theorem Flushes.invariant {allowed : Change → Prop} {holds : Database → Prop}
    (flushes : transaction.Flushes allowed)
    (kept : ∀ change view, allowed change → holds view → holds (view.apply change))
    (start : holds view) : transaction.Ensures committed view fun _ after => holds after := by
  induction transaction generalizing view with
  | done result =>
    cases result with
    | ok value => exact ensures_pure start
    | error error => exact ensures_raise error
  | lockSession _ _ ih | lockRun _ _ ih | lockSkipping _ _ ih | readRun _ _ ih
  | readCount _ _ ih => exact ih _ (flushes.2 _) start
  | insertRun inserted next ih =>
    exact ensures_insertRun fun _ => ih flushes.2 (kept _ _ flushes.1 start)
  | write change next ih => exact Ensures.written (ih flushes.2 (kept _ _ flushes.1 start))

/-- A transaction that writes no row leaves what it found. -/
theorem Flushes.reads (flushes : transaction.Flushes fun _ => False) :
    transaction.Ensures committed view fun _ after => view = after :=
  flushes.invariant (fun _ _ none _ => none.elim) rfl

end Txn

namespace SQLAlchemyRuntimeStore

open Txn

variable {committed view : Database}

theorem lockedRun_ensures (ref : String) : (lockedRun ref).Ensures committed view
    fun run after => view.row ref = some run ∧ view = after := by
  intro run after ran
  cases found : view.runs.get? ref with
  | none =>
    rw [lockedRun_missing found] at ran
    cases ran
  | some own =>
    rw [lockedRun_found found] at ran
    cases ran
    exact ⟨found, rfl⟩

theorem publishRun_ensures (run : AgentRun) (type : StreamEventType) (payload : JsonObject)
    (id : String) (now : Time) : (publishRun run type payload id now).Ensures committed view
      fun _ after => after.runs = (view.apply (.run run)).runs := by
  intro answer after ran
  rw [publishRun_run] at ran
  cases ran
  rfl

end SQLAlchemyRuntimeStore

/-- What holds of the rows after a call, whether it commits, fails or is recovered. -/
theorem LockingCall.perform_ensures {kept : Database → Prop} (call : LockingCall)
    (ambient : Ambient)
    (ensures : (call.transaction ambient).Ensures database database fun _ after => kept after)
    (same : kept database) : kept (call.perform ambient database).2 := by
  cases ends : call.ending ambient database with
  | committed value after =>
    simp only [perform, ends]
    exact ensures value after ends
  | failed error =>
    simp only [perform, ends]
    exact same
  | violated =>
    cases recovers : call.recovery ambient with
    | none =>
      simp only [perform, ends, recovers]
      exact same
    | some recovered =>
      cases resolved : recovered.run database database with
      | committed value after =>
        obtain rfl := (recovery_flushes recovers).reads value after resolved
        simp only [perform, ends, recovers, resolved]
        exact same
      | failed | violated =>
        simp only [perform, ends, recovers, resolved]
        exact same

end DayuAgent
