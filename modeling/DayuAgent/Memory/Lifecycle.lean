import Mathlib.Logic.Relation
import DayuAgent.Memory.Edit

namespace DayuAgent

open Library InMemorySessionStore

/-- A later record of the same run: it has followed the table of transitions, has lost no
attempt, and a terminal record is the same. -/
structure AgentRun.Progresses (run later : AgentRun) : Prop where
  id : later.id = run.id
  session : later.sessionId = run.sessionId
  key : later.idempotencyKey = run.idempotencyKey
  hash : later.requestHash = run.requestHash
  transitions : Relation.ReflTransGen
    (fun current target => target ∈ allowedRunTransitions current) run.status later.status
  attempts : run.attemptCount ≤ later.attemptCount
  final : run.Terminal → later = run

namespace AgentRun.Progresses

theorem refl (run : AgentRun) : run.Progresses run :=
  ⟨rfl, rfl, rfl, rfl, .refl, le_rfl, fun _ => rfl⟩

theorem trans (first : AgentRun.Progresses one two) (second : AgentRun.Progresses two three) :
    AgentRun.Progresses one three where
  id := second.id.trans first.id
  session := second.session.trans first.session
  key := second.key.trans first.key
  hash := second.hash.trans first.hash
  transitions := first.transitions.trans second.transitions
  attempts := first.attempts.trans second.attempts
  final terminal := by
    obtain rfl := first.final terminal
    exact second.final terminal

/-- One allowed step of an active run. -/
theorem step {run updated : AgentRun} (active : run.Active)
    (same : updated.id = run.id ∧ updated.sessionId = run.sessionId ∧
      updated.idempotencyKey = run.idempotencyKey ∧ updated.requestHash = run.requestHash)
    (allowed : updated.status = run.status ∨ updated.status ∈ allowedRunTransitions run.status)
    (attempts : run.attemptCount ≤ updated.attemptCount) : run.Progresses updated where
  id := same.1
  session := same.2.1
  key := same.2.2.1
  hash := same.2.2.2
  transitions := by
    rcases allowed with kept | moved
    · rw [kept]
    · exact .single moved
  attempts := attempts
  final terminal := ((not_active_iff_terminal _).mpr terminal active).elim

end AgentRun.Progresses

private theorem Move.attempts (move : Move run updated type payload) :
    updated.attemptCount = run.attemptCount := by
  cases move <;> rfl

section Edits

variable {store after : InMemorySessionStore}

private theorem progresses_set {former updated run : AgentRun}
    (found : store.runs.get? own = some former)
    (step : former.Progresses updated) (same : after.runs = store.runs.set own updated)
    (present : store.runs.get? ref = some run) :
    ∃ later, after.runs.get? ref = some later ∧ run.Progresses later := by
  rw [same]
  by_cases chosen : ref = own
  · subst chosen
    rw [found] at present
    cases present
    exact ⟨updated, Dict.get?_set_self _ _ _, step⟩
  · exact ⟨run, (Dict.get?_set_ne _ _ chosen).trans present, .refl run⟩

private theorem Edit.progresses (edit : Edit store effect after)
    (found : store.runs.get? ref = some run) :
    ∃ later, after.runs.get? ref = some later ∧ run.Progresses later := by
  cases edit with
  | ready | openSession | say | clear | emit | prune => exact ⟨run, found, .refl run⟩
  | reserve request sessionId ambient opened absent =>
    have different : ref ≠ ambient.uuid4 1 := by
      rintro rfl
      rw [absent] at found
      contradiction
    exact ⟨run, (Dict.get?_set_ne _ _ different).trans found, .refl run⟩
  | @attempt own present active =>
    have counted : own.Progresses { own with attemptCount := own.attemptCount + 1 } :=
      .step active ⟨rfl, rfl, rfl, rfl⟩ (.inl rfl) (Nat.le_succ _)
    exact progresses_set present counted rfl found
  | move present read change =>
    exact progresses_set present (.step change.active change.same (.inr change.allowed)
      change.attempts.ge) rfl found
  | @commit own record history log present running _ _ _ _ request ambient =>
    have active : own.Active := by simp [AgentRun.Active, running, activeRunStatuses]
    have allowed : RunStatus.completed ∈ allowedRunTransitions own.status := by
      simp [running, allowedRunTransitions]
    have settled : own.Progresses (completedRun own request (ambient.utcNow 2)) :=
      .step active ⟨rfl, rfl, rfl, rfl⟩ (.inr allowed) le_rfl
    exact progresses_set present settled rfl found

theorem edits_progress (edits : Run Edit store effects after)
    (found : store.runs.get? ref = some run) :
    ∃ later, after.runs.get? ref = some later ∧ run.Progresses later := by
  induction edits with
  | nil => exact ⟨run, found, .refl run⟩
  | snoc earlier edit ih =>
    obtain ⟨middle, present, advanced⟩ := ih
    obtain ⟨later, last, next⟩ := edit.progresses present
    exact ⟨later, last, advanced.trans next⟩

end Edits

end DayuAgent
